/-!
# Words of the command line

The command line has switches, which stand by themselves, and options, which take a
value.  Both have a long name behind two hyphens, some a letter behind one, and only
`--eval` may be repeated.  At most one word is neither: the address of a server.
-/

namespace DocShell

/-- A word that switches something on. -/
inductive CommandLine.Switch where
  | readOnly
  | noColor
  | inMemory
  | verbose
  | veryVerbose
  deriving DecidableEq, Repr, Inhabited

/-- A word that takes a value. -/
inductive CommandLine.Setting where
  | database
  | configFile
  | command
  | format
  deriving DecidableEq, Repr, Inhabited

/-- A word with hyphens. -/
inductive CommandLine.Word where
  | switch (s : CommandLine.Switch)
  | setting (s : CommandLine.Setting)
  | help
  | version
  deriving DecidableEq, Repr, Inhabited

/-- Why a command line is not carried out. -/
inductive CommandLine.Refusal where
  /-- There is no such word, or a second address. -/
  | unknownArgument
  /-- A value is missing. -/
  | missingValue
  /-- A switch is given a value. -/
  | unneededValue
  /-- A word that may stand once stands twice. -/
  | repeated
  /-- Help is asked for. -/
  | help
  /-- The version is asked for. -/
  | version
  deriving DecidableEq, Repr, Inhabited

/-- What a command line says. -/
structure CommandLine where
  uri : Option String := none
  switches : List CommandLine.Switch := []
  database : Option String := none
  configFile : Option String := none
  /-- The commands to carry out, in order. -/
  commands : List String := []
  format : Option String := none
  deriving DecidableEq, Repr, Inhabited

namespace CommandLine

/-- The word is on the command line. -/
def has (line : CommandLine) (s : Switch) : Bool :=
  line.switches.contains s

/-- The word with a long name. -/
def Word.ofName? : String → Option Word
  | "read-only" => some (.switch .readOnly)
  | "no-color" => some (.switch .noColor)
  | "in-memory" => some (.switch .inMemory)
  | "verbose" => some (.switch .verbose)
  | "vv" => some (.switch .veryVerbose)
  | "database" => some (.setting .database)
  | "config" => some (.setting .configFile)
  | "eval" => some (.setting .command)
  | "format" => some (.setting .format)
  | "help" => some .help
  | "version" => some .version
  | _ => none

/-- The word with a letter. -/
def Word.ofLetter? : Char → Option Word
  | 'v' => some (.switch .verbose)
  | 'c' => some (.setting .configFile)
  | 'e' => some (.setting .command)
  | 'h' => some .help
  | 'V' => some .version
  | _ => none

/-- The line with one more switch, which must not be there yet. -/
def addSwitch (line : CommandLine) (s : Switch) : Except Refusal CommandLine :=
  if line.has s then .error .repeated else .ok { line with switches := line.switches ++ [s] }

/-- A value in a place that has none yet. -/
def fill (place : Option String) (value : String) : Except Refusal (Option String) :=
  if place.isSome then .error .repeated else .ok (some value)

/-- The line with the value of one more option; the path of a file is not empty. -/
def addSetting (line : CommandLine) (value : String) : Setting → Except Refusal CommandLine
  | .database => (fill line.database value).map fun database => { line with database }
  | .format => (fill line.format value).map fun format => { line with format }
  | .command => .ok { line with commands := line.commands ++ [value] }
  | .configFile =>
    match fill line.configFile value with
    | .error refusal => .error refusal
    | .ok configFile =>
      if value.isEmpty then .error .missingValue else .ok { line with configFile }

end CommandLine

end DocShell
