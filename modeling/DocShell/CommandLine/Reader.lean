import DocShell.CommandLine.Basic
import DocShell.Text.Pieces

/-!
# Reading the command line

Words are read from left to right.  An option takes its value from behind an equals
sign, from the rest of its word if it is a letter, or else from the next word, which
must not start with a hyphen.  Such a value only takes effect when the reading goes on
to something else, so a fault in between is noticed first.  Letters can share one
hyphen.  Behind `--` no word is an option.
-/

namespace DocShell.CommandLine

/-- An option whose value comes from words of its own, with the value if it has come. -/
structure Pending where
  setting : Setting
  value : Option String
  deriving DecidableEq, Repr, Inhabited

/-- What has been read so far. -/
structure Progress where
  line : CommandLine := {}
  pending : Option Pending := none
  /-- A word `--` has been read. -/
  escaped : Bool := false
  deriving DecidableEq, Repr, Inhabited

namespace Progress

/-- Lets the value of a pending option take effect. -/
def settle (progress : Progress) : Except Refusal Progress :=
  match progress.pending with
  | none => .ok progress
  | some { value := none, .. } => .error .missingValue
  | some { setting, value := some value } =>
    (progress.line.addSetting value setting).map fun line => { progress with line, pending := none }

/-- Lets a word take effect after what is pending. -/
def apply (progress : Progress) (change : CommandLine → Except Refusal CommandLine) :
    Except Refusal Progress :=
  match progress.settle with
  | .error refusal => .error refusal
  | .ok progress => (change progress.line).map fun line => { progress with line }

/-- An option with its value, or one that waits for it. -/
def readSetting (progress : Progress) (setting : Setting) : Option String → Except Refusal Progress
  | some value => progress.apply fun line => line.addSetting value setting
  | none => progress.settle.map fun progress => { progress with pending := some ⟨setting, none⟩ }

/-- A word with two hyphens, by name and by what stands behind an equals sign. -/
def readLong (progress : Progress) (name : String) (value : Option String) :
    Except Refusal Progress :=
  match Word.ofName? name with
  | none => .error .unknownArgument
  | some (.setting setting) => progress.readSetting setting value
  | some word =>
    if value.isSome then .error .unneededValue
    else
      progress.apply fun line =>
        match word with
        | .switch s => line.addSwitch s
        | .help => .error .help
        | _ => .error .version

/-- What stands behind the letter of an option in the same word. -/
def attached? : List Char → Option String
  | [] => none
  | '=' :: value => some (String.ofList value)
  | value => some (String.ofList value)

/-- Letters that share a hyphen. -/
def readLetters (progress : Progress) : List Char → Except Refusal Progress
  | [] => .ok progress
  | c :: more =>
    match Word.ofLetter? c with
    | none => .error .unknownArgument
    | some (.setting setting) => progress.readSetting setting (attached? more)
    | some (.switch s) =>
      match progress.apply fun line => line.addSwitch s with
      | .error refusal => .error refusal
      | .ok progress => progress.readLetters more
    | some .help => progress.apply fun _ => .error .help
    | some .version => progress.apply fun _ => .error .version

/-- A word without hyphens: the value of the option that waits for one, or the
address. -/
def readPlain (progress : Progress) (word : String) : Except Refusal Progress :=
  match progress.pending, progress.escaped with
  | some { setting, value := none }, false =>
    .ok { progress with pending := some ⟨setting, some word⟩ }
  | _, _ =>
    if progress.line.uri.isSome then .error .unknownArgument
    else progress.apply fun line => .ok { line with uri := some word }

/-- The name and the value of a word with two hyphens. -/
def splitLong (word : List Char) : String × Option String :=
  match Text.splitOnce? ['='] word with
  | some (name, value) => (String.ofList name, some (String.ofList value))
  | none => (String.ofList word, none)

/-- One word. -/
def readWord (progress : Progress) (word : String) : Except Refusal Progress :=
  if progress.escaped then progress.readPlain word
  else
    match word.toList with
    | ['-', '-'] => .ok { progress with escaped := true }
    | '-' :: '-' :: rest =>
      let (name, value) := splitLong rest
      progress.readLong name value
    | '-' :: c :: rest => progress.readLetters (c :: rest)
    | _ => progress.readPlain word

/-- All words. -/
def readWords (progress : Progress) : List String → Except Refusal Progress
  | [] => progress.settle
  | word :: more =>
    match progress.readWord word with
    | .error refusal => .error refusal
    | .ok progress => progress.readWords more

end Progress

/-- What the words of a command line say. -/
def read (words : List String) : Except Refusal CommandLine :=
  (Progress.readWords {} words).map Progress.line

end DocShell.CommandLine
