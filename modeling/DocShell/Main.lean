import DocShell.Launch

/-!
# The program

Reads what the run depends on, starts it, and answers one command after the other.
-/

namespace DocShell

/-- The values of those variables that the settings know. -/
def readEnvironment : IO Environment := do
  let entries ← Settings.variableNames.mapM fun name => return (name, ← IO.getEnv name)
  return fun name => (entries.lookup name).join

/-- The file at a path: none if there is none, and no text if it cannot be read. -/
def readFile? (path : String) : IO (Option (Option String)) := do
  match ← (IO.FS.readFile path).toBaseIO with
  | .ok text => return some (some text)
  | .error (.noFileOrDirectory ..) => return none
  | .error _ => return some none

/-- The files at the given paths. -/
def readFiles (paths : List String) : IO Files := do
  let entries ← paths.mapM fun path => return (path, ← readFile? path)
  return fun path => (entries.lookup path).join

/-- Where fresh ids come from in this run. -/
def randomIds : IO ObjectId.Source := do
  let bytes ← IO.getRandomBytes 9
  return { stem := bytes.foldl (fun n b => n * 256 + b.toNat) 0 }

/-- Answers a command, and tells whether it went well. -/
def answer (format : OutputFormat) (session : Session) (line : String) : IO (Session × Bool) := do
  let (session, outcome) := session.step line
  let answer := Answer.ofOutcome format outcome
  if answer.isFailure then IO.eprintln answer.text else IO.println answer.text
  return (session, !answer.isFailure)

/-- Answers commands, and tells whether all of them went well. -/
def answerAll (format : OutputFormat) (session : Session) (well : Bool) :
    List String → IO (Session × Bool)
  | [] => return (session, well)
  | line :: more => do
    let (session, now) ← answer format session line
    answerAll format session (well && now) more

/-- Answers the lines of a stream until it ends. -/
partial def answerStream (format : OutputFormat) (session : Session) (well : Bool)
    (input : IO.FS.Stream) : IO Bool := do
  let line ← input.getLine
  if line.isEmpty then
    return well
  else
    let (session, well) ← answerAll format session well (Session.lines line)
    answerStream format session well input

/-- The whole program; the outcome is its exit code. -/
def program (words : List String) : IO UInt32 := do
  let usual := Settings.usualPath ((← IO.getEnv "HOME").getD ".")
  let named := ((CommandLine.read words).toOption.bind CommandLine.configFile).toList
  let files ← readFiles (usual :: named)
  match Launch.start files usual (← readEnvironment) (← randomIds) words with
  | .error ending =>
    IO.print ending.output
    IO.eprint ending.errors
    return ending.code.toUInt32
  | .ok (launch, session) =>
    let format := launch.settings.display.format
    let well ←
      if launch.line.commands.isEmpty then
        answerStream format session true (← IO.getStdin)
      else
        Prod.snd <$> answerAll format session true launch.line.commands
    return if well then 0 else 1

end DocShell

/-- Runs the console. -/
def main (words : List String) : IO UInt32 :=
  DocShell.program words
