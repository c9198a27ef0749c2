import DocShell.CommandLine.Reader
import DocShell.Ending
import DocShell.Settings.Environment
import DocShell.Settings.Uri

/-!
# Starting the console

What a run does is settled by the command line, the environment and a settings file.
The command line overrides the rest, but what file and environment give must hold by
itself as well.

Commands come from the command line, or else from the lines of the standard input.
Only the store in memory is at hand: a run that asks for a server fails when it
starts.
-/

namespace DocShell

/-- Where the settings file is looked for if none is named. -/
def Settings.usualPath (home : String) : String :=
  home ++ "/.mongo-console/config.toml"

/-- The settings with what the command line overrides. -/
def Settings.applyCommandLine (line : CommandLine) (settings : Settings) :
    Except SettingsFailure Settings :=
  let connection := { settings.connection with uri := line.uri.getD settings.connection.uri }
  let console :=
    { settings.console with readOnly := settings.console.readOnly || line.has .readOnly }
  let level :=
    if line.has .veryVerbose then .trace
    else if line.has .verbose then .debug
    else settings.logging.level
  let logging := { settings.logging with level }
  let colorOutput := settings.display.colorOutput && !line.has .noColor
  match line.format with
  | none => .ok { connection, console, logging, display := { settings.display with colorOutput } }
  | some text =>
    (OutputFormat.read text).map fun format =>
      { connection, console, logging, display := { format, colorOutput } }

/-- A command line with the settings that follow from it. -/
structure Launch where
  line : CommandLine := {}
  settings : Settings := {}
  deriving DecidableEq, Repr, Inhabited

namespace Launch

/-- The settings for a command line: those of file and environment, which must hold,
with what the command line overrides, which must hold again. -/
def prepare (files : Files) (usual : String) (environment : Environment) (line : CommandLine) :
    Except SettingsFailure Launch :=
  match Settings.load files usual environment line.configFile with
  | .error failure => .error failure
  | .ok loaded =>
    match loaded.applyCommandLine line with
    | .error failure => .error failure
    | .ok settings => settings.check.map fun _ => { line, settings }

/-- The database that is current for the first command: the one that the command line
names, or the settings, or the address of the server. -/
def initialDatabase (launch : Launch) : Option String :=
  (launch.line.database.or launch.settings.console.defaultDatabase).or
    (Uri.database? launch.settings.connection.uri)

/-- Why a server cannot be reached. -/
def serverFault (uri : String) : ServerFault :=
  match (Uri.hosts uri).find? fun host => (host.toList.takeWhile (· != ':')).isEmpty with
  | some host =>
    .invalidArgument s!"invalid server address {host}: the hostname cannot be empty"
  | none => .serverSelection "no server can be reached"

/-- The session that a run starts with. -/
def session (launch : Launch) (ids : ObjectId.Source) : Except Failure Session :=
  if launch.line.has .inMemory then
    .ok
      { store := { ids }
        readOnly := launch.settings.console.readOnly
        current := launch.initialDatabase }
  else
    .error (.store (.server (serverFault launch.settings.connection.uri)))

/-- What a run starts with, or how it ends before its commands. -/
def start (files : Files) (usual : String) (environment : Environment) (ids : ObjectId.Source)
    (words : List String) : Except Ending (Launch × Session) :=
  match CommandLine.read words with
  | .error refusal => .error (Ending.ofRefusal refusal)
  | .ok line =>
    match prepare files usual environment line with
    | .error failure => .error (Ending.ofFailure (.settings failure))
    | .ok launch =>
      match launch.session ids with
      | .error failure => .error (Ending.ofFailure failure)
      | .ok session => .ok (launch, session)

/-- Answers commands in order. -/
def answers (launch : Launch) (session : Session) (commands : List String) : List Answer :=
  (session.run commands).2.map (Answer.ofOutcome launch.settings.display.format)

/-- A whole run: its commands are those of the command line or, without any, the lines
of the input. -/
def run (files : Files) (usual : String) (environment : Environment) (ids : ObjectId.Source)
    (words : List String) (input : String) : Ending :=
  match start files usual environment ids words with
  | .error ending => ending
  | .ok (launch, session) =>
    let commands :=
      if launch.line.commands.isEmpty then Session.lines input else launch.line.commands
    Ending.ofAnswers (launch.answers session commands)

end Launch

end DocShell
