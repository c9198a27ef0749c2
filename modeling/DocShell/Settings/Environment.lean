import DocShell.Settings.Reader

/-!
# Settings from the environment

Four variables override what a file says.  They are applied in a fixed order, so that
of several bad values the first one counts.  `Settings.load` puts together defaults,
file and environment, and checks the outcome.
-/

namespace DocShell

/-- The values of environment variables. -/
abbrev Environment : Type :=
  String → Option String

/-- The files, by path: nothing where there is no file, and else the text in it, if it can be
read. -/
abbrev Files : Type :=
  String → Option (Option String)

namespace Settings

/-- The variables that say something about the settings. -/
def variableNames : List String :=
  ["MONGO_CONSOLE_URI", "MONGO_CONSOLE_DATABASE", "MONGO_CONSOLE_READ_ONLY",
   "MONGO_CONSOLE_LOG_LEVEL"]

/-- A word that stands for true or false; no word at all stands for false. -/
def readFlag (name value : String) : Except SettingsFailure Bool :=
  let word := String.ofList (Text.lowercase (Text.trim value.toList))
  if ["1", "true", "yes", "on"].contains word then .ok true
  else if ["0", "false", "no", "off", ""].contains word then .ok false
  else .error (.invalidValue name value)

/-- The variable for `connection.uri`. -/
def applyUri (environment : Environment) (settings : Settings) : Settings :=
  match environment "MONGO_CONSOLE_URI" with
  | some uri => { settings with connection := { settings.connection with uri } }
  | none => settings

/-- The variable for `console.default_database`; an empty value says nothing. -/
def applyDatabase (environment : Environment) (settings : Settings) : Settings :=
  match (environment "MONGO_CONSOLE_DATABASE").filter fun name => !name.isEmpty with
  | some name => { settings with console := { settings.console with defaultDatabase := some name } }
  | none => settings

/-- The variable for `console.read_only`. -/
def applyReadOnly (environment : Environment) (settings : Settings) :
    Except SettingsFailure Settings :=
  match environment "MONGO_CONSOLE_READ_ONLY" with
  | some value =>
    (readFlag "MONGO_CONSOLE_READ_ONLY" value).map fun readOnly =>
      { settings with console := { settings.console with readOnly } }
  | none => .ok settings

/-- The variable for `logging.level`. -/
def applyLevel (environment : Environment) (settings : Settings) :
    Except SettingsFailure Settings :=
  match environment "MONGO_CONSOLE_LOG_LEVEL" with
  | some value =>
    (LogLevel.read value).map fun level =>
      { settings with logging := { settings.logging with level } }
  | none => .ok settings

/-- The settings with what the environment overrides. -/
def applyEnvironment (environment : Environment) (settings : Settings) :
    Except SettingsFailure Settings :=
  match applyReadOnly environment (applyDatabase environment (applyUri environment settings)) with
  | .error failure => .error failure
  | .ok settings => applyLevel environment settings

/-- The settings in the file at a path, which must be there and readable. -/
def ofPath (files : Files) (path : String) : Except SettingsFailure Settings :=
  match (files path).join with
  | some text => ofText text
  | none => .error (.fileNotFound path)

/-- The settings in the file that is asked for, or else in the file at the usual place, if
there is one. -/
def ofFile (files : Files) (usual : String) : Option String → Except SettingsFailure Settings
  | some path => ofPath files path
  | none => if (files usual).isSome then ofPath files usual else .ok {}

/-- The settings that file and environment give. -/
def load (files : Files) (usual : String) (environment : Environment) (path : Option String) :
    Except SettingsFailure Settings :=
  match ofFile files usual path with
  | .error failure => .error failure
  | .ok settings =>
    match applyEnvironment environment settings with
    | .error failure => .error failure
    | .ok settings => settings.check.map fun _ => settings

end Settings

end DocShell
