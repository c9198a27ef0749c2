import DocShell.Settings.Format
import DocShell.Settings.Level

/-!
# Settings

What can be set for a run of the console, with the values that hold when nothing is
said.  `Settings.check` tells whether settings can be worked with; the first rule
that they break counts.
-/

namespace DocShell

/-- How a server is reached. -/
structure ConnectionSettings where
  uri : String := "mongodb://localhost:27017"
  /-- Seconds to wait for a server. -/
  timeout : Nat := 30
  maxPoolSize : Nat := 10
  minPoolSize : Nat := 2
  /-- Seconds after which an unused connection is closed. -/
  idleTimeout : Nat := 300
  appName : String := "mongo-console"
  deriving DecidableEq, Repr, Inhabited

/-- What commands may do, and where they start. -/
structure ConsoleSettings where
  readOnly : Bool := false
  defaultDatabase : Option String := none
  deriving DecidableEq, Repr, Inhabited

/-- How results are shown. -/
structure DisplaySettings where
  format : OutputFormat := .jsonPretty
  colorOutput : Bool := true
  deriving DecidableEq, Repr, Inhabited

/-- What is logged. -/
structure LoggingSettings where
  level : LogLevel := .warn
  timestamps : Bool := true
  deriving DecidableEq, Repr, Inhabited

/-- All settings. -/
structure Settings where
  connection : ConnectionSettings := {}
  console : ConsoleSettings := {}
  display : DisplaySettings := {}
  logging : LoggingSettings := {}
  deriving DecidableEq, Repr, Inhabited

namespace Settings

/-- The schemes of the addresses that can be connected to. -/
def schemes : List String :=
  ["mongodb://", "mongodb+srv://"]

/-- The address has one of the schemes. -/
def checkUri (uri : String) : Except SettingsFailure Unit :=
  let bare := Text.trim uri.toList
  if schemes.any fun scheme => (Text.behind? scheme.toList bare).isSome then
    .ok ()
  else
    .error (.invalidValue "connection.uri" (String.ofList bare))

/-- The connection has a scheme that is known, some time to come about, and no more
connections at least than at most. -/
def check (settings : Settings) : Except SettingsFailure Unit :=
  let connection := settings.connection
  match checkUri connection.uri with
  | .error failure => .error failure
  | .ok _ =>
    if connection.timeout = 0 then
      .error (.invalidValue "connection.timeout" "0")
    else if connection.maxPoolSize < connection.minPoolSize then
      .error (.invalidValue "connection.min_pool_size"
        (String.ofList (Text.natDigits connection.minPoolSize)))
    else
      .ok ()

end Settings

end DocShell
