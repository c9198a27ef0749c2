import DocShell.Failure.Basic
import DocShell.Text.Pieces

/-!
# Log levels

The name of a level is read without regard to case and to blanks around it, and
`warning` is another name for `warn`; a failure repeats the name as it was given.
-/

namespace DocShell

/-- How much is logged. -/
inductive LogLevel where
  | error
  | warn
  | info
  | debug
  | trace
  deriving DecidableEq, Repr, Inhabited

namespace LogLevel

/-- The levels, from the one that logs least. -/
def all : List LogLevel :=
  [error, warn, info, debug, trace]

/-- The name of a level. -/
def name : LogLevel → String
  | error => "error"
  | warn => "warn"
  | info => "info"
  | debug => "debug"
  | trace => "trace"

/-- The level with exactly this name. -/
def ofName? (text : String) : Option LogLevel :=
  all.find? fun level => level.name == text

/-- The level that a text names. -/
def read (text : String) : Except SettingsFailure LogLevel :=
  match String.ofList (Text.lowercase (Text.trim text.toList)) with
  | "error" => .ok error
  | "warn" | "warning" => .ok warn
  | "info" => .ok info
  | "debug" => .ok debug
  | "trace" => .ok trace
  | _ => .error (.invalidValue "logging.level" text)

end LogLevel

end DocShell
