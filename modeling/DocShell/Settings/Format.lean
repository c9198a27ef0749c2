import DocShell.Failure.Basic
import DocShell.Text.Pieces

/-!
# Output formats

Output is JSON, either on one line or with one item on a line.  The name of a
format is read without regard to case and to blanks around it; a failure repeats
the name as it was given.
-/

namespace DocShell

/-- How JSON is laid out. -/
inductive OutputFormat where
  | json
  | jsonPretty
  deriving DecidableEq, Repr, Inhabited

namespace OutputFormat

/-- The name of a format. -/
def name : OutputFormat → String
  | json => "json"
  | jsonPretty => "json-pretty"

/-- The output has one item on a line. -/
def isPretty (format : OutputFormat) : Bool :=
  format == jsonPretty

/-- The format with exactly this name. -/
def ofName? (text : String) : Option OutputFormat :=
  [json, jsonPretty].find? fun format => format.name == text

/-- The format that a text names. -/
def read (text : String) : Except SettingsFailure OutputFormat :=
  match String.ofList (Text.lowercase (Text.trim text.toList)) with
  | "json" => .ok json
  | "json-pretty" | "jsonpretty" | "pretty" => .ok jsonPretty
  | _ => .error (.invalidValue "display.format" text)

/-- The text of a JSON value, where `indent` blanks stand for one level. -/
def render (format : OutputFormat) (indent : Nat) (value : Json) : String :=
  match format with
  | json => value.compact
  | jsonPretty => value.pretty indent

end OutputFormat

end DocShell
