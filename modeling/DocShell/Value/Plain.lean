import DocShell.Json.Basic
import DocShell.Value.Display

/-!
# Values as plain JSON

Results are shown as plain JSON.  Object ids become their digits, instants their
ISO form, decimals and regular expressions text, bytes hexadecimal digits; a
double that is not finite becomes null.  Values that JSON has no form for are
shown with their type.
-/

namespace DocShell.Value

mutual

/-- The plain JSON form of a value. -/
def toJson : Value → Json
  | .double x => Json.ofDouble x
  | .string s | .symbol s | .javaScript s => .string s
  | .document fields => .object (fieldsToJson fields)
  | .array items => .array (itemsToJson items)
  | .binary _ bytes => .string (String.ofList (bytes.flatMap Text.hexByte))
  | .undefined | .null => .null
  | .objectId id => .string id.hex
  | .boolean b => .bool b
  | .dateTime millis => .string (Calendar.isoText millis.toInt)
  | .regex pattern options => .string s!"/{pattern}/{options}"
  | .dbPointer target id => .string (detail (.dbPointer target id))
  | .javaScriptWithScope code scope => .string (detail (.javaScriptWithScope code scope))
  | .int32 n => Json.ofInt n.toInt
  | .timestamp time increment =>
    .object [("t", Json.ofNat time.toNat), ("i", Json.ofNat increment.toNat)]
  | .int64 n => Json.ofInt n.toInt
  | .decimal128 d => .string d.text
  | .minKey => .string "MinKey"
  | .maxKey => .string "MaxKey"

/-- The plain JSON form of each item. -/
def itemsToJson : List Value → List Json
  | [] => []
  | item :: more => toJson item :: itemsToJson more

/-- The plain JSON form of each field. -/
def fieldsToJson : List (String × Value) → List (String × Json)
  | [] => []
  | (name, value) :: more => (name, toJson value) :: fieldsToJson more

end

/-- The plain JSON form of a document. -/
def documentToJson (doc : Document) : Json :=
  .object (fieldsToJson doc)

end DocShell.Value
