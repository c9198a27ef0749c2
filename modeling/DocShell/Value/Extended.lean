import DocShell.Calendar.Reader
import DocShell.Failure.Parse
import DocShell.Json.Reader
import DocShell.Json.Writer
import DocShell.Value.Basic

/-!
# Values from JSON

JSON has no object ids, instants or sized numbers.  They are written as objects
with a telling key, and two readers exist.

`ofExtended` knows every telling key.  An object is a wrapper as soon as it has
one of them, whatever else it holds; with several, the first in the order
`$date`, `$oid`, `$numberInt`, `$numberLong`, `$numberDouble`, `$numberDecimal`
counts.

`ofLiteral` knows only objects that are exactly one `$oid` with a string; all
other objects are documents.

Numbers become the narrowest integer type that holds them, or doubles.
-/

namespace DocShell.Value

/-! ## Numbers and ids -/

/-- The value of a JSON number: the narrowest integer, or a double. -/
def ofNumber (n : Json.Number) : Value :=
  match n.toInt64? with
  | some i => ofInt i.toInt
  | none => .double n.toDouble

/-- The object id that a text denotes. -/
def readObjectId (text : String) : Except ParseFailure ObjectId :=
  match ObjectId.read? text.toList with
  | some id => .ok id
  | none => .error (.invalidObjectId text)

/-! ## Wrappers -/

/-- A payload that does not suit its key. -/
def badPayload {α : Type} (key : String) (payload : Json) : Except ParseFailure α :=
  .error (.invalidExtendedJson s!"invalid {key}: {payload.compact}")

/-- The 64-bit integer in a payload: a number, or its decimal text. -/
def integerPayload (key : String) (payload : Json) : Except ParseFailure Int64 :=
  match payload with
  | .string s =>
    match Text.readInt64? (Text.trim s.toList) with
    | some n => .ok (Int64.ofInt n)
    | none => badPayload key payload
  | .number n =>
    match n.toInt64? with
    | some i => .ok i
    | none => badPayload key payload
  | _ => badPayload key payload

/-- The double in a payload: a number, or its text. -/
def doublePayload (key : String) (payload : Json) : Except ParseFailure Double :=
  match payload with
  | .string s =>
    match Double.read? (Text.trim s.toList) with
    | some x => .ok x
    | none => badPayload key payload
  | .number n => .ok n.toDouble
  | _ => badPayload key payload

/-- The instant in a payload: a date text, a count of milliseconds, or such a
count in a `$numberLong` wrapper. -/
def instantPayload (payload : Json) : Except ParseFailure Int64 :=
  match payload with
  | .string s =>
    match Calendar.read? s.toList with
    | some millis => .ok (Int64.ofInt millis)
    | none => .error (.invalidExtendedJson s!"invalid $date: {s}")
  | .object members =>
    match Fields.get? members "$numberLong" with
    | some inner => integerPayload "$numberLong" inner
    | none => badPayload "$date" payload
  | .number n => .ok (n.toInt64?.getD n.toDouble.truncate)
  | _ => badPayload "$date" payload

/-- The object id in a payload. -/
def idPayload (payload : Json) : Except ParseFailure ObjectId :=
  match payload with
  | .string s => readObjectId s
  | other => .error (.invalidObjectId other.compact)

/-- The 32-bit integer in a payload. -/
def smallIntegerPayload (payload : Json) : Except ParseFailure Int32 := do
  let n ← integerPayload "$numberInt" payload
  if Text.fitsInt32 n.toInt then
    return Int32.ofInt n.toInt
  else
    throw (.invalidExtendedJson s!"$numberInt out of range: {n.toInt}")

/-- The value that an object wraps, or nothing when it has no telling key. -/
def ofWrapper (members : Fields Json) : Except ParseFailure (Option Value) :=
  match members.get? "$date" with
  | some payload => (instantPayload payload).map fun millis => some (.dateTime millis)
  | none =>
  match members.get? "$oid" with
  | some payload => (idPayload payload).map fun id => some (.objectId id)
  | none =>
  match members.get? "$numberInt" with
  | some payload => (smallIntegerPayload payload).map fun n => some (.int32 n)
  | none =>
  match members.get? "$numberLong" with
  | some payload => (integerPayload "$numberLong" payload).map fun n => some (.int64 n)
  | none =>
  match members.get? "$numberDouble" with
  | some payload => (doublePayload "$numberDouble" payload).map fun x => some (.double x)
  | none =>
  match members.get? "$numberDecimal" with
  | some payload => (doublePayload "$numberDecimal" payload).map fun x => some (.double x)
  | none => .ok none

/-! ## The two readers -/

mutual

/-- The value of a JSON value in which every wrapper counts. -/
def ofExtended : Json → Except ParseFailure Value
  | .null => .ok .null
  | .bool b => .ok (.boolean b)
  | .number n => .ok (ofNumber n)
  | .string s => .ok (.string s)
  | .array items => (ofExtendedItems items).map .array
  | .object members =>
    match ofWrapper members with
    | .error failure => .error failure
    | .ok (some value) => .ok value
    | .ok none => (ofExtendedMembers members).map .document

/-- The values of items; the first failure counts. -/
def ofExtendedItems : List Json → Except ParseFailure (List Value)
  | [] => .ok []
  | item :: more =>
    match ofExtended item with
    | .error failure => .error failure
    | .ok value => (ofExtendedItems more).map (value :: ·)

/-- The values of members; the first failure counts. -/
def ofExtendedMembers : List (String × Json) → Except ParseFailure (List (String × Value))
  | [] => .ok []
  | (key, member) :: more =>
    match ofExtended member with
    | .error failure => .error failure
    | .ok value => (ofExtendedMembers more).map ((key, value) :: ·)

end

mutual

/-- The value of a JSON value in which only `$oid` wrappers count. -/
def ofLiteral : Json → Except ParseFailure Value
  | .null => .ok .null
  | .bool b => .ok (.boolean b)
  | .number n => .ok (ofNumber n)
  | .string s => .ok (.string s)
  | .array items => (ofLiteralItems items).map .array
  | .object [("$oid", .string text)] => (readObjectId text).map .objectId
  | .object members => (ofLiteralMembers members).map .document

/-- The values of items; the first failure counts. -/
def ofLiteralItems : List Json → Except ParseFailure (List Value)
  | [] => .ok []
  | item :: more =>
    match ofLiteral item with
    | .error failure => .error failure
    | .ok value => (ofLiteralItems more).map (value :: ·)

/-- The values of members; the first failure counts. -/
def ofLiteralMembers : List (String × Json) → Except ParseFailure (List (String × Value))
  | [] => .ok []
  | (key, member) :: more =>
    match ofLiteral member with
    | .error failure => .error failure
    | .ok value => (ofLiteralMembers more).map ((key, value) :: ·)

end

/-! ## Documents from text -/

/-- The word for a type that `ofExtended` can give. -/
def typeName : Value → String
  | .double _ => "Double"
  | .string _ => "String"
  | .document _ => "EmbeddedDocument"
  | .array _ => "Array"
  | .binary _ _ => "Binary"
  | .undefined => "Undefined"
  | .objectId _ => "ObjectId"
  | .boolean _ => "Boolean"
  | .dateTime _ => "DateTime"
  | .null => "Null"
  | .regex _ _ => "RegularExpression"
  | .dbPointer _ _ => "DbPointer"
  | .javaScript _ => "JavaScriptCode"
  | .symbol _ => "Symbol"
  | .javaScriptWithScope _ _ => "JavaScriptCodeWithScope"
  | .int32 _ => "Int32"
  | .timestamp _ _ => "Timestamp"
  | .int64 _ => "Int64"
  | .decimal128 _ => "Decimal128"
  | .minKey => "MinKey"
  | .maxKey => "MaxKey"

/-- The document that an extended JSON text denotes. -/
def readDocument (text : List Char) : Except ParseFailure Document :=
  match Json.ofText text with
  | .error reason => .error (.invalidLiteral (String.ofList (Text.trim text)) reason)
  | .ok json =>
    match ofExtended json with
    | .error failure => .error failure
    | .ok (.document fields) => .ok fields
    | .ok other =>
      .error (.invalidExtendedJson s!"expected a document, found {other.typeName}")

end DocShell.Value
