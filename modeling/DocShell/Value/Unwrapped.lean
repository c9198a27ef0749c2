import DocShell.Calendar.Reader
import DocShell.Text.Base64
import DocShell.Text.Pieces
import DocShell.Value.Form

/-!
# Documents that stand for other values

Where a server's reply is read, a document with a telling key, such as `$oid`, stands for
a value of another type, at any depth.  The fields are gone through in order and the
first telling key decides: its payload is the value, and the fields before and behind it
are dropped.  Code may be followed by its scope, or follow it.

`unwrap?` gives the value with all such documents replaced, and nothing if the payload of
a telling key does not suit it.
-/

namespace DocShell.Value

/-! ## Payloads -/

/-- A string. -/
def string? : Value → Option String
  | .string s => some s
  | _ => none

/-- The parts of a payload by name; an array gives them in the order of the names. -/
def parts? (names : List String) : Value → Option (Fields Value)
  | .document fields => some fields
  | .array items => some (names.zip items)
  | _ => none

/-- A part that is a string. -/
def stringPart? (parts : Fields Value) (name : String) : Option String :=
  (parts.get? name).bind string?

/-- A part that is an unsigned 32-bit integer. -/
def wordPart? (parts : Fields Value) (name : String) : Option UInt32 := do
  let n ← (← parts.get? name).toInt?
  if 0 ≤ n && n < 4294967296 then some (UInt32.ofNat n.toNat) else none

/-- The integer that the text of a payload denotes. -/
def integerText? (payload : Value) : Option Int :=
  payload.string?.bind fun s => Text.readInt64? s.toList

/-- An object id by its digits. -/
def readId? (payload : Value) : Option ObjectId :=
  payload.string?.bind fun s => ObjectId.read? s.toList

/-- A double by its name, or else an integer. -/
def namedDouble? (payload : Value) : Option Value :=
  match payload.string? with
  | some "Infinity" => some (.double (Double.infinity false))
  | some "-Infinity" => some (.double (Double.infinity true))
  | some "NaN" => some (.double (Double.nan false))
  | _ => (integerText? payload).map fun n => .int64 (Int64.ofInt n)

/-- Bytes in base 64 with their subtype. -/
def bytesPayload? (payload : Value) : Option Value := do
  let parts ← payload.parts? ["base64", "subType"]
  let bytes ← Text.Base64.decode? (← stringPart? parts "base64").toList
  match ← Text.hexBytes? (← stringPart? parts "subType").toList with
  | [subtype] => return .binary subtype bytes
  | _ => none

/-- A hyphen or brace among the digits of an identifier. -/
def isUuidMark (c : Char) : Bool :=
  ['-', '\x7b', '\x7d'].contains c

/-- The sixteen bytes of an identifier, whose digits may be parted by hyphens and stand
in braces. -/
def uuidPayload? (payload : Value) : Option Value := do
  let text := (← payload.string?).toList
  let bare := (Text.behind? "urn:uuid:".toList text).getD text
  let bytes ← Text.hexBytes? (bare.filter fun c => !isUuidMark c)
  if bytes.length = 16 then some (.binary 4 bytes) else none

/-- The two numbers of a timestamp. -/
def timestampPayload? (payload : Value) : Option Value := do
  let parts ← payload.parts? ["t", "i"]
  return .timestamp (← wordPart? parts "t") (← wordPart? parts "i")

/-- A pattern with its options, which are put in order. -/
def regexPayload? (payload : Value) : Option Value := do
  let parts ← payload.parts? ["pattern", "options"]
  return .regex (← stringPart? parts "pattern") (sortedText (← stringPart? parts "options"))

/-- An object id in a payload of its own. -/
def wrappedId? : Value → Option ObjectId
  | .objectId id => some id
  | payload => do readId? (← (← payload.parts? ["$oid"]).get? "$oid")

/-- The target and the id of a pointer. -/
def pointerPayload? (payload : Value) : Option Value := do
  let parts ← payload.parts? ["$ref", "$id"]
  return .dbPointer (← stringPart? parts "$ref") (← wrappedId? (← parts.get? "$id"))

/-- An instant: its text, its milliseconds, or those in a payload of their own. -/
def momentPayload? (payload : Value) : Option Value := do
  let millis ←
    match payload with
    | .string s => Calendar.offsetForm? s.toList
    | .int32 n => some n.toInt
    | .int64 n => some n.toInt
    | payload => do integerText? (← (← payload.parts? ["$numberLong"]).get? "$numberLong")
  return .dateTime (Int64.ofInt millis)

/-- A value that a mark stands for, if the payload is the number one. -/
def marked? (value payload : Value) : Option Value :=
  if payload.toInt? = some 1 then some value else none

/-- How the payload of a telling key is read; code and scopes are left out. -/
def payload? (key : String) : Option (Value → Option Value) :=
  match key with
  | "$oid" => some fun payload => (readId? payload).map .objectId
  | "$symbol" => some fun payload => payload.string?.map .symbol
  | "$numberInt" => some fun payload =>
    ((integerText? payload).filter Text.fitsInt32).map fun n => .int32 (Int32.ofInt n)
  | "$numberLong" => some fun payload =>
    (integerText? payload).map fun n => .int64 (Int64.ofInt n)
  | "$numberDouble" => some namedDouble?
  | "$numberDecimal" => some fun payload =>
    (payload.string?.bind fun s => Decimal128.read? s.toList).map .decimal128
  | "$binary" => some bytesPayload?
  | "$uuid" => some uuidPayload?
  | "$timestamp" => some timestampPayload?
  | "$regularExpression" => some regexPayload?
  | "$dbPointer" => some pointerPayload?
  | "$date" => some momentPayload?
  | "$minKey" => some (marked? .minKey)
  | "$maxKey" => some (marked? .maxKey)
  | "$undefined" => some fun payload =>
    match payload with
    | .boolean true => some .undefined
    | _ => none
  | _ => none

/-! ## Values -/

/-- Code with a scope, which has to be a document. -/
def scoped? (code : String) : Value → Option Value
  | .document scope => some (.javaScriptWithScope code scope)
  | _ => none

mutual

/-- The value with every document that stands for something replaced. -/
def unwrap? : Value → Option Value
  | .document fields => unwrapFields? fields
  | .array items => (unwrapItems? items).map .array
  | .javaScriptWithScope code scope => (unwrapFields? scope).bind (scoped? code)
  | value => some value

/-- The items, each with its documents replaced. -/
def unwrapItems? : List Value → Option (List Value)
  | [] => some []
  | item :: more =>
    match unwrap? item, unwrapItems? more with
    | some item, some more => some (item :: more)
    | _, _ => none

/-- What the fields of a document come to: a document again, or the value that it stands
for. -/
def unwrapFields? : List (String × Value) → Option Value
  | [] => some (.document [])
  | [("$code", .string code)] => some (.javaScript code)
  | ("$code", .string code) :: ("$scope", scope) :: _ => (unwrap? scope).bind (scoped? code)
  | ("$scope", scope) :: ("$code", .string code) :: _ => (unwrap? scope).bind (scoped? code)
  | (name, value) :: more =>
    if name = "$code" || name = "$scope" then none
    else match payload? name with
      | some read => read value
      | none =>
        match unwrap? value, unwrapFields? more with
        | some value, some (.document fields) => some (.document ((name, value) :: fields))
        | some _, standing => standing
        | none, _ => none

end

/-- The fields of a document with all inner documents replaced, if the document itself
stands for nothing else. -/
def unwrapDocument? (doc : Document) : Option Document :=
  (unwrapFields? doc).bind document?

end DocShell.Value
