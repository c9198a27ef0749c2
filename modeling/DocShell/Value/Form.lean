import DocShell.Json.Writer
import DocShell.Text.Base64
import DocShell.Value.Plain

/-!
# Values as extended JSON

Types that JSON lacks are written as objects with one telling key, such as `$oid`.
Numbers stay plain as long as they are finite.  What else can be said in two ways is
decided by an `ExtendedForm`.

* `ExtendedForm.relaxed` names numbers that are not finite, writes an instant in its
  ISO form from 1970 to 9999 and by its milliseconds otherwise, and all bytes in base 64.
* `ExtendedForm.report` is the form inside reports of failures: numbers that are not
  finite are null, every instant is given by its milliseconds, and bytes without a
  special meaning are a list of numbers.

`Value.idText` is the text of a document's id, which uses the relaxed form for ids that
are neither object ids, strings nor integers.
-/

namespace DocShell

/-- The decisions of one way to write extended JSON. -/
structure ExtendedForm where
  /-- The form of a double that is not finite. -/
  notFinite : Double → Json
  /-- What stands behind the key `$date`. -/
  instant : Int64 → Json
  /-- Bytes of the general subtype are a list of numbers. -/
  listsBytes : Bool

namespace Value

/-- An object with one member. -/
def wrap (key : String) (value : Json) : Json :=
  .object [(key, value)]

end Value

namespace ExtendedForm

/-- The name of a double that is not finite. -/
def nameNotFinite (x : Double) : Json :=
  let sign := if x.isNegative then "-" else ""
  Value.wrap "$numberDouble" (.string (sign ++ if x.isNaN then "NaN" else "Infinity"))

/-- The milliseconds of an instant. -/
def millis (instant : Int64) : Json :=
  Value.wrap "$numberLong" (.string (String.ofList (Text.intDigits instant.toInt)))

/-- The ISO form of an instant of the years 1970 to 9999, or its milliseconds. -/
def isoOrMillis (instant : Int64) : Json :=
  let n := instant.toInt
  if n < 0 then millis instant
  else match Calendar.isoText? n with
    | some text => .string text
    | none => millis instant

/-- The form for readers. -/
def relaxed : ExtendedForm :=
  { notFinite := nameNotFinite, instant := isoOrMillis, listsBytes := false }

/-- The form inside reports of failures. -/
def report : ExtendedForm :=
  { notFinite := fun _ => .null, instant := millis, listsBytes := true }

/-- The form of a double. -/
def double (form : ExtendedForm) (x : Double) : Json :=
  if x.isFinite then .number (.float x) else form.notFinite x

/-- The form of bytes. -/
def binary (form : ExtendedForm) (subtype : UInt8) (bytes : List UInt8) : Json :=
  if form.listsBytes && subtype == 0 then
    .array (bytes.map fun b => Json.ofNat b.toNat)
  else
    Value.wrap "$binary" (.object
      [("base64", .string (String.ofList (Text.Base64.encode bytes))),
       ("subType", .string (String.ofList (Text.hexByte subtype)))])

end ExtendedForm

namespace Value

/-- The characters of a text in ascending order. -/
def sortedText (s : String) : String :=
  String.ofList (s.toList.mergeSort fun a b => a ≤ b)

mutual

/-- The extended form of a value. -/
def toExtended (form : ExtendedForm) : Value → Json
  | .double x => form.double x
  | .string s => .string s
  | .document fields => .object (fieldsToExtended form fields)
  | .array items => .array (itemsToExtended form items)
  | .binary subtype bytes => form.binary subtype bytes
  | .undefined => wrap "$undefined" (.bool true)
  | .objectId id => wrap "$oid" (.string id.hex)
  | .boolean b => .bool b
  | .dateTime instant => wrap "$date" (form.instant instant)
  | .null => .null
  | .regex pattern options =>
    wrap "$regularExpression" (.object
      [("pattern", .string pattern), ("options", .string (sortedText options))])
  | .dbPointer target id =>
    wrap "$dbPointer" (.object
      [("$ref", .string target), ("$id", wrap "$oid" (.string id.hex))])
  | .javaScript code => wrap "$code" (.string code)
  | .symbol s => wrap "$symbol" (.string s)
  | .javaScriptWithScope code scope =>
    .object [("$code", .string code), ("$scope", .object (fieldsToExtended form scope))]
  | .int32 n => Json.ofInt n.toInt
  | .timestamp time increment =>
    wrap "$timestamp" (.object
      [("t", Json.ofNat time.toNat), ("i", Json.ofNat increment.toNat)])
  | .int64 n => Json.ofInt n.toInt
  | .decimal128 d => wrap "$numberDecimal" (.string d.text)
  | .minKey => wrap "$minKey" (Json.ofNat 1)
  | .maxKey => wrap "$maxKey" (Json.ofNat 1)

/-- The extended form of each item. -/
def itemsToExtended (form : ExtendedForm) : List Value → List Json
  | [] => []
  | item :: more => toExtended form item :: itemsToExtended form more

/-- The extended form of each field. -/
def fieldsToExtended (form : ExtendedForm) : List (String × Value) → List (String × Json)
  | [] => []
  | (name, value) :: more =>
    (name, toExtended form value) :: fieldsToExtended form more

end

/-- The relaxed extended form of a value. -/
def toRelaxed (value : Value) : Json :=
  value.toExtended .relaxed

/-- The text of a document's id. -/
def idText : Value → String
  | .objectId id => id.hex
  | .string s => s
  | .int32 n => String.ofList (Text.intDigits n.toInt)
  | .int64 n => String.ofList (Text.intDigits n.toInt)
  | value => value.toRelaxed.compact

end Value

end DocShell
