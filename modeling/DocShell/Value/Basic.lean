import DocShell.Decimal128
import DocShell.Double.Basic
import DocShell.Fields
import DocShell.ObjectId

/-!
# Stored values

A document is a list of named values in order.  `Value.same` is equality of
content: values of different types differ, documents are compared without regard
to the order of their fields, arrays with regard to the order of their items,
and doubles numerically.
-/

namespace DocShell

/-- A value that a document can hold. -/
inductive Value where
  | double (x : Double)
  | string (s : String)
  | document (fields : List (String × Value))
  | array (items : List Value)
  | binary (subtype : UInt8) (bytes : List UInt8)
  | undefined
  | objectId (id : ObjectId)
  | boolean (b : Bool)
  | dateTime (millis : Int64)
  | null
  | regex (pattern options : String)
  | dbPointer (target : String) (id : ObjectId)
  | javaScript (code : String)
  | symbol (s : String)
  | javaScriptWithScope (code : String) (scope : List (String × Value))
  | int32 (n : Int32)
  | timestamp (time increment : UInt32)
  | int64 (n : Int64)
  | decimal128 (d : Decimal128)
  | minKey
  | maxKey
  deriving Repr, Inhabited

/-- Named values in order. -/
abbrev Document : Type :=
  Fields Value

namespace Value

mutual

/-- Equality of type and content. -/
def same : Value → Value → Bool
  | .double x, .double y => x.same y
  | .string s, .string t => s == t
  | .document fields, .document other =>
    fields.length == other.length && sameFields fields other
  | .array items, .array other => sameItems items other
  | .binary subtype bytes, .binary subtype' bytes' => subtype == subtype' && bytes == bytes'
  | .undefined, .undefined => true
  | .objectId id, .objectId id' => id == id'
  | .boolean b, .boolean b' => b == b'
  | .dateTime millis, .dateTime millis' => millis == millis'
  | .null, .null => true
  | .regex pattern options, .regex pattern' options' =>
    pattern == pattern' && options == options'
  | .dbPointer target id, .dbPointer target' id' => target == target' && id == id'
  | .javaScript code, .javaScript code' => code == code'
  | .symbol s, .symbol t => s == t
  | .javaScriptWithScope code scope, .javaScriptWithScope code' scope' =>
    code == code' && scope.length == scope'.length && sameFields scope scope'
  | .int32 n, .int32 m => n == m
  | .timestamp time increment, .timestamp time' increment' =>
    time == time' && increment == increment'
  | .int64 n, .int64 m => n == m
  | .decimal128 d, .decimal128 d' => d == d'
  | .minKey, .minKey => true
  | .maxKey, .maxKey => true
  | _, _ => false

/-- Equality of items one by one. -/
def sameItems : List Value → List Value → Bool
  | [], [] => true
  | item :: more, item' :: more' => same item item' && sameItems more more'
  | _, _ => false

/-- Every field has an equal value in the other fields. -/
def sameFields : List (String × Value) → List (String × Value) → Bool
  | [], _ => true
  | (name, value) :: more, other =>
    (match Fields.get? other name with
      | some value' => same value value'
      | none => false) && sameFields more other

end

/-- The document in a value, if it is one. -/
def document? : Value → Option Document
  | .document fields => some fields
  | _ => none

/-- The value is a number of any type. -/
def isNumber : Value → Bool
  | .int32 _ | .int64 _ | .double _ | .decimal128 _ => true
  | _ => false

/-- The integer in a value, if it is a 32-bit or 64-bit integer. -/
def toInt? : Value → Option Int
  | .int32 n => some n.toInt
  | .int64 n => some n.toInt
  | _ => none

/-- The integer that a number stands for: an integer itself, or a double without a
fraction, cut off at the ends of the 64-bit integers. -/
def integer? : Value → Option Int
  | .int32 n => some n.toInt
  | .int64 n => some n.toInt
  | .double x => if x.isInteger then some x.truncate.toInt else none
  | _ => none

/-- The double nearest to a number; a NaN for everything else. -/
def toDouble : Value → Double
  | .int32 n => Double.ofInt n.toInt
  | .int64 n => Double.ofInt n.toInt
  | .double x => x
  | .decimal128 d => d.toDouble
  | _ => Double.nan false

/-- The integer value of the narrowest type that holds `n`. -/
def ofInt (n : Int) : Value :=
  if Text.fitsInt32 n then .int32 (Int32.ofInt n) else .int64 (Int64.ofInt n)

/-- Whether the value counts as true where a flag is expected. -/
def truthy : Value → Bool
  | .boolean b => b
  | .null => false
  | .int32 n => n != 0
  | .int64 n => n != 0
  | .double x => !x.isZero
  | _ => true

end Value

end DocShell
