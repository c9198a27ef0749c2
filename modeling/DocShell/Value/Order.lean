import DocShell.Value.Basic

/-!
# The order of values

Numbers of all types are compared as doubles, in the total order of doubles.
Two strings, booleans, object ids or instants are compared as such.  All other
pairs are ordered by the rank of their types alone, so two documents, say, count
as equal here.
-/

namespace DocShell.Value

/-- The place of a value's type in the order of types. -/
def typeRank : Value → Nat
  | .minKey => 0
  | .null | .undefined => 1
  | .int32 _ | .int64 _ | .double _ | .decimal128 _ => 2
  | .string _ | .symbol _ => 3
  | .document _ => 4
  | .array _ => 5
  | .binary _ _ => 6
  | .objectId _ => 7
  | .boolean _ => 8
  | .dateTime _ => 9
  | .timestamp _ _ => 10
  | .regex _ _ => 11
  | .dbPointer _ _ => 12
  | .javaScript _ | .javaScriptWithScope _ _ => 13
  | .maxKey => 255

/-- The order of two values. -/
def order (a b : Value) : Ordering :=
  if a.isNumber && b.isNumber then
    a.toDouble.order b.toDouble
  else
    match a, b with
    | .string s, .string t => compare s t
    | .boolean x, .boolean y => compare x.toNat y.toNat
    | .objectId x, .objectId y => compare x.toNat y.toNat
    | .dateTime x, .dateTime y => compare x.toInt y.toInt
    | _, _ => compare a.typeRank b.typeRank

/-- The type of a value, for telling whether two values have the same one. -/
def typeTag : Value → Nat
  | .double _ => 0
  | .string _ => 1
  | .document _ => 2
  | .array _ => 3
  | .binary _ _ => 4
  | .undefined => 5
  | .objectId _ => 6
  | .boolean _ => 7
  | .dateTime _ => 8
  | .null => 9
  | .regex _ _ => 10
  | .dbPointer _ _ => 11
  | .javaScript _ => 12
  | .symbol _ => 13
  | .javaScriptWithScope _ _ => 14
  | .int32 _ => 15
  | .timestamp _ _ => 16
  | .int64 _ => 17
  | .decimal128 _ => 18
  | .minKey => 19
  | .maxKey => 20

/-- Two values that a range operator may compare: two numbers, or two values of
one type. -/
def comparable (a b : Value) : Bool :=
  (a.isNumber && b.isNumber) || a.typeTag == b.typeTag

/-- Equality as queries see it: numbers by their order, all else by content. -/
def matching (a b : Value) : Bool :=
  if a.isNumber && b.isNumber then a.order b == .eq else a.same b

end DocShell.Value
