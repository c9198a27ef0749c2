import DocShell.Value.Basic

/-!
# The stored size of values

A document takes five bytes, and for each field one byte for the type, the bytes
of the name with a zero byte behind, and the bytes of the value.  An array is
stored as a document whose names are the positions of its items.  Bytes have their
length and subtype in front; the old form of plain bytes, subtype 2, has the length
once more.

Names and the two parts of a regular expression end at their first zero byte, so
they must hold none of their own: a document where one does has no stored form, and
counts for nothing.
-/

namespace DocShell.Value

/-- The bytes of the decimal text of a position. -/
def positionSize (n : Nat) : Nat :=
  (Nat.toDigits 10 n).length

/-- The bytes of a length-prefixed string with its zero byte. -/
def stringSize (s : String) : Nat :=
  5 + s.utf8ByteSize

mutual

/-- The bytes of a value, without type and name. -/
def size : Value → Nat
  | .double _ | .int64 _ | .dateTime _ | .timestamp _ _ => 8
  | .int32 _ => 4
  | .boolean _ => 1
  | .null | .undefined | .minKey | .maxKey => 0
  | .objectId _ => 12
  | .decimal128 _ => 16
  | .string s | .symbol s | .javaScript s => stringSize s
  | .binary subtype bytes => (if subtype = 2 then 9 else 5) + bytes.length
  | .regex pattern options => pattern.utf8ByteSize + options.utf8ByteSize + 2
  | .javaScriptWithScope code scope => 4 + stringSize code + (5 + fieldsSize scope)
  | .dbPointer target _ => stringSize target + 12
  | .document fields => 5 + fieldsSize fields
  | .array items => 5 + itemsSize 0 items

/-- The bytes of the items from `position` on. -/
def itemsSize (position : Nat) : List Value → Nat
  | [] => 0
  | item :: more => 2 + positionSize position + size item + itemsSize (position + 1) more

/-- The bytes of the fields. -/
def fieldsSize : List (String × Value) → Nat
  | [] => 0
  | (name, value) :: more => 2 + name.utf8ByteSize + size value + fieldsSize more

end

/-- The text can be stored with a zero byte as its end. -/
def isTerminable (s : String) : Bool :=
  s.toList.all fun c => c != '\x00'

mutual

/-- The value has a stored form. -/
def isStorable : Value → Bool
  | .regex pattern options => isTerminable pattern && isTerminable options
  | .javaScriptWithScope _ scope => fieldsStorable scope
  | .document fields => fieldsStorable fields
  | .array items => itemsStorable items
  | _ => true

/-- All items have a stored form. -/
def itemsStorable : List Value → Bool
  | [] => true
  | item :: more => isStorable item && itemsStorable more

/-- All fields have a stored form. -/
def fieldsStorable : List (String × Value) → Bool
  | [] => true
  | (name, value) :: more => isTerminable name && isStorable value && fieldsStorable more

end

/-- The bytes of a document. -/
def documentSize (doc : Document) : Nat :=
  if fieldsStorable doc then 5 + fieldsSize doc else 0

end DocShell.Value
