import DocShell.Text.Blank

/-!
# Whole numbers as text

Numbers are written in decimal without leading zeros.  Reading an integer
allows an optional sign in front of at least one digit and nothing else.
-/

namespace DocShell.Text

/-- The decimal digits of a natural number. -/
def natDigits (n : Nat) : List Char :=
  Nat.toDigits 10 n

/-- The decimal text of an integer. -/
def intDigits (n : Int) : List Char :=
  if n < 0 then '-' :: natDigits n.natAbs else natDigits n.natAbs

/-- The decimal digits with zeros in front, at least `width` of them. -/
def padded (width n : Nat) : List Char :=
  (natDigits n).leftpad width '0'

/-- The number that decimal digits denote. -/
def natOfDigits (digits : List Char) : Nat :=
  Nat.ofDigitChars 10 digits 0

/-- The number that a text made of digits only denotes. -/
def readNat? (text : List Char) : Option Nat :=
  if text.isEmpty || !text.all Char.isDigit then none else some (natOfDigits text)

/-- The number that an optional sign and digits denote. -/
def readInt? : List Char → Option Int
  | '-' :: digits => (readNat? digits).map fun n => -(n : Int)
  | '+' :: digits => (readNat? digits).map Int.ofNat
  | digits => (readNat? digits).map Int.ofNat

/-- The integer is one of the signed 64-bit integers. -/
def fitsInt64 (n : Int) : Bool :=
  -9223372036854775808 ≤ n && n < 9223372036854775808

/-- The integer is one of the signed 32-bit integers. -/
def fitsInt32 (n : Int) : Bool :=
  -2147483648 ≤ n && n < 2147483648

theorem fitsInt64_iff {n : Int} :
    fitsInt64 n = true ↔ -9223372036854775808 ≤ n ∧ n < 9223372036854775808 := by
  simp [fitsInt64]

theorem fitsInt32_iff {n : Int} : fitsInt32 n = true ↔ -2147483648 ≤ n ∧ n < 2147483648 := by
  simp [fitsInt32]

theorem fitsInt64_toInt (i : Int64) : fitsInt64 i.toInt = true :=
  fitsInt64_iff.mpr ⟨i.le_toInt, i.toInt_lt⟩

theorem fitsInt32_toInt (i : Int32) : fitsInt32 i.toInt = true :=
  fitsInt32_iff.mpr ⟨i.le_toInt, i.toInt_lt⟩

/-- An integer that fits is kept. -/
theorem toInt_ofInt64 {n : Int} (hfits : fitsInt64 n = true) : (Int64.ofInt n).toInt = n := by
  obtain ⟨hlow, hhigh⟩ := fitsInt64_iff.mp hfits
  exact Int64.toInt_ofInt_of_le (by omega) (by omega)

theorem toInt_ofInt32 {n : Int} (hfits : fitsInt32 n = true) : (Int32.ofInt n).toInt = n := by
  obtain ⟨hlow, hhigh⟩ := fitsInt32_iff.mp hfits
  exact Int32.toInt_ofInt_of_le (by omega) (by omega)

/-- The signed 64-bit integer that a text denotes. -/
def readInt64? (text : List Char) : Option Int :=
  (readInt? text).filter fitsInt64

/-- The value of a hexadecimal digit. -/
def hexValue? (c : Char) : Option Nat :=
  if c.isDigit then some (c.toNat - '0'.toNat)
  else if 'a' ≤ c && c ≤ 'f' then some (c.toNat - 'a'.toNat + 10)
  else if 'A' ≤ c && c ≤ 'F' then some (c.toNat - 'A'.toNat + 10)
  else none

/-- A byte as two small hexadecimal digits. -/
def hexByte (b : UInt8) : List Char :=
  [Nat.digitChar (b.toNat / 16), Nat.digitChar (b.toNat % 16)]

/-- The bytes that pairs of hexadecimal digits denote. -/
def hexBytes? : List Char → Option (List UInt8)
  | [] => some []
  | [_] => none
  | a :: b :: rest => do
    let n := (← hexValue? a) * 16 + (← hexValue? b)
    return UInt8.ofNat n :: (← hexBytes? rest)

end DocShell.Text
