import DocShell.Double.Text
import DocShell.Text.Numeral

/-!
# Decimal numbers

A decimal is a coefficient with an exponent of ten, infinity, or not a number, and is
stored in the 128 bits of the IEEE 754 format with a binary coefficient.  Trailing zeros
of the coefficient belong to the value, so `1.5` and `1.50` differ.

Reading never rounds.  A number whose digits or exponent do not fit is brought into the
range by moving zeros between the coefficient and the exponent, or else has no decimal.
-/

namespace DocShell

/-- A decimal floating-point number. -/
inductive Decimal128 where
  | finite (negative : Bool) (coefficient : Nat) (exponent : Int)
  | infinity (negative : Bool)
  | nan (negative signalling : Bool)
  deriving DecidableEq, Repr, Inhabited

namespace Decimal128

/-! ## The range -/

/-- The most digits of a coefficient. -/
def maxDigits : Nat :=
  34

/-- The least exponent. -/
def leastExponent : Int :=
  -6176

/-- The greatest exponent. -/
def greatestExponent : Int :=
  6111

/-! ## Text -/

/-- The digits without an exponent, for an exponent of at most zero. -/
def positionalText (digits : List Char) (exponent : Int) : List Char :=
  let places := (-exponent).toNat
  if places = 0 then
    digits
  else if digits.length ≤ places then
    '0' :: '.' :: digits.leftpad places '0'
  else
    digits.take (digits.length - places) ++ '.' :: digits.drop (digits.length - places)

/-- The digits with an exponent; the first one has the weight `10 ^ leading`. -/
def exponentText (digits : List Char) (leading : Int) : List Char :=
  let mantissa :=
    match digits with
    | [] => []
    | [d] => [d]
    | d :: more => d :: '.' :: more
  let sign := if leading < 0 then ['-'] else if 0 < leading then ['+'] else []
  mantissa ++ 'E' :: sign ++ Text.natDigits leading.natAbs

/-- The text of a decimal: plain when the exponent is at most zero and the first
digit is not further than six places behind the point. -/
def text : Decimal128 → String
  | .nan _ _ => "NaN"
  | .infinity negative => if negative then "-Infinity" else "Infinity"
  | .finite negative coefficient exponent =>
    let digits := Text.natDigits coefficient
    let leading := exponent + digits.length - 1
    let sign := if negative then ['-'] else []
    String.ofList <| sign ++
      if exponent ≤ 0 ∧ -6 ≤ leading then positionalText digits exponent
      else exponentText digits leading

/-- The double nearest to a decimal; not a number keeps no sign. -/
def toDouble : Decimal128 → Double
  | .nan _ _ => Double.nan false
  | .infinity negative => Double.infinity negative
  | .finite negative coefficient exponent => Double.ofDecimal negative coefficient exponent

/-! ## Bits -/

/-- The sign bit. -/
def signBit (negative : Bool) : Nat :=
  if negative then Nat.pow 2 127 else 0

/-- The 128 bits: the sign, the exponent counted from the least one, the coefficient.
Exponents that do not exist tell infinity and not a number. -/
def word : Decimal128 → Nat
  | .finite negative coefficient exponent =>
    signBit negative + (exponent - leastExponent).toNat * Nat.pow 2 113 + coefficient
  | .infinity negative => signBit negative + 30 * Nat.pow 2 122
  | .nan negative signalling =>
    signBit negative + 31 * Nat.pow 2 122 + if signalling then Nat.pow 2 121 else 0

/-- The last `count` bytes of a number, the last one first. -/
def lowBytes (count n : Nat) : List UInt8 :=
  match count with
  | 0 => []
  | count + 1 => UInt8.ofNat (n % 256) :: lowBytes count (n / 256)

theorem length_lowBytes (count n : Nat) : (lowBytes count n).length = count := by
  induction count generalizing n with
  | zero => rfl
  | succ count ih => simp [lowBytes, ih]

/-- The sixteen bytes in which a decimal is stored. -/
def bytes (d : Decimal128) : List UInt8 :=
  lowBytes 16 d.word

theorem length_bytes (d : Decimal128) : d.bytes.length = 16 :=
  length_lowBytes 16 d.word

/-! ## Reading -/

/-- The digits without the last `count`, which have to be zeros. -/
def cutZeros? (count : Nat) (digits : List Char) : Option (List Char) :=
  let kept := digits.length - count
  if (digits.drop kept).all (· == '0') then some (digits.take kept) else none

/-- Digits without leading zeros and their exponent, brought into the range.  Too many
digits and too small an exponent cost zeros at the end, too great an exponent adds
some. -/
def fit? (digits : List Char) (exponent : Int) : Option (List Char × Int) := do
  let excess := digits.length - maxDigits
  let digits ← cutZeros? excess digits
  let exponent := exponent + excess
  let lack := (leastExponent - exponent).toNat
  let digits ← cutZeros? lack digits
  let exponent := exponent + lack
  let surplus := (exponent - greatestExponent).toNat
  if digits.length + surplus ≤ maxDigits then
    some (digits ++ List.replicate surplus '0', exponent - surplus)
  else
    none

/-- The decimal with the given digits and exponent; a zero takes the nearest exponent
that exists. -/
def ofDigits? (negative : Bool) (digits : List Char) (exponent : Int) : Option Decimal128 :=
  match digits.dropWhile (· == '0') with
  | [] => some (.finite negative 0 (max leastExponent (min greatestExponent exponent)))
  | digits => do
    let (digits, exponent) ← fit? digits exponent
    return .finite negative (← Text.readNat? digits) exponent

/-- The exponent behind its letter. -/
def readExponent? (text : List Char) : Option Int :=
  (Text.readInt? text).filter fun n => -32768 ≤ n && n < 32768

/-- A finite decimal without its sign, in small letters. -/
def readFinite? (negative : Bool) (text : List Char) : Option Decimal128 := do
  let (digits, exponent) ←
    match Text.splitOnce? ['e'] text with
    | some (digits, exponent) => (readExponent? exponent).map fun n => (digits, n)
    | none => some (text, 0)
  match Text.splitOnce? ['.'] digits with
  | some (whole, fraction) =>
    ofDigits? negative (whole ++ fraction) (exponent - fraction.length)
  | none => ofDigits? negative digits exponent

/-- The decimal that a text denotes; letters of either case are the same. -/
def read? (text : List Char) : Option Decimal128 :=
  let (negative, rest) := Double.takeSign text
  let rest := Text.lowercase rest
  if rest == "nan".toList then some (.nan negative false)
  else if rest == "snan".toList then some (.nan negative true)
  else if rest == "infinity".toList || rest == "inf".toList then some (.infinity negative)
  else readFinite? negative rest

end Decimal128

end DocShell
