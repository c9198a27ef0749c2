/-!
# Double-precision numbers

A double is an IEEE 754 binary64 number, given by its bit pattern.  Every
operation is defined on exact integers: a finite double `x` has the value
`x.scaled / 2 ^ 1074` with `x.scaled` an integer, and a result is the exact
rational number rounded once, to the nearest double, a tie going to the even
significand (`ofRatio`).

Two comparisons exist and differ.  `same` is numeric equality, in which the two
zeros are equal and a NaN differs from everything.  `order` is the total order
of bit patterns, in which `-0.0` comes before `0.0` and a positive NaN comes
after infinity.
-/

namespace DocShell

/-- An IEEE 754 binary64 number, as its bit pattern. -/
structure Double where
  bits : UInt64
  deriving DecidableEq, Repr, Inhabited

namespace Double

/-! ## Fields -/

/-- The bit pattern as a natural number. -/
def word (x : Double) : Nat :=
  x.bits.toNat

/-- The sign bit is set. -/
def isNegative (x : Double) : Bool :=
  decide (Nat.pow 2 63 ≤ x.word)

/-- The biased exponent. -/
def exponentField (x : Double) : Nat :=
  x.word / Nat.pow 2 52 % Nat.pow 2 11

/-- The stored bits of the significand. -/
def fraction (x : Double) : Nat :=
  x.word % Nat.pow 2 52

/-- Neither an infinity nor a NaN. -/
def isFinite (x : Double) : Bool :=
  x.exponentField != 2047

/-- Not a number. -/
def isNaN (x : Double) : Bool :=
  x.exponentField == 2047 && x.fraction != 0

/-- The significand as an integer, hidden bit included. -/
def significand (x : Double) : Nat :=
  if x.exponentField = 0 then x.fraction else Nat.pow 2 52 + x.fraction

/-- The power of two, counted from `2 ^ -1074`, that the significand carries. -/
def scale (x : Double) : Nat :=
  x.exponentField - 1

/-- The absolute value of a finite double, in units of `2 ^ -1074`. -/
def magnitude (x : Double) : Nat :=
  x.significand * Nat.pow 2 x.scale

/-- The value of a finite double, in units of `2 ^ -1074`. -/
def scaled (x : Double) : Int :=
  if x.isNegative then -(x.magnitude : Int) else x.magnitude

/-- A zero of either sign. -/
def isZero (x : Double) : Bool :=
  x.word % Nat.pow 2 63 == 0

/-! ## Construction -/

/-- The double with the given sign whose other 63 bits are `low`. -/
def ofParts (negative : Bool) (low : Nat) : Double :=
  ⟨UInt64.ofNat ((if negative then Nat.pow 2 63 else 0) + low)⟩

/-- Zero with the given sign. -/
def zero (negative : Bool) : Double :=
  ofParts negative 0

/-- Infinity with the given sign. -/
def infinity (negative : Bool) : Double :=
  ofParts negative (2047 * Nat.pow 2 52)

/-- The quiet NaN with the given sign. -/
def nan (negative : Bool) : Double :=
  ofParts negative (2047 * Nat.pow 2 52 + Nat.pow 2 51)

/-- The integer nearest to `a / b`, a tie going to the even one. -/
def roundHalfEven (a b : Nat) : Nat :=
  let q := a / b
  let r := a % b
  if 2 * r < b then q
  else if b < 2 * r then q + 1
  else if q % 2 = 0 then q
  else q + 1

/-- The double nearest to `num / den` with the given sign, a tie going to the
even significand; infinity from the midpoint above the largest finite double. -/
def ofRatio (negative : Bool) (num den : Nat) : Double :=
  let units := num * Nat.pow 2 1074
  let scale := Nat.log2 (units / den) - 52
  let low := scale * Nat.pow 2 52 + roundHalfEven units (den * Nat.pow 2 scale)
  if 2047 * Nat.pow 2 52 ≤ low then infinity negative else ofParts negative low

/-- The double nearest to an integer. -/
def ofInt (n : Int) : Double :=
  ofRatio (decide (n < 0)) n.natAbs 1

/-- The double nearest to `coefficient * 10 ^ exponent`.  Beyond `10 ^ 310` and
below `10 ^ -330` the answer does not need the power to be written out. -/
def ofDecimal (negative : Bool) (coefficient : Nat) (exponent : Int) : Double :=
  if coefficient = 0 then
    zero negative
  else
    let leading := (Nat.toDigits 10 coefficient).length + exponent
    if leading > 311 then
      infinity negative
    else if leading < -330 then
      zero negative
    else
      ofRatio negative (coefficient * Nat.pow 10 exponent.toNat) (Nat.pow 10 (-exponent).toNat)

/-! ## Arithmetic -/

/-- The sum, rounded once.  A sum of exactly zero is `0.0` unless both terms
are negative. -/
def add (x y : Double) : Double :=
  if x.isNaN then x
  else if y.isNaN then y
  else if !x.isFinite then
    if !y.isFinite && x.isNegative != y.isNegative then nan true else x
  else if !y.isFinite then y
  else
    let sum := x.scaled + y.scaled
    if sum = 0 then zero (x.isNegative && y.isNegative)
    else ofRatio (decide (sum < 0)) sum.natAbs (Nat.pow 2 1074)

/-- The product of two finite doubles, rounded once. -/
def mulFinite (x y : Double) : Double :=
  ofRatio (x.isNegative != y.isNegative) (x.magnitude * y.magnitude) (Nat.pow 2 2148)

/-- The quotient of two finite doubles, rounded once; the divisor is not zero. -/
def divFinite (x y : Double) : Double :=
  ofRatio (x.isNegative != y.isNegative) x.magnitude y.magnitude

/-- The same number with the other sign. -/
def negate (x : Double) : Double :=
  ofParts (!x.isNegative) (x.word % Nat.pow 2 63)

/-! ## Comparison -/

/-- Numeric equality: the zeros are equal, a NaN equals nothing. -/
def same (x y : Double) : Bool :=
  !x.isNaN && !y.isNaN && (x == y || (x.isZero && y.isZero))

/-- The place of a bit pattern in the total order. -/
def rank (x : Double) : Int :=
  if x.isNegative then -((x.word % Nat.pow 2 63 : Nat) : Int) - 1 else (x.word : Int)

/-- The total order of bit patterns: negative NaNs, `-∞`, the finite numbers
with `-0.0` before `0.0`, `∞`, positive NaNs. -/
def order (x y : Double) : Ordering :=
  compare x.rank y.rank

/-! ## Integers -/

/-- A finite number without a fractional part. -/
def isInteger (x : Double) : Bool :=
  x.isFinite && x.magnitude % Nat.pow 2 1074 == 0

/-- The least and greatest 64-bit integers bound what `truncate` gives. -/
def clampInt64 (n : Int) : Int64 :=
  if n < -9223372036854775808 then Int64.minValue
  else if 9223372036854775807 < n then Int64.maxValue
  else Int64.ofInt n

/-- The 64-bit integer toward zero; numbers out of range give the nearest bound
and a NaN gives zero. -/
def truncate (x : Double) : Int64 :=
  if x.isNaN then 0
  else if x.isFinite then clampInt64 (x.scaled.tdiv (Nat.pow 2 1074))
  else if x.isNegative then Int64.minValue
  else Int64.maxValue

end Double

end DocShell
