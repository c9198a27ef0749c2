import DocShell.Double.Basic

/-!
# The shortest decimal that reads back

Every real number strictly between the midpoints to a double's two neighbours
rounds to that double, and so do the midpoints themselves when the significand
is even.  Among the decimals in this interval `shortest` takes one with the
fewest digits, and of those the one nearest to the double.

For 1, 2, … 17 digits the two neighbours of the double on the decimal grid of
that many digits are tested in exact arithmetic.  If any point of a grid lies
in the interval, one of these two does, so the first grid with a hit decides.
-/

namespace DocShell.Double

/-- A positive rational number. -/
structure Ratio where
  num : Nat
  den : Nat

/-- The power `10 ^ e`. -/
def Ratio.tenTo (e : Int) : Ratio :=
  ⟨Nat.pow 10 e.toNat, Nat.pow 10 (-e).toNat⟩

/-- The greatest `e` with `10 ^ e ≤ n * 2 ^ -1076`, searched upward from `e`. -/
def decimalExponent (n : Nat) : Nat → Int → Int
  | 0, e => e
  | fuel + 1, e =>
    let next := Ratio.tenTo (e + 1)
    if next.num * Nat.pow 2 1076 ≤ n * next.den then decimalExponent n fuel (e + 1) else e

/-- The numbers that round to a double, in units of `2 ^ -1076`. -/
structure Interval where
  low : Nat
  centre : Nat
  high : Nat
  /-- The ends belong to the interval. -/
  closed : Bool

/-- The interval of a finite, non-zero double.  Below a power of two the
neighbour is half as far away. -/
def interval (x : Double) : Interval :=
  let unit := Nat.pow 2 x.scale
  let below := if x.significand = Nat.pow 2 52 ∧ 0 < x.scale then unit else 2 * unit
  let centre := 4 * x.magnitude
  { low := centre - below, centre, high := centre + 2 * unit, closed := x.significand % 2 == 0 }

namespace Interval

/-- `a` comes before `b`, or is equal to it where the ends count. -/
def before (i : Interval) (a b : Nat) : Bool :=
  if i.closed then decide (a ≤ b) else decide (a < b)

/-- The coefficient of the nearest point of the grid `10 ^ grid` that lies in
the interval, if one does. -/
def onGrid (i : Interval) (grid : Int) : Option Nat :=
  let ten := Ratio.tenTo grid
  let step := ten.num * Nat.pow 2 1076
  let target := i.centre * ten.den
  let down := target / step
  let up := down + 1
  let downFits := down != 0 && i.before (i.low * ten.den) (down * step)
  let upFits := i.before (up * step) (i.high * ten.den)
  match downFits, upFits with
  | true, true =>
    let toDown := target - down * step
    let toUp := up * step - target
    if toDown < toUp then some down
    else if toUp < toDown then some up
    else if down % 2 = 0 then some down
    else some up
  | true, false => some down
  | false, true => some up
  | false, false => none

/-- The first hit on the grids of `count`, `count + 1`, … digits, for a double
between `10 ^ leading` and `10 ^ (leading + 1)`. -/
def firstHit (i : Interval) (leading : Int) : Nat → Nat → Nat × Int
  | 0, count => (0, leading - count)
  | fuel + 1, count =>
    let grid := leading - count + 1
    match i.onGrid grid with
    | some coefficient => (coefficient, grid)
    | none => i.firstHit leading fuel (count + 1)

end Interval

/-- The coefficient without its trailing zeros, which go into the exponent. -/
def stripZeros : Nat → Nat → Int → Nat × Int
  | 0, coefficient, exponent => (coefficient, exponent)
  | fuel + 1, coefficient, exponent =>
    if coefficient % 10 = 0 then stripZeros fuel (coefficient / 10) (exponent + 1)
    else (coefficient, exponent)

/-- Coefficient and exponent of the shortest decimal that reads back to a
finite, non-zero double. -/
def shortest (x : Double) : Nat × Int :=
  let i := x.interval
  let binary : Int := Nat.log2 i.centre - 1076
  let leading := decimalExponent i.centre 4 (binary * 30103 / 100000 - 2)
  let (coefficient, exponent) := i.firstHit leading 18 1
  stripZeros 18 coefficient exponent

end DocShell.Double
