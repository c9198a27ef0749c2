import DocShell.Proofs.Double.Integers
import DocShell.Proofs.Value.Matching
import Mathlib.Algebra.Order.Field.Rat

/-!
# The number that a value stands for

A number has one value, whatever type it is written in, and queries compare the doubles nearest
to their numbers.  So they find two numbers equal in two ways: the numbers are equal
(`EqualNumber`), or they differ and have one nearest double (`RoundedTogether`).

* `matching_cases`: without such a rounding, what a filter takes for equal is the same value or
  another writing of the same number;
* `roundedTogether_iff_of_toInt?` and `not_roundedTogether_of_isExact`: integers are rounded
  together if `Double.nearest` does not tell them apart, and exact numbers never are.
-/

namespace DocShell

/-- A number as such. -/
inductive Quantity where
  | finite (value : ℚ)
  | infinite (negative : Bool)
  deriving DecidableEq, Repr

/-- The number that a double stands for; a NaN stands for none. -/
def Double.quantity? (x : Double) : Option Quantity :=
  if x.isNaN then none
  else if x.isFinite then some (.finite (x.scaled / 2 ^ 1074))
  else some (.infinite x.isNegative)

/-- The number that a decimal stands for; a NaN stands for none. -/
def Decimal128.quantity? : Decimal128 → Option Quantity
  | .nan _ _ => none
  | .infinity negative => some (.infinite negative)
  | .finite negative coefficient exponent =>
    some (.finite ((if negative then -1 else 1) * coefficient * 10 ^ exponent))

namespace Value

/-- The number that a value stands for, if it is one. -/
def quantity? : Value → Option Quantity
  | .int32 n => some (.finite n.toInt)
  | .int64 n => some (.finite n.toInt)
  | .double x => x.quantity?
  | .decimal128 d => d.quantity?
  | _ => none

/-- A double or a decimal that is not a number. -/
def isNaN : Value → Bool
  | .double x => x.isNaN
  | .decimal128 (.nan _ _) => true
  | _ => false

/-- The values stand for one number. -/
def EqualNumber (a b : Value) : Prop :=
  ∃ q, a.quantity? = some q ∧ b.quantity? = some q

/-- The values are equal numbers of different types, or decimals that differ in their digits
only. -/
def IsOtherWriting (a b : Value) : Prop :=
  a.EqualNumber b ∧
    (a.typeTag = b.typeTag → ∃ d d', d ≠ d' ∧ a = .decimal128 d ∧ b = .decimal128 d')

/-- The values stand for different numbers, and these have one nearest double. -/
def RoundedTogether (a b : Value) : Prop :=
  (∃ p q, a.quantity? = some p ∧ b.quantity? = some q ∧ p ≠ q) ∧ a.toDouble = b.toDouble

/-- The value is the number that its nearest double stands for, or no number at all. -/
def IsExact (a : Value) : Prop :=
  a.toDouble.quantity? = a.quantity?

end Value

/-! ### Numbers and what is none -/

namespace Double

theorem isNaN_ofParts {negative : Bool} {bits : Nat} (hbits : bits ≤ 2047 * Nat.pow 2 52) :
    (ofParts negative bits).isNaN = false := by
  have hlow : (ofParts negative bits).low = bits :=
    (ofParts_fields (Nat.lt_of_le_of_lt hbits (by decide))).2
  unfold isNaN
  rw [exponentField_eq, fraction_eq, hlow]
  simp only [two_pow_fields] at hbits ⊢
  rw [Bool.and_eq_false_iff, beq_eq_false_iff_ne, bne_eq_false_iff_eq]
  omega

theorem isNaN_ofRatio (negative : Bool) (num den : Nat) :
    (ofRatio negative num den).isNaN = false := by
  unfold ofRatio
  dsimp only
  split
  · exact isNaN_ofParts (Nat.le_refl _)
  · next hlow => exact isNaN_ofParts (Nat.le_of_not_le hlow)

theorem isNaN_ofDecimal (negative : Bool) (coefficient : Nat) (exponent : Int) :
    (ofDecimal negative coefficient exponent).isNaN = false := by
  unfold ofDecimal
  dsimp only
  split
  · exact isNaN_ofParts (Nat.zero_le _)
  · split
    · exact isNaN_ofParts (Nat.le_refl _)
    · split
      · exact isNaN_ofParts (Nat.zero_le _)
      · exact isNaN_ofRatio ..

end Double

namespace Value

variable {a b : Value} {n m : Int}

theorem isNaN_toDouble (hnumber : a.isNumber = true) : a.toDouble.isNaN = a.isNaN := by
  cases a with
  | int32 n | int64 n => exact Double.isNaN_ofRatio ..
  | double x => rfl
  | decimal128 d =>
      cases d with
      | nan negative signalling => exact (by decide : (Double.nan false).isNaN = true)
      | infinity negative => exact Double.isNaN_ofParts (Nat.le_refl _)
      | finite negative coefficient exponent => exact Double.isNaN_ofDecimal ..
  | _ => cases hnumber

theorem exists_quantity (hnumber : a.isNumber = true) (hnan : a.isNaN = false) :
    ∃ q, a.quantity? = some q := by
  cases a with
  | int32 n | int64 n => exact ⟨_, rfl⟩
  | double x =>
      have hx : x.isNaN = false := hnan
      simp only [quantity?, Double.quantity?, hx]
      cases x.isFinite <;> exact ⟨_, rfl⟩
  | decimal128 d =>
      cases d with
      | nan negative signalling => cases hnan
      | infinity negative | finite negative coefficient exponent => exact ⟨_, rfl⟩
  | _ => cases hnumber

/-! ### Integers -/

theorem double_of_toInt? (ha : a.toInt? = some n) :
    a.isNumber = true ∧ a.toDouble = Double.ofInt n ∧ n.natAbs < Nat.pow 2 64 := by
  have hpow : Nat.pow 2 64 = 18446744073709551616 := rfl
  cases a with
  | int32 k | int64 k =>
      cases ha
      have hge := k.le_toInt
      have hlt := k.toInt_lt
      exact ⟨rfl, rfl, by omega⟩
  | _ => cases ha

theorem quantity?_of_toInt? (ha : a.toInt? = some n) : a.quantity? = some (.finite n) := by
  cases a with
  | int32 k | int64 k =>
      cases ha
      rfl
  | _ => cases ha

theorem equalNumber_iff_of_toInt? (ha : a.toInt? = some n) (hb : b.toInt? = some m) :
    a.EqualNumber b ↔ n = m := by
  rw [EqualNumber, quantity?_of_toInt? ha, quantity?_of_toInt? hb]
  constructor
  · rintro ⟨q, hq, hq'⟩
    exact Rat.intCast_inj.mp (Quantity.finite.inj (Option.some.inj (hq.trans hq'.symm)))
  · rintro rfl
    exact ⟨_, rfl, rfl⟩

/-- Integers are rounded together if they differ and their nearest doubles do not. -/
theorem roundedTogether_iff_of_toInt? (ha : a.toInt? = some n) (hb : b.toInt? = some m) :
    a.RoundedTogether b ↔ n ≠ m ∧ Double.nearest n = Double.nearest m := by
  obtain ⟨-, hdouble, hn⟩ := double_of_toInt? ha
  obtain ⟨-, hdouble', hm⟩ := double_of_toInt? hb
  have hnearest : a.toDouble = b.toDouble ↔ Double.nearest n = Double.nearest m := by
    rw [hdouble, hdouble', ← Double.rank_inj, ← Int.compare_eq_eq, ← Int.compare_eq_eq,
      ← Double.order_ofInt hn hm, Double.order]
  rw [RoundedTogether, hnearest, quantity?_of_toInt? ha, quantity?_of_toInt? hb]
  refine and_congr_left fun _ => ⟨?_, ?_⟩
  · rintro ⟨p, q, ⟨⟩, ⟨⟩, hne⟩ rfl
    exact hne rfl
  · intro hne
    refine ⟨_, _, rfl, rfl, ?_⟩
    intro heq
    exact hne (Rat.intCast_inj.mp (Quantity.finite.inj heq))

/-! ### What a filter takes for equal -/

/-- Equal numbers of one type are the same value, decimals apart. -/
theorem same_or_decimals (htag : a.typeTag = b.typeTag) (hnan : b.isNaN = false)
    (hequal : a.EqualNumber b) (hdouble : a.toDouble = b.toDouble) :
    a.same b = true ∨ ∃ d d', d ≠ d' ∧ a = .decimal128 d ∧ b = .decimal128 d' := by
  cases b with
  | int32 m =>
      obtain ⟨n, rfl⟩ : ∃ n, a = .int32 n := by cases a <;> simp [typeTag] at htag ⊢
      have heq : n = m := Int32.toInt_inj.mp ((equalNumber_iff_of_toInt? rfl rfl).mp hequal)
      exact Or.inl (by simp [same, heq])
  | int64 m =>
      obtain ⟨n, rfl⟩ : ∃ n, a = .int64 n := by cases a <;> simp [typeTag] at htag ⊢
      have heq : n = m := Int64.toInt_inj.mp ((equalNumber_iff_of_toInt? rfl rfl).mp hequal)
      exact Or.inl (by simp [same, heq])
  | double y =>
      obtain ⟨x, rfl⟩ : ∃ x, a = .double x := by cases a <;> simp [typeTag] at htag ⊢
      have heq : x = y := hdouble
      have hy : y.isNaN = false := hnan
      exact Or.inl (by simp [same, Double.same, heq, hy])
  | decimal128 d' =>
      obtain ⟨d, rfl⟩ : ∃ d, a = .decimal128 d := by cases a <;> simp [typeTag] at htag ⊢
      by_cases heq : d = d'
      · exact Or.inl (by simp [same, heq])
      · exact Or.inr ⟨d, d', heq, rfl, rfl⟩
  | _ =>
      obtain ⟨_, -, hb⟩ := hequal
      cases hb

/-- A filter takes a value for `b` only if the two are the same or writings of one number, where
no rounding brings different numbers together. -/
theorem matching_cases (hmatching : a.matching b = true) (hnan : b.isNaN = false)
    (hrounded : ¬ a.RoundedTogether b) : a.same b = true ∨ a.IsOtherWriting b := by
  cases hnumber : b.isNumber with
  | false =>
      rw [matching_of_not_isNumber hnumber] at hmatching
      exact Or.inl hmatching
  | true =>
      obtain ⟨hnumber', hrank⟩ := (matching_iff_of_isNumber hnumber).mp hmatching
      have hdouble : a.toDouble = b.toDouble := Double.rank_inj.mp hrank
      have hnan' : a.isNaN = false := by
        rw [← isNaN_toDouble hnumber', hdouble, isNaN_toDouble hnumber, hnan]
      obtain ⟨p, hp⟩ := exists_quantity hnumber' hnan'
      obtain ⟨q, hq⟩ := exists_quantity hnumber hnan
      have hequal : a.EqualNumber b := by
        by_cases heq : p = q
        · exact ⟨q, heq ▸ hp, hq⟩
        · exact absurd ⟨⟨p, q, hp, hq, heq⟩, hdouble⟩ hrounded
      by_cases hsame : a.same b = true
      · exact Or.inl hsame
      · refine Or.inr ⟨hequal, ?_⟩
        intro htag
        exact (same_or_decimals htag hnan hequal hdouble).resolve_left hsame

/-! ### Exact values -/

theorem not_roundedTogether_of_isExact (ha : a.IsExact) (hb : b.IsExact) :
    ¬ a.RoundedTogether b := by
  rintro ⟨⟨p, q, hp, hq, hne⟩, hdouble⟩
  have heq : some p = some q := by
    calc some p = a.quantity? := hp.symm
      _ = a.toDouble.quantity? := ha.symm
      _ = b.toDouble.quantity? := by rw [hdouble]
      _ = b.quantity? := hb
      _ = some q := hq
  exact hne (Option.some.inj heq)

theorem isExact_double (x : Double) : (Value.double x).IsExact := rfl

theorem isExact_of_not_isNumber (hnumber : a.isNumber = false) : a.IsExact := by
  have hnan : (Double.nan false).quantity? = none := by rfl
  cases a with
  | int32 | int64 | double | decimal128 => cases hnumber
  | _ => exact hnan

theorem scaled_div {x : Double} {k : Nat} (hscaled : x.scaled = n * (Nat.pow 2 k : Nat)) :
    (x.scaled : ℚ) / 2 ^ k = n := by
  have hunit : ((Nat.pow 2 k : Nat) : ℚ) = 2 ^ k := by
    rw [Nat.pow_eq, Nat.cast_pow, Nat.cast_ofNat]
  rw [hscaled, Int.cast_mul, Int.cast_natCast, hunit]
  exact mul_div_cancel_right₀ _ (pow_ne_zero k two_ne_zero)

theorem quantity?_ofInt (hn : n.natAbs < Nat.pow 2 64) :
    (Double.ofInt n).quantity? = some (.finite (Double.nearest n)) := by
  have hnan : (Double.ofInt n).isNaN = false := Double.isNaN_ofRatio ..
  rw [Double.quantity?, hnan, Double.isFinite_ofInt hn, scaled_div (Double.scaled_ofInt hn)]
  rfl

theorem isExact_of_toInt? (ha : a.toInt? = some n) (hshort : n.natAbs < Nat.pow 2 53) :
    a.IsExact := by
  obtain ⟨-, hdouble, hn⟩ := double_of_toInt? ha
  rw [IsExact, hdouble, quantity?_ofInt hn, Double.nearest_of_lt hshort, quantity?_of_toInt? ha]

end Value

end DocShell
