import DocShell.Double.Basic

/-!
# Integers as doubles

The double nearest to an integer has at most 53 significant binary digits.  So integers
become doubles of the same value up to `2 ^ 53`, and beyond that several of them may share
one double.

* `roundHalfEven_mono`, `roundHalfEven_scale`, `roundHalfEven_mul`: what rounding keeps;
* `nearest`: the integer that the nearest double stands for, defined on integers alone;
* `order_eq_compare_scaled`: the order of bit patterns is the order of values, except that a
  negative zero comes before a positive one;
* `isFinite_ofInt`, `scaled_ofInt`, `order_ofInt`: the double nearest to an integer stands for
  `nearest` of it, so integers compared as doubles compare like their nearest ones.
-/

namespace DocShell.Double

/-! ### Rounding -/

section Rounding

variable {a b c k : Nat}

theorem roundHalfEven_bounds (a b : Nat) :
    a / b ≤ roundHalfEven a b ∧ roundHalfEven a b ≤ a / b + 1 := by
  unfold roundHalfEven
  simp only
  repeat' split
  all_goals omega

theorem roundHalfEven_mono (hle : a ≤ c) : roundHalfEven a b ≤ roundHalfEven c b := by
  have hquotient : a / b ≤ c / b := Nat.div_le_div_right hle
  -- With one quotient the rests decide, and a greater quotient is not rounded below.
  rcases Nat.eq_or_lt_of_le hquotient with heq | hlt
  · have hrest : a % b ≤ c % b := by
      have ha := Nat.div_add_mod a b
      have hc := Nat.div_add_mod c b
      rw [heq] at ha
      omega
    unfold roundHalfEven
    simp only [heq]
    repeat' split
    all_goals omega
  · have ha := (roundHalfEven_bounds a b).2
    have hc := (roundHalfEven_bounds c b).1
    omega

theorem roundHalfEven_scale (hc : 0 < c) : roundHalfEven (a * c) (b * c) = roundHalfEven a b := by
  have hlow : 2 * (a % b * c) < b * c ↔ 2 * (a % b) < b := by
    rw [← Nat.mul_assoc, Nat.mul_lt_mul_right hc]
  have hhigh : b * c < 2 * (a % b * c) ↔ b < 2 * (a % b) := by
    rw [← Nat.mul_assoc, Nat.mul_lt_mul_right hc]
  unfold roundHalfEven
  simp only [Nat.mul_div_mul_right a b hc, Nat.mul_mod_mul_right, hlow, hhigh]

theorem roundHalfEven_mul (hb : 0 < b) : roundHalfEven (k * b) b = k := by
  unfold roundHalfEven
  simp [hb]

theorem le_roundHalfEven (hb : 0 < b) (hle : k * b ≤ a) : k ≤ roundHalfEven a b := by
  calc k = roundHalfEven (k * b) b := (roundHalfEven_mul hb).symm
    _ ≤ roundHalfEven a b := roundHalfEven_mono hle

theorem roundHalfEven_le (hb : 0 < b) (hle : a ≤ k * b) : roundHalfEven a b ≤ k := by
  calc roundHalfEven a b ≤ roundHalfEven (k * b) b := roundHalfEven_mono hle
    _ = k := roundHalfEven_mul hb

end Rounding

/-! ### Powers of two

The definitions say `Nat.pow 2 k`, where the library's lemmas on `2 ^ k` do not rewrite. -/

theorem two_pow_pos (k : Nat) : 0 < Nat.pow 2 k :=
  Nat.two_pow_pos k

theorem two_pow_add (k l : Nat) : Nat.pow 2 (k + l) = Nat.pow 2 k * Nat.pow 2 l :=
  Nat.pow_add 2 k l

theorem two_pow_le {k l : Nat} (hle : k ≤ l) : Nat.pow 2 k ≤ Nat.pow 2 l :=
  Nat.pow_le_pow_right (by decide) hle

theorem two_pow_succ (k : Nat) : Nat.pow 2 (k + 1) = 2 * Nat.pow 2 k := by
  rw [two_pow_add, Nat.mul_comm]

theorem log2_bounds {n : Nat} (hn : n ≠ 0) :
    Nat.pow 2 (Nat.log2 n) ≤ n ∧ n < Nat.pow 2 (Nat.log2 n + 1) :=
  ⟨Nat.log2_self_le hn, Nat.lt_log2_self⟩

theorem log2_eq {n k : Nat} (hle : Nat.pow 2 k ≤ n) (hlt : n < Nat.pow 2 (k + 1)) :
    Nat.log2 n = k := by
  have hn : n ≠ 0 := Nat.ne_of_gt (Nat.lt_of_lt_of_le (two_pow_pos k) hle)
  exact (Nat.log2_eq_iff hn).mpr ⟨hle, hlt⟩

theorem log2_mono {n m : Nat} (hle : n ≤ m) : Nat.log2 n ≤ Nat.log2 m := by
  by_cases hn : n = 0
  · subst hn
    exact Nat.zero_le _
  · refine Nat.le_of_not_lt fun hlt => ?_
    have hm : m < Nat.pow 2 (Nat.log2 m + 1) := (log2_bounds (by omega)).2
    have hn' : Nat.pow 2 (Nat.log2 m + 1) ≤ n :=
      Nat.le_trans (two_pow_le hlt) (log2_bounds hn).1
    omega

/-! ### The nearest integer with 53 digits -/

/-- The number of binary digits that a significand has no place for. -/
def spare (n : Nat) : Nat :=
  Nat.log2 n - 52

/-- The number nearest to `n` that has at most 53 significant binary digits, a tie going to
the even significand. -/
def nearestNat (n : Nat) : Nat :=
  roundHalfEven n (Nat.pow 2 (spare n)) * Nat.pow 2 (spare n)

/-- The integer nearest to `n` that has at most 53 significant binary digits, a tie going to
the even significand. -/
def nearest (n : Int) : Int :=
  if n < 0 then -(nearestNat n.natAbs : Int) else nearestNat n.natAbs

theorem nearestNat_of_lt {n : Nat} (hlt : n < Nat.pow 2 53) : nearestNat n = n := by
  have hspare : spare n = 0 := by
    by_cases hn : n = 0
    · subst hn
      rfl
    · have hlog : Nat.log2 n < 53 := (Nat.log2_lt hn).mpr hlt
      unfold spare
      omega
  have hround : roundHalfEven n 1 = n := by
    have := roundHalfEven_mul (k := n) (b := 1) (by decide)
    rwa [Nat.mul_one] at this
  rw [nearestNat, hspare]
  exact (Nat.mul_one _).trans hround

/-- The significand has 53 digits, or is rounded up to the least one with 54. -/
theorem significand_le (n : Nat) :
    roundHalfEven n (Nat.pow 2 (spare n)) ≤ Nat.pow 2 53 := by
  by_cases hn : n = 0
  · subst hn
    decide
  · apply roundHalfEven_le (two_pow_pos _)
    calc n ≤ Nat.pow 2 (Nat.log2 n + 1) := Nat.le_of_lt (log2_bounds hn).2
      _ ≤ Nat.pow 2 (53 + spare n) := two_pow_le (by unfold spare; omega)
      _ = Nat.pow 2 53 * Nat.pow 2 (spare n) := two_pow_add ..

theorem le_significand {n : Nat} (hspare : spare n ≠ 0) :
    Nat.pow 2 52 ≤ roundHalfEven n (Nat.pow 2 (spare n)) := by
  have hlog : Nat.log2 n = 52 + spare n := by
    unfold spare at hspare ⊢
    omega
  have hn : n ≠ 0 := by
    rintro rfl
    exact hspare rfl
  apply le_roundHalfEven (two_pow_pos _)
  calc Nat.pow 2 52 * Nat.pow 2 (spare n) = Nat.pow 2 (Nat.log2 n) := by rw [hlog, two_pow_add]
    _ ≤ n := (log2_bounds hn).1

theorem nearestNat_mono {n m : Nat} (hle : n ≤ m) : nearestNat n ≤ nearestNat m := by
  have hspare : spare n ≤ spare m := Nat.sub_le_sub_right (log2_mono hle) 52
  rcases Nat.eq_or_lt_of_le hspare with heq | hlt
  · rw [nearestNat, nearestNat, heq]
    exact Nat.mul_le_mul_right _ (roundHalfEven_mono hle)
  · -- What `n` is rounded up to at most has fewer digits than what `m` is rounded down to.
    calc nearestNat n
        ≤ Nat.pow 2 53 * Nat.pow 2 (spare n) := Nat.mul_le_mul_right _ (significand_le n)
      _ = Nat.pow 2 (53 + spare n) := (two_pow_add ..).symm
      _ ≤ Nat.pow 2 (52 + spare m) := two_pow_le (by omega)
      _ = Nat.pow 2 52 * Nat.pow 2 (spare m) := two_pow_add ..
      _ ≤ nearestNat m := Nat.mul_le_mul_right _ (le_significand (by omega))

theorem nearestNat_pow_53 : nearestNat (Nat.pow 2 53) = Nat.pow 2 53 := by decide

/-- Below `2 ^ 53` no number shares its nearest one with another number. -/
theorem eq_of_nearestNat_eq {n m : Nat} (hn : n < Nat.pow 2 53)
    (heq : nearestNat n = nearestNat m) : n = m := by
  rw [nearestNat_of_lt hn] at heq
  rcases Nat.lt_or_ge m (Nat.pow 2 53) with hm | hm
  · rwa [nearestNat_of_lt hm] at heq
  · have hle := nearestNat_mono hm
    rw [nearestNat_pow_53, ← heq] at hle
    exact absurd hn (Nat.not_lt.mpr hle)

theorem nearest_mono {n m : Int} (hle : n ≤ m) : nearest n ≤ nearest m := by
  unfold nearest
  split
  · split
    · have := @nearestNat_mono m.natAbs n.natAbs (by omega)
      omega
    · omega
  · have := @nearestNat_mono n.natAbs m.natAbs (by omega)
    split <;> omega

theorem nearest_of_lt {n : Int} (hlt : n.natAbs < Nat.pow 2 53) : nearest n = n := by
  unfold nearest
  rw [nearestNat_of_lt hlt]
  split <;> omega

/-- Two integers share their nearest one only from `2 ^ 53` on. -/
theorem eq_of_nearest_eq {n m : Int} (hn : n.natAbs < Nat.pow 2 53)
    (heq : nearest n = nearest m) : n = m := by
  have hown : nearestNat n.natAbs = n.natAbs := nearestNat_of_lt hn
  have habs : nearestNat n.natAbs = nearestNat m.natAbs → n.natAbs = m.natAbs :=
    eq_of_nearestNat_eq hn
  unfold nearest at heq
  split at heq <;> split at heq <;> omega

/-- Integers compare like their nearest ones unless they are different and share it. -/
theorem compare_nearest_eq_iff {n m : Int} :
    compare (nearest n) (nearest m) = compare n m ↔ (nearest n = nearest m → n = m) := by
  constructor
  · intro hcompare heq
    rw [heq, Int.compare_eq_eq.mpr rfl] at hcompare
    exact Int.compare_eq_eq.mp hcompare.symm
  · intro hinjective
    rcases Int.lt_trichotomy n m with hlt | heq | hgt
    · have hle : nearest n ≤ nearest m := nearest_mono (Int.le_of_lt hlt)
      rw [Int.compare_eq_lt.mpr hlt, Int.compare_eq_lt]
      omega
    · rw [heq, Int.compare_eq_eq.mpr rfl, Int.compare_eq_eq.mpr rfl]
    · have hle : nearest m ≤ nearest n := nearest_mono (Int.le_of_lt hgt)
      rw [Int.compare_eq_gt.mpr hgt, Int.compare_eq_gt]
      omega

/-! ### The order of values -/

section Order

variable {x y : Double}

/-- The bit pattern without the sign. -/
def low (x : Double) : Nat :=
  x.word % Nat.pow 2 63

theorem two_pow_fields : Nat.pow 2 52 = 4503599627370496 ∧ Nat.pow 2 11 = 2048 ∧
    Nat.pow 2 63 = 9223372036854775808 :=
  ⟨rfl, rfl, rfl⟩

theorem word_eq (x : Double) : x.word = (if x.isNegative then Nat.pow 2 63 else 0) + x.low := by
  have hword : x.word < 18446744073709551616 := x.bits.toNat_lt
  unfold isNegative low
  simp only [two_pow_fields, decide_eq_true_eq]
  split <;> omega

theorem exponentField_eq (x : Double) : x.exponentField = x.low / Nat.pow 2 52 := by
  unfold exponentField low
  simp only [two_pow_fields]
  omega

theorem fraction_eq (x : Double) : x.fraction = x.low % Nat.pow 2 52 := by
  unfold fraction low
  simp only [two_pow_fields]
  omega

theorem low_eq (x : Double) : x.low = Nat.pow 2 52 * x.exponentField + x.fraction := by
  rw [exponentField_eq, fraction_eq, Nat.div_add_mod]

theorem fraction_lt (x : Double) : x.fraction < Nat.pow 2 52 :=
  Nat.mod_lt _ (two_pow_pos 52)

theorem magnitude_lt_of_exponentField (x : Double) :
    x.magnitude < Nat.pow 2 52 * Nat.pow 2 x.exponentField := by
  have hfraction := x.fraction_lt
  unfold magnitude significand scale
  cases x.exponentField with
  | zero => exact Nat.mul_lt_mul_of_pos_right hfraction (two_pow_pos 0)
  | succ e =>
      rw [if_neg (Nat.succ_ne_zero e), Nat.add_sub_cancel, two_pow_succ e, ← Nat.mul_assoc]
      exact Nat.mul_lt_mul_of_pos_right (by omega) (two_pow_pos e)

theorem le_magnitude {e : Nat} (hexponent : x.exponentField = e + 1) :
    Nat.pow 2 52 * Nat.pow 2 e ≤ x.magnitude := by
  unfold magnitude significand scale
  rw [hexponent, if_neg (Nat.succ_ne_zero e), Nat.add_sub_cancel]
  exact Nat.mul_le_mul_right _ (Nat.le_add_right ..)

/-- Behind the sign, a greater bit pattern has a greater value. -/
theorem magnitude_lt (hlt : x.low < y.low) : x.magnitude < y.magnitude := by
  have hexponent : x.exponentField ≤ y.exponentField := by
    rw [exponentField_eq, exponentField_eq]
    exact Nat.div_le_div_right (Nat.le_of_lt hlt)
  -- With one exponent the fractions decide, and a greater exponent outweighs any fraction.
  rcases Nat.eq_or_lt_of_le hexponent with heq | hless
  · have hfraction : x.fraction < y.fraction := by
      rw [low_eq, low_eq, heq] at hlt
      omega
    have hsignificand : x.significand < y.significand := by
      unfold significand
      rw [heq]
      split <;> omega
    unfold magnitude scale
    rw [heq]
    exact Nat.mul_lt_mul_of_pos_right hsignificand (two_pow_pos _)
  · obtain ⟨e, he⟩ : ∃ e, y.exponentField = e + 1 := ⟨y.exponentField - 1, by omega⟩
    calc x.magnitude
        < Nat.pow 2 52 * Nat.pow 2 x.exponentField := x.magnitude_lt_of_exponentField
      _ ≤ Nat.pow 2 52 * Nat.pow 2 e := Nat.mul_le_mul_left _ (two_pow_le (by omega))
      _ ≤ y.magnitude := le_magnitude he

theorem magnitude_lt_iff : x.magnitude < y.magnitude ↔ x.low < y.low := by
  refine ⟨fun hlt => Nat.lt_of_not_le fun hle => ?_, magnitude_lt⟩
  rcases Nat.eq_or_lt_of_le hle with heq | hgt
  · have hexponent : x.exponentField = y.exponentField := by
      rw [exponentField_eq, exponentField_eq, heq]
    have hfraction : x.fraction = y.fraction := by
      rw [fraction_eq, fraction_eq, heq]
    unfold magnitude significand scale at hlt
    rw [hexponent, hfraction] at hlt
    omega
  · have := magnitude_lt hgt
    omega

theorem magnitude_pos_iff : 0 < x.magnitude ↔ 0 < x.low :=
  @magnitude_lt_iff (zero false) x

theorem rank_eq (x : Double) :
    x.rank = if x.isNegative then -(x.low : Int) - 1 else (x.low : Int) := by
  have hword := x.word_eq
  unfold rank
  split
  · rfl
  · next hsign => rwa [if_neg hsign, Nat.zero_add, ← Int.natCast_inj] at hword

theorem rank_inj : x.rank = y.rank ↔ x = y := by
  refine ⟨?_, fun heq => heq ▸ rfl⟩
  intro hrank
  have hword : x.word = y.word := by
    rw [rank_eq, rank_eq] at hrank
    rw [word_eq x, word_eq y]
    cases hsign : x.isNegative <;> cases hsign' : y.isNegative <;>
      simp [hsign, hsign'] at hrank ⊢ <;> omega
  have hbits : x.bits = y.bits := UInt64.toNat_inj.mp hword
  cases x
  cases y
  cases hbits
  rfl

/-- The negative zero, which the order of bit patterns tells apart from the positive one. -/
def IsNegativeZero (x : Double) : Prop :=
  x.isNegative = true ∧ x.low = 0

theorem rank_lt_iff (hx : ¬ x.IsNegativeZero) : x.rank < y.rank ↔ x.scaled < y.scaled := by
  have hlt := @magnitude_lt_iff x y
  have hgt := @magnitude_lt_iff y x
  have hpos := @magnitude_pos_iff x
  unfold IsNegativeZero at hx
  rw [rank_eq, rank_eq, scaled, scaled]
  -- Negative patterns are ranked one lower, which shows beside the positive zero only.
  cases hsign : x.isNegative <;> cases hsign' : y.isNegative <;> simp [hsign] at hx ⊢ <;> omega

/-- The order of bit patterns is the order of values, the negative zero apart. -/
theorem order_eq_compare_scaled (hx : ¬ x.IsNegativeZero) (hy : ¬ y.IsNegativeZero) :
    x.order y = compare x.scaled y.scaled := by
  have hlt := @rank_lt_iff x y hx
  have hgt := @rank_lt_iff y x hy
  unfold order
  rcases Int.lt_trichotomy x.rank y.rank with h | h | h
  · rw [Int.compare_eq_lt.mpr h, Int.compare_eq_lt.mpr (hlt.mp h)]
  · rw [Int.compare_eq_eq.mpr h, Int.compare_eq_eq.mpr (by omega)]
  · rw [Int.compare_eq_gt.mpr h, Int.compare_eq_gt.mpr (hgt.mp h)]

end Order

/-! ### The double nearest to an integer -/

section OfInt

theorem ofParts_fields {negative : Bool} {bits : Nat} (hbits : bits < Nat.pow 2 63) :
    (ofParts negative bits).isNegative = negative ∧ (ofParts negative bits).low = bits := by
  have hword : (ofParts negative bits).word = (if negative then Nat.pow 2 63 else 0) + bits := by
    refine UInt64.toNat_ofNat_of_lt' ?_
    simp only [two_pow_fields, UInt64.size] at hbits ⊢
    split <;> omega
  unfold isNegative low
  rw [hword]
  simp only [two_pow_fields] at hbits ⊢
  cases negative <;> simp <;> omega

/-- The value of a bit pattern that is put together from an exponent and a significand, which
may have been rounded up to one digit too many. -/
theorem magnitude_of_low {x : Double} {s r : Nat} (hlow : x.low = s * Nat.pow 2 52 + r)
    (hle : Nat.pow 2 52 ≤ r) (hle' : r ≤ Nat.pow 2 53) : x.magnitude = r * Nat.pow 2 s := by
  have hexponent := x.exponentField_eq
  have hfraction := x.fraction_eq
  have hdouble : Nat.pow 2 53 = 2 * Nat.pow 2 52 := two_pow_succ 52
  have hpos := two_pow_pos 52
  rcases Nat.eq_or_lt_of_le hle' with heq | hlt
  · -- The digit too many carries over into the exponent and leaves no fraction.
    have hlow' : x.low = (s + 2) * Nat.pow 2 52 := by
      rw [hlow, heq, hdouble, Nat.add_mul]
    rw [hlow', Nat.mul_div_cancel _ hpos] at hexponent
    rw [hlow', Nat.mul_mod_left] at hfraction
    unfold magnitude significand scale
    rw [hexponent, hfraction, if_neg (by omega), heq, hdouble]
    have hscale : Nat.pow 2 (s + 2 - 1) = 2 * Nat.pow 2 s := two_pow_succ s
    rw [hscale, Nat.add_zero, Nat.mul_left_comm, Nat.mul_assoc]
  · have hlow' : x.low = r - Nat.pow 2 52 + Nat.pow 2 52 * (s + 1) := by
      rw [hlow, Nat.mul_add, Nat.mul_comm s]
      omega
    have hrest : r - Nat.pow 2 52 < Nat.pow 2 52 := by omega
    rw [hlow', Nat.add_mul_div_left _ _ hpos, Nat.div_eq_of_lt hrest, Nat.zero_add] at hexponent
    rw [hlow', Nat.add_mul_mod_self_left, Nat.mod_eq_of_lt hrest] at hfraction
    unfold magnitude significand scale
    rw [hexponent, hfraction, if_neg (by omega), Nat.add_sub_cancel' hle, Nat.add_sub_cancel]

variable {n d : Nat}

theorem log2_mul_two_pow (hn : n ≠ 0) (k : Nat) :
    Nat.log2 (n * Nat.pow 2 k) = Nat.log2 n + k := by
  obtain ⟨hle, hlt⟩ := log2_bounds hn
  apply log2_eq
  · rw [two_pow_add]
    exact Nat.mul_le_mul_right _ hle
  · rw [Nat.add_right_comm, two_pow_add]
    exact Nat.mul_lt_mul_of_pos_right hlt (two_pow_pos k)

/-- The significand of `n` in units of `2 ^ -(d + 52)`. -/
theorem significand_in_units (hn : n ≠ 0) (d : Nat) :
    let r := roundHalfEven (n * Nat.pow 2 (d + 52)) (Nat.pow 2 (Nat.log2 n + d))
    Nat.pow 2 52 ≤ r ∧ r ≤ Nat.pow 2 53 ∧
      r * Nat.pow 2 (Nat.log2 n + d) = nearestNat n * Nat.pow 2 (d + 52) := by
  intro r
  obtain ⟨hlow, hhigh⟩ := log2_bounds hn
  refine ⟨le_roundHalfEven (two_pow_pos _) ?_, roundHalfEven_le (two_pow_pos _) ?_, ?_⟩
  · calc Nat.pow 2 52 * Nat.pow 2 (Nat.log2 n + d)
        = Nat.pow 2 (Nat.log2 n) * Nat.pow 2 (d + 52) := by
          rw [← two_pow_add, ← two_pow_add]
          congr 1
          omega
      _ ≤ n * Nat.pow 2 (d + 52) := Nat.mul_le_mul_right _ hlow
  · calc n * Nat.pow 2 (d + 52)
        ≤ Nat.pow 2 (Nat.log2 n + 1) * Nat.pow 2 (d + 52) :=
          Nat.mul_le_mul_right _ (Nat.le_of_lt hhigh)
      _ = Nat.pow 2 53 * Nat.pow 2 (Nat.log2 n + d) := by
          rw [← two_pow_add, ← two_pow_add]
          congr 1
          omega
  · rcases Nat.lt_or_ge (Nat.log2 n) 52 with hshort | hlong
    · -- The number has all its digits in the significand.
      have hunits : n * Nat.pow 2 (d + 52) =
          n * Nat.pow 2 (52 - Nat.log2 n) * Nat.pow 2 (Nat.log2 n + d) := by
        rw [Nat.mul_assoc, ← two_pow_add]
        congr 2
        omega
      have hown : nearestNat n = n :=
        nearestNat_of_lt (Nat.lt_of_lt_of_le hhigh (two_pow_le (by omega)))
      simp only [r]
      rw [hown, hunits, roundHalfEven_mul (two_pow_pos _)]
    · have hscale : Nat.pow 2 (Nat.log2 n + d) = Nat.pow 2 (spare n) * Nat.pow 2 (d + 52) := by
        rw [← two_pow_add]
        unfold spare
        congr 1
        omega
      simp only [r]
      rw [hscale, roundHalfEven_scale (two_pow_pos _), nearestNat, Nat.mul_assoc]

/-- An integer of 64 digits is far below infinity. -/
theorem ofRatio_parts (hn : n ≠ 0) (hlt : n < Nat.pow 2 64) (negative : Bool) :
    let bits := (Nat.log2 n + 1022) * Nat.pow 2 52 +
      roundHalfEven (n * Nat.pow 2 (1022 + 52)) (Nat.pow 2 (Nat.log2 n + 1022))
    bits < 2047 * Nat.pow 2 52 ∧ ofRatio negative n 1 = ofParts negative bits := by
  intro bits
  have hround := (significand_in_units hn 1022).2.1
  have hlog : Nat.log2 n < 64 := (Nat.log2_lt hn).mpr hlt
  have hbits : bits < 2047 * Nat.pow 2 52 := by
    have hdouble : Nat.pow 2 53 = 2 * Nat.pow 2 52 := two_pow_succ 52
    have hpos := two_pow_pos 52
    have hexponent : (Nat.log2 n + 1022) * Nat.pow 2 52 ≤ 1085 * Nat.pow 2 52 :=
      Nat.mul_le_mul_right _ (by omega)
    simp only [bits]
    omega
  have hscale : Nat.log2 (n * Nat.pow 2 (1022 + 52) / 1) - 52 = Nat.log2 n + 1022 := by
    rw [Nat.div_one, log2_mul_two_pow hn (1022 + 52)]
    omega
  refine ⟨hbits, ?_⟩
  have hsum : 1074 = 1022 + 52 := rfl
  unfold ofRatio
  rw [hsum]
  dsimp -zetaDelta only
  rw [hscale, Nat.one_mul]
  exact if_neg (Nat.not_le.mpr hbits)

/-- The double nearest to an integer stands for `nearest` of it. -/
theorem magnitude_ofRatio (hlt : n < Nat.pow 2 64) (negative : Bool) :
    (ofRatio negative n 1).isNegative = negative ∧
      (ofRatio negative n 1).magnitude = nearestNat n * Nat.pow 2 (1022 + 52) := by
  by_cases hn : n = 0
  · subst hn
    cases negative <;> decide +kernel
  · obtain ⟨hbits, hparts⟩ := ofRatio_parts hn hlt negative
    obtain ⟨hle, hle', hvalue⟩ := significand_in_units hn 1022
    obtain ⟨hsign, hlow⟩ := @ofParts_fields negative _ (Nat.lt_trans hbits (by decide))
    rw [hparts]
    exact ⟨hsign, (magnitude_of_low hlow hle hle').trans hvalue⟩

theorem isFinite_ofInt {n : Int} (hn : n.natAbs < Nat.pow 2 64) : (ofInt n).isFinite = true := by
  by_cases hzero : n = 0
  · subst hzero
    decide +kernel
  · obtain ⟨hbits, hparts⟩ := ofRatio_parts (Int.natAbs_ne_zero.mpr hzero) hn (decide (n < 0))
    obtain ⟨-, hlow⟩ := @ofParts_fields (decide (n < 0)) _ (Nat.lt_trans hbits (by decide))
    rw [ofInt, hparts, isFinite, exponentField_eq, hlow, bne_iff_ne]
    exact Nat.ne_of_lt ((Nat.div_lt_iff_lt_mul (two_pow_pos 52)).mpr hbits)

theorem scaled_ofInt {n : Int} (hn : n.natAbs < Nat.pow 2 64) :
    (ofInt n).scaled = nearest n * (Nat.pow 2 (1022 + 52) : Nat) := by
  obtain ⟨hsign, hmagnitude⟩ := magnitude_ofRatio hn (decide (n < 0))
  unfold ofInt scaled nearest
  rw [hsign, hmagnitude]
  by_cases hneg : n < 0
  · rw [if_pos (decide_eq_true hneg), if_pos hneg, Int.neg_mul, Int.natCast_mul]
  · rw [decide_eq_false hneg, if_neg hneg, if_neg Bool.false_ne_true, Int.natCast_mul]

theorem not_isNegativeZero_ofInt {n : Int} (hn : n.natAbs < Nat.pow 2 64) :
    ¬ (ofInt n).IsNegativeZero := by
  rintro ⟨hnegative, hlow⟩
  obtain ⟨hsign, hmagnitude⟩ := magnitude_ofRatio hn (decide (n < 0))
  have hneg : n < 0 := of_decide_eq_true (hsign.symm.trans hnegative)
  have hpos : 0 < nearestNat n.natAbs := by
    have := @nearestNat_mono 1 n.natAbs (by omega)
    rwa [nearestNat_of_lt (by decide)] at this
  have hunit := two_pow_pos (1022 + 52)
  have hvalue : 0 < (ofInt n).magnitude := by
    unfold ofInt
    rw [hmagnitude]
    exact Nat.mul_pos hpos hunit
  exact absurd (magnitude_pos_iff.mp hvalue) (by omega)

/-- Integers that become doubles compare like the integers nearest to them. -/
theorem order_ofInt {n m : Int} (hn : n.natAbs < Nat.pow 2 64) (hm : m.natAbs < Nat.pow 2 64) :
    (ofInt n).order (ofInt m) = compare (nearest n) (nearest m) := by
  rw [order_eq_compare_scaled (not_isNegativeZero_ofInt hn) (not_isNegativeZero_ofInt hm),
    scaled_ofInt hn, scaled_ofInt hm]
  have hunit := Int.natCast_pos.mpr (two_pow_pos (1022 + 52))
  rcases Int.lt_trichotomy (nearest n) (nearest m) with h | h | h
  · rw [Int.compare_eq_lt.mpr h, Int.compare_eq_lt.mpr (Int.mul_lt_mul_of_pos_right h hunit)]
  · rw [h, Int.compare_eq_eq.mpr rfl, Int.compare_eq_eq.mpr rfl]
  · rw [Int.compare_eq_gt.mpr h, Int.compare_eq_gt.mpr (Int.mul_lt_mul_of_pos_right h hunit)]

end OfInt

end DocShell.Double
