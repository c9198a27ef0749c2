import DocShell.Value.Order
import Mathlib.Tactic.ByContra

/-!
# Where the order of values is transitive

`Value.order` compares two strings letter by letter, but a string and a symbol by the
rank of their types, which is the same.  So a symbol counts as equal to every string,
and this one gap is all that keeps the order from being a total one.

## Strategy

Apart from a string beside a symbol, comparing two values is comparing three keys one
after the other (`order_eq_lexOrder`): the rank of the type, a number (`degree`) and a
text (`letters`).  A lexicographic order of keys is transitive.  Three values that the
order does not compare transitively have one rank, since it never goes down in rank, and
in the rank of strings and symbols there are only few cases left.
-/

namespace DocShell.Value

variable {a b c : Value}

/-! ## Keys -/

/-- What numbers, booleans, object ids and instants are compared by, within their rank. -/
def degree : Value → Int
  | .boolean b => b.toNat
  | .objectId id => id.toNat
  | .dateTime millis => millis.toInt
  | value => if value.isNumber then value.toDouble.rank else 0

/-- What strings are compared by. -/
def letters : Value → String
  | .string s => s
  | _ => ""

/-- The order of the keys: rank, degree, letters. -/
def lexOrder : Value → Value → Ordering :=
  compareLex (compareOn typeRank) (compareLex (compareOn degree) (compareOn letters))

/-- The ranks in which values are compared by their contents. -/
def contentRanks : List Nat :=
  [2, 3, 7, 8, 9]

/-- One of the two values is a string and the other one a symbol. -/
def Mixed (a b : Value) : Prop :=
  ∃ s t, a = .string s ∧ b = .symbol t ∨ a = .symbol t ∧ b = .string s

theorem Mixed.symm (hmixed : Mixed a b) : Mixed b a := by
  obtain ⟨s, t, ⟨ha, hb⟩ | ⟨ha, hb⟩⟩ := hmixed
  · exact ⟨s, t, Or.inr ⟨hb, ha⟩⟩
  · exact ⟨s, t, Or.inl ⟨hb, ha⟩⟩

theorem isNumber_iff_typeRank : a.isNumber = true ↔ a.typeRank = 2 := by
  cases a <;> simp [isNumber, typeRank]

theorem string_or_symbol_of_typeRank (hrank : a.typeRank = 3) :
    (∃ s, a = .string s) ∨ ∃ t, a = .symbol t := by
  cases a <;> simp [typeRank] at hrank ⊢

theorem objectId_of_typeRank (hrank : a.typeRank = 7) : ∃ id, a = .objectId id := by
  cases a <;> simp [typeRank] at hrank ⊢

theorem boolean_of_typeRank (hrank : a.typeRank = 8) : ∃ x, a = .boolean x := by
  cases a <;> simp [typeRank] at hrank ⊢

theorem dateTime_of_typeRank (hrank : a.typeRank = 9) : ∃ millis, a = .dateTime millis := by
  cases a <;> simp [typeRank] at hrank ⊢

theorem keys_of_isNumber (hnumber : a.isNumber = true) :
    a.degree = a.toDouble.rank ∧ a.letters = "" := by
  cases a <;> simp [isNumber, degree, letters] at hnumber ⊢

theorem keys_of_not_mem (hrank : a.typeRank ∉ contentRanks) : a.degree = 0 ∧ a.letters = "" := by
  cases a <;> simp [contentRanks, typeRank, degree, letters, isNumber] at hrank ⊢

/-! ## The order by keys -/

theorem order_of_isNumber (ha : a.isNumber = true) (hb : b.isNumber = true) :
    a.order b = compare a.toDouble.rank b.toDouble.rank := by
  unfold order
  rw [if_pos (by rw [ha, hb]; rfl)]
  rfl

/-- Outside of the ranks with contents, and between two ranks, only ranks are compared. -/
theorem order_eq_compare_typeRank (hrank : a.typeRank = b.typeRank → a.typeRank ∉ contentRanks) :
    a.order b = compare a.typeRank b.typeRank := by
  unfold order
  split
  · next hnumbers =>
      rw [Bool.and_eq_true, isNumber_iff_typeRank, isNumber_iff_typeRank] at hnumbers
      exact absurd (by rw [hnumbers.1]; decide) (hrank (hnumbers.1.trans hnumbers.2.symm))
  · split <;> first | rfl | exact absurd (by simp [contentRanks, typeRank]) (hrank rfl)

theorem order_of_typeRank_eq (hrank : a.typeRank = b.typeRank) (hmixed : ¬ Mixed a b) :
    a.order b = (compare a.degree b.degree).then (compare a.letters b.letters) := by
  by_cases hcontent : a.typeRank ∈ contentRanks
  · simp only [contentRanks, List.mem_cons, List.not_mem_nil, or_false] at hcontent
    rcases hcontent with hnumber | htext | hid | hboolean | hdate
    · have ha : a.isNumber = true := isNumber_iff_typeRank.mpr hnumber
      have hb : b.isNumber = true := isNumber_iff_typeRank.mpr (hrank ▸ hnumber)
      obtain ⟨hdegree, hletters⟩ := keys_of_isNumber ha
      obtain ⟨hdegree', hletters'⟩ := keys_of_isNumber hb
      rw [order_of_isNumber ha hb, hdegree, hdegree', hletters, hletters', Std.compare_self,
        Ordering.then_eq]
    · obtain ⟨s, rfl⟩ | ⟨t, rfl⟩ := string_or_symbol_of_typeRank htext <;>
        obtain ⟨s', rfl⟩ | ⟨t', rfl⟩ := string_or_symbol_of_typeRank (hrank ▸ htext)
      · rfl
      · exact absurd ⟨s, t', Or.inl ⟨rfl, rfl⟩⟩ hmixed
      · exact absurd ⟨s', t, Or.inr ⟨rfl, rfl⟩⟩ hmixed
      · rfl
    · obtain ⟨x, rfl⟩ := objectId_of_typeRank hid
      obtain ⟨y, rfl⟩ := objectId_of_typeRank (hrank ▸ hid)
      calc compare x.toNat y.toNat
          = compare (x.toNat : Int) (y.toNat : Int) := by
            simp only [compare, compareOfLessAndEq, Int.ofNat_lt, Int.natCast_inj]
        _ = _ := Ordering.then_eq.symm
    · obtain ⟨x, rfl⟩ := boolean_of_typeRank hboolean
      obtain ⟨y, rfl⟩ := boolean_of_typeRank (hrank ▸ hboolean)
      cases x <;> cases y <;> rfl
    · obtain ⟨x, rfl⟩ := dateTime_of_typeRank hdate
      obtain ⟨y, rfl⟩ := dateTime_of_typeRank (hrank ▸ hdate)
      exact Ordering.then_eq.symm
  · obtain ⟨hdegree, hletters⟩ := keys_of_not_mem hcontent
    obtain ⟨hdegree', hletters'⟩ := keys_of_not_mem (hrank ▸ hcontent)
    rw [order_eq_compare_typeRank fun _ => hcontent, hrank, hdegree, hdegree', hletters,
      hletters']
    simp only [Std.compare_self, Ordering.then_eq]

theorem order_eq_lexOrder (hmixed : ¬ Mixed a b) : a.order b = lexOrder a b := by
  simp only [lexOrder, compareLex, compareOn]
  by_cases hrank : a.typeRank = b.typeRank
  · rw [order_of_typeRank_eq hrank hmixed, hrank, Std.compare_self, Ordering.eq_then]
  · rw [order_eq_compare_typeRank fun heq => absurd heq hrank]
    cases hcompare : compare a.typeRank b.typeRank with
    | eq => exact absurd (Nat.compare_eq_eq.mp hcompare) hrank
    | lt | gt => rfl

/-- A string and a symbol count as equal. -/
theorem order_of_mixed (hmixed : Mixed a b) : a.order b = .eq := by
  obtain ⟨s, t, ⟨rfl, rfl⟩ | ⟨rfl, rfl⟩⟩ := hmixed <;> rfl

instance transCmp_lexOrder : Std.TransCmp lexOrder :=
  inferInstanceAs (Std.TransCmp (compareLex (compareOn typeRank)
    (compareLex (compareOn degree) (compareOn letters))))

/-! ## Exchange and transitivity -/

theorem order_swap (a b : Value) : b.order a = (a.order b).swap := by
  by_cases hmixed : Mixed a b
  · rw [order_of_mixed hmixed, order_of_mixed hmixed.symm]
    rfl
  · rw [order_eq_lexOrder hmixed, order_eq_lexOrder fun h => hmixed h.symm]
    exact Std.OrientedCmp.eq_swap

theorem order_trans (hab : ¬ Mixed a b) (hbc : ¬ Mixed b c) (hac : ¬ Mixed a c)
    (hle : a.order b ≠ .gt) (hle' : b.order c ≠ .gt) : a.order c ≠ .gt := by
  rw [order_eq_lexOrder hab, ne_eq, Ordering.ne_gt_iff_isLE] at hle
  rw [order_eq_lexOrder hbc, ne_eq, Ordering.ne_gt_iff_isLE] at hle'
  rw [order_eq_lexOrder hac, ne_eq, Ordering.ne_gt_iff_isLE]
  exact Std.TransCmp.isLE_trans hle hle'

theorem order_congr (hab : ¬ Mixed a b) (hbc : ¬ Mixed b c) (hac : ¬ Mixed a c)
    (heq : a.order b = .eq) : a.order c = b.order c := by
  rw [order_eq_lexOrder hab] at heq
  rw [order_eq_lexOrder hac, order_eq_lexOrder hbc]
  exact Std.TransCmp.congr_left heq

/-- The order never goes down in rank. -/
theorem typeRank_le_of_order (hle : a.order b ≠ .gt) : a.typeRank ≤ b.typeRank := by
  refine Nat.le_of_not_lt fun hlt => hle ?_
  rw [order_eq_compare_typeRank fun heq => absurd heq (by omega)]
  exact Nat.compare_eq_gt.mpr hlt

theorem typeRank_eq_of_order (heq : a.order b = .eq) : a.typeRank = b.typeRank := by
  have hle : a.typeRank ≤ b.typeRank := typeRank_le_of_order (by rw [heq]; decide)
  have hge : b.typeRank ≤ a.typeRank := typeRank_le_of_order (by rw [order_swap, heq]; decide)
  omega

theorem Mixed.typeRank_eq (hmixed : Mixed a b) : a.typeRank = 3 := by
  obtain ⟨s, t, ⟨rfl, -⟩ | ⟨rfl, -⟩⟩ := hmixed <;> rfl

/-- Beside a third value, two strings are mixed alike, and so are two symbols. -/
theorem Mixed.congr (hmixed : Mixed a c) (hrank : a.typeRank = b.typeRank)
    (hab : ¬ Mixed a b) : Mixed b c := by
  have hb := string_or_symbol_of_typeRank (hrank.symm.trans hmixed.typeRank_eq)
  obtain ⟨s, t, ⟨rfl, rfl⟩ | ⟨rfl, rfl⟩⟩ := hmixed
  · obtain ⟨s', rfl⟩ | ⟨t', rfl⟩ := hb
    · exact ⟨s', t, Or.inl ⟨rfl, rfl⟩⟩
    · exact absurd ⟨s, t', Or.inl ⟨rfl, rfl⟩⟩ hab
  · obtain ⟨s', rfl⟩ | ⟨t', rfl⟩ := hb
    · exact absurd ⟨s', t, Or.inr ⟨rfl, rfl⟩⟩ hab
    · exact ⟨s, t', Or.inr ⟨rfl, rfl⟩⟩

theorem order_string_eq_gt_iff {s u : String} :
    (Value.string s).order (.string u) = .gt ↔ u < s := by
  have hswap : (Value.string s).order (.string u) = compare s u := rfl
  rw [hswap, Std.OrientedCmp.gt_iff_lt]
  exact compareOfLessAndEq_eq_lt

/-- Of strings and symbols only a string comes behind another one. -/
theorem strings_of_order_eq_gt (ha : a.typeRank = 3) (hc : c.typeRank = 3)
    (hgt : a.order c = .gt) : ∃ s u, a = .string s ∧ c = .string u ∧ u < s := by
  obtain ⟨s, rfl⟩ | ⟨t, rfl⟩ := string_or_symbol_of_typeRank ha <;>
    obtain ⟨u, rfl⟩ | ⟨v, rfl⟩ := string_or_symbol_of_typeRank hc
  · exact ⟨s, u, rfl, rfl, order_string_eq_gt_iff.mp hgt⟩
  all_goals cases hgt

theorem not_mixed_strings (s u : String) : ¬ Mixed (.string s) (.string u) := by
  rintro ⟨_, _, ⟨-, h⟩ | ⟨h, -⟩⟩ <;> cases h

theorem intransitive_iff : (a.order b ≠ .gt ∧ b.order c ≠ .gt ∧ a.order c = .gt) ↔
    ∃ s t u, a = .string s ∧ b = .symbol t ∧ c = .string u ∧ u < s := by
  constructor
  · rintro ⟨hab, hbc, hac⟩
    have hrank : a.typeRank ≤ b.typeRank ∧ b.typeRank ≤ c.typeRank ∧ c.typeRank ≤ a.typeRank :=
      ⟨typeRank_le_of_order hab, typeRank_le_of_order hbc,
        typeRank_le_of_order (by rw [order_swap, hac]; decide)⟩
    have hnot : ¬ Mixed a c := fun hmixed => by simp [order_of_mixed hmixed] at hac
    -- Some pair is mixed, so all three are strings or symbols.
    have ha : a.typeRank = 3 := by
      by_cases hmixed : Mixed a b
      · exact hmixed.typeRank_eq
      · by_cases hmixed' : Mixed b c
        · have hb := hmixed'.typeRank_eq
          omega
        · exact absurd hac (order_trans hmixed hmixed' hnot hab hbc)
    obtain ⟨s, u, rfl, rfl, hlt⟩ := strings_of_order_eq_gt ha (by omega) hac
    obtain ⟨s', rfl⟩ | ⟨t, rfl⟩ := string_or_symbol_of_typeRank (a := b) (by omega)
    · exact absurd hac (order_trans (not_mixed_strings s s') (not_mixed_strings s' u) hnot hab hbc)
    · exact ⟨s, t, u, rfl, rfl, rfl, hlt⟩
  · rintro ⟨s, t, u, rfl, rfl, rfl, hlt⟩
    exact ⟨Ordering.noConfusion, Ordering.noConfusion, order_string_eq_gt_iff.mpr hlt⟩

/-- A string and a symbol compare alike with a third string only if it is the string of
the two. -/
theorem Mixed.order_ne_iff {u : String} (hmixed : Mixed a b) :
    a.order (.string u) ≠ b.order (.string u) ↔ a ≠ .string u ∧ b ≠ .string u := by
  have heq_iff : ∀ s, (Value.string s).order (.string u) = .eq ↔ s = u :=
    fun s => Std.compare_eq_iff_eq
  have hsymbol : ∀ t, (Value.symbol t).order (.string u) = .eq := fun t => rfl
  obtain ⟨s, t, ⟨rfl, rfl⟩ | ⟨rfl, rfl⟩⟩ := hmixed
  · rw [hsymbol, ne_eq, heq_iff]
    simp
  · rw [hsymbol, ne_comm, ne_eq, heq_iff]
    simp

theorem order_ne_iff_of_eq : (a.order b = .eq ∧ a.order c ≠ b.order c) ↔
    Mixed a b ∧ ∃ u, c = .string u ∧ a ≠ .string u ∧ b ≠ .string u := by
  constructor
  · rintro ⟨heq, hne⟩
    have hrank : a.typeRank = b.typeRank := typeRank_eq_of_order heq
    -- Were `a` and `b` not mixed, `c` would be mixed with both of them or with none.
    have hmixed : Mixed a b := by
      by_contra hab
      by_cases hac : Mixed a c
      · exact hne (by rw [order_of_mixed hac, order_of_mixed (hac.congr hrank hab)])
      · by_cases hbc : Mixed b c
        · exact hac (hbc.congr hrank.symm fun h => hab h.symm)
        · exact hne (order_congr hab hbc hac heq)
    refine ⟨hmixed, ?_⟩
    have ha : a.typeRank = 3 := hmixed.typeRank_eq
    by_cases hc : c.typeRank = 3
    · obtain ⟨u, rfl⟩ | ⟨v, rfl⟩ := string_or_symbol_of_typeRank hc
      · exact ⟨u, rfl, hmixed.order_ne_iff.mp hne⟩
      · obtain ⟨s, t, ⟨rfl, rfl⟩ | ⟨rfl, rfl⟩⟩ := hmixed <;> exact absurd rfl hne
    · rw [order_eq_compare_typeRank fun h => absurd (h.symm.trans ha) hc,
        order_eq_compare_typeRank fun h => absurd (h.symm.trans (hrank.symm.trans ha)) hc,
        hrank] at hne
      exact absurd rfl hne
  · rintro ⟨hmixed, u, rfl, hne⟩
    exact ⟨order_of_mixed hmixed, hmixed.order_ne_iff.mpr hne⟩

/-- **The order of values is a total one, but for symbols beside strings.**  Exchanging
two values reverses their order.  Going up twice is going up, unless a symbol stands
between two strings in the wrong order.  Equal values compare alike with every third
one, unless they are a string and a symbol, and the third one is another string. -/
theorem order_total_except_symbols (a b c : Value) :
    b.order a = (a.order b).swap ∧
      ((a.order b ≠ .gt ∧ b.order c ≠ .gt ∧ a.order c = .gt) ↔
        ∃ s t u, a = .string s ∧ b = .symbol t ∧ c = .string u ∧ u < s) ∧
      ((a.order b = .eq ∧ a.order c ≠ b.order c) ↔
        Mixed a b ∧ ∃ u, c = .string u ∧ a ≠ .string u ∧ b ≠ .string u) :=
  ⟨order_swap a b, intransitive_iff, order_ne_iff_of_eq⟩

/-- A symbol is equal to either of two strings of which one comes behind the other. -/
theorem order_symbol_between_strings :
    (Value.string "b").order (.symbol "b") = .eq ∧
      (Value.symbol "b").order (.string "a") = .eq ∧
      (Value.string "b").order (.string "a") = .gt :=
  ⟨rfl, rfl, by decide⟩

end DocShell.Value
