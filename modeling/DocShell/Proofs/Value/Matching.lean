import DocShell.Proofs.Value.Equality
import DocShell.Proofs.Value.Order

/-!
# Where the order of values is equality

A filter takes two numbers for equal if the order does, and other values if they have one
type and one content.  The order agrees with that on the types whose values it compares by
content (`comparable_and_order_eq`).  On the other types that have several values, those of
`Value.comparedByType`, it takes all values of a type for equal
(`order_of_comparedByType`).

What a filter takes for equal is symmetric on well-formed values (`matching_symm`) and
transitive (`matching_trans`): numbers are compared with numbers alone, and all else by
content.
-/

namespace DocShell

/-- Rows of digits of one length that denote the same number behind the same one are equal. -/
theorem ObjectId.digits_inj {digits others : List (Fin 16)} {n m : Nat}
    (hlength : digits.length = others.length)
    (heq : digits.foldl (fun n d => n * 16 + d.val) n =
      others.foldl (fun n d => n * 16 + d.val) m) : n = m ∧ digits = others := by
  induction digits generalizing others n m with
  | nil =>
      obtain rfl := List.length_eq_zero_iff.mp hlength.symm
      exact ⟨heq, rfl⟩
  | cons d more ih =>
      cases others with
      | nil => cases hlength
      | cons d' more' =>
          obtain ⟨hnumber, rfl⟩ := ih (Nat.succ.inj hlength) heq
          simp only at hnumber
          have hdigit : d = d' := Fin.ext (by omega)
          exact ⟨by omega, by rw [hdigit]⟩

theorem ObjectId.toNat_inj {id other : ObjectId} : id.toNat = other.toNat ↔ id = other := by
  refine ⟨fun heq => ?_, fun heq => heq ▸ rfl⟩
  obtain ⟨-, hdigits⟩ := digits_inj (id.length_digits.trans other.length_digits.symm) heq
  cases id
  cases other
  cases hdigits
  rfl

namespace Value

variable {a b c : Value}

/-- The type has several values, which the order does not tell apart. -/
def comparedByType : Value → Bool
  | .document _ | .array _ | .binary _ _ | .timestamp _ _ | .regex _ _ | .dbPointer _ _
  | .javaScript _ | .javaScriptWithScope _ _ | .symbol _ => true
  | _ => false

theorem typeTag_eq_of_same (hsame : a.same b = true) : a.typeTag = b.typeTag := by
  unfold same at hsame
  split at hsame <;> first | rfl | cases hsame

theorem isNumber_eq_of_typeTag (htag : a.typeTag = b.typeTag) : a.isNumber = b.isNumber := by
  have hnumber : ∀ v : Value, v.isNumber = decide (v.typeTag ∈ [0, 15, 17, 18]) := by
    intro v
    cases v <;> rfl
  rw [hnumber, hnumber, htag]

/-- Of two values of one type, none of them a number, the order is equality if it goes by
content. -/
theorem order_eq_eq_iff_same (htag : a.typeTag = b.typeTag) (hnumber : b.isNumber = false)
    (hcontent : b.comparedByType = false) : a.order b = .eq ↔ a.same b = true := by
  cases b with
  | string t =>
      obtain ⟨s, rfl⟩ : ∃ s, a = .string s := by cases a <;> simp [typeTag] at htag ⊢
      simp [order, isNumber, same]
  | objectId id =>
      obtain ⟨other, rfl⟩ : ∃ other, a = .objectId other := by
        cases a <;> simp [typeTag] at htag ⊢
      simp [order, isNumber, same, ObjectId.toNat_inj]
  | boolean x =>
      obtain ⟨y, rfl⟩ : ∃ y, a = .boolean y := by cases a <;> simp [typeTag] at htag ⊢
      cases x <;> cases y <;> decide
  | dateTime millis =>
      obtain ⟨other, rfl⟩ : ∃ other, a = .dateTime other := by
        cases a <;> simp [typeTag] at htag ⊢
      simp [order, isNumber, same, Int64.toInt_inj]
  | null | undefined | minKey | maxKey =>
      cases a <;> simp [typeTag] at htag
      simp [order, isNumber, same, typeRank]
  | int32 | int64 | double | decimal128 => cases hnumber
  | _ => cases hcontent

/-- Two values of a type that is ordered by the type alone count as equal. -/
theorem order_of_comparedByType (htag : a.typeTag = b.typeTag)
    (htype : b.comparedByType = true) : a.order b = .eq := by
  cases b <;> cases htype <;> cases a <;> first | rfl | simp [typeTag] at htag

theorem comparable_iff_typeTag (hnumber : b.isNumber = false) :
    a.comparable b = true ↔ a.typeTag = b.typeTag := by
  simp [comparable, hnumber]

theorem isNumber_of_comparedByType (htype : b.comparedByType = true) : b.isNumber = false := by
  cases b <;> first | rfl | cases htype

/-- A range operator finds values equal to one that is compared by content where an equality
finds them. -/
theorem comparable_and_order_eq (hcontent : b.comparedByType = false) :
    (a.comparable b && a.order b == .eq) = a.matching b := by
  cases hnumber : b.isNumber with
  | true =>
      cases hnumber' : a.isNumber with
      | true => simp [comparable, matching, hnumber, hnumber']
      | false =>
          have htag : a.typeTag ≠ b.typeTag := fun htag => by
            rw [isNumber_eq_of_typeTag htag, hnumber] at hnumber'
            cases hnumber'
          have hsame : a.same b = false := by
            rw [← Bool.not_eq_true]
            exact fun hsame => htag (typeTag_eq_of_same hsame)
          simp [comparable, matching, hnumber', htag, hsame]
  | false =>
      rw [Bool.eq_iff_iff, Bool.and_eq_true, comparable_iff_typeTag hnumber, beq_iff_eq, matching,
        if_neg (by simp [hnumber])]
      constructor
      · exact fun ⟨htag, heq⟩ => (order_eq_eq_iff_same htag hnumber hcontent).mp heq
      · intro hsame
        have htag := typeTag_eq_of_same hsame
        exact ⟨htag, (order_eq_eq_iff_same htag hnumber hcontent).mpr hsame⟩

/-- Numbers are matched by numbers with the same place in the order of doubles. -/
theorem matching_iff_of_isNumber (hnumber : b.isNumber = true) :
    a.matching b = true ↔ a.isNumber = true ∧ a.toDouble.rank = b.toDouble.rank := by
  cases hnumber' : a.isNumber with
  | true =>
      rw [matching, if_pos (by rw [hnumber, hnumber']; rfl), order_of_isNumber hnumber' hnumber,
        beq_iff_eq, Int.compare_eq_eq]
      simp
  | false =>
      have hsame : a.same b ≠ true := fun hsame => by
        rw [isNumber_eq_of_typeTag (typeTag_eq_of_same hsame), hnumber] at hnumber'
        cases hnumber'
      simp [matching, hnumber', hsame]

theorem matching_of_not_isNumber (hnumber : b.isNumber = false) : a.matching b = a.same b := by
  simp [matching, hnumber]

theorem matching_symm (ha : a.WellFormed) (hb : b.WellFormed) (hmatching : a.matching b = true) :
    b.matching a = true := by
  cases hnumber : b.isNumber with
  | true =>
      obtain ⟨hnumber', hrank⟩ := (matching_iff_of_isNumber hnumber).mp hmatching
      exact (matching_iff_of_isNumber hnumber').mpr ⟨hnumber, hrank.symm⟩
  | false =>
      rw [matching_of_not_isNumber hnumber] at hmatching
      have hnumber' : a.isNumber = false :=
        (isNumber_eq_of_typeTag (typeTag_eq_of_same hmatching)).trans hnumber
      rw [matching_of_not_isNumber hnumber']
      exact same_symm a b ha hb hmatching

theorem matching_trans (hab : a.matching b = true) (hbc : b.matching c = true) :
    a.matching c = true := by
  cases hnumber : c.isNumber with
  | true =>
      obtain ⟨hnumber', hrank⟩ := (matching_iff_of_isNumber hnumber).mp hbc
      obtain ⟨hnumber'', hrank'⟩ := (matching_iff_of_isNumber hnumber').mp hab
      exact (matching_iff_of_isNumber hnumber).mpr ⟨hnumber'', hrank'.trans hrank⟩
  | false =>
      rw [matching_of_not_isNumber hnumber] at hbc ⊢
      have hnumber' : b.isNumber = false :=
        (isNumber_eq_of_typeTag (typeTag_eq_of_same hbc)).trans hnumber
      rw [matching_of_not_isNumber hnumber'] at hab
      exact same_trans a b c hab hbc

end Value

end DocShell
