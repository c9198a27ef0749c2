import DocShell.Proofs.Query.BooleanAlgebra
import DocShell.Proofs.Value.Matching

/-!
# Range operators beside equality

`$gte` is `$gt` or `$eq` where the order of values and their equality agree, and where both
operators look at the same values.  Neither is always so:

* values of some types are ordered by their type alone (`Value.comparedByType`), so that
  `$gte` takes every value of the type for one that is not less;
* a missing field equals null, but no range operator finds anything there;
* an array as the operand of an equality is compared with the whole field, but with the
  items of the field by a range operator.

All operators but the last one look at the same `parts` of a field, so everything follows
from what the order says of two values that a range operator may compare
(`comparable_and_order_eq` and `order_of_comparedByType`).
-/

namespace DocShell

namespace Filter

variable {field : Option Value} {operand : Value}

/-! ### The parts of a field -/

/-- What operators look at: the items of an array, any other value itself. -/
def parts (field : Option Value) : List Value :=
  match field with
  | none => []
  | some (.array items) => items
  | some value => [value]

theorem compares_eq_any (field : Option Value) (operand : Value) (accept : Ordering → Bool) :
    compares field operand accept =
      (parts field).any fun value => value.comparable operand && accept (value.order operand) := by
  unfold compares parts
  split
  · rfl
  · rfl
  · simp

theorem equals_eq_any (harray : ∀ items, operand ≠ .array items)
    (hfield : operand = .null → field ≠ none) :
    equals field operand = (parts field).any fun value => value.matching operand := by
  unfold equals parts
  split
  · split
    · exact absurd rfl (hfield rfl)
    · rfl
  · split
    · exact absurd rfl (harray _)
    · rfl
  · simp

theorem any_or {α : Type} (items : List α) (p q : α → Bool) :
    (items.any fun item => p item || q item) = (items.any p || items.any q) := by
  rw [Bool.eq_iff_iff]
  simp only [List.any_eq_true, Bool.or_eq_true, and_or_left, exists_or]

/-! ### Ranges with their ends -/

section Ends

variable {accept strict : Ordering → Bool}

/-- A range with its end is the range without it, or a part that counts as equal. -/
theorem compares_or_eq (haccept : ∀ o, accept o = (strict o || o == .eq)) (field : Option Value)
    (operand : Value) :
    compares field operand accept = (compares field operand strict ||
      (parts field).any fun value => value.comparable operand && value.order operand == .eq) := by
  simp only [compares_eq_any, haccept, Bool.and_or_distrib_left, any_or]

theorem compares_or_equals (haccept : ∀ o, accept o = (strict o || o == .eq))
    (hcontent : operand.comparedByType = false) (hfield : operand = .null → field ≠ none) :
    compares field operand accept = (compares field operand strict || equals field operand) := by
  have harray : ∀ items, operand ≠ .array items := by
    rintro items rfl
    cases hcontent
  rw [compares_or_eq haccept, equals_eq_any harray hfield]
  simp only [Value.comparable_and_order_eq hcontent]

/-- Among values that are ordered by their type alone, all or none are in a range. -/
theorem compares_of_comparedByType (field : Option Value) (htype : operand.comparedByType = true)
    (accept : Ordering → Bool) :
    compares field operand accept =
      (accept .eq && (parts field).any fun value => value.typeTag == operand.typeTag) := by
  have hpart : ∀ value : Value, (value.comparable operand && accept (value.order operand)) =
      (accept .eq && value.typeTag == operand.typeTag) := by
    intro value
    have hnumber := Value.isNumber_of_comparedByType htype
    by_cases htag : value.typeTag = operand.typeTag
    · rw [(Value.comparable_iff_typeTag hnumber).mpr htag, Value.order_of_comparedByType htag htype]
      simp [htag]
    · rw [Bool.of_not_eq_true fun h => htag ((Value.comparable_iff_typeTag hnumber).mp h)]
      simp [htag]
  rw [compares_eq_any]
  simp only [hpart]
  cases accept .eq <;> simp

end Ends

theorem equals_of_comparedByType (field : Option Value) (htype : operand.comparedByType = true)
    (harray : ∀ items, operand ≠ .array items) :
    equals field operand = (parts field).any fun value => value.same operand := by
  have hnull : operand = .null → field ≠ none := by
    rintro rfl
    cases htype
  rw [equals_eq_any harray hnull]
  simp only [Value.matching_of_not_isNumber (Value.isNumber_of_comparedByType htype)]

theorem equals_array (field : Option Value) (items : List Value) :
    equals field (.array items) = field.any fun value => value.same (.array items) := by
  unfold equals
  split
  · rfl
  · exact Value.matching_of_not_isNumber rfl
  · exact Value.matching_of_not_isNumber rfl

/-! ### The operators on a document -/

/-- The operators that compare by the order. -/
def rangeOperators : List String :=
  ["$gt", "$gte", "$lt", "$lte"]

/-- **Range operators beside equality.**  None of the operators fails.  For an operand that
is compared by content, `$gte` is `$gt` or `$eq` and `$lte` is `$lt` or `$eq`, except that a
missing field equals null and is in no range.  Values that are ordered by their type alone
are neither greater nor less than one another, so that `$gte` and `$lte` accept all those of
the type; the ones that `$eq` accepts are among them, unless the operand is an array, which
`$eq` compares with the whole field. -/
theorem ranges_beside_equality (doc : Document) (path : String) (operand : Value)
    (hpath : isOperator path = false) :
    (∀ op ∈ "$eq" :: rangeOperators,
      holds doc (single path op operand) = .ok (accepts (single path op operand) doc)) ∧
    (operand.comparedByType = false → (operand = .null → Path.get? doc path ≠ none) →
      accepts (single path "$gte" operand) doc =
          (accepts (single path "$gt" operand) doc || accepts (single path "$eq" operand) doc) ∧
        accepts (single path "$lte" operand) doc =
          (accepts (single path "$lt" operand) doc ||
            accepts (single path "$eq" operand) doc)) ∧
    (operand = .null → Path.get? doc path = none →
      accepts (single path "$eq" operand) doc = true ∧
        ∀ op ∈ rangeOperators, accepts (single path op operand) doc = false) ∧
    (operand.comparedByType = true →
      let found := (parts (Path.get? doc path)).any fun value => value.typeTag == operand.typeTag
      accepts (single path "$gt" operand) doc = false ∧
        accepts (single path "$lt" operand) doc = false ∧
        accepts (single path "$gte" operand) doc = found ∧
        accepts (single path "$lte" operand) doc = found ∧
        ((∀ items, operand ≠ .array items) →
          accepts (single path "$eq" operand) doc =
              ((parts (Path.get? doc path)).any fun value => value.same operand) ∧
            (accepts (single path "$eq" operand) doc = true → found = true)) ∧
        (∀ items, operand = .array items →
          accepts (single path "$eq" operand) doc =
            (Path.get? doc path).any fun value => value.same operand)) := by
  have happlies : ∀ op ∈ "$eq" :: rangeOperators, Applies op operand := by
    intro op hop
    refine Or.inl ?_
    have hfree : ∀ op ∈ "$eq" :: rangeOperators, op ∈ freeOperators := by decide
    exact hfree op hop
  have hmeets : ∀ op ∈ "$eq" :: rangeOperators,
      accepts (single path op operand) doc = meets (Path.get? doc path) op operand :=
    fun op hop => accepts_single doc hpath (happlies op hop)
  have heq : accepts (single path "$eq" operand) doc = equals (Path.get? doc path) operand :=
    hmeets "$eq" (by decide)
  have hgt : accepts (single path "$gt" operand) doc =
      compares (Path.get? doc path) operand (· == .gt) := hmeets "$gt" (by decide)
  have hgte : accepts (single path "$gte" operand) doc =
      compares (Path.get? doc path) operand (· != .lt) := hmeets "$gte" (by decide)
  have hlt : accepts (single path "$lt" operand) doc =
      compares (Path.get? doc path) operand (· == .lt) := hmeets "$lt" (by decide)
  have hlte : accepts (single path "$lte" operand) doc =
      compares (Path.get? doc path) operand (· != .gt) := hmeets "$lte" (by decide)
  refine ⟨fun op hop => ?_, fun hcontent hfield => ?_, ?_, fun htype => ?_⟩
  · rw [hmeets op hop, holds_single doc hpath (happlies op hop)]
  · rw [hgt, hgte, hlt, hlte, heq]
    exact ⟨compares_or_equals (by rintro (_ | _ | _) <;> rfl) hcontent hfield,
      compares_or_equals (by rintro (_ | _ | _) <;> rfl) hcontent hfield⟩
  · rintro rfl hmissing
    refine ⟨by rw [heq, hmissing]; rfl, fun op hop => ?_⟩
    rw [hmeets op (List.mem_cons_of_mem _ hop), hmissing]
    have hnone : ∀ op ∈ rangeOperators, meets none op .null = false := by decide
    exact hnone op hop
  · rw [hgt, hgte, hlt, hlte, heq]
    simp only [compares_of_comparedByType _ htype]
    refine ⟨rfl, rfl, rfl, rfl, fun harray => ?_, ?_⟩
    · rw [equals_of_comparedByType _ htype harray]
      refine ⟨rfl, fun hany => ?_⟩
      obtain ⟨value, hvalue, hsame⟩ := List.any_eq_true.mp hany
      exact List.any_eq_true.mpr ⟨value, hvalue, by simp [Value.typeTag_eq_of_same hsame]⟩
    · rintro items rfl
      exact equals_array _ items

/-- An array of two numbers, of which one is greater than the operand and one equals it. -/
theorem ranges_beside_equality_array :
    let doc : Document := [("qty", .array [.int32 7, .double (Double.ofInt 5)])]
    isOperator "qty" = false ∧ (Value.int32 5).comparedByType = false ∧
      accepts (single "qty" "$gte" (.int32 5)) doc =
        (accepts (single "qty" "$gt" (.int32 5)) doc ||
          accepts (single "qty" "$eq" (.int32 5)) doc) := by
  intro doc
  have hpath : isOperator "qty" = false := by decide
  have hranges := ranges_beside_equality doc "qty" (.int32 5) hpath
  exact ⟨hpath, rfl, (hranges.2.1 rfl fun hnull => by cases hnull).1⟩

/-- A missing field is null, but not at least null; a document is at least another one that
it neither equals nor exceeds; and an array equals itself, but none of its items is at least
the array. -/
theorem ranges_apart_from_equality :
    let nested : Document := [("a", .document [("k", .int32 1)])]
    let row : Document := [("a", .array [.int32 1])]
    (holds [] (single "a" "$eq" .null) = .ok true ∧
        holds [] (single "a" "$gte" .null) = .ok false) ∧
      (holds nested (single "a" "$gte" (.document [])) = .ok true ∧
        holds nested (single "a" "$gt" (.document [])) = .ok false ∧
        holds nested (single "a" "$eq" (.document [])) = .ok false) ∧
      holds row (single "a" "$eq" (.array [.int32 1])) = .ok true ∧
        holds row (single "a" "$lte" (.array [.int32 1])) = .ok false := by
  refine ⟨⟨?_, ?_⟩, ⟨?_, ?_, ?_⟩, ?_, ?_⟩ <;> rfl

end Filter

end DocShell
