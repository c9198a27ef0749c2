import DocShell.Proofs.List.StableSort
import DocShell.Proofs.Query.Path
import DocShell.Proofs.Query.Ranges
import DocShell.Query.Distinct

/-!
# What distinct keeps

The values found at a path are looked at one after the other, and one that matches a value
that is kept already is dropped.  So every kept value was found (`found_of_mem_values`), and
every found value is kept or matches a kept one (`covers_values`).

## Strategy

* Matching is symmetric and transitive on well-formed values, so a kept value is apart from
  all the others, whichever came first (`pairwise_apart`), and a value matches a kept one
  exactly if it matches one that was found (`exists_mem_values_iff`).
* A filter looks at the same parts of a field as distinct does, so a filter for a value finds
  a document exactly if the value matches one that was found (`exists_holds_iff`).
* Without symbols the order of values is transitive, and the outcome is in order
  (`pairwise_order`).
-/

namespace DocShell.Distinct

open DocShell.Filter (holds isOperator parts)

variable {path : String} {docs : List Document} {seen more : List Value} {value : Value}

/-- The values found at a path, those of the first document in front. -/
def found (path : String) (docs : List Document) : List Value :=
  docs.flatMap fun doc => candidates doc path

/-- The value is kept, or it matches a kept one. -/
def Covers (kept : List Value) (value : Value) : Prop :=
  value ∈ kept ∨ ∃ other ∈ kept, other.matching value = true

/-- One value is kept for both. -/
def Merges (path : String) (docs : List Document) (a b : Value) : Prop :=
  ∃ value ∈ values path docs, value.matching a = true ∧ value.matching b = true

theorem mem_values_iff : value ∈ values path docs ↔ value ∈ (found path docs).foldl add [] :=
  (List.mergeSort_perm ..).mem_iff

/-! ### One value more -/

theorem mem_add_of_mem {other : Value} (hmem : value ∈ seen) : value ∈ add seen other := by
  unfold add
  split
  · exact hmem
  · exact List.mem_append_left _ hmem

theorem mem_of_mem_add {other : Value} (hmem : value ∈ add seen other) :
    value ∈ seen ∨ value = other := by
  unfold add at hmem
  split at hmem
  · exact Or.inl hmem
  · exact (List.mem_append.mp hmem).imp_right List.mem_singleton.mp

theorem covers_add (seen : List Value) (value : Value) : Covers (add seen value) value := by
  unfold add
  split
  · next hany => exact Or.inr (List.any_eq_true.mp hany)
  · exact Or.inl (List.mem_append_right _ (List.mem_singleton_self value))

theorem Covers.add (hcovers : Covers seen value) (other : Value) :
    Covers (add seen other) value :=
  hcovers.imp mem_add_of_mem fun ⟨kept, hkept, hmatching⟩ =>
    ⟨kept, mem_add_of_mem hkept, hmatching⟩

/-! ### All values -/

theorem Covers.foldl (hcovers : Covers seen value) (more : List Value) :
    Covers (more.foldl Distinct.add seen) value := by
  induction more generalizing seen with
  | nil => exact hcovers
  | cons other more ih => exact ih (hcovers.add other)

theorem covers_foldl (hmem : value ∈ more) : Covers (more.foldl add seen) value := by
  induction more generalizing seen with
  | nil => cases hmem
  | cons other more ih =>
      rcases List.mem_cons.mp hmem with rfl | hmem
      · exact (covers_add seen value).foldl more
      · exact ih hmem

theorem mem_of_mem_foldl (hmem : value ∈ more.foldl add seen) : value ∈ seen ∨ value ∈ more := by
  induction more generalizing seen with
  | nil => exact Or.inl hmem
  | cons other more ih =>
      rcases ih hmem with hadd | hmore
      · rcases mem_of_mem_add hadd with hseen | rfl
        · exact Or.inl hseen
        · exact Or.inr (List.mem_cons_self ..)
      · exact Or.inr (List.mem_cons_of_mem _ hmore)

/-- Nothing is made up. -/
theorem found_of_mem_values (hmem : value ∈ values path docs) : value ∈ found path docs :=
  (mem_of_mem_foldl (mem_values_iff.mp hmem)).resolve_left List.not_mem_nil

/-- Nothing is lost. -/
theorem covers_values (hmem : value ∈ found path docs) : Covers (values path docs) value :=
  (covers_foldl hmem).imp mem_values_iff.mpr fun ⟨kept, hkept, hmatching⟩ =>
    ⟨kept, mem_values_iff.mpr hkept, hmatching⟩

/-! ### No two of a kind -/

theorem pairwise_add (hseen : seen.Pairwise fun a b => a.matching b = false) (value : Value) :
    (add seen value).Pairwise fun a b => a.matching b = false := by
  unfold add
  split
  · exact hseen
  · next hany =>
      rw [List.pairwise_append]
      refine ⟨hseen, List.pairwise_singleton .., fun other hother last hlast => ?_⟩
      rw [List.mem_singleton.mp hlast, ← Bool.not_eq_true]
      exact fun hmatching => hany (List.any_eq_true.mpr ⟨other, hother, hmatching⟩)

theorem pairwise_foldl (hseen : seen.Pairwise fun a b => a.matching b = false)
    (more : List Value) : (more.foldl add seen).Pairwise fun a b => a.matching b = false := by
  induction more generalizing seen with
  | nil => exact hseen
  | cons value more ih => exact ih (pairwise_add hseen value)

/-- The two values do not match, whichever is asked for. -/
def Apart (a b : Value) : Prop :=
  a.matching b = false ∧ b.matching a = false

theorem apart_of_wellFormed {a b : Value} (ha : a.WellFormed) (hb : b.WellFormed)
    (hmatching : a.matching b = false) : Apart a b := by
  refine ⟨hmatching, ?_⟩
  rw [← Bool.not_eq_true] at hmatching ⊢
  exact fun hback => hmatching (Value.matching_symm hb ha hback)

theorem pairwise_apart (hfound : ∀ value ∈ found path docs, value.WellFormed) :
    (values path docs).Pairwise Apart := by
  have hkept : ∀ value ∈ (found path docs).foldl add [], value.WellFormed := fun value hmem =>
    hfound value (found_of_mem_values (mem_values_iff.mpr hmem))
  have hapart : ((found path docs).foldl add []).Pairwise Apart :=
    (pairwise_foldl List.Pairwise.nil _).imp_of_mem fun ha hb hmatching =>
      apart_of_wellFormed (hkept _ ha) (hkept _ hb) hmatching
  exact (List.mergeSort_perm ..).symm.pairwise hapart fun h => ⟨h.2, h.1⟩

/-! ### The order -/

/-- Values that are no symbols are ordered transitively. -/
theorem transCmp_order : Std.TransCmp fun a b : { value : Value // ∀ s, value ≠ .symbol s } =>
    Value.order a b where
  eq_swap := Value.order_swap _ _
  isLE_trans := by
    intro a b c hab hbc
    have hmixed : ∀ a b : { value : Value // ∀ s, value ≠ .symbol s }, ¬ Value.Mixed a b := by
      rintro a b ⟨s, t, ⟨-, hb⟩ | ⟨ha, -⟩⟩
      · exact b.2 t hb
      · exact a.2 t ha
    rw [← Ordering.ne_gt_iff_isLE] at hab hbc ⊢
    exact Value.order_trans (hmixed a b) (hmixed b c) (hmixed a c) hab hbc

theorem pairwise_order (hfound : ∀ s, Value.symbol s ∉ found path docs) :
    (values path docs).Pairwise fun a b => a.order b ≠ .gt := by
  have hkept : ∀ value ∈ (found path docs).foldl add [], ∀ s, value ≠ .symbol s := by
    rintro value hmem s rfl
    exact hfound s (found_of_mem_values (mem_values_iff.mpr hmem))
  have htrans := transCmp_order
  exact (stablySorted_mergeSort_of_mem hkept).ordered

/-! ### Values and filters -/

theorem candidates_eq (doc : Document) (path : String) :
    candidates doc path = parts (Path.get? doc path) := by
  unfold candidates parts
  cases Path.get? doc path with
  | none => rfl
  | some value => cases value <;> rfl

theorem mem_found_iff :
    value ∈ found path docs ↔ ∃ doc ∈ docs, value ∈ parts (Path.get? doc path) := by
  simp only [found, List.mem_flatMap, candidates_eq]

theorem wellFormed_of_mem_parts {field : Option Value}
    (hfield : ∀ value, field = some value → value.WellFormed) (hmem : value ∈ parts field) :
    value.WellFormed := by
  unfold parts at hmem
  split at hmem
  · cases hmem
  · exact Value.itemsWellFormed_iff.mp (hfield _ rfl) value hmem
  · exact List.mem_singleton.mp hmem ▸ hfield _ rfl

theorem wellFormed_of_mem_found (hdocs : ∀ doc ∈ docs, (Value.document doc).WellFormed) :
    ∀ value ∈ found path docs, value.WellFormed := by
  intro value hmem
  obtain ⟨doc, hdoc, hvalue⟩ := mem_found_iff.mp hmem
  exact wellFormed_of_mem_parts (fun _ hget => Path.wellFormed_getAt? (hdocs doc hdoc) hget) hvalue

/-- A value matches a kept one exactly if it matches one that was found. -/
theorem exists_mem_values_iff (hfound : ∀ value ∈ found path docs, value.WellFormed)
    (hvalue : value.WellFormed) :
    (∃ kept ∈ values path docs, value.matching kept = true) ↔
      ∃ other ∈ found path docs, other.matching value = true := by
  constructor
  · rintro ⟨kept, hkept, hmatching⟩
    have hmem := found_of_mem_values hkept
    exact ⟨kept, hmem, Value.matching_symm hvalue (hfound kept hmem) hmatching⟩
  · rintro ⟨other, hother, hmatching⟩
    obtain ⟨kept, hkept, hmatching⟩ : ∃ kept ∈ values path docs, kept.matching value = true := by
      rcases covers_values hother with hkept | ⟨kept, hkept, hcovers⟩
      · exact ⟨other, hkept, hmatching⟩
      · exact ⟨kept, hkept, Value.matching_trans hcovers hmatching⟩
    have hmem := found_of_mem_values hkept
    exact ⟨kept, hkept, Value.matching_symm (hfound kept hmem) hvalue hmatching⟩

/-- A filter compares the value with the items of an array: it is neither an array itself nor
a document that starts with an operator. -/
def ComparesItems (value : Value) : Prop :=
  (∀ items, value ≠ .array items) ∧
    ∀ op operand more, value = .document ((op, operand) :: more) → isOperator op = false

theorem operators?_of_comparesItems (hvalue : ComparesItems value) :
    Filter.operators? value = none := by
  unfold Filter.operators?
  split
  · exact if_neg (by rw [hvalue.2 _ _ _ rfl]; decide)
  · rfl

theorem holds_of_comparesItems {doc : Document} (hpath : isOperator path = false)
    (hvalue : ComparesItems value) (hpresent : (Path.get? doc path).isSome = true) :
    holds doc [(path, value)] =
      .ok ((parts (Path.get? doc path)).any fun other => other.matching value) := by
  have hfield : value = .null → Path.get? doc path ≠ none := fun _ hnone => by
    rw [hnone] at hpresent
    cases hpresent
  rw [Filter.holds_field doc hpath, Filter.holdsField, operators?_of_comparesItems hvalue]
  exact congrArg Except.ok (Filter.equals_eq_any hvalue.1 hfield)

theorem exists_holds_iff (hpath : isOperator path = false) (hvalue : ComparesItems value) :
    (∃ doc ∈ docs, (Path.get? doc path).isSome = true ∧ holds doc [(path, value)] = .ok true) ↔
      ∃ other ∈ found path docs, other.matching value = true := by
  constructor
  · rintro ⟨doc, hdoc, hpresent, hholds⟩
    rw [holds_of_comparesItems hpath hvalue hpresent, Except.ok.injEq, List.any_eq_true] at hholds
    obtain ⟨other, hother, hmatching⟩ := hholds
    exact ⟨other, mem_found_iff.mpr ⟨doc, hdoc, hother⟩, hmatching⟩
  · rintro ⟨other, hother, hmatching⟩
    obtain ⟨doc, hdoc, hparts⟩ := mem_found_iff.mp hother
    have hpresent : (Path.get? doc path).isSome = true := by
      cases hget : Path.get? doc path with
      | none => simp [hget, parts] at hparts
      | some _ => rfl
    refine ⟨doc, hdoc, hpresent, ?_⟩
    rw [holds_of_comparesItems hpath hvalue hpresent, List.any_eq_true.mpr ⟨other, hparts, hmatching⟩]

/-- The document has the value at the path, or an array with the value among its items. -/
def OccursIn (doc : Document) (path : String) (value : Value) : Prop :=
  Path.get? doc path = some value ∨
    ∃ items, Path.get? doc path = some (.array items) ∧ value ∈ items

theorem occursIn_of_mem_parts {doc : Document} (hmem : value ∈ parts (Path.get? doc path)) :
    OccursIn doc path value := by
  unfold parts at hmem
  split at hmem
  · cases hmem
  · exact Or.inr ⟨_, ‹_›, hmem⟩
  · exact Or.inl (List.mem_singleton.mp hmem ▸ ‹_›)

/-- **Distinct values stand for all values of a field.**  They are in order, no two of them
match, and each one occurs in a document.  A value that a filter compares item by item
matches one of them exactly if the filter for it accepts a document that has the path. -/
theorem distinct_values (hpath : isOperator path = false)
    (hdocs : ∀ doc ∈ docs, (Value.document doc).WellFormed)
    (hsymbols : ∀ s, Value.symbol s ∉ found path docs) :
    (values path docs).Pairwise (fun a b => a.order b ≠ .gt) ∧
      (values path docs).Pairwise Apart ∧
      (∀ value ∈ values path docs, ∃ doc ∈ docs, OccursIn doc path value) ∧
      ∀ value : Value, value.WellFormed → ComparesItems value →
        ((∃ kept ∈ values path docs, value.matching kept = true) ↔
          ∃ doc ∈ docs, (Path.get? doc path).isSome = true ∧
            holds doc [(path, value)] = .ok true) := by
  have hfound : ∀ value ∈ found path docs, value.WellFormed := wellFormed_of_mem_found hdocs
  refine ⟨pairwise_order hsymbols, pairwise_apart hfound, ?_, ?_⟩
  · intro value hvalue
    obtain ⟨doc, hdoc, hparts⟩ := mem_found_iff.mp (found_of_mem_values hvalue)
    exact ⟨doc, hdoc, occursIn_of_mem_parts hparts⟩
  · intro value hwell hitems
    rw [exists_mem_values_iff hfound hwell, exists_holds_iff hpath hitems]

/-- Numbers of two types that are one value, found by a number of a third type, beside a
document that does not even equal itself. -/
theorem distinct_values_mixed :
    let docs : List Document :=
      [[("tags", .array [.string "b", .double (Double.ofInt 2), .int32 2])], [("name", .null)],
        [("tags", .document [("k", .double (Double.nan false))])]]
    let value : Value := .int64 2
    isOperator "tags" = false ∧ (∀ doc ∈ docs, (Value.document doc).WellFormed) ∧
      (∀ s, Value.symbol s ∉ found "tags" docs) ∧ value.WellFormed ∧ ComparesItems value ∧
      (values "tags" docs).Pairwise Apart ∧
      ∃ kept ∈ values "tags" docs, value.matching kept = true := by
  intro docs value
  have hpath : isOperator "tags" = false := by decide
  have hdocs : ∀ doc ∈ docs, (Value.document doc).WellFormed := by
    simp [docs, Value.WellFormed, Value.FieldsWellFormed, Value.ItemsWellFormed, Fields.keys]
  have hfound : found "tags" docs = [.string "b", .double (Double.ofInt 2), .int32 2,
      .document [("k", .double (Double.nan false))]] := rfl
  have hsymbols : ∀ s, Value.symbol s ∉ found "tags" docs := by simp [hfound]
  have hitems : ComparesItems value := by simp [ComparesItems, value]
  obtain ⟨-, hapart, -, hfilter⟩ := distinct_values hpath hdocs hsymbols
  refine ⟨hpath, hdocs, hsymbols, trivial, hitems, hapart, (hfilter value trivial hitems).mpr ?_⟩
  exact (exists_holds_iff hpath hitems).mpr ⟨.int32 2, by simp [hfound], by decide +kernel⟩

end DocShell.Distinct
