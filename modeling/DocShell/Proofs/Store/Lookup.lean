import DocShell.Proofs.Query.Ranges
import DocShell.Proofs.Store.Identity
import DocShell.Proofs.Value.Quantity

/-!
# Looking a document up by its id

Ids are told apart by equality of content, but a filter looks into arrays and compares numbers
of all types.  So a filter for an id finds the document that has it, and may take two kinds of
other documents for it (`Value.Recalls`):

* one whose id is the same number in another type, or another decimal for it;
* one whose id is an array that holds the id asked for, or such a number.

Where none of these stands in front, the first document that the filter finds is the one
that has the id (`lookup_by_id`).  That is so as far as numbers are exact: of an id that is a
different number with the same nearest double (`Value.LostInRounding`) nothing is said.
-/

namespace DocShell

namespace Value

/-- Neither an array nor a document. -/
def isScalar : Value → Bool
  | .array _ | .document _ => false
  | _ => true

/-- The value is another writing of the number `id`, or an array with an item that is `id` or
another writing of it. -/
def Recalls (other id : Value) : Prop :=
  other.IsOtherWriting id ∨
    ∃ items, other = .array items ∧ ∃ item ∈ items, item.same id = true ∨ item.IsOtherWriting id

/-- Among what a filter for `id` looks at in `other`, the items of an array or the value itself,
there is a different number with the same nearest double. -/
def LostInRounding (other id : Value) : Prop :=
  ∃ part ∈ Filter.parts (some other), part.RoundedTogether id

/-- Among exact values, such as doubles and short integers, no number gets lost. -/
theorem not_lostInRounding_of_isExact {other id : Value} (hid : id.IsExact)
    (hother : ∀ part ∈ Filter.parts (some other), part.IsExact) : ¬ other.LostInRounding id := by
  rintro ⟨part, hpart, hround⟩
  exact not_roundedTogether_of_isExact (hother part hpart) hid hround

theorem isOtherWriting_array {items : List Value} {id : Value} :
    ¬ (Value.array items).IsOtherWriting id := by
  rintro ⟨⟨_, hitems, -⟩, -⟩
  cases hitems

theorem order_self {value : Value} (hnumber : value.isNumber = true) :
    value.order value = .eq := by
  simp [order, hnumber, Double.order]

theorem matching_self {value : Value} (hself : value.same value = true) :
    value.matching value = true := by
  unfold matching
  split
  · rename_i hnumber
    rw [order_self (by simpa using hnumber)]
    rfl
  · exact hself

end Value

namespace Filter

variable {doc : Document} {id other : Value}

theorem same_or_recalls_of_equals (hscalar : id.isScalar = true) (hnan : id.isNaN = false)
    (hequals : equals (some other) id = true) (hrounded : ¬ other.LostInRounding id) :
    other.same id = true ∨ other.Recalls id := by
  have harray : ∀ items, id ≠ .array items := by
    rintro items rfl
    exact absurd hscalar Bool.false_ne_true
  rw [equals_eq_any harray fun _ => Option.some_ne_none other, List.any_eq_true] at hequals
  obtain ⟨part, hpart, hmatching⟩ := hequals
  have hexact : ¬ part.RoundedTogether id := fun hround => hrounded ⟨part, hpart, hround⟩
  have hcases := Value.matching_cases hmatching hnan hexact
  cases other with
  | array items => exact Or.inr (Or.inr ⟨items, rfl, part, hpart, hcases⟩)
  | _ =>
      obtain rfl := List.mem_singleton.mp hpart
      exact hcases.imp_right Or.inl

theorem equals_self (hscalar : id.isScalar = true) (hself : id.same id = true) :
    equals (some id) id = true := by
  cases id with
  | array _ => exact absurd hscalar Bool.false_ne_true
  | _ => exact Value.matching_self hself

/-- A filter for a scalar id never fails: it compares the field. -/
theorem holds_id (doc : Document) (hscalar : id.isScalar = true) :
    holds doc [("_id", id)] = .ok (equals (Store.idOf? doc) id) := by
  have hget : Path.get? doc "_id" = Store.idOf? doc := by
    have hsegments : Path.segments "_id" = ["_id"] := by rfl
    rw [Path.get?, hsegments]
    rfl
  have hentry : holdsEntry doc "_id" id = .ok (equals (Store.idOf? doc) id) := by
    cases id with
    | document fields => exact absurd hscalar Bool.false_ne_true
    | _ => simp [holdsEntry, isConnective, holdsPath, isOperator, holdsField, operators?, hget]
  rw [holds, hentry]
  cases equals (Store.idOf? doc) id <;> rfl

end Filter

namespace Store

/-! ### Walks that meet their document behind others -/

section Walks

variable {filter change doc : Document} {front back : List Document}

theorem select_of_split (hfront : ∀ other ∈ front, Filter.holds other filter = .ok false)
    (hdoc : Filter.holds doc filter = .ok true)
    (hback : ∀ other ∈ back, ∃ outcome, Filter.holds other filter = .ok outcome) :
    ∃ rest, Filter.select filter (front ++ doc :: back) = .ok (doc :: rest) := by
  refine ⟨back.filter (Filter.accepts filter), Filter.select_eq_ok_iff.mpr ⟨?_, ?_⟩⟩
  · intro other hother
    rcases List.mem_append.mp hother with hother | hother
    · rw [hfront other hother, Filter.accepts_of_holds (hfront other hother)]
    · rcases List.mem_cons.mp hother with rfl | hother
      · rw [hdoc, Filter.accepts_of_holds hdoc]
      · obtain ⟨outcome, houtcome⟩ := hback other hother
        rw [houtcome, Filter.accepts_of_holds houtcome]
  · have hnone : front.filter (Filter.accepts filter) = [] := by
      rw [List.filter_eq_nil_iff]
      intro other hother
      simp [Filter.accepts_of_holds (hfront other hother)]
    simp [hnone, Filter.accepts_of_holds hdoc]

theorem updateDocuments_of_split (hfront : ∀ other ∈ front, Filter.holds other filter = .ok false)
    (hdoc : Filter.holds doc filter = .ok true) :
    updateDocuments .first filter change (front ++ doc :: back) =
      (front ++ Update.revised change doc :: back,
        (Update.apply change doc).2.map (UpdateCount.add {})) := by
  induction front with
  | nil =>
      cases happly : (Update.apply change doc).2 with
      | error failure =>
          have hfails : Update.FailsOn filter change failure doc := Or.inr ⟨hdoc, happly⟩
          rw [List.nil_append, updateDocuments_cons_of_failsOn hfails,
            Update.revised_of_error happly]
          rfl
      | ok changed =>
          rw [List.nil_append, updateDocuments_cons_first ⟨hdoc, changed, happly⟩,
            Update.reports_of_ok happly]
          rfl
  | cons other front ih =>
      have hmore := ih fun other' hother' => hfront other' (List.mem_cons_of_mem _ hother')
      rw [List.cons_append, updateDocuments_cons_of_not (hfront other (List.mem_cons_self ..)),
        hmore]
      rfl

theorem keptDocuments_of_split (hfront : ∀ other ∈ front, Filter.holds other filter = .ok false)
    (hdoc : Filter.holds doc filter = .ok true) :
    keptDocuments .first filter (front ++ doc :: back) = .ok (front ++ back) := by
  induction front with
  | nil => simp [keptDocuments, hdoc]
  | cons other front ih =>
      have hmore := ih fun other' hother' => hfront other' (List.mem_cons_of_mem _ hother')
      simp [keptDocuments, hfront other (List.mem_cons_self ..), hmore, Except.map]

/-- Finding, updating and deleting one act on the document between `front` and `back`, and
on no other. -/
structure ActsOnOne (store : Store) (ns : Namespace) (filter : Document)
    (front : List Document) (doc : Document) (back : List Document) : Prop where
  findOne_eq : store.findOne ns filter none = .ok (some doc)
  update_eq : ∀ change, store.update ns .first filter change =
    (store.put ns (front ++ Update.revised change doc :: back),
      (Update.apply change doc).2.map (UpdateCount.add {}))
  delete_eq : store.delete ns .first filter = (store.put ns (front ++ back), .ok 1)

theorem actsOnOne_of_split {store : Store} {ns : Namespace}
    (hdocs : store.documents ns = front ++ doc :: back)
    (hfront : ∀ other ∈ front, Filter.holds other filter = .ok false)
    (hdoc : Filter.holds doc filter = .ok true)
    (hback : ∀ other ∈ back, ∃ outcome, Filter.holds other filter = .ok outcome) :
    store.ActsOnOne ns filter front doc back := by
  have hcollection : store.collection? ns = some (front ++ doc :: back) := by
    cases hfound : store.collection? ns with
    | some docs => rw [← hdocs, documents_of_collection? hfound]
    | none => simp [documents, hfound] at hdocs
  refine { findOne_eq := ?_, update_eq := ?_, delete_eq := ?_ }
  · obtain ⟨rest, hselect⟩ := select_of_split hfront hdoc hback
    rw [← hdocs] at hselect
    exact findOne_of_select hselect
  · intro change
    simp only [update, hcollection, updateDocuments_of_split hfront hdoc]
  · have hremoved : (front ++ doc :: back).length - (front ++ back).length = 1 := by
      simp only [List.length_append, List.length_cons]
      omega
    simp only [Store.delete_eq, hcollection, keptDocuments_of_split hfront hdoc, hremoved]

end Walks

/-! ### The documents of an identified collection -/

section Identified

variable {shared : Prop} {doc other : Document} {front back : List Document} {id : Value}

/-- No other document has an id equal to a scalar one. -/
theorem Identified.same_eq_false (hdocs : Identified shared (front ++ doc :: back))
    (hid : idOf? doc = some id) (hscalar : id.isScalar = true) (hother : other ∈ front ++ back)
    {x : Value} (hx : idOf? other = some x) : x.same id = false := by
  have happly : Apart shared other doc ∨ Apart shared doc other := by
    have hpairs := List.pairwise_append.mp hdocs.apart
    rcases List.mem_append.mp hother with hother | hother
    · exact Or.inl (hpairs.2.2 other hother doc (List.mem_cons_self ..))
    · exact Or.inr ((List.pairwise_cons.mp hpairs.2.1).1 other hother)
  have hmem : other ∈ front ++ doc :: back :=
    ((List.sublist_cons_self doc back).append_left front).subset hother
  have hwell := Value.wellFormed_of_get? (hdocs.wellFormed other hmem) hx
  have hdoc : doc ∈ front ++ doc :: back := List.mem_append_right _ (List.mem_cons_self ..)
  have hwell' := Value.wellFormed_of_get? (hdocs.wellFormed doc hdoc) hid
  rw [← Bool.not_eq_true]
  intro hsame
  -- Equal ids are documents, and the id asked for is none.
  rcases happly with hapart | hapart
  · obtain ⟨-, fields, rfl⟩ := hapart x id hx hid hsame
    cases id <;> simp [Value.same] at hsame
    simp [Value.isScalar] at hscalar
  · obtain ⟨-, fields, rfl⟩ := hapart id x hid hx (Value.same_symm x id hwell hwell' hsame)
    simp [Value.isScalar] at hscalar

/-- The filter accepts another document only if its id recalls the one asked for, roundings
apart. -/
theorem Identified.holds_other (hdocs : Identified shared (front ++ doc :: back))
    (hid : idOf? doc = some id) (hscalar : id.isScalar = true) (hnan : id.isNaN = false)
    (hother : other ∈ front ++ back) :
    ∃ x outcome, idOf? other = some x ∧ Filter.holds other [("_id", id)] = .ok outcome ∧
      (¬ x.LostInRounding id → outcome = true → x.Recalls id) := by
  have hmem : other ∈ front ++ doc :: back :=
    ((List.sublist_cons_self doc back).append_left front).subset hother
  obtain ⟨x, hx⟩ := Option.isSome_iff_exists.mp (hdocs.hasId other hmem)
  refine ⟨x, _, hx, Filter.holds_id other hscalar, ?_⟩
  intro hrounded hequals
  rw [hx] at hequals
  rcases Filter.same_or_recalls_of_equals hscalar hnan hequals hrounded with hsame | hrecalls
  · rw [hdocs.same_eq_false hid hscalar hother hx] at hsame
    exact absurd hsame Bool.false_ne_true
  · exact hrecalls

end Identified

/-- **Lookup by id.**  In a store that started empty and has answered any requests, a filter
for an id that is neither an array nor a document nor a NaN, and that equals itself, accepts
the document that has this id and fails on no other.  It accepts another document only if that
one's id recalls it, unless a rounding is in play.  If no document in front has an id of either
kind, then finding one, updating one and deleting one by the id act on the document. -/
theorem lookup_by_id (source : ObjectId.Source) (requests : List Request)
    (hrequests : ∀ request ∈ requests, request.WellFormed) (ns : Namespace)
    (front back : List Document) (doc : Document) (id : Value)
    (hdocs : (afterAll { ids := source } requests).documents ns = front ++ doc :: back)
    (hid : idOf? doc = some id) (hscalar : id.isScalar = true) (hnan : id.isNaN = false)
    (hself : id.same id = true) :
    Filter.holds doc [("_id", id)] = .ok true ∧
      (∀ other ∈ front ++ back, ∃ x outcome, idOf? other = some x ∧
        Filter.holds other [("_id", id)] = .ok outcome ∧
          (¬ x.LostInRounding id → outcome = true → x.Recalls id)) ∧
      ((∀ other ∈ front, ∀ x, idOf? other = some x →
          ¬ x.LostInRounding id ∧ ¬ x.Recalls id) →
        (afterAll { ids := source } requests).ActsOnOne ns [("_id", id)] front doc back) := by
  have hidentified := identified_of_empty source hrequests ns
  rw [hdocs] at hidentified
  have hdoc : Filter.holds doc [("_id", id)] = .ok true := by
    rw [Filter.holds_id doc hscalar, hid, Filter.equals_self hscalar hself]
  have hothers : ∀ other ∈ front ++ back, ∃ x outcome, idOf? other = some x ∧
      Filter.holds other [("_id", id)] = .ok outcome ∧
        (¬ x.LostInRounding id → outcome = true → x.Recalls id) := by
    intro other hother
    exact hidentified.holds_other hid hscalar hnan hother
  refine ⟨hdoc, hothers, ?_⟩
  intro hfront
  apply actsOnOne_of_split hdocs _ hdoc
  · intro other hother
    obtain ⟨x, outcome, -, houtcome, -⟩ := hothers other (List.mem_append_right _ hother)
    exact ⟨outcome, houtcome⟩
  · intro other hother
    obtain ⟨x, outcome, hx, houtcome, haccepted⟩ :=
      hothers other (List.mem_append_left _ hother)
    obtain ⟨hrounded, hrecalls⟩ := hfront other hother x hx
    by_cases htrue : outcome = true
    · exact absurd (haccepted hrounded htrue) hrecalls
    · rw [houtcome, Bool.of_not_eq_true htrue]

/-- Of four documents the first is deleted; the last is then looked up behind one with an array
of another number and one with a number that no double holds. -/
theorem lookup_by_id_behind_numbers :
    let ns : Namespace := ⟨"shop", "items"⟩
    let front : List Document :=
      [[("_id", .array [.int64 8])], [("_id", .int64 9007199254740993)]]
    let doc : Document := [("_id", .int32 7)]
    let requests : List Request :=
      [.insertMany ns ([("_id", .string "a")] :: front ++ [doc]),
        .delete ns .first [("_id", .string "a")]]
    let store := afterAll {} requests
    store.documents ns = front ++ [doc] ∧
      store.ActsOnOne ns [("_id", .int32 7)] front doc [] := by
  intro ns front doc requests store
  have hrequests : ∀ request ∈ requests, request.WellFormed := by
    simp [requests, front, doc, Request.WellFormed, Value.FieldsWellFormed, Value.WellFormed,
      Value.ItemsWellFormed, Fields.keys]
  have hdocs : store.documents ns = front ++ doc :: [] := rfl
  have hseven : (Value.int32 7).toInt? = some 7 := by decide
  have height : (Value.int64 8).toInt? = some 8 := by decide
  have hlong : (Value.int64 9007199254740993).toInt? = some 9007199254740993 := by decide
  have hwriting : ∀ (value : Value) (n : Int), value.toInt? = some n → n ≠ 7 →
      ¬ value.IsOtherWriting (.int32 7) := by
    intro value n hvalue hn hother
    exact hn ((Value.equalNumber_iff_of_toInt? hvalue hseven).mp hother.1)
  have harray : ¬ (Value.array [.int64 8]).LostInRounding (.int32 7) := by
    apply Value.not_lostInRounding_of_isExact (Value.isExact_of_toInt? hseven (by decide))
    intro part hpart
    obtain rfl := List.mem_singleton.mp hpart
    exact Value.isExact_of_toInt? height (by decide)
  have hinteger : ¬ (Value.int64 9007199254740993).LostInRounding (.int32 7) := by
    rintro ⟨part, hpart, hround⟩
    obtain rfl := List.mem_singleton.mp hpart
    -- Seven shares its nearest double with no other integer.
    have hnearest := ((Value.roundedTogether_iff_of_toInt? hlong hseven).mp hround).2
    exact absurd (Double.eq_of_nearest_eq (by decide) hnearest.symm) (by decide)
  have hfront : ∀ other ∈ front, ∀ x, idOf? other = some x →
      ¬ x.LostInRounding (.int32 7) ∧ ¬ x.Recalls (.int32 7) := by
    intro other hother x hx
    simp only [front, List.mem_cons, List.not_mem_nil, or_false] at hother
    rcases hother with rfl | rfl
    · cases hx
      have hother := hwriting _ _ height (by decide)
      exact ⟨harray, by simp [Value.Recalls, Value.isOtherWriting_array, Value.same, hother]⟩
    · cases hx
      have hother := hwriting _ _ hlong (by decide)
      exact ⟨hinteger, by simp [Value.Recalls, hother]⟩
  exact ⟨hdocs, (lookup_by_id default requests hrequests ns _ _ _ _ hdocs rfl rfl rfl rfl).2.2
    hfront⟩

/-- Three ids that an insertion tells apart and a filter does not: the filter for the second
accepts all three documents, and deleting one by it removes the first.  And an id that does
not equal itself, a code with a NaN in its scope, is not found at all. -/
theorem lookup_by_id_across_types :
    let ns : Namespace := ⟨"shop", "items"⟩
    let docs : List Document :=
      [[("_id", .array [.int32 1])], [("_id", .int32 1)], [("_id", .int64 1)]]
    let store := afterAll {} [.insertMany ns docs]
    let code := Value.javaScriptWithScope "f" [("x", .double (Double.nan false))]
    store.documents ns = docs ∧
      (∀ doc ∈ docs, Filter.holds doc [("_id", .int32 1)] = .ok true) ∧
      store.delete ns .first [("_id", .int32 1)] =
        (store.put ns [[("_id", .int32 1)], [("_id", .int64 1)]], .ok 1) ∧
      (afterAll {} [.insertOne ns [("_id", code)]]).documents ns = [[("_id", code)]] ∧
      Filter.holds [("_id", code)] [("_id", code)] = .ok false := by
  intro ns docs store code
  have hself : (Value.int32 1).matching (.int32 1) = true := Value.matching_self rfl
  have hcross : (Value.int64 1).matching (.int32 1) = true := by
    -- Both numbers have the same nearest double.
    have horder : (Value.int64 1).order (.int32 1) = (Value.int32 1).order (.int32 1) := rfl
    rw [Value.matching, horder, Value.order_self rfl]
    rfl
  have hholds : ∀ doc ∈ docs, Filter.holds doc [("_id", .int32 1)] = .ok true := by
    intro doc hdoc
    rw [Filter.holds_id doc rfl]
    simp only [docs, List.mem_cons, List.not_mem_nil, or_false] at hdoc
    rcases hdoc with rfl | rfl | rfl
    · simp [idOf?, Fields.get?, Filter.equals, hself]
    · simp [idOf?, Fields.get?, Filter.equals, hself]
    · simp [idOf?, Fields.get?, Filter.equals, hcross]
  refine ⟨rfl, hholds, ?_, rfl, rfl⟩
  have hcollection : store.collection? ns = some docs := rfl
  have hkept : keptDocuments .first [("_id", .int32 1)] docs =
      .ok [[("_id", .int32 1)], [("_id", .int64 1)]] := by
    simp only [keptDocuments, docs, hholds _ (List.mem_cons_self ..)]
  simp only [Store.delete_eq, hcollection, hkept]
  rfl

end Store

end DocShell
