import DocShell.Failure.Outcome
import DocShell.Store.Write

/-!
# What a deletion leaves

A deletion first collects the places of the documents that satisfy its filter, and then
removes the document at each place, from the last place to the first.  A removal moves only
what stands behind it, so each place still belongs to its document when its turn comes.

* `keptDocuments`: the walk over a collection that passes over the same documents;
* `removeAt_of_doomed`: removing at the collected places leaves what the walk keeps;
* `delete_eq`: the deletion in terms of the walk, by which all else about it is proved.
-/

namespace DocShell.Store

variable {extent : Extent} {filter : Document} {docs kept : List Document}

/-- The documents that a deletion leaves. -/
def keptDocuments (extent : Extent) (filter : Document) :
    List Document → Except QueryFailure (List Document)
  | [] => .ok []
  | doc :: more =>
    match Filter.holds doc filter with
    | .error failure => .error failure
    | .ok false => (keptDocuments extent filter more).map (doc :: ·)
    | .ok true =>
      match extent with
      | .first => .ok more
      | .all => keptDocuments extent filter more

theorem sublist_of_keptDocuments (hkept : keptDocuments extent filter docs = .ok kept) :
    kept.Sublist docs := by
  induction docs generalizing kept with
  | nil =>
      cases hkept
      exact List.nil_sublist []
  | cons doc more ih =>
      unfold keptDocuments at hkept
      split at hkept
      · simp at hkept
      · cases hmore : keptDocuments extent filter more with
        | error failure => simp [hmore, Except.map] at hkept
        | ok rest =>
            simp only [hmore, Except.map, Except.ok.injEq] at hkept
            exact hkept ▸ (ih hmore).cons_cons doc
      · cases extent with
        | first =>
            simp only [Except.ok.injEq] at hkept
            exact hkept ▸ List.sublist_cons_self doc more
        | all => exact (ih hkept).cons doc

/-! ### The two phases -/

theorem removeAt_cons (place : Nat) (places : List Nat) (docs : List Document) :
    removeAt (place :: places) docs = (removeAt places docs).eraseIdx place := rfl

theorem eraseIdx_length_append (front : List Document) (doc : Document) (back : List Document) :
    (front ++ doc :: back).eraseIdx front.length = front ++ back := by
  rw [List.eraseIdx_append_of_length_le (Nat.le_refl _), Nat.sub_self, List.eraseIdx_cons_zero]

/-- The places fail where the walk does. -/
theorem keptDocuments_of_doomed_error {failure : QueryFailure} {place : Nat}
    (hdoomed : doomed extent filter place docs = .error failure) :
    keptDocuments extent filter docs = .error failure := by
  induction docs generalizing place with
  | nil => cases hdoomed
  | cons doc more ih =>
      unfold doomed at hdoomed
      unfold keptDocuments
      cases hholds : Filter.holds doc filter with
      | error failure' =>
          rw [hholds] at hdoomed
          cases hdoomed
          rfl
      | ok outcome =>
          rw [hholds] at hdoomed
          cases outcome with
          | false =>
              simp only [ih hdoomed]
              rfl
          | true =>
              cases extent with
              | first => cases hdoomed
              | all => exact ih (Outcome.map_eq_error.mp hdoomed)

/-- Removing at the places that were collected leaves `front` and what the walk keeps behind
it, and as many documents are gone as there are places. -/
theorem removeAt_of_doomed {front : List Document} {places : List Nat}
    (hdoomed : doomed extent filter front.length docs = .ok places) :
    ∃ kept, keptDocuments extent filter docs = .ok kept ∧
      removeAt places (front ++ docs) = front ++ kept ∧
      places.length + kept.length = docs.length := by
  induction docs generalizing front places with
  | nil =>
      cases hdoomed
      exact ⟨[], rfl, rfl, rfl⟩
  | cons doc more ih =>
      have hnext : doomed extent filter (front.length + 1) more =
          doomed extent filter (front ++ [doc]).length more := by
        rw [List.length_append, List.length_singleton]
      have hsplit : front ++ doc :: more = front ++ [doc] ++ more := by
        rw [List.append_assoc, List.singleton_append]
      unfold doomed at hdoomed
      unfold keptDocuments
      rw [hnext] at hdoomed
      cases hholds : Filter.holds doc filter with
      | error failure =>
          rw [hholds] at hdoomed
          cases hdoomed
      | ok outcome =>
          rw [hholds] at hdoomed
          cases outcome with
          | false =>
              obtain ⟨kept, hkept, hremoved, hlength⟩ := ih hdoomed
              refine ⟨doc :: kept, by simp only [hkept]; rfl, ?_, ?_⟩
              · rw [hsplit, hremoved, List.append_assoc, List.singleton_append]
              · rw [List.length_cons, List.length_cons]
                omega
          | true =>
              cases extent with
              | first =>
                  cases hdoomed
                  exact ⟨more, rfl, eraseIdx_length_append front doc more, Nat.add_comm ..⟩
              | all =>
                  obtain ⟨behind, hbehind, rfl⟩ := Outcome.map_eq_ok_iff.mp hdoomed
                  obtain ⟨kept, hkept, hremoved, hlength⟩ := ih hbehind
                  refine ⟨kept, hkept, ?_, ?_⟩
                  -- What stands behind is removed first, and the document keeps its place.
                  · calc removeAt (front.length :: behind) (front ++ doc :: more)
                        = (removeAt behind (front ++ [doc] ++ more)).eraseIdx front.length := by
                          rw [removeAt_cons, hsplit]
                      _ = (front ++ doc :: kept).eraseIdx front.length := by
                          rw [hremoved, List.append_assoc, List.singleton_append]
                      _ = front ++ kept := eraseIdx_length_append front doc kept
                  · rw [List.length_cons, List.length_cons]
                    omega

/-- A deletion leaves what the walk keeps and answers with the number of documents gone. -/
theorem delete_eq (store : Store) (ns : Namespace) (extent : Extent) (filter : Document) :
    store.delete ns extent filter =
      match store.collection? ns with
      | none => (store, .ok 0)
      | some docs =>
        match keptDocuments extent filter docs with
        | .error failure => (store, .error failure)
        | .ok kept => (store.put ns kept, .ok (docs.length - kept.length)) := by
  unfold delete
  cases store.collection? ns with
  | none => rfl
  | some docs =>
      cases hdoomed : doomed extent filter 0 docs with
      | error failure => simp only [hdoomed, keptDocuments_of_doomed_error hdoomed]
      | ok places =>
          obtain ⟨kept, hkept, hremoved, hlength⟩ := @removeAt_of_doomed _ _ _ [] _ hdoomed
          have hcount : places.length = docs.length - kept.length := by omega
          rw [List.nil_append, List.nil_append] at hremoved
          simp only [hdoomed, hkept, hremoved, hcount]

end DocShell.Store
