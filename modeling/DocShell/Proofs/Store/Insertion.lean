import DocShell.Proofs.Store.Selection

/-!
# What an insertion makes of a collection

The ids of a batch are compared with the stored ones and with each other before any
document is added, so an insertion goes through as a whole or not at all.

* `clash?_eq_none_iff`: no id is taken exactly when the ids of the batch differ from the
  stored ones and from each other;
* `insertMany_eq`: the two ways an insertion can go.

A failed insertion still asks for its collection, which is there afterwards.  So it leaves
the store as it was exactly if the collection was there before.
-/

namespace DocShell

namespace Store

/-! ### Ids that are taken -/

theorem clash?_eq_none_iff {taken ids : List Value} :
    clash? taken ids = none ↔
      (∀ other ∈ taken, ∀ id ∈ ids, other.same id = false) ∧
        ids.Pairwise fun other id => other.same id = false := by
  induction ids generalizing taken with
  | nil => simp [clash?]
  | cons id more ih =>
      rw [clash?]
      by_cases htaken : (taken.any fun other => other.same id) = true
      · obtain ⟨other, hother, hsame⟩ := List.any_eq_true.mp htaken
        rw [if_pos htaken]
        refine iff_of_false (by simp) ?_
        rintro ⟨hapart, -⟩
        rw [hapart other hother id (List.mem_cons_self ..)] at hsame
        exact absurd hsame Bool.false_ne_true
      · have hfree : ∀ other ∈ taken, other.same id = false := by simpa using htaken
        rw [if_neg htaken, ih, List.pairwise_cons]
        -- From here on the id counts as taken, so the others have to differ from it as well.
        constructor
        · rintro ⟨hapart, hmore⟩
          refine ⟨?_, ?_, hmore⟩
          · intro other hother id' hid'
            rcases List.mem_cons.mp hid' with rfl | hid'
            · exact hfree other hother
            · exact hapart other (List.mem_append_left _ hother) id' hid'
          · intro id' hid'
            exact hapart id (List.mem_append_right _ (List.mem_singleton_self id)) id' hid'
        · rintro ⟨hapart, hid, hmore⟩
          refine ⟨?_, hmore⟩
          intro other hother id' hid'
          rcases List.mem_append.mp hother with hother | hother
          · exact hapart other hother id' (List.mem_cons_of_mem _ hid')
          · rw [List.mem_singleton.mp hother]
            exact hid id' hid'

/-! ### The batch with its ids -/

theorem isSome_idOf?_withId (id : ObjectId) (doc : Document) :
    (idOf? (withId id doc)).isSome := by
  unfold withId
  split
  · assumption
  · simp [idOf?, Fields.get?]

theorem exists_of_mem_withIds {source : ObjectId.Source} {docs : List Document} {doc : Document}
    (hdoc : doc ∈ (withIds source docs).1) : ∃ id, ∃ given ∈ docs, doc = withId id given := by
  induction docs generalizing source with
  | nil => simp [withIds] at hdoc
  | cons given more ih =>
      simp only [withIds, List.mem_cons] at hdoc
      rcases hdoc with rfl | hdoc
      · exact ⟨_, given, List.mem_cons_self .., rfl⟩
      · obtain ⟨id, other, hother, rfl⟩ := ih hdoc
        exact ⟨id, other, List.mem_cons_of_mem _ hother, rfl⟩

theorem isSome_idOf?_of_mem_withIds {source : ObjectId.Source} {docs : List Document}
    {doc : Document} (hdoc : doc ∈ (withIds source docs).1) : (idOf? doc).isSome := by
  obtain ⟨id, given, -, rfl⟩ := exists_of_mem_withIds hdoc
  exact isSome_idOf?_withId id given

/-! ### The outcome -/

/-- An insertion adds the batch behind the stored documents, or fails with the first id
that is taken. -/
theorem insertMany_eq (store : Store) (ns : Namespace) (docs : List Document) :
    store.insertMany ns docs =
      match clash? ((store.documents ns).filterMap idOf?)
          ((withIds store.ids docs).1.filterMap idOf?) with
      | some id => (store.put ns (store.documents ns), .error (.duplicateKey ns id))
      | none =>
        ({ store.put ns (store.documents ns ++ (withIds store.ids docs).1) with
            ids := (withIds store.ids docs).2 },
          .ok ((withIds store.ids docs).1.filterMap idOf?)) := by
  unfold insertMany insertIdentified
  cases hclash : clash? ((store.documents ns).filterMap idOf?)
      ((withIds store.ids docs).1.filterMap idOf?) <;> simp [hclash]

theorem insertMany_of_error {store : Store} {ns : Namespace} {docs : List Document}
    {failure : StoreFailure} (hfailure : (store.insertMany ns docs).2 = .error failure) :
    (store.insertMany ns docs).1 = store.put ns (store.documents ns) := by
  rw [insertMany_eq] at hfailure ⊢
  split
  · rfl
  · rename_i hnone
    simp [hnone] at hfailure

/-- What is put back into its own place changes nothing. -/
theorem put_of_collection? {store : Store} {ns : Namespace} {docs : List Document}
    (hdocs : store.collection? ns = some docs) : store.put ns docs = store := by
  obtain ⟨database, hdatabase, hcollection⟩ := Option.bind_eq_some_iff.mp hdocs
  simp [put, hdatabase, Fields.insert_of_get? hcollection, Fields.insert_of_get? hdatabase]

theorem put_documents_eq_iff {store : Store} {ns : Namespace} :
    store.put ns (store.documents ns) = store ↔ (store.collection? ns).isSome = true := by
  constructor
  · intro hput
    rw [← hput, collection?_put, if_pos rfl]
    rfl
  · intro hsome
    obtain ⟨docs, hdocs⟩ := Option.isSome_iff_exists.mp hsome
    rw [documents_of_collection? hdocs]
    exact put_of_collection? hdocs

/-- One document can only clash with a stored one. -/
theorem isSome_collection?_of_insertOne {store : Store} {ns : Namespace} {doc : Document}
    {failure : StoreFailure} (hfailure : (store.insertOne ns doc).2 = .error failure) :
    (store.collection? ns).isSome = true := by
  cases hdocs : store.collection? ns with
  | some docs => rfl
  | none =>
      have hempty : store.documents ns = [] := by simp [documents, hdocs]
      have hfree : clash? [] ((withIds store.ids [doc]).1.filterMap idOf?) = none := by
        rw [clash?_eq_none_iff]
        obtain ⟨id, hid⟩ := Option.isSome_iff_exists.mp (isSome_idOf?_withId store.ids.next doc)
        simp [withIds, hid]
      simp [insertOne, insertMany_eq, hempty, hfree, Except.map] at hfailure

/-- **A failed insertion.**  One document that cannot be inserted leaves the store as it is.
A batch that cannot be inserted leaves all documents and the source of ids as they are, and
makes the collection if it is missing; so the store is the same exactly if the collection
was there. -/
theorem failed_insertion (store : Store) (ns : Namespace) :
    (∀ doc failure, (store.insertOne ns doc).2 = .error failure →
      (store.insertOne ns doc).1 = store) ∧
    ∀ docs failure, (store.insertMany ns docs).2 = .error failure →
      let after := (store.insertMany ns docs).1
      after = store.put ns (store.documents ns) ∧
        (∀ other, after.documents other = store.documents other) ∧
        (∀ other, other ≠ ns → after.collection? other = store.collection? other) ∧
        after.ids = store.ids ∧
        (after = store ↔ (store.collection? ns).isSome = true) := by
  constructor
  · intro doc failure hfailure
    have hmany : (store.insertMany ns [doc]).2 = .error failure := by
      cases hids : (store.insertMany ns [doc]).2 with
      | ok ids => simp [insertOne, hids, Except.map] at hfailure
      | error other => simpa [insertOne, hids, Except.map] using hfailure
    calc (store.insertOne ns doc).1
        = (store.insertMany ns [doc]).1 := rfl
      _ = store.put ns (store.documents ns) := insertMany_of_error hmany
      _ = store := put_documents_eq_iff.mpr (isSome_collection?_of_insertOne hfailure)
  · intro docs failure hfailure
    have hafter := insertMany_of_error hfailure
    simp only [hafter]
    refine ⟨trivial, ?_, ?_, rfl, put_documents_eq_iff⟩
    · intro other
      rw [documents_put]
      split
      · next heq => rw [heq]
      · rfl
    · intro other hother
      rw [collection?_put, if_neg (Ne.symm hother)]

/-- Two documents with one id, inserted into a store that holds nothing: the insertion
fails, and yet there is a collection afterwards. -/
theorem failed_insertion_makes_collection :
    let ns : Namespace := ⟨"shop", "items"⟩
    let docs : List Document := [[("_id", .int32 1)], [("_id", .int32 1)]]
    let after := (({} : Store).insertMany ns docs).1
    (({} : Store).insertMany ns docs).2 = .error (.duplicateKey ns (.int32 1)) ∧
      ({} : Store).listCollections "shop" = [] ∧ after.listCollections "shop" = ["items"] ∧
      ({} : Store).listDatabases = [] ∧ after.listDatabases = [⟨"shop", 0, true⟩] := by
  intro ns docs after
  have hafter : after = { databases := [("shop", [("items", [])])] } := rfl
  rw [hafter]
  refine ⟨rfl, ?_, ?_, ?_, ?_⟩ <;>
    simp [listCollections, listDatabases, sortedNames, summary, Fields.keys, Fields.get?]

end Store

end DocShell
