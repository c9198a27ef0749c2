import DocShell.Proofs.Store.Identity

/-!
# Which batches are accepted

An insertion draws an id for every document that has none, and then goes through for the whole
batch or for none of it.  Here the drawn ids are taken as given, one for each place of the
batch, so that what is said holds whatever they are: also of ids that are stored already or
that come twice.

* `withIds_eq`: what the source of a store hands out, place by place (`drawn`);
* `admission_insertIdentified`: what an insertion does for any ids given to its documents;
* `insertion_admits`: the same of an insertion that draws them itself.
-/

namespace DocShell.Store

variable {store : Store} {ns : Namespace} {docs : List Document} {fresh : Nat → ObjectId}

/-! ## The batch with its ids -/

/-- The documents with ids: a document that has one stays, and the one at place `i` gets
`fresh i` in front of its fields if it has none. -/
def completed (fresh : Nat → ObjectId) (docs : List Document) : List Document :=
  docs.mapIdx fun i doc =>
    if (idOf? doc).isSome then doc else ("_id", .objectId (fresh i)) :: doc

/-- The ids of the documents, their own or those given to them. -/
def batchIds (fresh : Nat → ObjectId) (docs : List Document) : List Value :=
  docs.mapIdx fun i doc => (idOf? doc).getD (.objectId (fresh i))

/-- The id that a source gives to the document at place `i`: the next one when the documents
in front of it have been served. -/
def drawn (source : ObjectId.Source) (docs : List Document) (i : Nat) : ObjectId :=
  (withIds source (docs.take i)).2.next

theorem withIds_eq (source : ObjectId.Source) (docs : List Document) :
    (withIds source docs).1 = completed (drawn source docs) docs := by
  induction docs generalizing source with
  | nil => rfl
  | cons doc more ih =>
      -- Behind the first document the places count on from the source that it leaves.
      have hshift : (fun i => drawn source (doc :: more) (i + 1)) =
          drawn (if (idOf? doc).isSome then source else source.advance) more := by
        funext i
        rfl
      simp only [completed, withIds, List.mapIdx_cons] at ih ⊢
      rw [ih]
      simp only [← hshift]
      rfl

/-- The ids of the batch are those of its documents, in order. -/
theorem map_idOf?_completed (fresh : Nat → ObjectId) (docs : List Document) :
    (completed fresh docs).map idOf? = (batchIds fresh docs).map some := by
  induction docs generalizing fresh with
  | nil => rfl
  | cons doc more ih =>
      have hmore := ih fun i => fresh (i + 1)
      simp only [completed, batchIds] at hmore
      simp only [completed, batchIds, List.mapIdx_cons, List.map_cons, hmore]
      cases hid : idOf? doc with
      | some id => simp [hid]
      | none => simp [idOf?, Fields.get?]

theorem filterMap_idOf?_completed (fresh : Nat → ObjectId) (docs : List Document) :
    (completed fresh docs).filterMap idOf? = batchIds fresh docs := by
  have hmap := congrArg (List.filterMap id) (map_idOf?_completed fresh docs)
  simpa [List.filterMap_map] using hmap

theorem wellFormed_of_mem_completed {doc : Document}
    (hdocs : ∀ given ∈ docs, (Value.document given).WellFormed)
    (hdoc : doc ∈ completed fresh docs) : (Value.document doc).WellFormed := by
  obtain ⟨i, hi, rfl⟩ := List.mem_mapIdx.mp hdoc
  exact wellFormed_withId (fresh i) (hdocs _ (List.getElem_mem hi))

/-! ## What an insertion does -/

/-- The id of the second document is not that of the first. -/
def Different (a b : Document) : Prop :=
  ∀ x y, idOf? a = some x → idOf? b = some y → x.same y = false

/-- What an insertion makes of a store and answers, if `fresh` are the ids that its documents
are given. -/
structure Admission (store : Store) (ns : Namespace) (docs : List Document)
    (fresh : Nat → ObjectId) (result : Store × Except StoreFailure (List Value)) : Prop where
  /-- No id of the batch is stored already, and none stands in the batch before. -/
  succeeds_iff : (∃ ids, result.2 = .ok ids) ↔
    (∀ doc ∈ store.documents ns, ∀ stored, idOf? doc = some stored →
      ∀ id ∈ batchIds fresh docs, stored.same id = false) ∧
    (batchIds fresh docs).Pairwise fun earlier id => earlier.same id = false
  /-- The documents follow the stored ones, and the answer lists their ids. -/
  added : ∀ ids, result.2 = .ok ids →
    result.1.documents ns = store.documents ns ++ completed fresh docs ∧
      ids.map some = (completed fresh docs).map idOf?
  /-- Ids that were different stay so. -/
  apart : ∀ ids, result.2 = .ok ids → (store.documents ns).Pairwise Different →
    (result.1.documents ns).Pairwise Different
  /-- Where no name stands twice in a document, each of two ids differs from the other. -/
  apart_both : ∀ ids, result.2 = .ok ids → (store.documents ns).Pairwise Different →
    (∀ doc ∈ store.documents ns ++ docs, (Value.document doc).WellFormed) →
    (result.1.documents ns).Pairwise fun a b => Different a b ∧ Different b a
  /-- A failure names an id of the batch and leaves the documents as they were. -/
  refused : ∀ failure, result.2 = .error failure →
    (∃ id ∈ batchIds fresh docs, failure = .duplicateKey ns id) ∧
      result.1.documents ns = store.documents ns
  /-- Every other collection stays as it was. -/
  elsewhere : ∀ other, other ≠ ns → result.1.documents other = store.documents other

theorem mem_of_clash? {taken ids : List Value} {id : Value} (hclash : clash? taken ids = some id) :
    id ∈ ids := by
  induction ids generalizing taken with
  | nil => cases hclash
  | cons first more ih =>
      rw [clash?] at hclash
      split at hclash
      · cases hclash
        exact List.mem_cons_self
      · exact List.mem_cons_of_mem _ (ih hclash)

theorem clash?_documents_eq_none_iff :
    clash? ((store.documents ns).filterMap idOf?) (batchIds fresh docs) = none ↔
      (∀ doc ∈ store.documents ns, ∀ stored, idOf? doc = some stored →
        ∀ id ∈ batchIds fresh docs, stored.same id = false) ∧
      (batchIds fresh docs).Pairwise fun earlier id => earlier.same id = false := by
  rw [clash?_eq_none_iff]
  refine and_congr_left fun _ => ?_
  simp only [List.mem_filterMap]
  constructor
  · intro hapart doc hdoc stored hid
    exact hapart stored ⟨doc, hdoc, hid⟩
  · rintro hapart stored ⟨doc, hdoc, hid⟩
    exact hapart doc hdoc stored hid

/-- A batch whose ids are free joins documents with different ids. -/
theorem pairwise_different_append
    (hfree : clash? ((store.documents ns).filterMap idOf?) (batchIds fresh docs) = none)
    (hstored : (store.documents ns).Pairwise Different) :
    (store.documents ns ++ completed fresh docs).Pairwise Different := by
  obtain ⟨hold, hnew⟩ := clash?_documents_eq_none_iff.mp hfree
  rw [← filterMap_idOf?_completed, List.pairwise_filterMap] at hnew
  rw [← filterMap_idOf?_completed] at hold
  refine List.pairwise_append.mpr ⟨hstored, ?_, ?_⟩
  · exact hnew.imp fun hab x y hx hy => hab x hx y hy
  · intro a ha b hb x y hx hy
    exact hold a ha x hx y (List.mem_filterMap.mpr ⟨b, hb, hy⟩)

theorem Different.symm {a b : Document} (hdifferent : Different a b)
    (ha : (Value.document a).WellFormed) (hb : (Value.document b).WellFormed) :
    Different b a := by
  intro y x hy hx
  rw [Bool.eq_false_iff]
  intro hsame
  have hback := Value.same_symm y x (Value.wellFormed_of_get? hb hy)
    (Value.wellFormed_of_get? ha hx) hsame
  rw [hdifferent x y hx hy] at hback
  cases hback

theorem pairwise_different_both
    (hapart : (store.documents ns ++ completed fresh docs).Pairwise Different)
    (hformed : ∀ doc ∈ store.documents ns ++ docs, (Value.document doc).WellFormed) :
    (store.documents ns ++ completed fresh docs).Pairwise
      fun a b => Different a b ∧ Different b a := by
  have hafter : ∀ doc ∈ store.documents ns ++ completed fresh docs,
      (Value.document doc).WellFormed := by
    intro doc hdoc
    rcases List.mem_append.mp hdoc with hdoc | hdoc
    · exact hformed doc (List.mem_append_left _ hdoc)
    · exact wellFormed_of_mem_completed
        (fun given hgiven => hformed given (List.mem_append_right _ hgiven)) hdoc
  exact hapart.imp_of_mem fun ha hb hab => ⟨hab, hab.symm (hafter _ ha) (hafter _ hb)⟩

/-- **Any ids given**: a batch with ids is added exactly if they are free. -/
theorem admission_insertIdentified (store : Store) (ns : Namespace) (docs : List Document)
    (fresh : Nat → ObjectId) :
    Admission store ns docs fresh (store.insertIdentified ns (completed fresh docs)) := by
  cases hclash : clash? ((store.documents ns).filterMap idOf?) (batchIds fresh docs) with
  | some id =>
      have hresult : store.insertIdentified ns (completed fresh docs) =
          (store.put ns (store.documents ns), .error (.duplicateKey ns id)) := by
        simp only [insertIdentified, filterMap_idOf?_completed, hclash]
      rw [hresult]
      have htaken := mt clash?_documents_eq_none_iff.mpr (by rw [hclash]; exact Option.some_ne_none id)
      exact
        { succeeds_iff := iff_of_false (by simp) htaken
          added := fun ids hok => by cases hok
          apart := fun ids hok => by cases hok
          apart_both := fun ids hok => by cases hok
          refused := fun failure hfailure => by
            cases hfailure
            exact ⟨⟨id, mem_of_clash? hclash, rfl⟩, by simp [documents_put]⟩
          elsewhere := fun other hother => by simp [documents_put, Ne.symm hother] }
  | none =>
      have hresult : store.insertIdentified ns (completed fresh docs) =
          (store.put ns (store.documents ns ++ completed fresh docs), .ok (batchIds fresh docs)) := by
        simp only [insertIdentified, filterMap_idOf?_completed, hclash]
      rw [hresult]
      have hfree := clash?_documents_eq_none_iff.mp hclash
      have hdocs : (store.put ns (store.documents ns ++ completed fresh docs)).documents ns =
          store.documents ns ++ completed fresh docs := by
        simp [documents_put]
      have hapart := pairwise_different_append hclash
      exact
        { succeeds_iff := iff_of_true ⟨_, rfl⟩ hfree
          added := fun ids hok => by
            cases hok
            exact ⟨hdocs, (map_idOf?_completed fresh docs).symm⟩
          apart := fun ids _ hstored => by
            rw [hdocs]
            exact hapart hstored
          apart_both := fun ids _ hstored hformed => by
            rw [hdocs]
            exact pairwise_different_both (hapart hstored) hformed
          refused := fun failure hfailure => by cases hfailure
          elsewhere := fun other hother => by simp [documents_put, Ne.symm hother] }

/-- Only the outcome and the documents matter. -/
theorem Admission.congr {result other : Store × Except StoreFailure (List Value)}
    (hadmission : Admission store ns docs fresh result) (houtcome : other.2 = result.2)
    (hdocuments : ∀ ns, other.1.documents ns = result.1.documents ns) :
    Admission store ns docs fresh other := by
  obtain ⟨hsucceeds, hadded, hapart, hboth, hrefused, helsewhere⟩ := hadmission
  constructor <;> simp only [houtcome, hdocuments] <;> assumption

/-- **An insertion accepts exactly the batches without duplicates**, whatever ids its documents
are given, and the insertion of a store is one of these: its documents are given the ids that
the source of the store hands out. -/
theorem insertion_admits (store : Store) (ns : Namespace) (docs : List Document) :
    (∀ fresh, Admission store ns docs fresh (store.insertIdentified ns (completed fresh docs))) ∧
      Admission store ns docs (drawn store.ids docs) (store.insertMany ns docs) := by
  refine ⟨admission_insertIdentified store ns docs, ?_⟩
  have hadmission := admission_insertIdentified store ns docs (drawn store.ids docs)
  rw [← withIds_eq] at hadmission
  cases hresult : store.insertIdentified ns (withIds store.ids docs).1 with
  | mk after outcome =>
      rw [hresult] at hadmission
      simp only [insertMany, hresult]
      cases outcome with
      | ok inserted => exact hadmission.congr rfl fun _ => rfl
      | error failure => exact hadmission

/-- Ids that are documents are equal in any order of their fields. -/
example :
    let ns : Namespace := ⟨"shop", "items"⟩
    let first : Value := .document [("a", .int32 1), ("b", .int32 2)]
    let second : Value := .document [("b", .int32 2), ("a", .int32 1)]
    (({} : Store).insertMany ns [[("_id", first)], [("_id", second)]]).2 =
      .error (.duplicateKey ns second) := by
  rfl

end DocShell.Store
