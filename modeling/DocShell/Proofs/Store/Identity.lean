import DocShell.Plan.Request
import DocShell.Proofs.Plan.ReadOnly
import DocShell.Proofs.Query.Update
import DocShell.Proofs.Store.Insertion
import DocShell.Proofs.Store.Updating

/-!
# Ids over the life of a store

Insertions compare the ids of a batch with those that are there, and updates refuse the
path `_id`.  Here it is shown what follows for a store that starts empty and answers any
requests, failed ones included.

## Strategy

`Identified shared` says of the documents of a collection that they have ids, that their
names stand once, and that no two of them have equal ids.  The parameter `shared` is the one
way out: if it holds, two ids that are both documents may be equal.

* An insertion compares ids itself (`Identified.insert`), and what a deletion leaves is a
  part of what was there (`Identified.sublist`).
* An update revises documents in their places, and each keeps its id or, where the update
  reaches into ids, keeps a document for an id (`forall₂_update`, `Identified.revise`).
* So one request keeps `Identified shared`, provided that `shared` holds if the request
  reaches into ids (`identified_run`), and so does a run (`identified_afterAll`).

For a whole run `shared` is taken to be that some request of it reaches into ids.
-/

namespace DocShell

/-! ## Requests -/

namespace Request

/-- Every document of the request that can come to be stored has each name once. -/
def WellFormed : Request → Prop
  | .insertOne _ doc => (Value.document doc).WellFormed
  | .insertMany _ docs => ∀ doc ∈ docs, (Value.document doc).WellFormed
  | .update _ _ _ change => (Value.document change).WellFormed
  | _ => True

/-- The request is an update with a path that leads behind `_id`. -/
def ReachesIntoId : Request → Prop
  | .update _ _ _ change => Update.ReachesIntoId change
  | _ => False

end Request

namespace Store

/-- The store after it has answered requests one after the other. -/
def afterAll (store : Store) (requests : List Request) : Store :=
  requests.foldl (fun store request => (request.run store).1) store

/-! ## Documents with ids -/

/-- The ids of two documents are not equal, except that documents may serve as equal ids
where ids are shared. -/
def Apart (shared : Prop) (a b : Document) : Prop :=
  ∀ x y, idOf? a = some x → idOf? b = some y → x.same y = true →
    shared ∧ ∃ fields, x = .document fields

/-- The documents have ids, no name stands in them twice, and their ids differ. -/
structure Identified (shared : Prop) (docs : List Document) : Prop where
  hasId : ∀ doc ∈ docs, (idOf? doc).isSome
  wellFormed : ∀ doc ∈ docs, (Value.document doc).WellFormed
  apart : docs.Pairwise (Apart shared)

variable {shared : Prop} {docs : List Document} {ns : Namespace} {store : Store}

theorem identified_nil (shared : Prop) : Identified shared [] :=
  ⟨by simp, by simp, .nil⟩

theorem Identified.sublist {kept : List Document} (hdocs : Identified shared docs)
    (hkept : kept.Sublist docs) : Identified shared kept :=
  { hasId := fun doc hdoc => hdocs.hasId doc (hkept.subset hdoc)
    wellFormed := fun doc hdoc => hdocs.wellFormed doc (hkept.subset hdoc)
    apart := hdocs.apart.sublist hkept }

/-- No name standing twice, it does not matter which of two documents comes first. -/
theorem Identified.apart_symm (hdocs : Identified shared docs) :
    docs.Pairwise fun a b => Apart shared a b ∧ Apart shared b a := by
  refine hdocs.apart.imp_of_mem ?_
  intro a b ha hb hab
  refine ⟨hab, ?_⟩
  intro y x hy hx hsame
  have hxy := Value.same_symm y x (Value.wellFormed_of_get? (hdocs.wellFormed b hb) hy)
    (Value.wellFormed_of_get? (hdocs.wellFormed a ha) hx) hsame
  obtain ⟨hshared, fields, rfl⟩ := hab x y hx hy hxy
  cases y <;> simp [Value.same] at hsame
  exact ⟨hshared, _, rfl⟩

/-! ### Insertion -/

theorem wellFormed_withId {doc : Document} (id : ObjectId)
    (hdoc : (Value.document doc).WellFormed) : (Value.document (withId id doc)).WellFormed := by
  unfold withId
  split
  · exact hdoc
  · rename_i hnone
    rw [Option.isSome_iff_ne_none, ne_eq, not_not, idOf?, Fields.get?_eq_none_iff] at hnone
    exact ⟨List.nodup_cons.mpr ⟨hnone, hdoc.1⟩, trivial, hdoc.2⟩

/-- A batch whose ids are not taken joins the stored documents. -/
theorem Identified.insert {source : ObjectId.Source} {batch : List Document}
    (hdocs : Identified shared docs) (hbatch : ∀ doc ∈ batch, (Value.document doc).WellFormed)
    (hfree : clash? (docs.filterMap idOf?) ((withIds source batch).1.filterMap idOf?) = none) :
    Identified shared (docs ++ (withIds source batch).1) := by
  obtain ⟨hstored, hnew⟩ := clash?_eq_none_iff.mp hfree
  rw [List.pairwise_filterMap] at hnew
  refine ⟨?_, ?_, List.pairwise_append.mpr ⟨hdocs.apart, hnew.imp ?_, ?_⟩⟩
  · intro doc hdoc
    rcases List.mem_append.mp hdoc with hdoc | hdoc
    · exact hdocs.hasId doc hdoc
    · exact isSome_idOf?_of_mem_withIds hdoc
  · intro doc hdoc
    rcases List.mem_append.mp hdoc with hdoc | hdoc
    · exact hdocs.wellFormed doc hdoc
    · obtain ⟨id, given, hgiven, rfl⟩ := exists_of_mem_withIds hdoc
      exact wellFormed_withId id (hbatch given hgiven)
  · intro a b hab x y hx hy hsame
    rw [hab x hx y hy] at hsame
    exact absurd hsame Bool.false_ne_true
  · intro a ha b hb x y hx hy hsame
    rw [hstored x (List.mem_filterMap.mpr ⟨a, ha, hx⟩) y (List.mem_filterMap.mpr ⟨b, hb, hy⟩)]
      at hsame
    exact absurd hsame Bool.false_ne_true

theorem identified_insertMany {batch : List Document}
    (hstore : ∀ ns, Identified shared (store.documents ns))
    (hbatch : ∀ doc ∈ batch, (Value.document doc).WellFormed) (other : Namespace) :
    Identified shared ((store.insertMany ns batch).1.documents other) := by
  rw [insertMany_eq]
  split
  · rw [documents_put]
    split <;> exact hstore _
  · rename_i hfree
    have hdocs := (hstore ns).insert hbatch hfree
    have hput := documents_put store ns other
      (store.documents ns ++ (withIds store.ids batch).1)
    change Identified shared ((store.put ns _).documents other)
    rw [hput]
    split
    · exact hdocs
    · exact hstore other

/-! ### Deletion -/

theorem identified_delete {extent : Extent} {filter : Document}
    (hstore : ∀ ns, Identified shared (store.documents ns)) (other : Namespace) :
    Identified shared ((store.delete ns extent filter).1.documents other) := by
  rw [delete_eq]
  split
  · exact hstore other
  · rename_i docs hdocs
    split
    · exact hstore other
    · rename_i kept hkept
      rw [documents_put]
      split
      · have hns := hstore ns
        rw [documents_of_collection? hdocs] at hns
        exact hns.sublist (sublist_of_keptDocuments hkept)
      · exact hstore other

/-! ### Update -/

/-- A document and what an update has made of it, if anything. -/
def UpdatedBy (change before after : Document) : Prop :=
  after = before ∨ after = (Update.apply change before).1

theorem updatedBy_revised (change doc : Document) :
    UpdatedBy change doc (Update.revised change doc) := by
  unfold Update.revised
  split
  · rename_i updated happly
    exact Or.inr (by rw [happly])
  · exact Or.inl rfl

theorem forall₂_settled (extent : Extent) (filter change : Document) (docs : List Document) :
    List.Forall₂ (UpdatedBy change) docs (settled extent filter change docs) := by
  induction docs with
  | nil => cases extent <;> exact .nil
  | cons doc more ih =>
      have hsame : List.Forall₂ (UpdatedBy change) more more :=
        List.forall₂_same.mpr fun doc _ => Or.inl rfl
      cases haccepts : Filter.accepts filter doc with
      | false =>
          rw [settled_cons_of_not haccepts]
          exact .cons (Or.inl rfl) ih
      | true =>
          cases extent with
          | first =>
              rw [settled_cons_first haccepts]
              exact .cons (updatedBy_revised change doc) hsame
          | all =>
              rw [settled_cons_all haccepts]
              exact .cons (updatedBy_revised change doc) ih

theorem forall₂_updateDocuments (extent : Extent) (filter change : Document)
    (docs : List Document) :
    List.Forall₂ (UpdatedBy change) docs (updateDocuments extent filter change docs).1 := by
  cases hwalk : (updateDocuments extent filter change docs).2 with
  | ok count =>
      rw [(updateDocuments_of_ok hwalk).1]
      exact forall₂_settled extent filter change docs
  | error failure =>
      obtain ⟨k, -, -, -, hdocs⟩ := updateDocuments_of_error hwalk
      rw [hdocs]
      conv => arg 2; rw [← List.take_append_drop k docs]
      exact List.rel_append (forall₂_settled extent filter change _)
        (List.forall₂_same.mpr fun doc _ => Or.inl rfl)

/-- An update leaves the documents of a collection in their places, each as it was or as the
update makes it. -/
theorem forall₂_update (store : Store) (ns : Namespace) (extent : Extent)
    (filter change : Document) :
    List.Forall₂ (UpdatedBy change) (store.documents ns)
      ((store.update ns extent filter change).1.documents ns) := by
  cases hdocs : store.collection? ns with
  | none =>
      have hempty : store.documents ns = [] := by simp [documents, hdocs]
      simp only [update, hdocs, hempty]
      exact .nil
  | some docs =>
      simp only [update, hdocs, documents_put, if_true, documents_of_collection? hdocs]
      exact forall₂_updateDocuments extent filter change docs

theorem UpdatedBy.keepsId {change before after : Document} (hupdated : UpdatedBy change before after)
    (hid : (idOf? before).isSome) : Update.KeepsId (Update.ReachesIntoId change) before after := by
  rcases hupdated with rfl | rfl
  · exact Update.keepsId_refl _ _
  · exact Update.keepsId_apply change hid

theorem UpdatedBy.wellFormed {change before after : Document}
    (hupdated : UpdatedBy change before after) (hchange : (Value.document change).WellFormed)
    (hbefore : (Value.document before).WellFormed) : (Value.document after).WellFormed := by
  rcases hupdated with rfl | rfl
  · exact hbefore
  · exact Update.wellFormed_apply hchange hbefore

/-- Two documents stay apart if their ids are kept. -/
theorem Apart.revise {inside : Prop} {a b a' b' : Document} (hapart : Apart shared a b)
    (hinside : inside → shared) (ha : Update.KeepsId inside a a')
    (hb : Update.KeepsId inside b b') : Apart shared a' b' := by
  intro x y hx hy hsame
  rcases ha with ha | ⟨hin, -, new, -, hnew⟩
  · rcases hb with hb | ⟨hin, -, new, -, hnew⟩
    · exact hapart x y (ha ▸ hx) (hb ▸ hy) hsame
    · -- Only a document equals the second id, which is one.
      rw [hnew, Option.some.injEq] at hy
      subst hy
      cases x <;> simp [Value.same] at hsame
      exact ⟨hinside hin, _, rfl⟩
  · rw [hnew, Option.some.injEq] at hx
    exact ⟨hinside hin, new, hx.symm⟩

theorem Identified.revise {change : Document} {after : List Document}
    (hdocs : Identified shared docs) (hshared : Update.ReachesIntoId change → shared)
    (hchange : (Value.document change).WellFormed)
    (hafter : List.Forall₂ (UpdatedBy change) docs after) : Identified shared after := by
  -- Documents keep their places, so each is compared with the one at its own index.
  have hlength := hafter.length_eq
  have hget : ∀ i (hi : i < docs.length) (hi' : i < after.length),
      UpdatedBy change docs[i] after[i] := by
    intro i hi hi'
    simpa using (List.forall₂_iff_get.mp hafter).2 i hi hi'
  have hkeeps : ∀ i (hi : i < docs.length) (hi' : i < after.length),
      Update.KeepsId (Update.ReachesIntoId change) docs[i] after[i] := by
    intro i hi hi'
    exact (hget i hi hi').keepsId (hdocs.hasId _ (List.getElem_mem hi))
  refine ⟨?_, ?_, List.pairwise_iff_getElem.mpr ?_⟩
  · intro doc hdoc
    obtain ⟨i, hi', rfl⟩ := List.mem_iff_getElem.mp hdoc
    have hi : i < docs.length := by omega
    exact (hkeeps i hi hi').isSome (hdocs.hasId _ (List.getElem_mem hi))
  · intro doc hdoc
    obtain ⟨i, hi', rfl⟩ := List.mem_iff_getElem.mp hdoc
    have hi : i < docs.length := by omega
    exact (hget i hi hi').wellFormed hchange (hdocs.wellFormed _ (List.getElem_mem hi))
  · intro i j hi' hj' hij
    have hi : i < docs.length := by omega
    have hj : j < docs.length := by omega
    have hapart := List.pairwise_iff_getElem.mp hdocs.apart i j hi hj hij
    exact hapart.revise hshared (hkeeps i hi hi') (hkeeps j hj hj')

theorem identified_update {extent : Extent} {filter change : Document}
    (hstore : ∀ ns, Identified shared (store.documents ns))
    (hshared : Update.ReachesIntoId change → shared)
    (hchange : (Value.document change).WellFormed) (other : Namespace) :
    Identified shared ((store.update ns extent filter change).1.documents other) := by
  by_cases hns : ns = other
  · subst hns
    exact (hstore ns).revise hshared hchange (forall₂_update store ns extent filter change)
  · unfold update
    split
    · exact hstore other
    · rw [documents_put, if_neg hns]
      exact hstore other

/-! ## Runs -/

/-- One request keeps documents identified. -/
theorem identified_run {request : Request} (hrequest : request.WellFormed)
    (hshared : request.ReachesIntoId → shared)
    (hstore : ∀ ns, Identified shared (store.documents ns)) (other : Namespace) :
    Identified shared ((request.run store).1.documents other) := by
  cases request with
  | insertOne ns doc =>
      have hbatch : ∀ given ∈ [doc], (Value.document given).WellFormed := by
        intro given hgiven
        rw [List.mem_singleton.mp hgiven]
        exact hrequest
      exact identified_insertMany hstore hbatch other
  | insertMany ns docs => exact identified_insertMany hstore hrequest other
  | update ns extent filter change => exact identified_update hstore hshared hrequest other
  | delete ns extent filter => exact identified_delete hstore other
  | _ => exact hstore other

theorem identified_afterAll {requests : List Request}
    (hrequests : ∀ request ∈ requests, request.WellFormed)
    (hshared : ∀ request ∈ requests, request.ReachesIntoId → shared)
    (hstore : ∀ ns, Identified shared (store.documents ns)) (ns : Namespace) :
    Identified shared ((store.afterAll requests).documents ns) := by
  induction requests generalizing store with
  | nil => exact hstore ns
  | cons request more ih =>
      have hrun := identified_run (hrequests request (List.mem_cons_self ..))
        (hshared request (List.mem_cons_self ..)) hstore
      exact ih (fun other hother => hrequests other (List.mem_cons_of_mem _ hother))
        (fun other hother => hshared other (List.mem_cons_of_mem _ hother)) hrun

/-- In a store that started empty, documents are identified, and ids are shared only if a
request has reached into them. -/
theorem identified_of_empty (source : ObjectId.Source) {requests : List Request}
    (hrequests : ∀ request ∈ requests, request.WellFormed) (ns : Namespace) :
    Identified (∃ request ∈ requests, request.ReachesIntoId)
      ((afterAll { ids := source } requests).documents ns) :=
  identified_afterAll hrequests (fun request hmem hreaches => ⟨request, hmem, hreaches⟩)
    (fun _ => identified_nil _) ns

/-- **Ids stay.**  In a store that started empty and has answered any requests, every
document has an id.  Two documents of a collection have equal ids only if both are documents
and an earlier update has reached into an id; and an update changes an id only if it reaches
into it, which takes a document and leaves one. -/
theorem ids_of_empty (source : ObjectId.Source) (requests : List Request)
    (hrequests : ∀ request ∈ requests, request.WellFormed) (ns : Namespace) :
    let store := afterAll { ids := source } requests
    let shared := ∃ request ∈ requests, request.ReachesIntoId
    (∀ doc ∈ store.documents ns, (idOf? doc).isSome) ∧
      (store.documents ns).Pairwise (fun a b => Apart shared a b ∧ Apart shared b a) ∧
      ∀ extent filter change,
        List.Forall₂ (Update.KeepsId (Update.ReachesIntoId change)) (store.documents ns)
          ((store.update ns extent filter change).1.documents ns) := by
  have hdocs := identified_of_empty source hrequests ns
  refine ⟨hdocs.hasId, hdocs.apart_symm, ?_⟩
  intro extent filter change
  have hpairs := forall₂_update (afterAll { ids := source } requests) ns extent filter change
  exact ((List.forall₂_and_left _ _).mpr ⟨hdocs.hasId, hpairs⟩).imp
    fun before after h => h.2.keepsId h.1

/-- A document is stored, one with the same id is refused, and the first is changed beside
its id. -/
theorem ids_of_empty_update :
    let ns : Namespace := ⟨"shop", "items"⟩
    let requests : List Request :=
      [.insertOne ns [("_id", .int32 1)], .insertOne ns [("_id", .int32 1)],
        .update ns .all [] [("$set", .document [("_ids.k", .int32 1)])]]
    let store := afterAll {} requests
    let shared := ∃ request ∈ requests, request.ReachesIntoId
    (∀ request ∈ requests, request.WellFormed) ∧
      store.documents ns = [[("_id", .int32 1), ("_ids", .document [("k", .int32 1)])]] ∧
      (∀ doc ∈ store.documents ns, (idOf? doc).isSome) ∧
      (store.documents ns).Pairwise (fun a b => Apart shared a b ∧ Apart shared b a) ∧
      ∀ extent filter change,
        List.Forall₂ (Update.KeepsId (Update.ReachesIntoId change)) (store.documents ns)
          ((store.update ns extent filter change).1.documents ns) := by
  intro ns requests
  have hrequests : ∀ request ∈ requests, request.WellFormed := by
    simp [requests, Request.WellFormed, Value.FieldsWellFormed,
      Value.WellFormed, Fields.keys]
  exact ⟨hrequests, rfl, ids_of_empty default requests hrequests ns⟩

/-- Two ids that are documents, the second of which is written over from within: it becomes
equal to the first. -/
theorem id_changed_from_within :
    let ns : Namespace := ⟨"shop", "items"⟩
    let before := afterAll {} [.insertMany ns
      [[("_id", .document [("k", .int32 1)])], [("_id", .document [("k", .int32 2)])]]]
    let after := before.update ns .all [] [("$set", .document [("_id.k", .int32 1)])]
    before.documents ns =
        [[("_id", .document [("k", .int32 1)])], [("_id", .document [("k", .int32 2)])]] ∧
      after.1.documents ns =
        [[("_id", .document [("k", .int32 1)])], [("_id", .document [("k", .int32 1)])]] ∧
      after.2 = .ok { matched := 2, modified := 1 } := by
  refine ⟨rfl, rfl, rfl⟩

end Store

end DocShell
