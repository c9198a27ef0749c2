import DocShell.Proofs.Store.Deletion
import DocShell.Store.Read

/-!
# What a filter selects

Six operations walk over a collection and try a filter on each document on their
own.  Here every walk is read against one view of the filter: `Filter.accepts`
says whether a document satisfies it, and `Filter.Decides` that it fails on none
of them.

* `Filter.select_eq_ok_iff`: a selection that goes through is the sublist of the
  accepted documents;
* `keptDocuments_all` and `keptDocuments_first`: what a deletion leaves;
* `matched_updateDocuments`: the documents that an update counts.

The main statement puts them together for a store: once `find` has told which
documents a filter selects, the outcome of every other operation is settled.
-/

namespace DocShell

namespace Filter

/-- The document satisfies the filter; one on which the filter fails does not. -/
def accepts (filter doc : Document) : Bool :=
  match holds doc filter with
  | .ok outcome => outcome
  | .error _ => false

/-- The filter fails on none of the documents. -/
def Decides (filter : Document) (docs : List Document) : Prop :=
  ∀ doc ∈ docs, holds doc filter = .ok (accepts filter doc)

theorem accepts_of_holds {filter doc : Document} {outcome : Bool}
    (h : holds doc filter = .ok outcome) : accepts filter doc = outcome := by
  simp [accepts, h]

theorem decides_cons {filter doc : Document} {docs : List Document} :
    Decides filter (doc :: docs) ↔
      holds doc filter = .ok (accepts filter doc) ∧ Decides filter docs := by
  simp [Decides]

/-! ### The selection itself -/

theorem select_of_decides {filter : Document} {docs : List Document}
    (hdecides : Decides filter docs) :
    select filter docs = .ok (docs.filter (accepts filter)) := by
  induction docs with
  | nil => rfl
  | cons doc more ih =>
      obtain ⟨hdoc, hmore⟩ := decides_cons.mp hdecides
      cases haccepts : accepts filter doc with
      | true => simp [select, hdoc, haccepts, ih hmore, Except.map]
      | false => simp [select, hdoc, haccepts, ih hmore]

theorem decides_of_select {filter : Document} {docs found : List Document}
    (hselect : select filter docs = .ok found) : Decides filter docs := by
  induction docs generalizing found with
  | nil => simp [Decides]
  | cons doc more ih =>
      rw [select] at hselect
      cases hholds : holds doc filter with
      | error failure => simp [hholds] at hselect
      | ok outcome =>
          rw [decides_cons, accepts_of_holds hholds]
          refine ⟨hholds, ?_⟩
          cases outcome with
          | false => exact ih (by simpa [hholds] using hselect)
          | true =>
              cases hmore : select filter more with
              | error failure => simp [hholds, hmore, Except.map] at hselect
              | ok rest => exact ih hmore

/-- A selection goes through exactly when the filter fails on no document, and
then it gives the accepted ones in order. -/
theorem select_eq_ok_iff {filter : Document} {docs found : List Document} :
    select filter docs = .ok found ↔
      Decides filter docs ∧ docs.filter (accepts filter) = found := by
  constructor
  · intro hselect
    have hdecides := decides_of_select hselect
    rw [select_of_decides hdecides, Except.ok.injEq] at hselect
    exact ⟨hdecides, hselect⟩
  · rintro ⟨hdecides, rfl⟩
    exact select_of_decides hdecides

end Filter

namespace Store

/-! ### The walks of the writes -/

/-- A deletion of all documents fails exactly when the selection does, with the
same failure, and otherwise keeps what the filter does not accept. -/
theorem keptDocuments_all (filter : Document) (docs : List Document) :
    keptDocuments .all filter docs =
      (Filter.select filter docs).map fun _ =>
        docs.filter fun doc => !Filter.accepts filter doc := by
  induction docs with
  | nil => rfl
  | cons doc more ih =>
      rw [keptDocuments, Filter.select]
      cases hholds : Filter.holds doc filter with
      | error failure => rfl
      | ok outcome =>
          have haccepts := Filter.accepts_of_holds hholds
          cases outcome with
          | false =>
              cases hselect : Filter.select filter more <;>
                simp [ih, hselect, haccepts, Except.map]
          | true =>
              cases hselect : Filter.select filter more <;>
                simp [ih, hselect, haccepts, Except.map]

/-- A deletion of one document takes out the first that the filter accepts. -/
theorem keptDocuments_first {filter : Document} {docs : List Document}
    (hdecides : Filter.Decides filter docs) :
    keptDocuments .first filter docs = .ok (docs.eraseP (Filter.accepts filter)) := by
  induction docs with
  | nil => rfl
  | cons doc more ih =>
      obtain ⟨hdoc, hmore⟩ := Filter.decides_cons.mp hdecides
      cases haccepts : Filter.accepts filter doc with
      | true => simp [keptDocuments, hdoc, haccepts]
      | false => simp [keptDocuments, hdoc, haccepts, ih hmore, Except.map]

/-- An update that goes through has matched every document that the filter
accepts.  The documents are tried as they were before the update, since each is
changed only after it has been tried. -/
theorem matched_updateDocuments {filter update : Document} {docs : List Document}
    {total : UpdateCount} (htotal : (updateDocuments .all filter update docs).2 = .ok total) :
    total.matched = (docs.filter (Filter.accepts filter)).length := by
  induction docs generalizing total with
  | nil =>
      simp only [updateDocuments, Except.ok.injEq] at htotal
      rw [← htotal]
      rfl
  | cons doc more ih =>
      rw [updateDocuments] at htotal
      cases hholds : Filter.holds doc filter with
      | error failure => simp [hholds] at htotal
      | ok outcome =>
          have haccepts := Filter.accepts_of_holds hholds
          cases outcome with
          | false =>
              have hmore := ih (by simpa [hholds] using htotal)
              simpa [haccepts] using hmore
          | true =>
              simp only [hholds] at htotal
              split at htotal
              · simp at htotal
              · cases hrest : (updateDocuments .all filter update more).2 with
                | error failure => simp [hrest, Except.map] at htotal
                | ok rest =>
                    simp only [hrest, Except.map, Except.ok.injEq] at htotal
                    simp [← htotal, UpdateCount.add, haccepts, ih hrest]

/-! ### One collection changed -/

/-- The stores differ at most in the documents of one collection, which `change`
gives; a collection that is missing stays missing. -/
def ChangesOnly (before after : Store) (ns : Namespace)
    (change : List Document → List Document) : Prop :=
  after.collection? ns = (before.collection? ns).map change ∧
    (∀ other, other ≠ ns → after.collection? other = before.collection? other) ∧
    after.ids = before.ids

theorem changesOnly_put {store : Store} {ns : Namespace} {docs : List Document}
    (hdocs : store.collection? ns = some docs) (change : List Document → List Document) :
    ChangesOnly store (store.put ns (change docs)) ns change := by
  refine ⟨?_, ?_, rfl⟩
  · rw [collection?_put, if_pos rfl, hdocs, Option.map_some]
  · intro other hother
    rw [collection?_put, if_neg (Ne.symm hother)]

theorem changesOnly_refl {store : Store} {ns : Namespace} (hnone : store.collection? ns = none)
    (change : List Document → List Document) : ChangesOnly store store ns change :=
  ⟨by rw [hnone, Option.map_none], fun _ _ => rfl, rfl⟩

theorem documents_of_collection? {store : Store} {ns : Namespace} {docs : List Document}
    (hdocs : store.collection? ns = some docs) : store.documents ns = docs := by
  simp [documents, hdocs]

/-- A deletion whose walk keeps `change docs` of every collection `docs` answers
with the number of documents gone and changes nothing else. -/
theorem delete_of_kept (store : Store) (ns : Namespace) (extent : Extent) (filter : Document)
    (change : List Document → List Document) (hnil : change [] = [])
    (hkept : keptDocuments extent filter (store.documents ns) =
      .ok (change (store.documents ns))) :
    (store.delete ns extent filter).2 =
        .ok ((store.documents ns).length - (change (store.documents ns)).length) ∧
      ChangesOnly store (store.delete ns extent filter).1 ns change := by
  cases hdocs : store.collection? ns with
  | none =>
      have hempty : store.documents ns = [] := by simp [documents, hdocs]
      simp only [delete_eq, hdocs, hempty, hnil]
      exact ⟨rfl, changesOnly_refl hdocs change⟩
  | some docs =>
      rw [documents_of_collection? hdocs] at hkept
      simp only [delete_eq, hdocs, hkept, documents_of_collection? hdocs]
      exact ⟨trivial, changesOnly_put hdocs change⟩

theorem delete_of_error {store : Store} {ns : Namespace} {extent : Extent} {filter : Document}
    {failure : QueryFailure}
    (hkept : keptDocuments extent filter (store.documents ns) = .error failure) :
    store.delete ns extent filter = (store, .error failure) := by
  cases hdocs : store.collection? ns with
  | none => simp [documents, hdocs, keptDocuments] at hkept
  | some docs =>
      rw [documents_of_collection? hdocs] at hkept
      simp [delete_eq, hdocs, hkept]

/-! ### All operations at once -/

/-- Every operation goes by the same documents `found`, those of the collection
that the filter accepts. -/
structure ActsOn (store : Store) (ns : Namespace) (filter : Document)
    (found : List Document) : Prop where
  selected : found = (store.documents ns).filter (Filter.accepts filter)
  count_eq : store.count ns filter = .ok found.length
  findOne_eq : store.findOne ns filter none = .ok found.head?
  match_eq : store.aggregate ns [[("$match", .document filter)]] = .ok found
  match_count_eq :
    store.aggregate ns [[("$match", .document filter)], [("$count", .string "n")]] =
      .ok (if found.isEmpty then [] else [[("n", Value.ofInt found.length)]])
  matched_eq : ∀ change total,
    (store.update ns .all filter change).2 = .ok total → total.matched = found.length
  deleteAll_eq : (store.delete ns .all filter).2 = .ok found.length
  deleteAll_changes : ChangesOnly store (store.delete ns .all filter).1 ns fun docs =>
    docs.filter fun doc => !Filter.accepts filter doc
  deleteFirst_eq : (store.delete ns .first filter).2 = .ok (min 1 found.length)
  deleteFirst_changes : ChangesOnly store (store.delete ns .first filter).1 ns fun docs =>
    docs.eraseP (Filter.accepts filter)

theorem find_filter (store : Store) (ns : Namespace) (filter : Document) :
    store.find ns { filter } = Filter.select filter (store.documents ns) := by
  unfold find Cursor.run
  cases Filter.select filter (store.documents ns) with
  | error failure => rfl
  | ok selected => simp [Cursor.sorted, Cursor.window, Cursor.projected]

theorem findOne_of_select {store : Store} {ns : Namespace} {filter : Document}
    {found : List Document} (hselect : Filter.select filter (store.documents ns) = .ok found) :
    store.findOne ns filter none = .ok found.head? := by
  simp only [findOne, find, Cursor.run, hselect, Cursor.sorted, Cursor.window, Cursor.projected,
    Except.map, Option.getD_none, List.drop_zero]
  cases found <;> rfl

theorem matched_update {store : Store} {ns : Namespace} {filter change : Document}
    {total : UpdateCount} (htotal : (store.update ns .all filter change).2 = .ok total) :
    total.matched = ((store.documents ns).filter (Filter.accepts filter)).length := by
  cases hdocs : store.collection? ns with
  | none =>
      simp only [update, hdocs, Except.ok.injEq] at htotal
      simp [← htotal, documents, hdocs]
  | some docs =>
      simp only [update, hdocs] at htotal
      rw [documents_of_collection? hdocs]
      exact matched_updateDocuments htotal

theorem length_sub_length_eraseP (accept : Document → Bool) (docs : List Document) :
    docs.length - (docs.eraseP accept).length = min 1 (docs.filter accept).length := by
  induction docs with
  | nil => rfl
  | cons doc more ih =>
      cases haccept : accept doc with
      | true => simp [haccept]
      | false => simpa [haccept] using ih

theorem actsOn_of_select {store : Store} {ns : Namespace} {filter : Document}
    {found : List Document} (hselect : Filter.select filter (store.documents ns) = .ok found) :
    store.ActsOn ns filter found := by
  obtain ⟨hdecides, hfound⟩ := Filter.select_eq_ok_iff.mp hselect
  have hall := delete_of_kept store ns .all filter
    (fun docs => docs.filter fun doc => !Filter.accepts filter doc) rfl
    (by rw [keptDocuments_all, hselect]; rfl)
  have hfirst := delete_of_kept store ns .first filter
    (fun docs => docs.eraseP (Filter.accepts filter)) rfl
    (keptDocuments_first hdecides)
  -- Every document is either found or left by the deletion of all.
  have hlength : (store.documents ns).length = found.length +
      ((store.documents ns).filter fun doc => !Filter.accepts filter doc).length := by
    rw [← hfound]
    simpa [List.countP_eq_length_filter] using
      List.length_eq_countP_add_countP (Filter.accepts filter) (l := store.documents ns)
  refine
    { selected := hfound.symm
      count_eq := by simp [count, hselect, Except.map]
      findOne_eq := findOne_of_select hselect
      match_eq := by
        simp [aggregate, Pipeline.run, Pipeline.runStage, Pipeline.stageDocument, hselect]
      match_count_eq := ?_
      matched_eq := fun change total htotal => hfound ▸ matched_update htotal
      deleteAll_eq := ?_
      deleteAll_changes := hall.2
      deleteFirst_eq := ?_
      deleteFirst_changes := hfirst.2 }
  · simp [aggregate, Pipeline.run, Pipeline.runStage, Pipeline.stageDocument, hselect,
      Pipeline.countField?, Filter.isOperator, Pipeline.count]
  · rw [hall.1, hlength, Nat.add_sub_cancel]
  · rw [hfirst.1, length_sub_length_eraseP, hfound]

/-- **All operations select the same documents.**  If `find` gives `found` for a
filter, then counting, looking for one, matching in a pipeline, updating and
deleting go by `found`; if `find` fails, then so do counting and deleting all,
for the same reason and without any effect. -/
theorem operations_follow_find (store : Store) (ns : Namespace) (filter : Document) :
    match store.find ns { filter } with
    | .ok found => store.ActsOn ns filter found
    | .error failure =>
      store.count ns filter = .error failure ∧
        store.delete ns .all filter = (store, .error failure) := by
  rw [find_filter]
  cases hselect : Filter.select filter (store.documents ns) with
  | ok found => exact actsOn_of_select hselect
  | error failure =>
      refine ⟨by simp [count, hselect, Except.map], delete_of_error ?_⟩
      rw [keptDocuments_all, hselect]
      rfl

end Store

end DocShell
