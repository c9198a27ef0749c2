import DocShell.Proofs.Store.Selection

/-!
# What an update makes of a collection

The walk of an update changes each document on a copy, and puts the copy back only if the
update went through on it and reported a change.  Here the outcome of a walk is written
without the walk.

* `Update.revised` is one document after the update, `Extent.among` cuts the accepted
  documents down to those that the update considers, and `settled` is the whole collection
  afterwards, document by document and in the same order.
* An update that goes through leaves the settled collection, and its counts are those of
  the considered documents (`updateDocuments_of_ok`).
* An update that fails does so at one document.  The documents in front of it are settled,
  the document and those behind it are as before (`updateDocuments_of_error`), so that no
  document carries a part of the update.
-/

namespace DocShell

namespace Update

/-- The document after the update, which is the old one unless the update goes through
and reports a change. -/
def revised (change doc : Document) : Document :=
  match apply change doc with
  | (updated, .ok true) => updated
  | _ => doc

/-- The update goes through and reports a change. -/
def reports (change doc : Document) : Bool :=
  match (apply change doc).2 with
  | .ok changed => changed
  | .error _ => false

theorem revised_of_ok {change doc updated : Document} {changed : Bool}
    (happly : apply change doc = (updated, .ok changed)) :
    revised change doc = if changed then updated else doc := by
  cases changed <;> simp [revised, happly]

theorem revised_of_error {change doc : Document} {failure : QueryFailure}
    (happly : (apply change doc).2 = .error failure) : revised change doc = doc := by
  unfold revised
  split
  · rename_i updated hchanged
    simp [hchanged] at happly
  · rfl

theorem reports_of_ok {change doc : Document} {changed : Bool}
    (happly : (apply change doc).2 = .ok changed) : reports change doc = changed := by
  simp [reports, happly]

/-- The filter fails on the document, or accepts it and the update fails on it. -/
def FailsOn (filter change : Document) (failure : QueryFailure) (doc : Document) : Prop :=
  Filter.holds doc filter = .error failure ∨
    Filter.holds doc filter = .ok true ∧ (apply change doc).2 = .error failure

/-- The filter accepts the document and the update goes through on it. -/
def PassesOn (filter change doc : Document) : Prop :=
  Filter.holds doc filter = .ok true ∧ ∃ changed, (apply change doc).2 = .ok changed

/-- The three ways a document can be met. -/
theorem failsOn_or_rejected_or_passesOn (filter change doc : Document) :
    (∃ failure, FailsOn filter change failure doc) ∨ Filter.holds doc filter = .ok false ∨
      PassesOn filter change doc := by
  cases hholds : Filter.holds doc filter with
  | error failure => exact Or.inl ⟨failure, Or.inl hholds⟩
  | ok outcome =>
      cases outcome with
      | false => exact Or.inr (Or.inl rfl)
      | true =>
          cases happly : (apply change doc).2 with
          | error failure => exact Or.inl ⟨failure, Or.inr ⟨hholds, happly⟩⟩
          | ok changed => exact Or.inr (Or.inr ⟨hholds, changed, happly⟩)

end Update

/-- The documents that a write goes for, among those that satisfy its filter. -/
def Extent.among : Extent → List Document → List Document
  | .first, found => found.take 1
  | .all, found => found

namespace Store

/-- The documents that an update considers. -/
def considered (extent : Extent) (filter : Document) (docs : List Document) : List Document :=
  extent.among (docs.filter (Filter.accepts filter))

/-- The documents with the considered ones revised, each in its place. -/
def settled (extent : Extent) (filter change : Document) (docs : List Document) : List Document :=
  match extent with
  | .first => docs.modify (docs.findIdx (Filter.accepts filter)) (Update.revised change)
  | .all => docs.map fun doc =>
      if Filter.accepts filter doc then Update.revised change doc else doc

section Walk

variable {extent : Extent} {filter change doc : Document} {docs more : List Document}

theorem length_settled : (settled extent filter change docs).length = docs.length := by
  cases extent <;> simp [settled]

/-! ### The first document -/

theorem settled_cons_of_not (haccepts : Filter.accepts filter doc = false) :
    settled extent filter change (doc :: more) = doc :: settled extent filter change more := by
  cases extent with
  | first => simp [settled, List.findIdx_cons, haccepts]
  | all => simp [settled, haccepts]

theorem settled_cons_first (haccepts : Filter.accepts filter doc = true) :
    settled .first filter change (doc :: more) = Update.revised change doc :: more := by
  simp [settled, List.findIdx_cons, haccepts]

theorem settled_cons_all (haccepts : Filter.accepts filter doc = true) :
    settled .all filter change (doc :: more) =
      Update.revised change doc :: settled .all filter change more := by
  simp [settled, haccepts]

theorem considered_cons_of_not (haccepts : Filter.accepts filter doc = false) :
    considered extent filter (doc :: more) = considered extent filter more := by
  simp [considered, haccepts]

theorem considered_cons_first (haccepts : Filter.accepts filter doc = true) :
    considered .first filter (doc :: more) = [doc] := by
  simp [considered, Extent.among, haccepts]

theorem considered_cons_all (haccepts : Filter.accepts filter doc = true) :
    considered .all filter (doc :: more) = doc :: considered .all filter more := by
  simp [considered, Extent.among, haccepts]

/-! ### The walk -/

/-- The counts of an update that goes through on all documents that it considers. -/
def tally (extent : Extent) (filter change : Document) (docs : List Document) : UpdateCount :=
  let docs := considered extent filter docs
  { matched := docs.length, modified := docs.countP (Update.reports change) }

theorem tally_cons_of_not (haccepts : Filter.accepts filter doc = false) :
    tally extent filter change (doc :: more) = tally extent filter change more := by
  simp only [tally, considered_cons_of_not haccepts]

theorem tally_cons_first (haccepts : Filter.accepts filter doc = true) :
    tally .first filter change (doc :: more) =
      UpdateCount.add {} (Update.reports change doc) := by
  simp only [tally, considered_cons_first haccepts, UpdateCount.add]
  cases hreports : Update.reports change doc <;> simp [hreports]

theorem tally_cons_all (haccepts : Filter.accepts filter doc = true) :
    tally .all filter change (doc :: more) =
      (tally .all filter change more).add (Update.reports change doc) := by
  simp only [tally, considered_cons_all haccepts, UpdateCount.add]
  cases hreports : Update.reports change doc <;> simp [hreports]

theorem updateDocuments_cons_of_failsOn {failure : QueryFailure}
    (hfails : Update.FailsOn filter change failure doc) :
    updateDocuments extent filter change (doc :: more) = (doc :: more, .error failure) := by
  rcases hfails with hholds | ⟨hholds, happly⟩
  · simp [updateDocuments, hholds]
  · rcases hupdated : Update.apply change doc with ⟨updated, outcome⟩
    simp only [hupdated] at happly
    simp [updateDocuments, hholds, hupdated, happly]

theorem updateDocuments_cons_of_not (hholds : Filter.holds doc filter = .ok false) :
    updateDocuments extent filter change (doc :: more) =
      (doc :: (updateDocuments extent filter change more).1,
        (updateDocuments extent filter change more).2) := by
  simp [updateDocuments, hholds]

theorem updateDocuments_cons_first (hpasses : Update.PassesOn filter change doc) :
    updateDocuments .first filter change (doc :: more) =
      (Update.revised change doc :: more,
        .ok (UpdateCount.add {} (Update.reports change doc))) := by
  obtain ⟨hholds, changed, happly⟩ := hpasses
  rcases hupdated : Update.apply change doc with ⟨updated, outcome⟩
  rw [Update.reports_of_ok happly]
  simp only [hupdated] at happly
  subst happly
  simp [updateDocuments, hholds, hupdated, Update.revised_of_ok hupdated]

theorem updateDocuments_cons_all (hpasses : Update.PassesOn filter change doc) :
    updateDocuments .all filter change (doc :: more) =
      (Update.revised change doc :: (updateDocuments .all filter change more).1,
        (updateDocuments .all filter change more).2.map
          fun count => count.add (Update.reports change doc)) := by
  obtain ⟨hholds, changed, happly⟩ := hpasses
  rcases hupdated : Update.apply change doc with ⟨updated, outcome⟩
  rw [Update.reports_of_ok happly]
  simp only [hupdated] at happly
  subst happly
  simp [updateDocuments, hholds, hupdated, Update.revised_of_ok hupdated]

theorem updateDocuments_of_ok {count : UpdateCount}
    (hcount : (updateDocuments extent filter change docs).2 = .ok count) :
    (updateDocuments extent filter change docs).1 = settled extent filter change docs ∧
      count = tally extent filter change docs ∧
      ∀ doc ∈ considered extent filter docs, ∃ changed, (Update.apply change doc).2 = .ok changed := by
  induction docs generalizing count with
  | nil =>
      simp only [updateDocuments, Except.ok.injEq] at hcount
      subst hcount
      cases extent <;> simp [updateDocuments, settled, tally, considered, Extent.among]
  | cons doc more ih =>
      rcases Update.failsOn_or_rejected_or_passesOn filter change doc with
        ⟨failure, hfails⟩ | hholds | hpasses
      · simp [updateDocuments_cons_of_failsOn hfails] at hcount
      · have haccepts := Filter.accepts_of_holds hholds
        rw [updateDocuments_cons_of_not hholds] at hcount ⊢
        rw [settled_cons_of_not haccepts, tally_cons_of_not haccepts,
          considered_cons_of_not haccepts]
        obtain ⟨hdocs, hrest⟩ := ih hcount
        exact ⟨congrArg (doc :: ·) hdocs, hrest⟩
      · have haccepts := Filter.accepts_of_holds hpasses.1
        cases extent with
        | first =>
            -- The walk ends here, so nothing is asked of the documents behind.
            rw [updateDocuments_cons_first hpasses] at hcount ⊢
            rw [settled_cons_first haccepts, tally_cons_first haccepts,
              considered_cons_first haccepts]
            refine ⟨rfl, (Except.ok.inj hcount).symm, ?_⟩
            intro other hother
            rw [List.mem_singleton.mp hother]
            exact hpasses.2
        | all =>
            rw [updateDocuments_cons_all hpasses] at hcount ⊢
            rw [settled_cons_all haccepts, tally_cons_all haccepts, considered_cons_all haccepts]
            cases hmore : (updateDocuments .all filter change more).2 with
            | error failure => simp [hmore, Except.map] at hcount
            | ok rest =>
                obtain ⟨hdocs, htally, happlied⟩ := ih hmore
                simp only [hmore, Except.map, Except.ok.injEq] at hcount
                refine ⟨congrArg _ hdocs, by rw [← hcount, htally], ?_⟩
                intro other hother
                rcases List.mem_cons.mp hother with rfl | hother
                · exact hpasses.2
                · exact happlied other hother

theorem updateDocuments_of_error {failure : QueryFailure}
    (hfailure : (updateDocuments extent filter change docs).2 = .error failure) :
    ∃ k doc, docs[k]? = some doc ∧ Update.FailsOn filter change failure doc ∧
      (updateDocuments extent filter change docs).1 =
        settled extent filter change (docs.take k) ++ docs.drop k := by
  induction docs with
  | nil => simp [updateDocuments] at hfailure
  | cons doc more ih =>
      rcases Update.failsOn_or_rejected_or_passesOn filter change doc with
        ⟨failure', hfails⟩ | hholds | hpasses
      · -- The walk fails here, with nothing in front.
        have hnil : settled extent filter change [] = [] := by cases extent <;> rfl
        rw [updateDocuments_cons_of_failsOn hfails] at hfailure ⊢
        rw [Except.error.inj hfailure] at hfails
        exact ⟨0, doc, rfl, hfails, by simp [hnil]⟩
      · rw [updateDocuments_cons_of_not hholds] at hfailure ⊢
        obtain ⟨k, other, hother, hfails, hdocs⟩ := ih hfailure
        refine ⟨k + 1, other, by simpa using hother, hfails, ?_⟩
        rw [hdocs, List.take_succ_cons, settled_cons_of_not (Filter.accepts_of_holds hholds)]
        rfl
      · cases extent with
        | first => simp [updateDocuments_cons_first hpasses] at hfailure
        | all =>
            rw [updateDocuments_cons_all hpasses] at hfailure ⊢
            cases hmore : (updateDocuments .all filter change more).2 with
            | ok rest => simp [hmore, Except.map] at hfailure
            | error failure' =>
                simp only [hmore, Except.map, Except.error.injEq] at hfailure
                obtain ⟨k, other, hother, hfails, hdocs⟩ := ih (hfailure ▸ hmore)
                refine ⟨k + 1, other, by simpa using hother, hfails, ?_⟩
                rw [hdocs, List.take_succ_cons,
                  settled_cons_all (Filter.accepts_of_holds hpasses.1)]
                rfl

end Walk

/-! ### Stores -/

/-- **An update end to end.**  If it goes through, the collection is settled: it keeps its
length and order, and the counts are those of the considered documents, on all of which
the update has gone through.  If it fails, it does so at one position, where the filter or
the update fails; the documents before that position are settled, and the others stay.  In
both cases no other collection changes. -/
theorem update_settles (store : Store) (ns : Namespace) (extent : Extent)
    (filter change : Document) :
    let docs := store.documents ns
    let after := (store.update ns extent filter change).1
    match (store.update ns extent filter change).2 with
    | .ok count =>
      ChangesOnly store after ns (settled extent filter change) ∧
        after.documents ns = settled extent filter change docs ∧
        (after.documents ns).length = docs.length ∧
        count.matched = (considered extent filter docs).length ∧
        count.modified = (considered extent filter docs).countP (Update.reports change) ∧
        ∀ doc ∈ considered extent filter docs, ∃ changed, (Update.apply change doc).2 = .ok changed
    | .error failure =>
      ∃ k doc, docs[k]? = some doc ∧ Update.FailsOn filter change failure doc ∧
        ChangesOnly store after ns (fun docs =>
          settled extent filter change (docs.take k) ++ docs.drop k) ∧
        after.documents ns = settled extent filter change (docs.take k) ++ docs.drop k := by
  cases hdocs : store.collection? ns with
  | none =>
      have hempty : store.documents ns = [] := by simp [documents, hdocs]
      have hnil : settled extent filter change [] = [] := by cases extent <;> rfl
      simp only [update, hdocs, hempty, hnil]
      cases extent <;>
        simp [changesOnly_refl hdocs, considered, Extent.among]
  | some docs =>
      simp only [update, hdocs, documents_of_collection? hdocs, documents_put, if_true]
      cases hwalk : (updateDocuments extent filter change docs).2 with
      | ok count =>
          obtain ⟨hsettled, rfl, happlied⟩ := updateDocuments_of_ok hwalk
          simp only [hsettled]
          exact ⟨changesOnly_put hdocs _, trivial, length_settled, rfl, rfl, happlied⟩
      | error failure =>
          obtain ⟨k, doc, hdoc, hfails, hsettled⟩ := updateDocuments_of_error hwalk
          simp only [hsettled]
          exact ⟨k, doc, hdoc, hfails,
            changesOnly_put hdocs fun docs =>
              settled extent filter change (docs.take k) ++ docs.drop k, rfl⟩

end Store

end DocShell
