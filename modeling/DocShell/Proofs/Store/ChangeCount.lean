import DocShell.Proofs.Query.Changes
import DocShell.Proofs.Store.Updating

/-!
# How many documents an update changes

An update counts the documents on which it reports a change.  The collection itself, compared
with what it was position by position, differs in as many places as there are considered
documents that are revised to other ones (`differing_settled`).

So the count never falls short, since what is not reported has not happened.  It goes too far
where steps undo each other: the update reports a change on a document that is the same in the
end (`change_taken_back`).  Steps on paths that go apart cannot, and with them the count is
that of the documents that differ (`modified_counts_changes`).
-/

namespace DocShell

open Document (Same Comparable)

namespace Update

variable {change doc : Document}

/-- A document that is revised to another one is reported. -/
theorem reports_of_differs (hself : Same doc doc) (hdiffers : ¬ Same doc (revised change doc)) :
    reports change doc = true := by
  rcases happly : apply change doc with ⟨updated, failure | changed⟩
  · rw [revised_of_error (congrArg Prod.snd happly)] at hdiffers
    exact absurd hself hdiffers
  · rw [reports_of_ok (congrArg Prod.snd happly)]
    rw [revised_of_ok happly] at hdiffers
    cases changed with
    | true => rfl
    | false => exact absurd hself hdiffers

theorem differs_iff_reports (hchange : (Value.document change).WellFormed) (hdoc : Comparable doc)
    (hapart : Independent (steps change)) :
    ¬ Same doc (revised change doc) ↔ reports change doc = true := by
  refine ⟨reports_of_differs hdoc.self, fun hreports => ?_⟩
  rcases happly : apply change doc with ⟨updated, failure | changed⟩
  · simp [reports, happly] at hreports
  · rw [reports_of_ok (congrArg Prod.snd happly)] at hreports
    subst hreports
    rw [revised_of_ok happly]
    exact ((reported_of_apply hchange hdoc happly).independent hapart).mp rfl

end Update

namespace Store

open Update (Independent Reported steps)

variable {extent : Extent} {filter change doc doc' : Document} {docs more more' : List Document}

/-- The documents are not the same. -/
def isOther (pair : Document × Document) : Bool :=
  ¬ Same pair.1 pair.2

/-- The number of positions at which two collections have different documents. -/
def differing (before after : List Document) : Nat :=
  (before.zip after).countP isOther

theorem differing_cons :
    differing (doc :: more) (doc' :: more') =
      differing more more' + if isOther (doc, doc') then 1 else 0 := by
  simp only [differing, List.zip_cons_cons, List.countP_cons]

theorem differing_cons_of_same (hsame : Same doc doc') :
    differing (doc :: more) (doc' :: more') = differing more more' := by
  simp [differing_cons, isOther, hsame]

theorem differing_self (hself : ∀ doc ∈ docs, Same doc doc) : differing docs docs = 0 := by
  induction docs with
  | nil => rfl
  | cons doc more ih =>
      rw [List.forall_mem_cons] at hself
      rw [differing_cons_of_same hself.1, ih hself.2]

theorem mem_of_mem_considered (hdoc : doc ∈ considered extent filter docs) : doc ∈ docs := by
  cases extent with
  | first => exact List.mem_of_mem_filter (List.mem_of_mem_take hdoc)
  | all => exact List.mem_of_mem_filter hdoc

/-- A settled collection differs in the considered documents that are revised to other ones. -/
theorem differing_settled (hself : ∀ doc ∈ docs, Same doc doc) :
    differing docs (settled extent filter change docs) =
      (considered extent filter docs).countP fun doc =>
        isOther (doc, Update.revised change doc) := by
  induction docs with
  | nil => cases extent <;> rfl
  | cons doc more ih =>
      rw [List.forall_mem_cons] at hself
      cases haccepts : Filter.accepts filter doc with
      | false =>
          rw [settled_cons_of_not haccepts, considered_cons_of_not haccepts,
            differing_cons_of_same hself.1, ih hself.2]
      | true =>
          cases extent with
          | first =>
              rw [settled_cons_first haccepts, considered_cons_first haccepts, differing_cons,
                differing_self hself.2]
              simp [List.countP_cons]
          | all =>
              rw [settled_cons_all haccepts, considered_cons_all haccepts, differing_cons,
                ih hself.2, List.countP_cons]

/-- **What a reported change means.**  On a document without a NaN, an update reports no change
exactly if none of its steps has made one, and the document is then the same as before.  If no
path of the update leads to, through or behind another one, it reports a change exactly if the
document is not the same.  So the count of an update is at least the number of documents that
differ afterwards, and with such paths it is that number. -/
theorem modified_counts_changes (change : Document)
    (hchange : (Value.document change).WellFormed) :
    (∀ doc updated changed, (Value.document doc).WellFormed → (Value.document doc).NaNFree →
        Update.apply change doc = (updated, .ok changed) →
        Reported change doc updated changed) ∧
      ∀ (store : Store) (ns : Namespace) (extent : Extent) (filter : Document)
        (count : UpdateCount),
        (∀ doc ∈ store.documents ns,
          (Value.document doc).WellFormed ∧ (Value.document doc).NaNFree) →
        (store.update ns extent filter change).2 = .ok count →
        let after := (store.update ns extent filter change).1
        differing (store.documents ns) (after.documents ns) ≤ count.modified ∧
          (Independent (steps change) →
            differing (store.documents ns) (after.documents ns) = count.modified) := by
  refine ⟨fun doc updated changed hdoc hnan happly =>
    Update.reported_of_apply hchange (Document.comparable_of_naNFree hdoc hnan) happly, ?_⟩
  intro store ns extent filter count hdocs hcount
  have hcomparable : ∀ doc ∈ store.documents ns, Comparable doc := fun doc hdoc =>
    Document.comparable_of_naNFree (hdocs doc hdoc).1 (hdocs doc hdoc).2
  have hself : ∀ doc ∈ store.documents ns, Same doc doc := fun doc hdoc =>
    (hcomparable doc hdoc).self
  have hsettles := update_settles store ns extent filter change
  simp only [hcount] at hsettles
  obtain ⟨-, hafter, -, -, hmodified, -⟩ := hsettles
  simp only [hafter, hmodified, differing_settled hself]
  constructor
  · refine List.countP_mono_left fun doc hdoc hother => ?_
    exact Update.reports_of_differs (hself doc (mem_of_mem_considered hdoc))
      (by simpa [isOther] using hother)
  · intro hapart
    refine List.countP_congr fun doc hdoc => ?_
    rw [← Update.differs_iff_reports hchange (hcomparable doc (mem_of_mem_considered hdoc)) hapart]
    simp [isOther]

/-- One document is changed by the first step, and the other one has it all already. -/
theorem modified_counts_changes_apart :
    let ns : Namespace := ⟨"shop", "items"⟩
    let change : Document := [("$set", .document [("a.b", .int32 1), ("c", .int32 2)]),
      ("$unset", .document [("d", .null)])]
    let docs : List Document := [[("c", .int32 2)],
      [("a", .document [("b", .int32 1)]), ("c", .int32 2)]]
    let store : Store := Store.put {} ns docs
    Independent (steps change) ∧
      Reported change [("c", .int32 2)] [("c", .int32 2), ("a", .document [("b", .int32 1)])]
        true ∧
      differing (store.documents ns) ((store.update ns .all [] change).1.documents ns) = 1 := by
  intro ns change docs store
  have hchange : (Value.document change).WellFormed := by
    simp [change, Value.WellFormed, Value.FieldsWellFormed, Fields.keys]
  have hdocs : ∀ doc ∈ store.documents ns,
      (Value.document doc).WellFormed ∧ (Value.document doc).NaNFree := by
    have hstored : store.documents ns = docs := rfl
    simp [hstored, docs, Value.WellFormed, Value.FieldsWellFormed, Value.NaNFree,
      Value.FieldsNaNFree, Fields.keys]
  have hapart : Independent (steps change) := by
    unfold Independent Path.Diverge
    decide +kernel
  obtain ⟨hreport, hcount⟩ := modified_counts_changes change hchange
  have hdoc := hdocs [("c", .int32 2)] (List.mem_cons_self ..)
  refine ⟨hapart, hreport _ _ _ hdoc.1 hdoc.2 rfl, ?_⟩
  exact (hcount store ns .all [] { matched := 2, modified := 1 } hdocs rfl).2 hapart

/-- The second step takes back what the first one has done: the document is the same, and yet
is counted as changed. -/
theorem change_taken_back :
    let ns : Namespace := ⟨"shop", "items"⟩
    let change : Document :=
      [("$set", .document [("a", .int32 2)]), ("$inc", .document [("a", .int32 (-1))])]
    let doc : Document := [("a", .int32 1)]
    let store : Store := Store.put {} ns [doc]
    (Value.document change).NaNFree ∧ (Value.document doc).NaNFree ∧
      Update.apply change doc = (doc, .ok true) ∧ Same doc doc ∧
      (store.update ns .all [] change).1.documents ns = store.documents ns ∧
      (store.update ns .all [] change).2 = .ok { matched := 1, modified := 1 } := by
  intro ns change doc store
  refine ⟨?_, ?_, rfl, rfl, rfl, rfl⟩ <;>
    simp [change, doc, Value.NaNFree, Value.FieldsNaNFree]

end Store

end DocShell
