import DocShell.Proofs.Plan.Rejection
import DocShell.Proofs.Store.Counting

/-!
# What runs acknowledge

A caller sees lines and answers only.  Added up over a run, the answers tell how many
documents every collection holds: one for each `insertOne` that went well, the
`insertedCount` of each `insertMany`, and the `deletedCount` of each deletion taken off.

## Strategy

* `Entry.tally` reads what one answered line says of a collection, from the command and from
  the JSON of the answer.
* `Request.Writes` is the table of writing methods turned around: which request a call of
  such a method makes.  For these the store accounts for what the answer says
  (`Request.accounts_run`).
* So a line that is one writing call accounts for its answer, and every other line leaves
  the store as it is and says nothing (`Store.length_execute`); a run adds up
  (`Store.length_executeEach`).
-/

namespace DocShell

/-- The natural number in a member of an object, and zero if there is none. -/
def Json.countIn (name : String) : Json → Nat
  | .object members =>
    match Fields.get? members name with
    | some (.number (.int n)) => n.toNat
    | _ => 0
  | _ => 0

namespace Report

/-- The number of documents that an answer to a call of a method acknowledges as inserted. -/
def insertedBy (method : String) (report : Report) : Nat :=
  match method with
  | "insertOne" => 1
  | "insertMany" => report.toJson.countIn "insertedCount"
  | _ => 0

/-- The number of documents that an answer to a call of a method reports as deleted. -/
def deletedBy (method : String) (report : Report) : Nat :=
  match method with
  | "deleteOne" | "deleteMany" => report.toJson.countIn "deletedCount"
  | _ => 0

end Report

/-- A line of a run, with the rule and the current database that hold for it. -/
structure Entry where
  line : String
  current : Option String := none
  readOnly : Bool := false
  deriving DecidableEq, Repr, Inhabited

namespace Report

@[simp] theorem insertedBy_insertedMany (ids : List Value) :
    (insertedMany ids).insertedBy "insertMany" = ids.length := by
  simp [insertedBy, toJson, acknowledged, Json.countIn, Fields.get?, Json.ofNat]

@[simp] theorem deletedBy_deleted (n : Nat) :
    (deleted n).deletedBy "deleteOne" = n ∧ (deleted n).deletedBy "deleteMany" = n := by
  simp [deletedBy, toJson, acknowledged, Json.countIn, Fields.get?, Json.ofNat]

/-- Only the answers to writing methods count. -/
theorem counts_of_not_write {method : String} (hmethod : method ∉ Call.writes)
    (report : Report) : report.insertedBy method = 0 ∧ report.deletedBy method = 0 := by
  simp only [Call.writes, List.mem_cons, List.not_mem_nil, or_false, not_or] at hmethod
  simp [insertedBy, deletedBy, hmethod]

end Report

namespace Entry

/-- What an answered line says of a collection, by a count of its method and its answer.  A
failure says nothing, nor does a line that is not one call on that collection. -/
def tally (count : String → Report → Nat) (ns : Namespace) (entry : Entry)
    (outcome : Except Failure Report) : Nat :=
  match Command.read entry.line entry.current, outcome with
  | .ok (.chain place [call]), .ok report => if place = ns then count call.method report else 0
  | _, _ => 0

/-- What the answered lines of a run say of a collection in sum. -/
def total (count : String → Report → Nat) (ns : Namespace)
    (answered : List (Entry × Except Failure Report)) : Nat :=
  answered.foldr (fun (entry, outcome) sum => entry.tally count ns outcome + sum) 0

variable {count : String → Report → Nat} {ns place : Namespace} {entry : Entry} {call : Call}

theorem tally_of_error (failure : Failure) : entry.tally count ns (.error failure) = 0 := by
  unfold tally
  split
  · next houtcome => simp at houtcome
  · rfl

theorem tally_of_read (hread : Command.read entry.line entry.current = .ok (.chain place [call]))
    (report : Report) :
    entry.tally count ns (.ok report) = if place = ns then count call.method report else 0 := by
  simp only [tally, hread]

/-- A line that is not one writing call says nothing. -/
theorem tally_of_not_loneWrite (ns : Namespace)
    (hlone : ¬ ∃ call, Command.IsLoneWrite entry.current entry.line call)
    (outcome : Except Failure Report) :
    entry.tally Report.insertedBy ns outcome = 0 ∧ entry.tally Report.deletedBy ns outcome = 0 := by
  unfold tally
  split
  · next place call report hread =>
      have hmethod : call.method ∉ Call.writes :=
        fun hmem => hlone ⟨call, ⟨place, hread⟩, hmem⟩
      simp [Report.counts_of_not_write hmethod report]
  · exact ⟨rfl, rfl⟩

end Entry

namespace Request

/-- The requests that calls of writing methods make. -/
inductive Writes (ns : Namespace) : String → Request → Prop
  | insertOne (doc : Document) : Writes ns "insertOne" (.insertOne ns doc)
  | insertMany (docs : List Document) : Writes ns "insertMany" (.insertMany ns docs)
  | updateOne (filter change : Document) :
      Writes ns "updateOne" (.update ns .first filter change)
  | updateMany (filter change : Document) :
      Writes ns "updateMany" (.update ns .all filter change)
  | deleteOne (filter : Document) : Writes ns "deleteOne" (.delete ns .first filter)
  | deleteMany (filter : Document) : Writes ns "deleteMany" (.delete ns .all filter)

variable {ns : Namespace} {call : Call} {request : Request}

theorem exists_of_readInsertOne (hrequest : readInsertOne ns call = .ok request) :
    ∃ doc, request = .insertOne ns doc := by
  unfold readInsertOne at hrequest
  split at hrequest
  · simp at hrequest
  · obtain ⟨doc, -, rfl⟩ := Outcome.map_eq_ok_iff.mp hrequest
    exact ⟨doc, rfl⟩

theorem exists_of_readInsertMany (hrequest : readInsertMany ns call = .ok request) :
    ∃ docs, request = .insertMany ns docs := by
  unfold readInsertMany at hrequest
  simp only at hrequest
  split at hrequest
  · simp at hrequest
  · obtain ⟨docs, -, rfl⟩ := Outcome.map_eq_ok_iff.mp hrequest
    exact ⟨docs, rfl⟩

theorem exists_of_readUpdate {extent : Extent}
    (hrequest : readUpdate ns extent call = .ok request) :
    ∃ filter change, request = .update ns extent filter change := by
  unfold readUpdate at hrequest
  simp only at hrequest
  split at hrequest
  · simp at hrequest
  · split at hrequest
    · simp at hrequest
    · next filter _ =>
        obtain ⟨change, -, rfl⟩ := Outcome.map_eq_ok_iff.mp hrequest
        exact ⟨filter, change, rfl⟩

theorem exists_of_readDelete {extent : Extent}
    (hrequest : readDelete ns extent call = .ok request) :
    ∃ filter, request = .delete ns extent filter := by
  unfold readDelete at hrequest
  split at hrequest
  · simp at hrequest
  · obtain ⟨filter, -, rfl⟩ := Outcome.map_eq_ok_iff.mp hrequest
    exact ⟨filter, rfl⟩

theorem writes_of_ofCall (hwrite : call.isWrite = true) (hrequest : ofCall ns call = .ok request) :
    Writes ns call.method request := by
  rw [Call.isWrite_iff] at hwrite
  unfold ofCall at hrequest
  simp only [List.mem_cons, List.not_mem_nil, or_false] at hwrite
  rcases hwrite with hmethod | hmethod | hmethod | hmethod | hmethod | hmethod <;>
    rw [hmethod] at hrequest ⊢
  · obtain ⟨doc, rfl⟩ := exists_of_readInsertOne hrequest
    exact .insertOne doc
  · obtain ⟨docs, rfl⟩ := exists_of_readInsertMany hrequest
    exact .insertMany docs
  · obtain ⟨filter, change, rfl⟩ := exists_of_readUpdate hrequest
    exact .updateOne filter change
  · obtain ⟨filter, change, rfl⟩ := exists_of_readUpdate hrequest
    exact .updateMany filter change
  · obtain ⟨filter, rfl⟩ := exists_of_readDelete hrequest
    exact .deleteOne filter
  · obtain ⟨filter, rfl⟩ := exists_of_readDelete hrequest
    exact .deleteMany filter

/-- The store accounts for what the answer to a write says. -/
theorem accounts_run (store : Store) {method : String} (hwrites : Writes ns method request) :
    match (request.run store).2 with
    | .ok report =>
      store.Accounts (request.run store).1 ns (report.insertedBy method) (report.deletedBy method)
    | .error _ => store.Accounts (request.run store).1 ns 0 0 := by
  cases hwrites with
  | insertOne doc =>
      simp only [run]
      cases hid : (store.insertOne ns doc).2 with
      | ok id => exact Store.accounts_insertOne hid
      | error failure => exact Store.accounts_insertOne_of_error hid
  | insertMany docs =>
      simp only [run]
      cases hids : (store.insertMany ns docs).2 with
      | ok ids =>
          simp only [Except.map, Except.mapError, Report.insertedBy_insertedMany]
          exact (Store.accounts_insertMany hids).2
      | error failure => exact Store.accounts_insertMany_of_error hids
  | updateOne filter change | updateMany filter change =>
      simp only [run]
      split <;> exact Store.accounts_update store ns _ filter change
  | deleteOne filter | deleteMany filter =>
      simp only [run]
      cases hn : (store.delete ns _ filter).2 with
      | ok n =>
          simp only [queried, Except.map, Except.mapError, Report.deletedBy_deleted]
          exact Store.accounts_delete hn
      | error failure => exact Store.accounts_delete_of_error hn

end Request

/-- A writing call that stands alone is refused, or fails, or the store accounts for its
answer. -/
theorem Plan.accounts_ofCall (store : Store) (readOnly : Bool) (ns : Namespace) {call : Call}
    (hwrite : call.isWrite = true) :
    let done := Plan.carryOut store (Plan.ofCall readOnly ns call)
    match done.2 with
    | .ok report =>
      store.Accounts done.1 ns (report.insertedBy call.method) (report.deletedBy call.method)
    | .error _ => store.Accounts done.1 ns 0 0 := by
  unfold Plan.ofCall
  split
  · exact store.accounts_refl ns
  · split
    · next request hrequest =>
        exact Request.accounts_run store (Request.writes_of_ofCall hwrite hrequest)
    · exact store.accounts_refl ns

namespace Store

/-- Carries out lines in order, each under its own rule and current database, and keeps each
with its answer. -/
def executeEach (store : Store) : List Entry → Store × List (Entry × Except Failure Report)
  | [] => (store, [])
  | entry :: more =>
    let (after, outcome) := store.execute entry.readOnly entry.current entry.line
    let (last, answered) := after.executeEach more
    (last, (entry, outcome) :: answered)

/-- One line changes the length of a collection by what its answer says of it. -/
theorem length_execute (store : Store) (entry : Entry) (ns : Namespace) :
    let done := store.execute entry.readOnly entry.current entry.line
    (done.1.documents ns).length + entry.tally Report.deletedBy ns done.2 =
      (store.documents ns).length + entry.tally Report.insertedBy ns done.2 := by
  intro done
  by_cases hlone : ∃ call, Command.IsLoneWrite entry.current entry.line call
  · obtain ⟨call, ⟨place, hread⟩, hmethod⟩ := hlone
    have hwrite := (Call.isWrite_iff call).mpr hmethod
    have hdone : done = Plan.carryOut store (Plan.ofCall entry.readOnly place call) := by
      simp only [done, execute_eq_carryOut, Plan.ofLine, hread, Plan.ofCommand,
        Plan.ofCalls_of_isWrite hwrite]
    have haccounts := Plan.accounts_ofCall store entry.readOnly place hwrite
    simp only [← hdone] at haccounts
    cases houtcome : done.2 with
    | error failure =>
        simp only [houtcome] at haccounts
        simpa [Entry.tally_of_error] using haccounts.length_add ns
    | ok report =>
        simp only [houtcome] at haccounts
        simpa only [Entry.tally_of_read hread] using haccounts.length_add ns
  · have hnone : ∀ call, ¬ Command.IsLoneWrite entry.current entry.line call :=
      fun call hcall => hlone ⟨call, hcall⟩
    have hread := (Plan.ofLine_of_not_loneWrite hnone entry.readOnly).2
    have hstore : done.1 = store := (execute_of_isRead store hread).1
    obtain ⟨hinserted, hdeleted⟩ := Entry.tally_of_not_loneWrite ns hlone done.2
    rw [hstore, hinserted, hdeleted]

theorem length_executeEach (store : Store) (entries : List Entry) (ns : Namespace) :
    let done := store.executeEach entries
    (done.1.documents ns).length + Entry.total Report.deletedBy ns done.2 =
      (store.documents ns).length + Entry.total Report.insertedBy ns done.2 := by
  induction entries generalizing store with
  | nil => rfl
  | cons entry more ih =>
      have hstep := store.length_execute entry ns
      have hmore := ih (store.execute entry.readOnly entry.current entry.line).1
      simp only [executeEach, Entry.total, List.foldr_cons] at hstep hmore ⊢
      omega

/-- **Acknowledged counts add up.**  In a store that started empty and has carried out any
lines, every collection holds as many documents as were acknowledged as inserted there, less
those that were reported as deleted there. -/
theorem length_eq_acknowledged (ids : ObjectId.Source) (entries : List Entry)
    (ns : Namespace) :
    let done := executeEach { ids } entries
    ((done.1.documents ns).length : Int) =
      Entry.total Report.insertedBy ns done.2 - Entry.total Report.deletedBy ns done.2 := by
  have hlength := length_executeEach { ids } entries ns
  have hempty : (documents { ids } ns).length = 0 := rfl
  simp only at hlength ⊢
  omega

end Store

end DocShell
