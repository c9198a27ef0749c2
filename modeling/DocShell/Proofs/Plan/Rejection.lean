import DocShell.Proofs.Plan.ReadOnly

/-!
# Commands that are rejected

A command is rejected if it cannot be read, if it asks for something that cannot be
served, or if the rules forbid it.  Nearly all of this is settled while the command is
planned, before the store is asked for anything.  The one exception is the database of a
`use`: only the store can tell whether it is there.

* `Plan.carryOut`: what becomes of a plan, or of the failure to make one;
* `Request.rejected_run`: no request but that question of `use` can be rejected;
* `Store.execute_of_rejected`: a rejected line leaves the store as it is.

The failures of the store itself are another matter: an insertion that fails on an id makes
its collection, and an update that fails keeps the changes before it.
-/

namespace DocShell

/-- The failure of a command that is rejected: it cannot be read, it cannot be served, or
the rules forbid it. -/
def Failure.IsRejection : Failure → Prop
  | .parse _ | .usage _ | .policy _ => True
  | _ => False

namespace Plan

/-- Carries out a plan if one could be made. -/
def carryOut (store : Store) : Except Failure Plan → Store × Except Failure Report
  | .ok plan => plan.run store
  | .error failure => (store, .error failure)

/-- The number of times that the store is asked, which is never without a plan. -/
def asked : Except Failure Plan → Nat
  | .ok plan => plan.requests
  | .error _ => 0

end Plan

theorem Store.execute_eq_carryOut (store : Store) (readOnly : Bool) (current : Option String)
    (line : String) :
    store.execute readOnly current line =
      Plan.carryOut store (Plan.ofLine readOnly current line) := by
  unfold Store.execute
  cases Plan.ofLine readOnly current line <;> rfl

namespace Request

variable {store : Store} {request : Request} {failure : Failure}

/-- A failure of the store, as a failure of the command, is no rejection. -/
theorem not_isRejection_of_mapError {ε : Type} {wrap : ε → Failure} {outcome : Except ε Report}
    (hwrap : ∀ reason, ¬ (wrap reason).IsRejection)
    (hfailure : outcome.mapError wrap = .error failure) : ¬ failure.IsRejection := by
  cases outcome with
  | ok report => simp [Except.mapError] at hfailure
  | error reason =>
      obtain rfl : wrap reason = failure := Except.error.inj hfailure
      exact hwrap reason

/-- What the store answers to a request is a rejection only if the request was whether a
database is there, and it is not. -/
theorem rejected_run (hfailure : (request.run store).2 = .error failure)
    (hrejected : failure.IsRejection) :
    ∃ name, request = .useDatabase name ∧ failure = .usage (.unknownDatabase name) := by
  cases request with
  | listDatabases | listCollections => simp [run] at hfailure
  | useDatabase name =>
      simp only [run, useReport] at hfailure
      split at hfailure
      · simp at hfailure
      · exact ⟨name, rfl, (Except.error.inj hfailure).symm⟩
  | find | findOne | count | distinct | aggregate | insertOne | insertMany | update | delete =>
      exact absurd hrejected (not_isRejection_of_mapError (fun _ => id) hfailure)

end Request

namespace Store

/-- **A rejected command never touches data.**  If a line fails because it cannot be read,
cannot be served or is forbidden, then the store is as it was.  Either there was no plan, so
that the store was not asked for anything, or it was asked whether a database is there. -/
theorem execute_of_rejected (store : Store) (readOnly : Bool) (current : Option String)
    (line : String) {failure : Failure}
    (hfailure : (store.execute readOnly current line).2 = .error failure)
    (hrejected : failure.IsRejection) :
    (store.execute readOnly current line).1 = store ∧
      (Plan.ofLine readOnly current line = .error failure ∨
        ∃ name, Plan.ofLine readOnly current line = .ok (.ask (.useDatabase name)) ∧
          failure = .usage (.unknownDatabase name)) := by
  rw [execute_eq_carryOut] at hfailure ⊢
  cases hplan : Plan.ofLine readOnly current line with
  | error reason =>
      rw [hplan] at hfailure
      exact ⟨rfl, Or.inl (congrArg Except.error (Except.error.inj hfailure))⟩
  | ok plan =>
      rw [hplan] at hfailure
      cases plan with
      | answer report => simp [Plan.carryOut, Plan.run] at hfailure
      | ask request =>
          obtain ⟨name, rfl, hunknown⟩ := Request.rejected_run hfailure hrejected
          exact ⟨rfl, Or.inr ⟨name, rfl, hunknown⟩⟩

/-- A deletion that does not say what to delete is rejected, and the document stays. -/
theorem execute_of_rejected_deletion :
    let store := ({} : Store).put ⟨"shop", "items"⟩ [[("_id", .int32 1)]]
    let line := "db.items.deleteMany()"
    let failure : Failure := .usage (.invalidArguments "deleteMany" "a filter document")
    (store.execute false (some "shop") line).2 = .error failure ∧ failure.IsRejection ∧
      (store.execute false (some "shop") line).1 = store ∧
      (Plan.ofLine false (some "shop") line = .error failure ∨
        ∃ name, Plan.ofLine false (some "shop") line = .ok (.ask (.useDatabase name)) ∧
          failure = .usage (.unknownDatabase name)) := by
  intro store line failure
  have hbare : Command.bare "db.items.deleteMany()".toList = "db.items.deleteMany()".toList := by
    decide
  have hselected : Command.selected? (some "shop") = some "shop" := by decide
  have hwords : (Text.words "db.items.deleteMany()".toList).map String.ofList =
      ["db.items.deleteMany()"] := by decide
  have hnone : Command.ofWords (Command.selected? (some "shop"))
      ((Text.words "db.items.deleteMany()".toList).map String.ofList) = none := by
    rw [hwords, hselected]
    simp [Command.ofWords]
  have hreference : Reference.read? "items.deleteMany()".toList = some
      { segments := ["items"], method := "deleteMany".toList, chain := "deleteMany()".toList,
        arguments := "()".toList } := by
    rw [Reference.read?, Reference.readFrom?_of_segment rfl rfl,
      Reference.readFrom?_of_method rfl]
    rfl
  have hcall : Chain.readCall (Text.trim "deleteMany()".toList) =
      .ok (⟨"deleteMany", []⟩, []) := rfl
  have hchain : Chain.read "deleteMany()".toList = .ok [⟨"deleteMany", []⟩] :=
    Chain.readCalls_of_last hcall rfl
  have hread : Command.read line (some "shop") =
      .ok (.chain ⟨"shop", "items"⟩ [⟨"deleteMany", []⟩]) := by
    refine (Command.read_of_reference hbare hnone rfl hreference).trans ?_
    rw [hselected, Command.ofReference, if_neg (by decide)]
    simp only [Command.ofChain, hchain]
  have hfailure : (store.execute false (some "shop") line).2 = .error failure := by
    simp only [execute, Plan.ofLine, hread]
    rfl
  exact ⟨hfailure, trivial, execute_of_rejected store false _ line hfailure trivial⟩

end Store

end DocShell
