import Mathlib.Data.List.Forall2
import DocShell.Session

/-!
# Sessions that may only read

A session that may only read differs from one that may write in a single respect:
a line that is one call of a writing method is refused.  Three places have to agree
for this: the methods that `Call.isWrite` knows, the table that makes a request of a
call, and the requests that can change the store.

* `Request.isWrite_ofCall`: the table gives a writing request for exactly the writing
  methods;
* `Request.run_of_not_isWrite`: only writing requests change the store;
* `Plan.ofLine_readOnly`: what the rule does to the plan for a line;
* `Store.executeAll_readOnly`: what it does to a whole run.
-/

namespace DocShell

/-- The outcome is not a refusal by the rules. -/
def Failure.Allowed {α : Type} : Except Failure α → Prop
  | .error (.policy _) => False
  | _ => True

theorem Failure.Allowed.of_error {α β : Type} {failure : Failure}
    (h : Failure.Allowed (.error failure : Except Failure α)) :
    Failure.Allowed (.error failure : Except Failure β) := by
  cases failure <;> trivial

/-- The line is a chain of exactly one call, and its method is one that writes. -/
def Command.IsLoneWrite (current : Option String) (line : String) (call : Call) : Prop :=
  (∃ ns, Command.read line current = .ok (.chain ns [call])) ∧
    call.method ∈ ["insertOne", "insertMany", "updateOne", "updateMany", "deleteOne", "deleteMany"]

theorem Call.isWrite_iff (call : Call) :
    call.isWrite = true ↔
      call.method ∈
        ["insertOne", "insertMany", "updateOne", "updateMany", "deleteOne", "deleteMany"] := by
  simp [Call.isWrite, Call.writes]

namespace Request

/-! ### The requests of calls -/

theorem isWrite_of_map {α : Type} {build : α → Request} {outcome : Except UsageFailure α}
    {request : Request} {writes : Bool} (hbuild : ∀ a, (build a).isWrite = writes)
    (hrequest : outcome.map build = .ok request) : request.isWrite = writes := by
  cases outcome with
  | error failure => simp [Except.map] at hrequest
  | ok a =>
      simp only [Except.map, Except.ok.injEq] at hrequest
      rw [← hrequest]
      exact hbuild a

variable {ns : Namespace} {call : Call} {request : Request}

theorem isWrite_readFindOne (h : readFindOne ns call = .ok request) :
    request.isWrite = false := by
  unfold readFindOne at h
  exact isWrite_of_map (fun _ => rfl) h

theorem isWrite_readCount (h : readCount ns call = .ok request) : request.isWrite = false := by
  unfold readCount at h
  split at h
  · simp at h
  · exact isWrite_of_map (fun _ => rfl) h

theorem isWrite_readDistinct (h : readDistinct ns call = .ok request) :
    request.isWrite = false := by
  unfold readDistinct at h
  simp only at h
  split at h
  · simp at h
  · split at h
    · simp at h
    · exact isWrite_of_map (fun _ => rfl) h

theorem isWrite_readAggregate (h : readAggregate ns call = .ok request) :
    request.isWrite = false := by
  unfold readAggregate at h
  simp only at h
  split at h
  · simp at h
  · exact isWrite_of_map (fun _ => rfl) h

theorem isWrite_readInsertOne (h : readInsertOne ns call = .ok request) :
    request.isWrite = true := by
  unfold readInsertOne at h
  split at h
  · simp at h
  · exact isWrite_of_map (fun _ => rfl) h

theorem isWrite_readInsertMany (h : readInsertMany ns call = .ok request) :
    request.isWrite = true := by
  unfold readInsertMany at h
  simp only at h
  split at h
  · simp at h
  · exact isWrite_of_map (fun _ => rfl) h

theorem isWrite_readUpdate {extent : Extent} (h : readUpdate ns extent call = .ok request) :
    request.isWrite = true := by
  unfold readUpdate at h
  simp only at h
  split at h
  · simp at h
  · split at h
    · simp at h
    · exact isWrite_of_map (fun _ => rfl) h

theorem isWrite_readDelete {extent : Extent} (h : readDelete ns extent call = .ok request) :
    request.isWrite = true := by
  unfold readDelete at h
  split at h
  · simp at h
  · exact isWrite_of_map (fun _ => rfl) h

/-- The table of methods gives a writing request for the methods that
`Call.isWrite` knows, and for no others. -/
theorem isWrite_ofCall (h : ofCall ns call = .ok request) : request.isWrite = call.isWrite := by
  unfold ofCall at h
  split at h <;> rename_i hmethod
  · simpa [Call.isWrite, Call.writes, hmethod] using isWrite_readFindOne h
  · simpa [Call.isWrite, Call.writes, hmethod] using isWrite_readCount h
  · simpa [Call.isWrite, Call.writes, hmethod] using isWrite_readDistinct h
  · simpa [Call.isWrite, Call.writes, hmethod] using isWrite_readAggregate h
  · simpa [Call.isWrite, Call.writes, hmethod] using isWrite_readInsertOne h
  · simpa [Call.isWrite, Call.writes, hmethod] using isWrite_readInsertMany h
  · simpa [Call.isWrite, Call.writes, hmethod] using isWrite_readUpdate h
  · simpa [Call.isWrite, Call.writes, hmethod] using isWrite_readUpdate h
  · simpa [Call.isWrite, Call.writes, hmethod] using isWrite_readDelete h
  · simpa [Call.isWrite, Call.writes, hmethod] using isWrite_readDelete h
  · simp at h

/-! ### The store and the failures of requests -/

/-- Only a writing request changes the store. -/
theorem run_of_not_isWrite {store : Store} (hread : request.isWrite = false) :
    (request.run store).1 = store := by
  cases request <;> first | rfl | simp [isWrite] at hread

theorem allowed_queried (outcome : Except QueryFailure Report) :
    Failure.Allowed (queried outcome) := by
  cases outcome <;> trivial

theorem allowed_stored (outcome : Except StoreFailure Report) :
    Failure.Allowed (outcome.mapError Failure.store) := by
  cases outcome <;> trivial

/-- The rules are settled before the store is asked. -/
theorem allowed_run (store : Store) (request : Request) :
    Failure.Allowed (request.run store).2 := by
  cases request with
  | listDatabases | listCollections => trivial
  | useDatabase name =>
      simp only [run, useReport]
      split <;> trivial
  | find | findOne | count | distinct | aggregate | update | delete => exact allowed_queried _
  | insertOne | insertMany => exact allowed_stored _

end Request

namespace Command

/-! ### Reading a line -/

variable {current : Option String}

theorem allowed_ofListing (reference : Reference) :
    Failure.Allowed (ofListing current reference) := by
  unfold ofListing
  split
  · rename_i failure hcheck
    unfold checkEmptyCall at hcheck
    split at hcheck
    · cases hcheck
      trivial
    · split at hcheck <;> cases hcheck
      trivial
  · split <;> trivial

theorem allowed_ofChain (ns : Namespace) (text : List Char) :
    Failure.Allowed (ofChain ns text) := by
  unfold ofChain
  split <;> trivial

theorem allowed_ofReference (reference : Reference) :
    Failure.Allowed (ofReference current reference) := by
  unfold ofReference
  split
  · exact allowed_ofListing reference
  · split
    · trivial
    · split
      · exact allowed_ofChain _ _
      · trivial
    · exact allowed_ofChain _ _

theorem allowed_ofWords {words : List String} {outcome : Except Failure Command}
    (houtcome : ofWords current words = some outcome) : Failure.Allowed outcome := by
  unfold ofWords at houtcome
  split at houtcome <;> cases houtcome
  all_goals first | trivial | (split <;> trivial)

/-- No rule is looked at while a line is read. -/
theorem allowed_read (line : String) (current : Option String) :
    Failure.Allowed (Command.read line current) := by
  unfold Command.read
  simp only
  split
  · trivial
  · split
    · rename_i hwords
      exact allowed_ofWords hwords
    · split
      · trivial
      · split
        · exact allowed_ofReference _
        · trivial

end Command

namespace Plan

/-! ### Planning a chain -/

/-- The store is not asked for a write, and no rule stands in the way. -/
def IsRead : Except Failure Plan → Prop
  | .ok (.answer _) => True
  | .ok (.ask request) => request.isWrite = false
  | .error failure => Failure.Allowed (.error failure : Except Failure Plan)

variable {ns : Namespace} {call : Call}

/-- A chain of one writing call is planned as that call. -/
theorem ofCalls_of_isWrite (hwrite : call.isWrite = true) (readOnly : Bool) :
    ofCalls readOnly ns [call] = ofCall readOnly ns call := by
  -- No writing method opens a cursor or refines one, so the call is looked up in the table.
  have hmethod : call.method ≠ "find" ∧ Refinement.ofCall? call = none := by
    rw [Call.isWrite_iff] at hwrite
    simp only [List.mem_cons, List.not_mem_nil, or_false] at hwrite
    rcases hwrite with h | h | h | h | h | h <;> simp [Refinement.ofCall?, h]
  simp [ofCalls, hmethod.1, hmethod.2]

/-- A writing call that stands alone is refused whatever it is given. -/
theorem ofCalls_loneWrite (hwrite : call.isWrite = true) :
    ofCalls true ns [call] = .error (.policy (.readOnly call.method)) := by
  rw [ofCalls_of_isWrite hwrite]
  simp [ofCall, hwrite]

theorem isRead_ofRefinements (cursor : Cursor) (calls : List Call) :
    IsRead (ofRefinements ns cursor calls) := by
  induction calls generalizing cursor with
  | nil =>
      rw [ofRefinements, ofCursor]
      split
      · trivial
      · rfl
  | cons call more ih =>
      rw [ofRefinements]
      split
      · trivial
      · split
        · exact ih _
        · trivial
        · trivial

theorem ofCall_of_not_isWrite (hread : call.isWrite = false) (readOnly : Bool) :
    ofCall readOnly ns call = ofCall false ns call ∧ IsRead (ofCall readOnly ns call) := by
  refine ⟨by simp [ofCall, hread], ?_⟩
  simp only [ofCall, hread, Bool.and_false, Bool.false_eq_true, if_false]
  split
  · rename_i hrequest
    exact (Request.isWrite_ofCall hrequest).trans hread
  · trivial

/-- A chain that is not one writing call has the same plan under both rules, and
the plan only reads. -/
theorem ofCalls_of_not_loneWrite {calls : List Call}
    (hlone : ∀ call, calls = [call] → call.isWrite = false) (readOnly : Bool) :
    ofCalls readOnly ns calls = ofCalls false ns calls ∧
      IsRead (ofCalls readOnly ns calls) := by
  cases calls with
  | nil => exact ⟨rfl, trivial⟩
  | cons call more =>
      simp only [ofCalls]
      split
      · split
        · exact ⟨rfl, isRead_ofRefinements _ _⟩
        · exact ⟨rfl, trivial⟩
      · cases Refinement.ofCall? call with
        | some refinement => cases refinement <;> exact ⟨rfl, trivial⟩
        | none =>
            cases more with
            | cons next rest => exact ⟨rfl, trivial⟩
            | nil => exact ofCall_of_not_isWrite (hlone call rfl) readOnly

/-! ### Planning a line -/

variable {current : Option String} {line : String}

theorem ofLine_loneWrite (hwrite : Command.IsLoneWrite current line call) :
    ofLine true current line = .error (.policy (.readOnly call.method)) := by
  obtain ⟨⟨ns, hread⟩, hmethod⟩ := hwrite
  simp only [ofLine, hread, ofCommand]
  exact ofCalls_loneWrite ((Call.isWrite_iff call).mpr hmethod)

/-- A line that is not one writing call has the same plan under both rules, and
the plan only reads. -/
theorem ofLine_of_not_loneWrite (hlone : ∀ call, ¬ Command.IsLoneWrite current line call)
    (readOnly : Bool) :
    ofLine readOnly current line = ofLine false current line ∧
      IsRead (ofLine readOnly current line) := by
  have hallowed := Command.allowed_read line current
  unfold ofLine
  cases hread : Command.read line current with
  | error failure =>
      rw [hread] at hallowed
      exact ⟨rfl, hallowed.of_error⟩
  | ok command =>
      cases command with
      | showDatabases | listCollections | useDatabase => exact ⟨rfl, rfl⟩
      | chain ns calls =>
          refine ofCalls_of_not_loneWrite (fun call hcall => ?_) readOnly
          subst hcall
          by_contra hwrite
          rw [Bool.not_eq_false] at hwrite
          exact hlone call ⟨⟨ns, hread⟩, (Call.isWrite_iff call).mp hwrite⟩

theorem run_of_isRead {plan : Plan} (hread : IsRead (.ok plan)) (store : Store) :
    (plan.run store).1 = store ∧ Failure.Allowed (plan.run store).2 := by
  cases plan with
  | answer report => exact ⟨rfl, trivial⟩
  | ask request => exact ⟨Request.run_of_not_isWrite hread, Request.allowed_run store request⟩

end Plan

namespace Store

/-! ### Runs -/

/-- The outcome of a line in a session that may only read: the line is refused by
the name of its method if it is one writing call, and otherwise answered as in a
session that may write. -/
structure AnswersReadOnly (store : Store) (current : Option String) (line : String)
    (outcome : Except Failure Report) : Prop where
  refused_iff : ∀ operation, outcome = .error (.policy (.readOnly operation)) ↔
    ∃ call, Command.IsLoneWrite current line call ∧ call.method = operation
  same : (∀ call, ¬ Command.IsLoneWrite current line call) →
    outcome = (store.execute false current line).2

theorem execute_of_isRead (store : Store) {readOnly : Bool} {current : Option String}
    {line : String} (hread : Plan.IsRead (Plan.ofLine readOnly current line)) :
    (store.execute readOnly current line).1 = store ∧
      Failure.Allowed (store.execute readOnly current line).2 := by
  unfold execute
  cases hline : Plan.ofLine readOnly current line with
  | error failure =>
      rw [hline] at hread
      exact ⟨rfl, Failure.Allowed.of_error hread⟩
  | ok plan =>
      rw [hline] at hread
      exact Plan.run_of_isRead hread store

theorem execute_readOnly (store : Store) (current : Option String) (line : String) :
    (store.execute true current line).1 = store ∧
      store.AnswersReadOnly current line (store.execute true current line).2 := by
  -- A refused line has no plan at all; every other has the plan of a session that may write.
  by_cases hlone : ∃ call, Command.IsLoneWrite current line call
  · obtain ⟨call, hcall⟩ := hlone
    simp only [execute, Plan.ofLine_loneWrite hcall]
    refine ⟨trivial, fun operation => ⟨?_, ?_⟩, fun hnone => absurd hcall (hnone call)⟩
    · intro hrefused
      cases hrefused
      exact ⟨call, hcall, rfl⟩
    · rintro ⟨other, hother, rfl⟩
      have hline := Plan.ofLine_loneWrite hother
      rw [Plan.ofLine_loneWrite hcall] at hline
      simpa using hline
  · have hnone : ∀ call, ¬ Command.IsLoneWrite current line call :=
      fun call hcall => hlone ⟨call, hcall⟩
    obtain ⟨hsame, hread⟩ := Plan.ofLine_of_not_loneWrite hnone true
    obtain ⟨hstore, hallowed⟩ := execute_of_isRead store hread
    refine ⟨hstore, fun operation => ⟨?_, ?_⟩, fun _ => by simp only [execute, hsame]⟩
    · intro hrefused
      rw [hrefused] at hallowed
      exact hallowed.elim
    · rintro ⟨call, hcall, -⟩
      exact absurd hcall (hnone call)

/-- Carries out lines in order, each with the database that is current for it. -/
def executeAll (store : Store) (readOnly : Bool) :
    List (Option String × String) → Store × List (Except Failure Report)
  | [] => (store, [])
  | (current, line) :: more =>
    let (after, outcome) := store.execute readOnly current line
    let (last, outcomes) := after.executeAll readOnly more
    (last, outcome :: outcomes)

/-- **Reading only is complete and blocks nothing but writes.**  A run that may
only read leaves the store as it is.  It refuses exactly the lines that are one call
of a writing method, whatever the call is given, and answers every other line as a
run that may write would. -/
theorem executeAll_readOnly (store : Store) (lines : List (Option String × String)) :
    (store.executeAll true lines).1 = store ∧
      List.Forall₂ (fun line outcome => store.AnswersReadOnly line.1 line.2 outcome)
        lines (store.executeAll true lines).2 := by
  induction lines with
  | nil => exact ⟨rfl, .nil⟩
  | cons line more ih =>
      obtain ⟨current, line⟩ := line
      obtain ⟨hstore, hanswer⟩ := store.execute_readOnly current line
      simp only [executeAll, hstore]
      exact ⟨ih.1, .cons hanswer ih.2⟩

end Store

end DocShell
