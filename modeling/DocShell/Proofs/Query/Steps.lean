import DocShell.Proofs.Query.Changes
import DocShell.Proofs.Query.Reading

/-!
# Steps of an update, each at its path

A step is one operator on one path.  What it does is decided by what stands at its path
(`Step.result`), and is then carried out there (`Step.apply_eq`): a value is left at the path, or
nothing is.  Whether that is possible depends on what stands in front of the end of the path.

So a step on a path that goes apart from another one does not see the other step at all.  It
finds the same value, and it is blocked where it was blocked before (`Leaves.blockedAt_iff`): what
the other step makes on its way is a document, and where it writes there was no value in the way.
-/

namespace DocShell.Update

open DocShell.Path (getAt? segments Diverge BlockedAt row_cases)

variable {doc doc' updated : Document} {path row other : List String} {name part : String}
  {found : Option Value} {now : Bool} {step : Step}

/-! ### Decided at the path -/

/-- The value that an increase leaves if `old` stands at the path, or why it refuses. -/
def increased (path : String) (amount : Value) (old : Option Value) : Except QueryFailure Value :=
  if !amount.isNumber then .error (.increaseNotNumeric path)
  else
    match old with
    | none => .ok amount
    | some current =>
      if current.isNumber then .ok (addNumbers current amount)
      else .error (.targetNotNumeric path)

/-- What a step leaves at its path if `old` stands there, or why it refuses. -/
def Step.result (step : Step) (old : Option Value) : Except QueryFailure (Option Value) :=
  if step.path = "_id" then .error .immutableId
  else if step.op = "$set" then .ok (some step.operand)
  else if step.op = "$unset" then .ok none
  else if step.op = "$inc" then (increased step.path step.operand old).map some
  else .error (.unsupportedUpdate step.op)

/-- Leaves a value at a path, or nothing. -/
def leave (doc : Document) (path : String) : Option Value → Except QueryFailure Change
  | some value => setPath doc path value
  | none => .ok (unsetPath doc path)

theorem increasePath_eq (doc : Document) (path : String) (amount : Value) :
    increasePath doc path amount =
      (increased path amount (Path.get? doc path)).bind (setPath doc path) := by
  unfold increasePath increased
  split
  · rfl
  · cases Path.get? doc path with
    | none => rfl
    | some current =>
        cases hnumber : current.isNumber <;> simp [hnumber, Except.bind]

theorem Step.apply_eq (step : Step) (doc : Document) :
    step.apply doc =
      (step.result (Path.get? doc step.path)).bind (leave doc step.path) := by
  unfold Step.apply applyPath Step.result
  split
  · rfl
  · split
    · rfl
    · split
      · rfl
      · split
        · rw [increasePath_eq]
          cases increased step.path step.operand (Path.get? doc step.path) <;> rfl
        · rfl

/-! ### Carried out at the path -/

/-- The document has been left with `found` at the path, as reading sees it. -/
structure Leaves (path : List String) (found : Option Value) (doc updated : Document) : Prop where
  read : getAt? path updated = found
  free : found.isSome → ∀ part, ¬ BlockedAt path part doc
  front : found = none → ∀ front back, path = front ++ back → back ≠ [] →
    (getAt? front updated).map Value.outline = (getAt? front doc).map Value.outline
  others : ∀ other, Diverge path other → getAt? other updated = getAt? other doc

theorem leaves_of_leave (hleave : leave doc name found = .ok (updated, now)) :
    Leaves (segments name) found doc updated := by
  cases found with
  | none =>
      obtain ⟨rfl, -⟩ := Prod.mk.inj (Except.ok.inj hleave)
      refine { read := ?_, free := ?_, front := ?_, others := ?_ }
      · exact Path.getAt?_eraseAt_self _ doc
      · intro hsome
        cases hsome
      · intro _ front back hsplit hback
        rw [Path.erase, hsplit]
        exact Path.outline_getAt?_eraseAt hback front doc
      · exact fun other hdiverge => Path.getAt?_eraseAt_of_diverge doc hdiverge
  | some value =>
      obtain ⟨hset, -⟩ := setPath_eq_ok_iff.mp hleave
      have hwritten : Path.setAt (segments name) value doc = .ok updated := hset
      refine { read := ?_, free := ?_, front := ?_, others := ?_ }
      · exact Path.getAt?_setAt_self (Path.segments_ne_nil name) hwritten
      · intro _ part hblocked
        rw [Path.setAt_eq_error_iff.mpr hblocked] at hwritten
        cases hwritten
      · intro hnone
        cases hnone
      · exact fun other hdiverge => Path.getAt?_setAt_of_diverge hwritten hdiverge

/-- Whether a value stands in the way can be seen from the outside. -/
theorem stands_iff_outline {read : Option Value} :
    (∃ value, read = some value ∧ value.document? = none) ↔
      ∃ value, read.map Value.outline = some value ∧ value.document? = none := by
  constructor
  · rintro ⟨value, rfl, hvalue⟩
    exact ⟨value, congrArg some (Value.outline_of_document?_eq_none hvalue), hvalue⟩
  · rintro ⟨value, hread, hvalue⟩
    obtain ⟨seen, rfl, rfl⟩ := Option.map_eq_some_iff.mp hread
    cases seen with
    | document inner => cases hvalue
    | _ => exact ⟨_, rfl, rfl⟩

/-- A path that goes apart is blocked where it was blocked before. -/
theorem Leaves.blockedAt_iff (hleaves : Leaves path found doc updated)
    (hdiverge : Diverge path other) :
    BlockedAt other part updated ↔ BlockedAt other part doc := by
  unfold BlockedAt
  refine exists_congr fun front => exists_congr fun back => and_congr_right fun hother =>
    and_congr_right fun hback => ?_
  have hsplit : other = (front ++ [part]) ++ back := by simp [hother]
  obtain ⟨rest, hrow⟩ | ⟨rest, hrest, hpath⟩ | hrow := row_cases path (front ++ [part])
  · refine absurd ?_ hdiverge.1
    rw [hsplit, hrow, List.append_assoc]
    exact List.prefix_append path _
  · cases found with
    | none => rw [stands_iff_outline, hleaves.front rfl _ rest hpath hrest, ← stands_iff_outline]
    | some value =>
        -- The step has written behind this row, so there is a document now, and nothing else
        -- can have been there before.
        refine iff_of_false ?_ ?_
        · rintro ⟨seen, hseen, hnot⟩
          have hread := hleaves.read
          rw [hpath] at hread
          obtain ⟨inner, hinner, -⟩ := Path.document_of_getAt?_append (by simp) hrest hread
          rw [hseen, Option.some.injEq] at hinner
          subst hinner
          cases hnot
        · rintro ⟨seen, hseen, hnot⟩
          exact hleaves.free rfl part ⟨front, rest, by simp [hpath], hrest, seen, hseen, hnot⟩
  · rw [hleaves.others _ hrow]

/-! ### What a step tells -/

/-- Whether the step reports a change, or why it fails. -/
def Step.report (step : Step) (doc : Document) : Except QueryFailure Bool :=
  (step.apply doc).map Prod.snd

theorem Step.report_eq_ok_iff :
    step.report doc = .ok now ↔ ∃ updated, step.apply doc = .ok (updated, now) := by
  unfold Step.report
  rw [Outcome.map_eq_ok_iff]
  constructor
  · rintro ⟨⟨updated, now⟩, happly, rfl⟩
    exact ⟨updated, happly⟩
  · rintro ⟨updated, happly⟩
    exact ⟨(updated, now), happly, rfl⟩

theorem report_setPath_congr {path : String} {value : Value}
    (hread : Path.get? doc' path = Path.get? doc path)
    (hblocked : ∀ part, BlockedAt (segments path) part doc' ↔ BlockedAt (segments path) part doc) :
    (setPath doc' path value).map Prod.snd = (setPath doc path value).map Prod.snd := by
  unfold setPath
  rw [hread]
  cases hset : Path.set doc' path value with
  | error part =>
      have hsame : Path.set doc path value = .error part :=
        Path.setAt_eq_error_iff.mpr ((hblocked part).mp (Path.setAt_eq_error_iff.mp hset))
      rw [hsame]
  | ok updated' =>
      cases hset' : Path.set doc path value with
      | error part =>
          have hsame : Path.set doc' path value = .error part :=
            Path.setAt_eq_error_iff.mpr ((hblocked part).mpr (Path.setAt_eq_error_iff.mp hset'))
          rw [hset] at hsame
          cases hsame
      | ok updated => rfl

/-- What a step tells depends on what it finds at its path and what blocks that. -/
theorem Step.report_congr (hread : Path.get? doc' step.path = Path.get? doc step.path)
    (hblocked : ∀ part, BlockedAt (segments step.path) part doc' ↔
      BlockedAt (segments step.path) part doc) : step.report doc' = step.report doc := by
  unfold Step.report
  rw [Step.apply_eq, Step.apply_eq, hread]
  cases step.result (Path.get? doc step.path) with
  | error failure => rfl
  | ok found =>
      cases found with
      | none =>
          show Except.ok (Path.get? doc' step.path).isSome = .ok (Path.get? doc step.path).isSome
          rw [hread]
      | some value => exact report_setPath_congr hread hblocked

/-! ### Steps that go apart -/

theorem leaves_of_apply (happly : step.apply doc = .ok (updated, now)) :
    ∃ found, step.result (Path.get? doc step.path) = .ok found ∧
      Leaves (segments step.path) found doc updated := by
  rw [Step.apply_eq] at happly
  cases hresult : step.result (Path.get? doc step.path) with
  | error failure =>
      rw [hresult] at happly
      cases happly
  | ok found =>
      rw [hresult] at happly
      exact ⟨found, rfl, leaves_of_leave happly⟩

/-- A step tells the same before and behind another one on a path that goes apart. -/
theorem Step.report_of_apart {later : Step} (happly : step.apply doc = .ok (updated, now))
    (hdiverge : Diverge (segments step.path) (segments later.path)) :
    later.report updated = later.report doc := by
  obtain ⟨found, -, hleaves⟩ := leaves_of_apply happly
  exact Step.report_congr (hleaves.others _ hdiverge) fun part => hleaves.blockedAt_iff hdiverge

/-! ### Updates as runs of their steps -/

variable {change paths : Document} {op : String} {seen reported changed : Bool}
  {front back : List Step}

/-- A document of operators, each with a document of paths. -/
def IsUpdate (change : Document) : Prop :=
  change ≠ [] ∧ ∀ entry ∈ change, Filter.isOperator entry.1 = true ∧
    ∃ paths, entry.2 = .document paths

theorem Run.exists_of_append (hrun : Run (front ++ back) doc updated changed) :
    ∃ between first second, Run front doc between first ∧ Run back between updated second ∧
      changed = (first || second) := by
  induction front generalizing doc changed with
  | nil => exact ⟨doc, false, changed, .nil doc, hrun, rfl⟩
  | cons step more ih =>
      cases hrun with
      | cons hstep hmore =>
          obtain ⟨between, first, second, hfirst, hsecond, rfl⟩ := ih hmore
          exact ⟨between, _, second, .cons hstep hfirst, hsecond, (Bool.or_assoc ..).symm⟩

theorem applyPaths_of_run (hrun : Run (stepsOf op paths) doc updated reported) :
    applyPaths op paths doc seen = (updated, .ok (seen || reported)) := by
  induction paths generalizing doc seen reported with
  | nil =>
      cases hrun
      rw [applyPaths, Bool.or_false]
  | cons entry more ih =>
      cases hrun with
      | cons hstep hmore =>
          have happly : applyPath op doc entry.1 entry.2 = .ok (_, _) := hstep
          simp only [applyPaths, happly]
          rw [ih hmore, Bool.or_assoc]

theorem applyOperators_of_run (hdocuments : ∀ entry ∈ change, ∃ paths, entry.2 = .document paths)
    (hrun : Run (steps change) doc updated reported) :
    applyOperators change doc seen = (updated, .ok (seen || reported)) := by
  induction change generalizing doc seen reported with
  | nil =>
      cases hrun
      rw [applyOperators, Bool.or_false]
  | cons entry more ih =>
      rw [List.forall_mem_cons] at hdocuments
      obtain ⟨op, operand⟩ := entry
      obtain ⟨⟨paths, hpaths⟩, hmore⟩ := hdocuments
      have hoperand : operand = .document paths := hpaths
      subst hoperand
      obtain ⟨between, first, second, hfirst, hsecond, rfl⟩ := Run.exists_of_append hrun
      simp only [applyOperators, applyPaths_of_run hfirst]
      rw [ih hmore hsecond, Bool.or_assoc]

theorem documents_of_applyOperators
    (happly : applyOperators change doc seen = (updated, .ok changed)) :
    ∀ entry ∈ change, ∃ paths, entry.2 = .document paths := by
  induction change generalizing doc seen with
  | nil => simp
  | cons entry more ih =>
      obtain ⟨op, operand⟩ := entry
      rw [List.forall_mem_cons]
      unfold applyOperators at happly
      split at happly
      · rename_i paths
        split at happly
        · exact ⟨⟨paths, rfl⟩, ih happly⟩
        · simp at happly
      · simp at happly

/-- An update goes through exactly if it is one and its steps go through. -/
theorem apply_eq_ok_iff : apply change doc = (updated, .ok changed) ↔
    IsUpdate change ∧ Run (steps change) doc updated changed := by
  constructor
  · intro happly
    refine ⟨?_, run_of_apply happly⟩
    unfold apply at happly
    split at happly
    · simp at happly
    · rename_i hchecked
      simp only [Bool.or_eq_true, List.isEmpty_iff, Bool.not_eq_true', not_or,
        Bool.not_eq_false, List.all_eq_true] at hchecked
      refine ⟨hchecked.1, fun entry hentry => ⟨hchecked.2 entry hentry, ?_⟩⟩
      exact documents_of_applyOperators happly entry hentry
  · rintro ⟨⟨hnil, hentries⟩, hrun⟩
    have hall : (change.all fun entry => Filter.isOperator entry.1) = true :=
      List.all_eq_true.mpr fun entry hentry => (hentries entry hentry).1
    have hempty : change.isEmpty = false := by
      rw [← Bool.not_eq_true, List.isEmpty_iff]
      exact hnil
    simp only [apply, hall, hempty, Bool.not_true, Bool.or_self, Bool.false_eq_true, if_false]
    exact applyOperators_of_run (fun entry hentry => (hentries entry hentry).2) hrun

end DocShell.Update
