import DocShell.Proofs.Query.Update

/-!
# What a reported change means

An update reports a change if one of its steps does, a step being one operator on one path.
A single step tells the truth (`visible_of_applyPath`, `same_of_applyPath`), so that of a
whole update the report says that some step changed the document, not that the document is
another one in the end: a later step can take back what an earlier one has done.

* What is not reported has not happened: without a report the document is the same
  (`Run.same`), and no step has changed it in between (`Run.isChain_iff`).
* What is reported is seen at the path of the step that reports it.  It is still seen after
  all steps if no later path leads to it, through it or behind it (`Run.differs`).

## Strategy

An update that goes through is flattened to the steps of all its operators (`run_of_apply`),
and everything is shown step by step along this run.  A document that is compared with others
has to equal itself, which a NaN in it would prevent (`Document.Comparable`); a step without a
report hands this on, since the document behind it is the same.
-/

namespace DocShell

open Value (Alike)

namespace Document

/-- The documents have the same content. -/
def Same (before after : Document) : Prop :=
  (Value.document before).same (.document after) = true

instance (before after : Document) : Decidable (Same before after) :=
  inferInstanceAs (Decidable (_ = true))

/-- A document that others can be compared with: it has every name once, and no NaN in it makes
it differ from itself. -/
structure Comparable (doc : Document) : Prop where
  wellFormed : (Value.document doc).WellFormed
  self : Same doc doc

variable {doc updated third : Document} {key : String} {old new : Value}

theorem Same.trans (hfirst : Same doc updated) (hsecond : Same updated third) : Same doc third :=
  Value.same_trans _ _ _ hfirst hsecond

theorem Same.symm (hdoc : (Value.document doc).WellFormed)
    (hupdated : (Value.document updated).WellFormed) (hsame : Same doc updated) :
    Same updated doc :=
  Value.same_symm _ _ hdoc hupdated hsame

theorem Same.comparable (hsame : Same doc updated) (hdoc : (Value.document doc).WellFormed)
    (hupdated : (Value.document updated).WellFormed) : Comparable updated :=
  ⟨hupdated, (hsame.symm hdoc hupdated).trans hsame⟩

theorem comparable_of_naNFree (hdoc : (Value.document doc).WellFormed)
    (hnan : (Value.document doc).NaNFree) : Comparable doc :=
  ⟨hdoc, Value.same_self _ hdoc hnan⟩

theorem Comparable.alike (hdoc : Comparable doc) (key : String) :
    Alike (doc.get? key) (doc.get? key) :=
  (Value.same_document_iff hdoc.wellFormed hdoc.wellFormed).mp hdoc.self key

theorem Comparable.inner {inner : Document} (hdoc : Comparable doc)
    (hinner : doc.get? key = some (.document inner)) : Comparable inner := by
  refine ⟨Value.wellFormed_of_get? hdoc.wellFormed hinner, ?_⟩
  have hread := hdoc.alike key
  rw [hinner] at hread
  obtain ⟨found, hfound, hsame⟩ := hread.exists_same
  rwa [← Option.some.inj hfound] at hsame

/-- A value that is put in the place of one it equals leaves the document the same. -/
theorem Comparable.same_insert (hdoc : Comparable doc) (hget : doc.get? key = some old)
    (hnew : new.WellFormed) (hsame : old.same new = true) : Same doc (doc.insert key new) := by
  refine (Value.same_document_iff hdoc.wellFormed
    (Value.wellFormed_insert hdoc.wellFormed hnew)).mpr fun other => ?_
  rw [Fields.get?_insert]
  split
  · rename_i heq
    subst heq
    rw [hget]
    exact .some hsame
  · exact hdoc.alike other

end Document

open Document (Same Comparable)

namespace Path

variable {doc doc' updated : Document} {path : List String} {old value : Value}

/-- Documents that are the same read alike at every path. -/
theorem getAt?_alike (hdoc : (Value.document doc).WellFormed)
    (hdoc' : (Value.document doc').WellFormed) (hsame : Same doc doc') (path : List String) :
    Alike (getAt? path doc) (getAt? path doc') := by
  induction path generalizing doc doc' with
  | nil => exact .none
  | cons name more ih =>
      have hname := (Value.same_document_iff hdoc hdoc').mp hsame name
      by_cases hmore : more = []
      · rw [hmore]
        exact hname
      · rw [getAt?_cons hmore, getAt?_cons hmore]
        cases hget : doc.get? name with
        | none =>
            rw [hget] at hname
            rw [hname.eq_none_iff.mp rfl]
            exact .none
        | some found =>
            rw [hget] at hname
            obtain ⟨found', hget', hfound⟩ := hname.exists_same
            rw [hget']
            cases found with
            | document inner =>
                cases found' with
                | document inner' =>
                    exact ih (Value.wellFormed_of_get? hdoc hget)
                      (Value.wellFormed_of_get? hdoc' hget') hfound
                | _ => simp [Value.same] at hfound
            | _ => cases found' <;> first | exact .none | simp [Value.same] at hfound

/-- Writing what equals the value that is there leaves the document the same. -/
theorem same_setAt (hdoc : Comparable doc) (hvalue : value.WellFormed)
    (hset : setAt path value doc = .ok updated) (hget : getAt? path doc = some old)
    (hsame : old.same value = true) : Same doc updated := by
  induction path generalizing doc updated with
  | nil => cases hget
  | cons name more ih =>
      cases more with
      | nil =>
          simp only [setAt, Except.ok.injEq] at hset
          exact hset ▸ hdoc.same_insert hget hvalue hsame
      | cons next more =>
          have hrest : next :: more ≠ [] := List.cons_ne_nil next more
          obtain ⟨inner, written, ⟨hnone, -⟩ | hinner, hwritten, rfl⟩ := of_setAt hset
          · rw [getAt?_of_not_document hrest (by rw [hnone]; rfl)] at hget
            cases hget
          · rw [getAt?_of_document hrest hinner] at hget
            have hwell := wellFormed_setAt hvalue (hdoc.inner hinner).wellFormed hwritten
            exact hdoc.same_insert hinner hwell (ih (hdoc.inner hinner) hwritten hget)

end Path

namespace Update

open DocShell.Path (Diverge segments)

variable {doc between updated : Document} {op path : String} {operand : Value}
  {now changed : Bool}

/-! ### One step -/

theorem removes_of_eq (hunset : (updated, now) = unsetPath doc path) :
    Removes doc path updated now := by
  obtain ⟨rfl, rfl⟩ := Prod.mk.inj hunset
  exact removes_unsetPath doc path

theorem others_of_applyPath (happly : applyPath op doc path operand = .ok (updated, now))
    {other : String} (hdiverge : Diverge (segments path) (segments other)) :
    Path.get? updated other = Path.get? doc other := by
  obtain ⟨-, ⟨value, -, hset⟩ | hunset⟩ := cases_of_applyPath happly
  · exact (writes_of_setPath hset).others other hdiverge
  · exact (removes_of_eq hunset).others other hdiverge

/-- A change that a step reports is seen at its path. -/
theorem visible_of_applyPath (happly : applyPath op doc path operand = .ok (updated, true)) :
    ¬ Alike (Path.get? doc path) (Path.get? updated path) := by
  intro halike
  obtain ⟨-, ⟨value, -, hset⟩ | hunset⟩ := cases_of_applyPath happly
  · have hwrites := writes_of_setPath hset
    rw [hwrites.read] at halike
    cases hget : Path.get? doc path with
    | none =>
        rw [hget] at halike
        cases halike
    | some old =>
        rw [hget] at halike
        obtain ⟨new, hnew, hsame⟩ := halike.exists_same
        rw [← Option.some.inj hnew, hwrites.report.mp rfl old hget] at hsame
        cases hsame
  · have hremoves := removes_of_eq hunset
    obtain ⟨old, hold⟩ := hremoves.report.mp rfl
    rw [hold, hremoves.read] at halike
    cases halike

/-- A step that reports no change has made none. -/
theorem same_of_applyPath (hdoc : Comparable doc) (hoperand : operand.WellFormed)
    (happly : applyPath op doc path operand = .ok (updated, false)) : Same doc updated := by
  obtain ⟨-, ⟨value, hvalue, hset⟩ | hunset⟩ := cases_of_applyPath happly
  · obtain ⟨hwritten, hreport⟩ := setPath_eq_ok_iff.mp hset
    cases hget : Path.get? doc path with
    | none => simp [hget] at hreport
    | some old =>
        exact Path.same_setAt hdoc (wellFormed_of_written hoperand hvalue) hwritten hget
          (by simpa [hget] using hreport)
  · obtain ⟨rfl, hnow⟩ := Prod.mk.inj hunset
    have hnone : Path.get? doc path = none := by simpa using hnow.symm
    rw [Path.erase, Path.eraseAt_of_getAt?_eq_none hnone]
    exact hdoc.self

theorem report_of_applyPath (hdoc : Comparable doc) (hoperand : operand.WellFormed)
    (happly : applyPath op doc path operand = .ok (updated, now)) :
    now = false ↔ Same doc updated := by
  cases now with
  | false => exact iff_of_true rfl (same_of_applyPath hdoc hoperand happly)
  | true =>
      refine iff_of_false (by simp) fun hsame => visible_of_applyPath happly ?_
      have hupdated := wellFormed_applyPath hoperand hdoc.wellFormed happly
      exact Path.getAt?_alike hdoc.wellFormed hupdated hsame _

/-! ### All steps -/

/-- One operator on one path, with its operand. -/
structure Step where
  op : String
  path : String
  operand : Value

/-- The steps of one operator. -/
def stepsOf (op : String) (paths : Document) : List Step :=
  paths.map fun entry => { op, path := entry.1, operand := entry.2 }

/-- The steps of an update in order. -/
def steps (change : Document) : List Step :=
  change.flatMap fun entry => (entry.2.document?.map (stepsOf entry.1)).getD []

/-- The operator on the path. -/
def Step.apply (step : Step) (doc : Document) : Except QueryFailure Change :=
  applyPath step.op doc step.path step.operand

/-- The document in front of the steps and those behind each, up to a step that fails. -/
def trail : List Step → Document → List Document
  | [], doc => [doc]
  | step :: more, doc =>
    doc :: match step.apply doc with
      | .ok (between, _) => trail more between
      | .error _ => []

/-- The steps go through and leave the document `updated`; `changed` tells whether one of them
has reported a change. -/
inductive Run : List Step → Document → Document → Bool → Prop
  | nil (doc : Document) : Run [] doc doc false
  | cons {step : Step} {more : List Step} {doc between updated : Document} {now changed : Bool}
      (hstep : step.apply doc = .ok (between, now)) (hmore : Run more between updated changed) :
      Run (step :: more) doc updated (now || changed)

variable {front back : List Step} {change : Document}

theorem Run.append {changed' : Bool} (hfront : Run front doc between changed)
    (hback : Run back between updated changed') :
    Run (front ++ back) doc updated (changed || changed') := by
  induction hfront with
  | nil doc => exact hback
  | cons hstep hmore ih => exact Bool.or_assoc .. ▸ Run.cons hstep (ih hback)

theorem run_of_applyPaths {paths : Document} {seen : Bool}
    (happly : applyPaths op paths doc seen = (updated, .ok changed)) :
    ∃ reported, changed = (seen || reported) ∧ Run (stepsOf op paths) doc updated reported := by
  induction paths generalizing doc seen with
  | nil =>
      simp only [applyPaths, Prod.mk.injEq, Except.ok.injEq] at happly
      obtain ⟨rfl, rfl⟩ := happly
      exact ⟨false, (Bool.or_false seen).symm, .nil doc⟩
  | cons entry more ih =>
      obtain ⟨path, operand⟩ := entry
      rw [applyPaths] at happly
      cases hstep : applyPath op doc path operand with
      | error failure => simp [hstep] at happly
      | ok outcome =>
          obtain ⟨between, now⟩ := outcome
          simp only [hstep] at happly
          obtain ⟨reported, rfl, hrun⟩ := ih happly
          exact ⟨now || reported, Bool.or_assoc .., .cons hstep hrun⟩

theorem run_of_applyOperators {seen : Bool}
    (happly : applyOperators change doc seen = (updated, .ok changed)) :
    ∃ reported, changed = (seen || reported) ∧ Run (steps change) doc updated reported := by
  induction change generalizing doc seen with
  | nil =>
      simp only [applyOperators, Prod.mk.injEq, Except.ok.injEq] at happly
      obtain ⟨rfl, rfl⟩ := happly
      exact ⟨false, (Bool.or_false seen).symm, .nil doc⟩
  | cons entry more ih =>
      obtain ⟨op, operand⟩ := entry
      unfold applyOperators at happly
      split at happly
      · rename_i paths
        split at happly
        · rename_i between seen' hpaths
          obtain ⟨first, rfl, hfirst⟩ := run_of_applyPaths hpaths
          obtain ⟨rest, rfl, hrest⟩ := ih happly
          exact ⟨first || rest, Bool.or_assoc .., hfirst.append hrest⟩
        · simp at happly
      · simp at happly

theorem run_of_apply (happly : apply change doc = (updated, .ok changed)) :
    Run (steps change) doc updated changed := by
  unfold apply at happly
  split at happly
  · simp at happly
  · obtain ⟨reported, rfl, hrun⟩ := run_of_applyOperators happly
    exact hrun

/-- The operands of all steps are well formed. -/
def Operands (steps : List Step) : Prop :=
  ∀ step ∈ steps, step.operand.WellFormed

/-- A step of an update is one path of one of its operators. -/
theorem exists_of_mem_steps {step : Step} (hstep : step ∈ steps change) :
    ∃ paths, (step.op, .document paths) ∈ change ∧ (step.path, step.operand) ∈ paths := by
  obtain ⟨⟨op, operand⟩, hentry, hstep⟩ := List.mem_flatMap.mp hstep
  cases operand with
  | document paths =>
      obtain ⟨entry, hmem, rfl⟩ := List.mem_map.mp hstep
      exact ⟨paths, hentry, hmem⟩
  | _ => simp [Value.document?] at hstep

theorem operands_steps (hchange : (Value.document change).WellFormed) :
    Operands (steps change) := by
  intro step hstep
  obtain ⟨paths, hentry, hmem⟩ := exists_of_mem_steps hstep
  exact wellFormed_operand hchange hentry hmem

/-! ### What a run keeps -/

/-- No path of a step leads to, through or behind that of another one. -/
def Independent (steps : List Step) : Prop :=
  steps.Pairwise fun first second => Diverge (segments first.path) (segments second.path)

variable {all : List Step}

theorem Run.wellFormed (hrun : Run all doc updated changed) (hsteps : Operands all)
    (hdoc : (Value.document doc).WellFormed) : (Value.document updated).WellFormed := by
  induction hrun with
  | nil doc => exact hdoc
  | cons hstep hmore ih =>
      rw [Operands, List.forall_mem_cons] at hsteps
      exact ih hsteps.2 (wellFormed_applyPath hsteps.1 hdoc hstep)

/-- A path that goes apart from those of all steps reads as before. -/
theorem Run.others (hrun : Run all doc updated changed) {other : String}
    (hdiverge : ∀ step ∈ all, Diverge (segments step.path) (segments other)) :
    Path.get? updated other = Path.get? doc other := by
  induction hrun with
  | nil doc => rfl
  | cons hstep hmore ih =>
      rw [List.forall_mem_cons] at hdiverge
      rw [ih hdiverge.2, others_of_applyPath hstep hdiverge.1]

/-- A run that reports nothing has changed nothing. -/
theorem Run.same (hrun : Run all doc updated changed) (hsteps : Operands all)
    (hdoc : Comparable doc) (hchanged : changed = false) : Same doc updated := by
  induction hrun with
  | nil doc => exact hdoc.self
  | cons hstep hmore ih =>
      rw [Operands, List.forall_mem_cons] at hsteps
      obtain ⟨rfl, rfl⟩ := Bool.or_eq_false_iff.mp hchanged
      have hbetween := wellFormed_applyPath hsteps.1 hdoc.wellFormed hstep
      have hfirst := same_of_applyPath hdoc hsteps.1 hstep
      exact hfirst.trans (ih hsteps.2 (hfirst.comparable hdoc.wellFormed hbetween) rfl)

theorem exists_trail_eq_cons (all : List Step) (doc : Document) :
    ∃ more, trail all doc = doc :: more := by
  cases all with
  | nil => exact ⟨[], rfl⟩
  | cons step more => exact ⟨_, rfl⟩

/-- A run reports nothing exactly if no step of it has changed anything. -/
theorem Run.isChain_iff (hrun : Run all doc updated changed) (hsteps : Operands all)
    (hdoc : Comparable doc) : changed = false ↔ (trail all doc).IsChain Same := by
  induction hrun with
  | nil doc => simp [trail]
  | @cons step more doc between updated now changed hstep hmore ih =>
      rw [Operands, List.forall_mem_cons] at hsteps
      have hbetween := wellFormed_applyPath hsteps.1 hdoc.wellFormed hstep
      have htrail : (trail (step :: more) doc).IsChain Same ↔
          Same doc between ∧ (trail more between).IsChain Same := by
        obtain ⟨rest, hrest⟩ := exists_trail_eq_cons more between
        simp only [trail, hstep, hrest, List.isChain_cons_cons]
      rw [htrail, Bool.or_eq_false_iff, report_of_applyPath hdoc hsteps.1 hstep]
      exact and_congr_right fun hfirst =>
        ih hsteps.2 (hfirst.comparable hdoc.wellFormed hbetween)

/-- What a run reports is there in the end, unless a path leads to what another one has
written. -/
theorem Run.differs (hrun : Run all doc updated changed) (hsteps : Operands all)
    (hdoc : Comparable doc) (hapart : Independent all) (hchanged : changed = true) :
    ¬ Same doc updated := by
  induction hrun with
  | nil doc => cases hchanged
  | @cons step more doc between updated now changed hstep hmore ih =>
      intro hsame
      rw [Independent, List.pairwise_cons] at hapart
      have hupdated := (Run.cons hstep hmore).wellFormed hsteps hdoc.wellFormed
      rw [Operands, List.forall_mem_cons] at hsteps
      have hbetween := wellFormed_applyPath hsteps.1 hdoc.wellFormed hstep
      cases now with
      | true =>
          -- What is seen at the path of this step is not touched by the steps behind it.
          refine visible_of_applyPath hstep ?_
          rw [← hmore.others fun later hlater => (hapart.1 later hlater).symm]
          exact Path.getAt?_alike hdoc.wellFormed hupdated hsame _
      | false =>
          have hfirst := same_of_applyPath hdoc hsteps.1 hstep
          have hcomparable := hfirst.comparable hdoc.wellFormed hbetween
          refine ih hsteps.2 hcomparable hapart.2 hchanged ?_
          exact (hfirst.symm hdoc.wellFormed hbetween).trans hsame

/-! ### The report of an update -/

/-- The report as a statement on the documents: some step has changed the one in front of it,
and so the last is another one than the first, if no step leads to what another one writes. -/
structure Reported (change doc updated : Document) (changed : Bool) : Prop where
  between : changed = false ↔ (trail (steps change) doc).IsChain Same
  unreported : changed = false → Same doc updated
  independent : Independent (steps change) → (changed = true ↔ ¬ Same doc updated)

theorem reported_of_apply (hchange : (Value.document change).WellFormed) (hdoc : Comparable doc)
    (happly : apply change doc = (updated, .ok changed)) :
    Reported change doc updated changed := by
  have hrun := run_of_apply happly
  have hsteps := operands_steps hchange
  have hsilent : changed = false → Same doc updated := hrun.same hsteps hdoc
  refine { between := hrun.isChain_iff hsteps hdoc, unreported := hsilent, independent := ?_ }
  intro hapart
  refine ⟨hrun.differs hsteps hdoc hapart, fun hdiffers => ?_⟩
  exact Bool.of_not_eq_false fun hchanged => hdiffers (hsilent hchanged)

end Update

end DocShell
