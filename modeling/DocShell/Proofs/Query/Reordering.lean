import DocShell.Proofs.Query.Steps

/-!
# Updates in another order

If no path of an update leads to, through or behind another one, the order of its operators and
of the paths under them does not matter.  It fails in every order or in none, with the same
report, and what it leaves differs in the order of fields at most (`separate_paths_commute`).
With other paths it would matter: a `$set` of `a` and one of `a.b` leave what the later one says.

## Strategy

Every step is compared with what it would do to the document in front of all steps.

* It tells the same there, so the update goes through if each step alone would, and it reports a
  change if one of them would (`Run.reports`, `exists_run`).
* At its path it leaves the same there; and where no step leaves or removes anything, documents
  stay documents and all else stays what it is (`Run.settles`).

Neither statement knows an order.  Steps may share parents that the first of them makes: seen
from the outside, such a parent is a document whoever has made it.
-/

namespace DocShell

open DocShell.Path (getAt? segments Diverge row_cases)

namespace Document

/-- The same content but for the order of fields: every row of names leads to the same value in
both documents, or to a document in both. -/
def Reordered (doc doc' : Document) : Prop :=
  ∀ row, (getAt? row doc).map Value.outline = (getAt? row doc').map Value.outline

variable {doc doc' : Document} {key : String}

theorem Reordered.inner {inner inner' : Document} (hreordered : Reordered doc doc')
    (hinner : doc.get? key = some (.document inner))
    (hinner' : doc'.get? key = some (.document inner')) : Reordered inner inner' := by
  intro row
  by_cases hrow : row = []
  · rw [hrow]
    rfl
  · have hread := hreordered (key :: row)
    rwa [Path.getAt?_of_document hrow hinner, Path.getAt?_of_document hrow hinner'] at hread

/-- What stands under a name in two documents of the same content. -/
theorem Reordered.field_cases (hreordered : Reordered doc doc') (key : String) :
    (doc.get? key = none ∧ doc'.get? key = none) ∨
      (∃ inner inner', doc.get? key = some (.document inner) ∧
        doc'.get? key = some (.document inner')) ∨
      ∃ value, doc.get? key = some value ∧ doc'.get? key = some value := by
  have hread : (doc.get? key).map Value.outline = (doc'.get? key).map Value.outline :=
    hreordered [key]
  obtain hnone | ⟨inner, hinner⟩ | ⟨value, hvalue, hnot⟩ := Path.field_cases doc key
  · rw [hnone, Option.map_none, eq_comm, Option.map_eq_none_iff] at hread
    exact Or.inl ⟨hnone, hread⟩
  · rw [hinner] at hread
    obtain ⟨value', hvalue', houtline⟩ := Option.map_eq_some_iff.mp hread.symm
    refine Or.inr (Or.inl ⟨inner, ?_⟩)
    cases value' with
    | document inner' => exact ⟨inner', hinner, hvalue'⟩
    | _ => cases houtline
  · rw [hvalue, Option.map_some, Value.outline_of_document?_eq_none hnot] at hread
    obtain ⟨value', hvalue', houtline⟩ := Option.map_eq_some_iff.mp hread.symm
    refine Or.inr (Or.inr ⟨value, hvalue, ?_⟩)
    cases value' with
    | document inner' =>
        subst houtline
        cases hnot
    | _ => rw [hvalue', ← houtline]; rfl

theorem sizeOf_inner_lt {inner : Document} (hinner : doc.get? key = some (.document inner)) :
    sizeOf inner < sizeOf doc := by
  have hlt := List.sizeOf_lt_of_mem (Fields.mem_of_get? hinner)
  simp only [Prod.mk.sizeOf_spec, Value.document.sizeOf_spec] at hlt
  omega

/-- Documents of the same content are equal if they can be compared at all. -/
theorem Reordered.same {doc doc' : Document} (hreordered : Reordered doc doc')
    (hdoc : Comparable doc) (hdoc' : (Value.document doc').WellFormed) : Same doc doc' := by
  refine (Value.same_document_iff hdoc.wellFormed hdoc').mpr fun key => ?_
  obtain ⟨hnone, hnone'⟩ | ⟨inner, inner', hinner, hinner'⟩ | ⟨value, hvalue, hvalue'⟩ :=
    hreordered.field_cases key
  · rw [hnone, hnone']
    exact .none
  · have hlt := sizeOf_inner_lt hinner
    rw [hinner, hinner']
    exact .some (Reordered.same (hreordered.inner hinner hinner') (hdoc.inner hinner)
      (Value.wellFormed_of_get? hdoc' hinner'))
  · have halike := hdoc.alike key
    rw [hvalue] at halike ⊢
    rwa [hvalue']
termination_by sizeOf doc

/-- They are equal exactly if one of them equals itself. -/
theorem Reordered.same_iff (hreordered : Reordered doc doc')
    (hdoc : (Value.document doc).WellFormed) (hdoc' : (Value.document doc').WellFormed) :
    Same doc doc' ↔ Same doc doc := by
  constructor
  · intro hsame
    exact hsame.trans (hsame.symm hdoc hdoc')
  · intro hself
    exact hreordered.same ⟨hdoc, hself⟩ hdoc'

end Document

open Document (Same Reordered)

namespace Update

variable {doc updated updated' : Document} {all all' front back : List Step} {changed : Bool}
  {change change' : Document} {op : String} {step : Step}

/-! ### Every step, compared with the document in front of all -/

/-- The steps report what each of them would report alone. -/
theorem Run.reports (hrun : Run all doc updated changed) (hapart : Independent all) :
    (∀ step ∈ all, ∃ now, step.report doc = .ok now) ∧
      (changed = true ↔ ∃ step ∈ all, step.report doc = .ok true) := by
  induction hrun with
  | nil doc => simp
  | @cons step more doc between updated now changed hstep hmore ih =>
      rw [Independent, List.pairwise_cons] at hapart
      have hreport : step.report doc = .ok now := Step.report_eq_ok_iff.mpr ⟨between, hstep⟩
      have hsame : ∀ later ∈ more, later.report between = later.report doc :=
        fun later hlater => Step.report_of_apart hstep (hapart.1 later hlater)
      obtain ⟨hgo, hchanged⟩ := ih hapart.2
      constructor
      · intro other hother
        rcases List.mem_cons.mp hother with rfl | hlater
        · exact ⟨now, hreport⟩
        · obtain ⟨now', hnow'⟩ := hgo other hlater
          exact ⟨now', hsame other hlater ▸ hnow'⟩
      · rw [Bool.or_eq_true, hchanged]
        constructor
        · rintro (rfl | ⟨later, hlater, htrue⟩)
          · exact ⟨step, List.mem_cons_self .., hreport⟩
          · exact ⟨later, List.mem_cons_of_mem _ hlater, hsame later hlater ▸ htrue⟩
        · rintro ⟨other, hother, htrue⟩
          rcases List.mem_cons.mp hother with rfl | hlater
          · rw [hreport, Except.ok.injEq] at htrue
            exact Or.inl htrue
          · exact Or.inr ⟨other, hlater, (hsame other hlater).trans htrue⟩

/-- Steps that would go through alone go through one after the other. -/
theorem exists_run (hapart : Independent all)
    (hreports : ∀ step ∈ all, ∃ now, step.report doc = .ok now) :
    ∃ updated changed, Run all doc updated changed := by
  induction all generalizing doc with
  | nil => exact ⟨doc, false, .nil doc⟩
  | cons step more ih =>
      rw [Independent, List.pairwise_cons] at hapart
      rw [List.forall_mem_cons] at hreports
      obtain ⟨now, hnow⟩ := hreports.1
      obtain ⟨between, hstep⟩ := Step.report_eq_ok_iff.mp hnow
      have hlater : ∀ later ∈ more, ∃ now, later.report between = .ok now := by
        intro later hlater
        rw [Step.report_of_apart hstep (hapart.1 later hlater)]
        exact hreports.2 later hlater
      obtain ⟨updated, changed, hmore⟩ := ih hapart.2 hlater
      exact ⟨updated, now || changed, .cons hstep hmore⟩

/-- What the steps leave, in terms of the document in front of all: each leaves its result at
its path, and a row that no step leaves anything at or behind shows what it has shown. -/
structure Settles (all : List Step) (doc updated : Document) : Prop where
  reached : ∀ step ∈ all, ∃ found, step.result (Path.get? doc step.path) = .ok found ∧
    Path.get? updated step.path = found
  untouched : ∀ row, (∀ step ∈ all, ¬ segments step.path <+: row ∧
      (row <+: segments step.path → Path.get? updated step.path = none)) →
    (getAt? row updated).map Value.outline = (getAt? row doc).map Value.outline

theorem Run.settles (hrun : Run all doc updated changed) (hapart : Independent all) :
    Settles all doc updated := by
  induction hrun with
  | nil doc => exact ⟨by simp, fun _ _ => rfl⟩
  | @cons step more doc between updated now changed hstep hmore ih =>
      rw [Independent, List.pairwise_cons] at hapart
      have hsettles := ih hapart.2
      obtain ⟨found, hresult, hleaves⟩ := leaves_of_apply hstep
      -- The steps behind do not see this one, and it is not seen by them.
      have hkept : Path.get? updated step.path = found :=
        (hmore.others fun later hlater => (hapart.1 later hlater).symm).trans hleaves.read
      refine { reached := ?_, untouched := ?_ }
      · intro other hother
        rcases List.mem_cons.mp hother with rfl | hlater
        · exact ⟨found, hresult, hkept⟩
        · obtain ⟨found', hresult', hread⟩ := hsettles.reached other hlater
          have hsame : Path.get? between other.path = Path.get? doc other.path :=
            hleaves.others _ (hapart.1 other hlater)
          exact ⟨found', hsame ▸ hresult', hread⟩
      · intro row hrow
        rw [List.forall_mem_cons] at hrow
        obtain ⟨⟨hnotBehind, hnone⟩, hlater⟩ := hrow
        rw [hsettles.untouched row hlater]
        obtain ⟨rest, rfl⟩ | ⟨rest, hrest, hpath⟩ | hdiverge := row_cases (segments step.path) row
        · exact absurd (List.prefix_append _ rest) hnotBehind
        · have hfound : found = none := by
            rw [← hkept]
            exact hnone (hpath ▸ List.prefix_append row rest)
          exact hleaves.front hfound row rest hpath hrest
        · rw [hleaves.others row hdiverge]

theorem Settles.reordered (hsettles : Settles all doc updated)
    (hsettles' : Settles all' doc updated') (hmem : ∀ step, step ∈ all ↔ step ∈ all') :
    Reordered updated updated' := by
  have hread : ∀ step ∈ all, Path.get? updated step.path = Path.get? updated' step.path := by
    intro step hstep
    obtain ⟨found, hresult, hfound⟩ := hsettles.reached step hstep
    obtain ⟨found', hresult', hfound'⟩ := hsettles'.reached step ((hmem step).mp hstep)
    rw [hresult, Except.ok.injEq] at hresult'
    rw [hfound, hfound', hresult']
  intro row
  by_cases hbehind : ∃ step ∈ all, segments step.path <+: row
  · obtain ⟨step, hstep, rest, rfl⟩ := hbehind
    have hsame : getAt? (segments step.path) updated = getAt? (segments step.path) updated' :=
      hread step hstep
    rw [Path.getAt?_append (Path.segments_ne_nil _), Path.getAt?_append (Path.segments_ne_nil _),
      hsame]
  · by_cases hway : ∃ step ∈ all, row <+: segments step.path ∧
        (Path.get? updated step.path).isSome
    · -- A value stands at the end of the path in both, and so a document here.
      obtain ⟨step, hstep, ⟨rest, hpath⟩, hsome⟩ := hway
      obtain ⟨value, hvalue⟩ := Option.isSome_iff_exists.mp hsome
      have hvalue' : Path.get? updated' step.path = some value := hread step hstep ▸ hvalue
      rw [Path.get?, ← hpath] at hvalue hvalue'
      by_cases hrow : row = []
      · rw [hrow]
        rfl
      · have hrest : rest ≠ [] := by
          rintro rfl
          rw [List.append_nil] at hpath
          exact hbehind ⟨step, hstep, hpath ▸ List.prefix_rfl⟩
        obtain ⟨inner, hinner, -⟩ := Path.document_of_getAt?_append hrow hrest hvalue
        obtain ⟨inner', hinner', -⟩ := Path.document_of_getAt?_append hrow hrest hvalue'
        rw [hinner, hinner']
        rfl
    · have huntouched : ∀ step ∈ all, ¬ segments step.path <+: row ∧
          (row <+: segments step.path → Path.get? updated step.path = none) := by
        intro step hstep
        refine ⟨fun hleads => hbehind ⟨step, hstep, hleads⟩, fun hleads => ?_⟩
        by_contra hsome
        exact hway ⟨step, hstep, hleads, Option.isSome_iff_ne_none.mpr hsome⟩
      have huntouched' : ∀ step ∈ all', ¬ segments step.path <+: row ∧
          (row <+: segments step.path → Path.get? updated' step.path = none) := by
        intro step hstep
        rw [← hmem] at hstep
        rw [← hread step hstep]
        exact huntouched step hstep
      rw [hsettles.untouched row huntouched, hsettles'.untouched row huntouched']

theorem Independent.perm (hapart : Independent all) (hperm : all.Perm all') :
    Independent all' :=
  hperm.pairwise hapart fun hdiverge => hdiverge.symm

/-- Steps that go apart may be taken in any order. -/
theorem Run.perm (hrun : Run all doc updated changed) (hapart : Independent all)
    (hperm : all.Perm all') :
    ∃ updated', Run all' doc updated' changed ∧ Reordered updated updated' := by
  have hapart' := hapart.perm hperm
  obtain ⟨hgo, hchanged⟩ := hrun.reports hapart
  obtain ⟨updated', changed', hrun'⟩ :=
    exists_run hapart' fun step hstep => hgo step (hperm.mem_iff.mpr hstep)
  have hsame : changed' = changed := by
    rw [Bool.eq_iff_iff, hchanged, (hrun'.reports hapart').2]
    exact exists_congr fun step => and_congr_left fun _ => hperm.mem_iff.symm
  subst hsame
  exact ⟨updated', hrun',
    (hrun.settles hapart).reordered (hrun'.settles hapart') fun step => hperm.mem_iff⟩

/-! ### Steps once more -/

theorem run_of_steady (hsteady : ∀ step ∈ all, step.apply doc = .ok (doc, false)) :
    Run all doc doc false := by
  induction all with
  | nil => exact .nil doc
  | cons step more ih =>
      rw [List.forall_mem_cons] at hsteady
      exact .cons hsteady.1 (ih hsteady.2)

/-- A step that adds nothing decides without looking, and what it leaves is its operand. -/
theorem result_of_ne_inc (hop : step.op ≠ "$inc") (old : Option Value) {found : Option Value}
    (hresult : step.result old = .ok found) :
    (∀ old', step.result old' = .ok found) ∧ (found = none ∨ found = some step.operand) := by
  unfold Step.result at hresult ⊢
  split at hresult
  · cases hresult
  · split at hresult
    · cases hresult
      simp [*]
    · split at hresult
      · cases hresult
        simp [*]
      · cases hresult

/-- What is left at a path is left there again without any change. -/
theorem leave_of_get? {path : String} {found : Option Value} (hget : Path.get? doc path = found)
    (hself : ∀ value, found = some value → value.same value = true) :
    leave doc path found = .ok (doc, false) := by
  cases found with
  | none =>
      have hgone : Path.erase doc path = doc := Path.eraseAt_of_getAt?_eq_none hget
      simp only [leave, unsetPath, hgone, hget, Option.isSome_none]
  | some value =>
      refine setPath_eq_ok_iff.mpr ⟨Path.setAt_of_getAt? hget, ?_⟩
      rw [hget]
      simp [hself value rfl]

/-- Steps that go apart and add nothing have no effect when they are taken again. -/
theorem Run.again (hrun : Run all doc updated changed) (hapart : Independent all)
    (hops : ∀ step ∈ all, step.op ≠ "$inc")
    (hself : ∀ step ∈ all, step.operand.same step.operand = true) :
    Run all updated updated false := by
  refine run_of_steady fun step hstep => ?_
  obtain ⟨found, hresult, hread⟩ := (hrun.settles hapart).reached step hstep
  obtain ⟨hany, hfound⟩ := result_of_ne_inc (hops step hstep) _ hresult
  rw [Step.apply_eq, hany]
  refine leave_of_get? hread ?_
  rintro value rfl
  rcases hfound with hnone | hoperand
  · cases hnone
  · rw [Option.some.inj hoperand]
    exact hself step hstep

/-! ### Updates -/

/-- One operator, with its paths in another order. -/
inductive PathsRearranged : String × Value → String × Value → Prop
  | paths {op : String} {paths paths' : Document} : paths.Perm paths' →
      PathsRearranged (op, .document paths) (op, .document paths')

/-- The operators of the update are in another order, and so are the paths under each. -/
def Rearranged (change change' : Document) : Prop :=
  ∃ between : Document, change.Perm between ∧ List.Forall₂ PathsRearranged between change'

theorem steps_cons (entry : String × Value) (more : Document) :
    steps (entry :: more) = steps [entry] ++ steps more := by
  simp [steps]

theorem PathsRearranged.steps {entry entry' : String × Value}
    (hpaths : PathsRearranged entry entry') : (steps [entry]).Perm (steps [entry']) := by
  obtain ⟨hperm⟩ := hpaths
  simpa [Update.steps, stepsOf, Value.document?] using hperm.map _

theorem Rearranged.steps (hrearranged : Rearranged change change') :
    (steps change).Perm (steps change') := by
  obtain ⟨between, hperm, hpaths⟩ := hrearranged
  have hoperators : (Update.steps change).Perm (Update.steps between) := hperm.flatMap_right _
  refine hoperators.trans ?_
  clear hperm hoperators
  induction hpaths with
  | nil => exact .refl _
  | @cons entry entry' more more' hentry hmore ih =>
      rw [steps_cons entry more, steps_cons entry' more']
      exact hentry.steps.append ih

theorem Rearranged.isUpdate (hrearranged : Rearranged change change') (hchange : IsUpdate change) :
    IsUpdate change' := by
  obtain ⟨between, hperm, hpaths⟩ := hrearranged
  obtain ⟨hnil, hentries⟩ := hchange
  constructor
  · rintro rfl
    cases hpaths
    exact hnil hperm.eq_nil
  · replace hentries : ∀ entry ∈ between, Filter.isOperator entry.1 = true ∧
        ∃ paths, entry.2 = .document paths :=
      fun entry hentry => hentries entry (hperm.mem_iff.mpr hentry)
    clear hperm hnil
    induction hpaths with
    | nil => simp
    | cons hentry hmore ih =>
        rw [List.forall_mem_cons] at hentries ⊢
        refine ⟨?_, ih hentries.2⟩
        obtain ⟨hperm⟩ := hentry
        exact ⟨hentries.1.1, _, rfl⟩

theorem op_mem_keys_of_mem_steps (hstep : step ∈ steps change) : step.op ∈ Fields.keys change := by
  obtain ⟨paths, hentry, -⟩ := exists_of_mem_steps hstep
  exact List.mem_map.mpr ⟨_, hentry, rfl⟩

theorem naNFree_operand (hchange : (Value.document change).NaNFree) (hstep : step ∈ steps change) :
    step.operand.NaNFree := by
  obtain ⟨paths, hentry, hmem⟩ := exists_of_mem_steps hstep
  have hpaths : (Value.document paths).NaNFree := Value.naNFree_of_mem hchange hentry
  exact Value.naNFree_of_mem hpaths hmem

/-- **Updates on separate paths commute.**  If no path of an update leads to, through or behind
another one and the update goes through, it goes through in every order of its operators and of
the paths under them, with the same report, and leaves the same content, with the fields in
another order at most.  The documents are then equal, unless a NaN in them keeps them from being
equal even to themselves.  If the update adds nothing and has no NaN, taking it again goes
through, reports no change and makes none. -/
theorem separate_paths_commute (change doc : Document)
    (hchange : (Value.document change).WellFormed) (hdoc : (Value.document doc).WellFormed)
    (hapart : Independent (steps change)) (updated : Document) (changed : Bool)
    (happly : apply change doc = (updated, .ok changed)) :
    (∀ change', Rearranged change change' → ∃ updated',
        apply change' doc = (updated', .ok changed) ∧ Reordered updated updated' ∧
        (Same updated updated' ↔ Same updated updated) ∧
        ((Value.document updated).NaNFree → Same updated updated')) ∧
      ("$inc" ∉ Fields.keys change → (Value.document change).NaNFree →
        apply change updated = (updated, .ok false)) := by
  obtain ⟨hupdate, hrun⟩ := apply_eq_ok_iff.mp happly
  have hoperands := operands_steps hchange
  have hupdated := hrun.wellFormed hoperands hdoc
  constructor
  · intro change' hrearranged
    obtain ⟨updated', hrun', hreordered⟩ := hrun.perm hapart hrearranged.steps
    have hoperands' : Operands (steps change') := fun step hstep =>
      hoperands step (hrearranged.steps.mem_iff.mpr hstep)
    have hupdated' := hrun'.wellFormed hoperands' hdoc
    refine ⟨updated', apply_eq_ok_iff.mpr ⟨hrearranged.isUpdate hupdate, hrun'⟩, hreordered,
      hreordered.same_iff hupdated hupdated', fun hnan => ?_⟩
    exact hreordered.same (Document.comparable_of_naNFree hupdated hnan) hupdated'
  · intro hinc hnan
    refine apply_eq_ok_iff.mpr ⟨hupdate, hrun.again hapart ?_ ?_⟩
    · rintro step hstep hop
      exact hinc (hop ▸ op_mem_keys_of_mem_steps hstep)
    · intro step hstep
      exact Value.same_self _ (hoperands step hstep) (naNFree_operand hnan hstep)

/-- Three operators on paths with common parents, some of them missing, in two orders. -/
theorem separate_paths_commute_shared :
    let change : Document := [("$set", .document [("a.b.c", .int32 1), ("d", .null)]),
      ("$unset", .document [("a.e", .null)]), ("$inc", .document [("a.b.f", .int32 2)])]
    let change' : Document := [("$inc", .document [("a.b.f", .int32 2)]),
      ("$set", .document [("d", .null), ("a.b.c", .int32 1)]),
      ("$unset", .document [("a.e", .null)])]
    let doc : Document := [("a", .document [("e", .int32 3)])]
    let updated : Document :=
      [("a", .document [("b", .document [("c", .int32 1), ("f", .int32 2)])]), ("d", .null)]
    Rearranged change change' ∧ apply change doc = (updated, .ok true) ∧
      ∃ updated', apply change' doc = (updated', .ok true) ∧ Same updated updated' := by
  intro change change' doc updated
  have hchange : (Value.document change).WellFormed := by
    simp [change, Value.WellFormed, Value.FieldsWellFormed, Fields.keys]
  have hdoc : (Value.document doc).WellFormed := by
    simp [doc, Value.WellFormed, Value.FieldsWellFormed, Fields.keys]
  have hnan : (Value.document updated).NaNFree := by
    simp [updated, Value.NaNFree, Value.FieldsNaNFree]
  have hapart : Independent (steps change) := by
    unfold Independent Diverge
    decide +kernel
  have happly : apply change doc = (updated, .ok true) := rfl
  have hrearranged : Rearranged change change' := by
    refine ⟨[change[2], change[0], change[1]], ?_, .cons (.paths (.refl _))
      (.cons (.paths (.swap ..)) (.cons (.paths (.refl _)) .nil))⟩
    show ([change[0], change[1]] ++ [change[2]]).Perm ([change[2]] ++ [change[0], change[1]])
    exact List.perm_append_comm
  obtain ⟨updated', happly', -, -, hsame⟩ :=
    (separate_paths_commute change doc hchange hdoc hapart updated true happly).1 change'
      hrearranged
  exact ⟨hrearranged, happly, updated', happly', hsame hnan⟩

/-- What two orders leave of a document with a NaN is not equal, although it differs in the order
of two fields only: a NaN differs from itself. -/
theorem rearranged_beside_naN :
    let change : Document := [("$set", .document [("b", .int32 1), ("c", .int32 2)])]
    let change' : Document := [("$set", .document [("c", .int32 2), ("b", .int32 1)])]
    let doc : Document := [("a", .double (Double.nan false))]
    let updated : Document := doc ++ [("b", .int32 1), ("c", .int32 2)]
    let updated' : Document := doc ++ [("c", .int32 2), ("b", .int32 1)]
    Independent (steps change) ∧ Rearranged change change' ∧
      apply change doc = (updated, .ok true) ∧ apply change' doc = (updated', .ok true) ∧
      ¬ Same updated updated' := by
  intro change change' doc updated updated'
  refine ⟨?_, ⟨change, .refl _, .cons (.paths (.swap ..)) .nil⟩, rfl, rfl, by decide⟩
  unfold Independent Diverge
  decide +kernel

end Update

end DocShell
