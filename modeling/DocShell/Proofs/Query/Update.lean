import DocShell.Proofs.Query.Lens
import DocShell.Store.Basic

/-!
# What updates keep of a document

An update applies its operators path by path, so whatever one operator on one path
keeps, the whole update keeps, up to the point where it fails (`apply_keeps`).

Two things are kept in this way.  A document stays well formed.  And it keeps its
`_id`, because the path `_id` is refused, with one exception: a path that goes on
behind `_id` changes an id that is itself a document from within.
-/

namespace DocShell.Update

open Store (idOf?)

/-! ### One operator on one path -/

theorem isNumber_addNumbers (a b : Value) : (addNumbers a b).isNumber = true := by
  unfold addNumbers
  split
  · unfold Value.ofInt
    split <;> rfl
  · split
    · split <;> rfl
    · rfl

/-- An operator that goes through writes its operand or a sum at the path, or removes what is
there, and the path is not `_id`. -/
theorem cases_of_applyPath {op path : String} {doc updated : Document} {operand : Value}
    {now : Bool} (happly : applyPath op doc path operand = .ok (updated, now)) :
    path ≠ "_id" ∧
      ((∃ value, (value = operand ∨ value.isNumber = true) ∧
          setPath doc path value = .ok (updated, now)) ∨
        (updated, now) = unsetPath doc path) := by
  unfold applyPath at happly
  split at happly
  · simp at happly
  · rename_i hpath
    refine ⟨hpath, ?_⟩
    split at happly
    · exact Or.inl ⟨operand, Or.inl rfl, happly⟩
    · split at happly
      · exact Or.inr (Except.ok.inj happly).symm
      · split at happly
        · unfold increasePath at happly
          split at happly
          · simp at happly
          · split at happly
            · exact Or.inl ⟨operand, Or.inl rfl, happly⟩
            · split at happly
              · exact Or.inl ⟨_, Or.inr (isNumber_addNumbers _ _), happly⟩
              · simp at happly
        · simp at happly

theorem of_applyPath {op path : String} {doc updated : Document} {operand : Value} {now : Bool}
    (happly : applyPath op doc path operand = .ok (updated, now)) :
    path ≠ "_id" ∧
      ((∃ value, (value = operand ∨ value.isNumber = true) ∧ Path.set doc path value = .ok updated) ∨
        updated = Path.erase doc path) := by
  obtain ⟨hpath, ⟨value, hvalue, hset⟩ | hunset⟩ := cases_of_applyPath happly
  · exact ⟨hpath, Or.inl ⟨value, hvalue, (setPath_eq_ok_iff.mp hset).1⟩⟩
  · exact ⟨hpath, Or.inr (congrArg Prod.fst hunset)⟩

/-! ### The whole update -/

section Keeps

variable {P : Document → Prop}

theorem applyPaths_keeps {op : String} {paths : List (String × Value)}
    (hstep : ∀ path operand, (path, operand) ∈ paths → ∀ doc updated now,
      applyPath op doc path operand = .ok (updated, now) → P doc → P updated)
    (doc : Document) (changed : Bool) (hdoc : P doc) : P (applyPaths op paths doc changed).1 := by
  induction paths generalizing doc changed with
  | nil => exact hdoc
  | cons entry more ih =>
      obtain ⟨path, operand⟩ := entry
      rw [applyPaths]
      cases happly : applyPath op doc path operand with
      | error failure => exact hdoc
      | ok outcome =>
          obtain ⟨updated, now⟩ := outcome
          have hupdated := hstep path operand (List.mem_cons_self ..) doc updated now happly hdoc
          exact ih (fun path' operand' hmem => hstep path' operand' (List.mem_cons_of_mem _ hmem))
            updated _ hupdated

theorem applyOperators_keeps {change : List (String × Value)}
    (hstep : ∀ op paths, (op, Value.document paths) ∈ change →
      ∀ path operand, (path, operand) ∈ paths → ∀ doc updated now,
      applyPath op doc path operand = .ok (updated, now) → P doc → P updated)
    (doc : Document) (changed : Bool) (hdoc : P doc) :
    P (applyOperators change doc changed).1 := by
  induction change generalizing doc changed with
  | nil => exact hdoc
  | cons entry more ih =>
      obtain ⟨op, operand⟩ := entry
      unfold applyOperators
      split
      · rename_i paths
        have hpaths := applyPaths_keeps (hstep op paths (List.mem_cons_self ..)) doc changed hdoc
        have hmore := fun op' paths' (hmem : (op', Value.document paths') ∈ more) =>
          hstep op' paths' (List.mem_cons_of_mem _ hmem)
        split
        · rename_i updated changed' happly
          rw [happly] at hpaths
          exact ih hmore updated changed' hpaths
        · rename_i updated failure happly
          rw [happly] at hpaths
          exact hpaths
      · exact hdoc

/-- What every operator of an update keeps on each of its paths, the update keeps. -/
theorem apply_keeps {change : Document}
    (hstep : ∀ op paths, (op, Value.document paths) ∈ change →
      ∀ path operand, (path, operand) ∈ paths → ∀ doc updated now,
      applyPath op doc path operand = .ok (updated, now) → P doc → P updated)
    (doc : Document) (hdoc : P doc) : P (apply change doc).1 := by
  unfold apply
  split
  · exact hdoc
  · exact applyOperators_keeps hstep doc false hdoc

end Keeps

/-! ### Well-formed documents -/

theorem wellFormed_of_written {value operand : Value} (hoperand : operand.WellFormed)
    (hvalue : value = operand ∨ value.isNumber = true) : value.WellFormed := by
  rcases hvalue with rfl | hnumber
  · exact hoperand
  · exact Value.wellFormed_of_isNumber hnumber

theorem wellFormed_applyPath {op path : String} {doc updated : Document} {operand : Value}
    {now : Bool} (hoperand : operand.WellFormed) (hdoc : (Value.document doc).WellFormed)
    (happly : applyPath op doc path operand = .ok (updated, now)) :
    (Value.document updated).WellFormed := by
  obtain ⟨-, ⟨value, hvalue, hset⟩ | rfl⟩ := of_applyPath happly
  · exact Path.wellFormed_setAt (wellFormed_of_written hoperand hvalue) hdoc hset
  · exact Path.wellFormed_eraseAt _ hdoc

theorem wellFormed_operand {change paths : Document} {op path : String} {operand : Value}
    (hchange : (Value.document change).WellFormed) (hpaths : (op, Value.document paths) ∈ change)
    (hoperand : (path, operand) ∈ paths) : operand.WellFormed := by
  have hwell : (Value.document paths).WellFormed := Value.wellFormed_of_mem hchange.2 hpaths
  exact Value.wellFormed_of_mem hwell.2 hoperand

theorem wellFormed_apply {change doc : Document} (hchange : (Value.document change).WellFormed)
    (hdoc : (Value.document doc).WellFormed) :
    (Value.document (apply change doc).1).WellFormed := by
  refine apply_keeps (P := fun doc => (Value.document doc).WellFormed) ?_ doc hdoc
  intro op paths hpaths path operand hoperand before updated now happly hbefore
  exact wellFormed_applyPath (wellFormed_operand hchange hpaths hoperand) hbefore happly

/-! ### The id -/

/-- The update has a path that leads behind `_id`, into a document there. -/
def ReachesIntoId (change : Document) : Prop :=
  ∃ op paths path operand, (op, Value.document paths) ∈ change ∧ (path, operand) ∈ paths ∧
    "_id.".toList <+: path.toList

/-- The id is the same, or else, provided that ids may be reached into, both are documents. -/
def KeepsId (inside : Prop) (before after : Document) : Prop :=
  idOf? after = idOf? before ∨
    inside ∧ ∃ old new, idOf? before = some (.document old) ∧ idOf? after = some (.document new)

theorem keepsId_refl (inside : Prop) (doc : Document) : KeepsId inside doc doc :=
  Or.inl rfl

theorem KeepsId.trans {inside : Prop} {first second third : Document}
    (hfirst : KeepsId inside first second) (hsecond : KeepsId inside second third) :
    KeepsId inside first third := by
  rcases hfirst with hfirst | ⟨hinside, old, new, hold, hnew⟩
  · rcases hsecond with hsecond | ⟨hinside, old, new, hold, hnew⟩
    · exact Or.inl (hsecond.trans hfirst)
    · exact Or.inr ⟨hinside, old, new, hfirst ▸ hold, hnew⟩
  · rcases hsecond with hsecond | ⟨-, -, new', -, hnew'⟩
    · exact Or.inr ⟨hinside, old, new, hold, hsecond.trans hnew⟩
    · exact Or.inr ⟨hinside, old, new', hold, hnew'⟩

theorem KeepsId.isSome {inside : Prop} {before after : Document}
    (hkeeps : KeepsId inside before after) (hid : (idOf? before).isSome) :
    (idOf? after).isSome := by
  rcases hkeeps with hsame | ⟨-, old, new, -, hnew⟩
  · rwa [hsame]
  · rw [hnew]
    rfl

theorem KeepsId.mono {inside inside' : Prop} {before after : Document}
    (himp : inside → inside') (hkeeps : KeepsId inside before after) :
    KeepsId inside' before after :=
  hkeeps.imp_right fun h => ⟨himp h.1, h.2⟩

/-- Only a path that goes on behind `_id` changes the id, and it needs a document there. -/
theorem keepsId_applyPath {op path : String} {doc updated : Document} {operand : Value} {now : Bool}
    (hid : (idOf? doc).isSome) (happly : applyPath op doc path operand = .ok (updated, now)) :
    KeepsId ("_id.".toList <+: path.toList) doc updated := by
  obtain ⟨hpath, hwrite⟩ := of_applyPath happly
  obtain ⟨name, more, hsegments⟩ := Path.exists_segments path
  by_cases hname : name = "_id"
  · subst hname
    obtain ⟨heq, -⟩ | ⟨hbehind, hmore⟩ := Path.of_segments hsegments
    · exact absurd heq hpath
    · obtain ⟨next, rest, rfl⟩ := List.exists_cons_of_ne_nil hmore
      rcases hwrite with ⟨value, -, hset⟩ | rfl
      · -- There is an id, so what the path goes on into was there, and is a document.
        rw [Path.set, hsegments] at hset
        obtain ⟨⟨new, hnew⟩, hfound⟩ := Path.document_of_setAt hset
        obtain ⟨id, hsome⟩ := Option.isSome_iff_exists.mp hid
        obtain ⟨old, rfl⟩ := hfound id hsome
        exact Or.inr ⟨hbehind, old, new, hsome, hnew⟩
      · rw [Path.erase, hsegments]
        obtain hsame | ⟨old, new, hold, hnew⟩ := Path.document_of_eraseAt doc "_id" next rest
        · exact Or.inl hsame
        · exact Or.inr ⟨hbehind, old, new, hold, hnew⟩
  · refine Or.inl ?_
    rcases hwrite with ⟨value, -, hset⟩ | rfl
    · rw [Path.set, hsegments] at hset
      exact Path.get?_setAt_of_ne hset hname
    · rw [Path.erase, hsegments]
      exact Path.get?_eraseAt_of_ne doc more hname

/-- An update keeps the id of a document unless it reaches into one. -/
theorem keepsId_apply (change : Document) {doc : Document} (hid : (idOf? doc).isSome) :
    KeepsId (ReachesIntoId change) doc (apply change doc).1 := by
  refine apply_keeps (P := KeepsId (ReachesIntoId change) doc) ?_ doc (keepsId_refl _ doc)
  intro op paths hpaths path operand hoperand before updated now happly hbefore
  have hstep := keepsId_applyPath (hbefore.isSome hid) happly
  exact hbefore.trans
    (hstep.mono fun hbehind => ⟨op, paths, path, operand, hpaths, hoperand, hbehind⟩)

end DocShell.Update
