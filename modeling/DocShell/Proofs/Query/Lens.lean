import DocShell.Failure.Outcome
import DocShell.Proofs.Query.Path
import DocShell.Query.Update

/-!
# Paths as lenses

Reading, writing and removing walk along a path on their own.  Here they are shown to agree
about where a path leads:

* writing fails exactly where the path is blocked by a value that is no document
  (`setAt_eq_error_iff`), and otherwise is read back (`getAt?_setAt_self`);
* what is removed is gone (`getAt?_eraseAt_self`), and removing what is not there changes
  nothing (`eraseAt_of_getAt?_eq_none`);
* neither is seen by a path that goes apart from the one written to (`Diverge`).

## Strategy

Every walk takes one segment and goes on in the document that it finds there, so the three
things that can stand at a segment (`field_cases`) give one equation each for reading,
writing, removing and being blocked, and all statements follow by induction on the path.

`writeAt` and `removeAt` do the same to the document in place, segment by segment, and leave
it as it is when they stop.  That a walk which fails leaves nothing behind (`writeAt_eq`) is
because what it makes on its way is empty, and cannot block it.
-/

namespace DocShell

namespace Path

variable {name key next part : String} {more rest path other : List String} {value : Value}
  {doc updated : Document}

theorem segments_ne_nil (path : String) : segments path ≠ [] := by
  obtain ⟨name, more, hsegments⟩ := exists_segments path
  rw [hsegments]
  exact List.cons_ne_nil name more

/-! ### Reading -/

/-- The value that a segment names is a document in which the path goes on. -/
theorem getAt?_cons (hrest : rest ≠ []) (name : String) (doc : Document) :
    getAt? (name :: rest) doc = ((doc.get? name).bind Value.document?).bind (getAt? rest) := by
  obtain ⟨next, more, rfl⟩ := List.exists_cons_of_ne_nil hrest
  rw [getAt?]
  · cases hget : doc.get? name with
    | none => rfl
    | some value => cases value <;> rfl
  · simp

theorem getAt?_of_document {inner : Document} (hrest : rest ≠ [])
    (hget : doc.get? name = some (.document inner)) :
    getAt? (name :: rest) doc = getAt? rest inner := by
  rw [getAt?_cons hrest, hget]
  rfl

theorem getAt?_of_not_document (hrest : rest ≠ [])
    (hget : (doc.get? name).bind Value.document? = none) : getAt? (name :: rest) doc = none := by
  rw [getAt?_cons hrest, hget]
  rfl

theorem getAt?_of_empty (path : List String) : getAt? path [] = none := by
  match path with
  | [] | [_] => rfl
  | _ :: _ :: _ => rfl

/-- A path sees of a document only the field that it begins with. -/
theorem getAt?_congr {doc' : Document} (hget : doc.get? key = doc'.get? key) (rest : List String) :
    getAt? (key :: rest) doc = getAt? (key :: rest) doc' := by
  by_cases hrest : rest = []
  · rw [hrest]
    exact hget
  · rw [getAt?_cons hrest, getAt?_cons hrest, hget]

/-- What can stand at a segment behind which a path goes on. -/
theorem field_cases (doc : Document) (name : String) :
    doc.get? name = none ∨ (∃ inner, doc.get? name = some (.document inner)) ∨
      ∃ value, doc.get? name = some value ∧ value.document? = none := by
  cases hget : doc.get? name with
  | none => exact Or.inl rfl
  | some value =>
      refine Or.inr ?_
      cases hdocument : value.document? with
      | none => exact Or.inr ⟨value, rfl, hdocument⟩
      | some inner =>
          cases value with
          | document fields => exact Or.inl ⟨fields, rfl⟩
          | _ => cases hdocument

theorem get?_of_document? {inner : Document}
    (hdocument : (doc.get? name).bind Value.document? = some inner) :
    doc.get? name = some (.document inner) := by
  obtain ⟨value, hget, hvalue⟩ := Option.bind_eq_some_iff.mp hdocument
  cases value with
  | document fields => rw [hget, Option.some.inj hvalue]
  | _ => cases hvalue

/-! ### Paths that go apart -/

/-- Neither path leads on behind the other, nor are they the same. -/
def Diverge (path other : List String) : Prop :=
  ¬ path <+: other ∧ ¬ other <+: path

theorem Diverge.left_ne_nil (hdiverge : Diverge path other) : path ≠ [] := by
  rintro rfl
  exact hdiverge.1 List.nil_prefix

theorem Diverge.right_ne_nil (hdiverge : Diverge path other) : other ≠ [] := by
  rintro rfl
  exact hdiverge.2 List.nil_prefix

theorem Diverge.symm (hdiverge : Diverge path other) : Diverge other path :=
  ⟨hdiverge.2, hdiverge.1⟩

theorem diverge_cons_iff : Diverge (name :: path) (name :: other) ↔ Diverge path other := by
  simp [Diverge, List.cons_prefix_cons]

/-! ### Where a path is blocked -/

/-- The path leads on behind the segment `part`, but the value there is no document. -/
def BlockedAt (path : List String) (part : String) (doc : Document) : Prop :=
  ∃ front back, path = front ++ part :: back ∧ back ≠ [] ∧
    ∃ value, getAt? (front ++ [part]) doc = some value ∧ value.document? = none

theorem not_blockedAt_singleton : ¬ BlockedAt [name] part doc := by
  rintro ⟨front, back, hpath, hback, -⟩
  cases front with
  | nil => exact hback (List.cons_eq_cons.mp hpath).2.symm
  | cons first front => simp at hpath

theorem not_blockedAt_of_missing (hget : doc.get? name = none) :
    ¬ BlockedAt (name :: rest) part doc := by
  rintro ⟨front, back, hpath, -, value, hvalue, -⟩
  cases front with
  | nil =>
      obtain ⟨rfl, -⟩ := List.cons_eq_cons.mp hpath
      rw [List.nil_append, getAt?, hget] at hvalue
      cases hvalue
  | cons first front =>
      obtain ⟨rfl, -⟩ := List.cons_eq_cons.mp hpath
      rw [List.cons_append, getAt?_of_not_document (by simp) (by rw [hget]; rfl)] at hvalue
      cases hvalue

theorem not_blockedAt_of_empty : ¬ BlockedAt path part [] := by
  rintro ⟨front, back, -, -, value, hvalue, -⟩
  rw [getAt?_of_empty] at hvalue
  cases hvalue

theorem blockedAt_of_value (hrest : rest ≠ []) (hget : doc.get? name = some value)
    (hvalue : value.document? = none) : BlockedAt (name :: rest) part doc ↔ part = name := by
  constructor
  · rintro ⟨front, back, hpath, -, found, hfound, -⟩
    cases front with
    | nil => exact (List.cons_eq_cons.mp hpath).1.symm
    | cons first front =>
        obtain ⟨rfl, -⟩ := List.cons_eq_cons.mp hpath
        rw [List.cons_append, getAt?_of_not_document (by simp) (by rw [hget]; exact hvalue)]
          at hfound
        cases hfound
  · rintro rfl
    exact ⟨[], rest, rfl, hrest, value, hget, hvalue⟩

theorem blockedAt_of_document {inner : Document} (hget : doc.get? name = some (.document inner)) :
    BlockedAt (name :: rest) part doc ↔ BlockedAt rest part inner := by
  constructor
  · rintro ⟨front, back, hpath, hback, value, hvalue, hnot⟩
    cases front with
    | nil =>
        obtain ⟨rfl, -⟩ := List.cons_eq_cons.mp hpath
        rw [List.nil_append, getAt?, hget, Option.some.injEq] at hvalue
        subst hvalue
        cases hnot
    | cons first front =>
        obtain ⟨rfl, hrest⟩ := List.cons_eq_cons.mp hpath
        rw [List.cons_append, getAt?_of_document (by simp) hget] at hvalue
        exact ⟨front, back, hrest, hback, value, hvalue, hnot⟩
  · rintro ⟨front, back, hpath, hback, value, hvalue, hnot⟩
    refine ⟨name :: front, back, by rw [hpath]; rfl, hback, value, ?_, hnot⟩
    rw [List.cons_append, getAt?_of_document (by simp) hget, hvalue]

/-! ### Writing -/

theorem setAt_of_missing (hrest : rest ≠ []) (hget : doc.get? name = none) :
    setAt (name :: rest) value doc =
      (setAt rest value []).map fun inner => doc.insert name (.document inner) := by
  obtain ⟨next, more, rfl⟩ := List.exists_cons_of_ne_nil hrest
  simp only [setAt, hget]

theorem setAt_of_document {inner : Document} (hrest : rest ≠ [])
    (hget : doc.get? name = some (.document inner)) :
    setAt (name :: rest) value doc =
      (setAt rest value inner).map fun inner => doc.insert name (.document inner) := by
  obtain ⟨next, more, rfl⟩ := List.exists_cons_of_ne_nil hrest
  simp only [setAt, hget]

theorem setAt_of_value {found : Value} (hrest : rest ≠ []) (hget : doc.get? name = some found)
    (hfound : found.document? = none) : setAt (name :: rest) value doc = .error name := by
  obtain ⟨next, more, rfl⟩ := List.exists_cons_of_ne_nil hrest
  cases found with
  | document _ => cases hfound
  | _ => simp only [setAt, hget]

/-- Writing fails where the path is blocked, and nowhere else. -/
theorem setAt_eq_error_iff : setAt path value doc = .error part ↔ BlockedAt path part doc := by
  induction path generalizing doc with
  | nil =>
      refine iff_of_false (by simp [setAt]) ?_
      rintro ⟨front, back, hpath, -⟩
      simp at hpath
  | cons name more ih =>
      by_cases hrest : more = []
      · rw [hrest]
        exact iff_of_false (by simp [setAt]) not_blockedAt_singleton
      · obtain hnone | ⟨inner, hinner⟩ | ⟨found, hfound, hnot⟩ := field_cases doc name
        · -- What is made on the way holds nothing that could block the path.
          rw [setAt_of_missing hrest hnone, Outcome.map_eq_error, ih]
          exact iff_of_false not_blockedAt_of_empty (not_blockedAt_of_missing hnone)
        · rw [setAt_of_document hrest hinner, Outcome.map_eq_error, ih,
            blockedAt_of_document hinner]
        · rw [setAt_of_value hrest hfound hnot, blockedAt_of_value hrest hfound hnot]
          simp [eq_comm]

theorem getAt?_setAt_self (hpath : path ≠ []) (hset : setAt path value doc = .ok updated) :
    getAt? path updated = some value := by
  induction path generalizing doc updated with
  | nil => exact absurd rfl hpath
  | cons name more ih =>
      cases more with
      | nil =>
          simp only [setAt, Except.ok.injEq] at hset
          rw [getAt?, ← hset, Fields.get?_insert, if_pos rfl]
      | cons next more =>
          obtain ⟨found, inner, -, hinner, rfl⟩ := of_setAt hset
          rw [getAt?_of_document (by simp) (Fields.get?_insert_self ..)]
          exact ih (by simp) hinner

theorem getAt?_setAt_of_diverge (hset : setAt path value doc = .ok updated)
    (hdiverge : Diverge path other) : getAt? other updated = getAt? other doc := by
  induction path generalizing doc updated other with
  | nil => exact absurd List.nil_prefix hdiverge.1
  | cons name more ih =>
      cases other with
      | nil => exact absurd List.nil_prefix hdiverge.2
      | cons key rest =>
          by_cases hname : name = key
          · subst hname
            rw [diverge_cons_iff] at hdiverge
            obtain ⟨next, more, rfl⟩ := List.exists_cons_of_ne_nil hdiverge.left_ne_nil
            obtain ⟨found, inner, hfound, hinner, rfl⟩ := of_setAt hset
            have hrest := hdiverge.right_ne_nil
            rw [getAt?_of_document hrest (Fields.get?_insert_self ..), ih hinner hdiverge]
            rcases hfound with ⟨hnone, rfl⟩ | hsome
            · rw [getAt?_of_empty, getAt?_of_not_document hrest (by rw [hnone]; rfl)]
            · rw [getAt?_of_document hrest hsome]
          · exact getAt?_congr (get?_setAt_of_ne hset hname) rest

/-! ### Removing -/

theorem eraseAt_of_document {inner : Document} (hrest : rest ≠ [])
    (hget : doc.get? name = some (.document inner)) :
    eraseAt (name :: rest) doc = doc.insert name (.document (eraseAt rest inner)) := by
  obtain ⟨next, more, rfl⟩ := List.exists_cons_of_ne_nil hrest
  simp only [eraseAt, hget]

theorem eraseAt_of_not_document (hrest : rest ≠ [])
    (hget : (doc.get? name).bind Value.document? = none) : eraseAt (name :: rest) doc = doc := by
  obtain ⟨next, more, rfl⟩ := List.exists_cons_of_ne_nil hrest
  simp only [eraseAt]
  split
  · rename_i inner hinner
    rw [hinner] at hget
    cases hget
  · rfl

/-- What is not there is removed without any change. -/
theorem eraseAt_of_getAt?_eq_none (hget : getAt? path doc = none) : eraseAt path doc = doc := by
  induction path generalizing doc with
  | nil => rfl
  | cons name more ih =>
      by_cases hrest : more = []
      · subst hrest
        exact Fields.erase_of_get?_eq_none hget
      · cases hdocument : (doc.get? name).bind Value.document? with
        | none => exact eraseAt_of_not_document hrest hdocument
        | some inner =>
            have hinner := get?_of_document? hdocument
            rw [getAt?_of_document hrest hinner] at hget
            rw [eraseAt_of_document hrest hinner, ih hget, Fields.insert_of_get? hinner]

theorem getAt?_eraseAt_self (path : List String) (doc : Document) :
    getAt? path (eraseAt path doc) = none := by
  induction path generalizing doc with
  | nil => rfl
  | cons name more ih =>
      by_cases hrest : more = []
      · subst hrest
        rw [eraseAt, getAt?, Fields.get?_erase, if_pos rfl]
      · cases hdocument : (doc.get? name).bind Value.document? with
        | none => rw [eraseAt_of_not_document hrest hdocument, getAt?_of_not_document hrest hdocument]
        | some inner =>
            rw [eraseAt_of_document hrest (get?_of_document? hdocument),
              getAt?_of_document hrest (Fields.get?_insert_self ..), ih]

theorem getAt?_eraseAt_of_diverge (doc : Document) (hdiverge : Diverge path other) :
    getAt? other (eraseAt path doc) = getAt? other doc := by
  induction path generalizing doc other with
  | nil => exact absurd rfl hdiverge.left_ne_nil
  | cons name more ih =>
      obtain ⟨key, rest, rfl⟩ := List.exists_cons_of_ne_nil hdiverge.right_ne_nil
      by_cases hname : name = key
      · subst hname
        rw [diverge_cons_iff] at hdiverge
        have hmore := hdiverge.left_ne_nil
        have hrest := hdiverge.right_ne_nil
        cases hdocument : (doc.get? name).bind Value.document? with
        | none => rw [eraseAt_of_not_document hmore hdocument]
        | some inner =>
            have hinner := get?_of_document? hdocument
            rw [eraseAt_of_document hmore hinner, getAt?_of_document hrest (Fields.get?_insert_self ..),
              ih inner hdiverge, getAt?_of_document hrest hinner]
      · exact getAt?_congr (get?_eraseAt_of_ne doc more hname) rest

/-! ### Walks that change the document as they go -/

/-- Writing as one walk: a document that is missing on the way is put in before the walk goes
on behind it, and stays there if the walk fails.  It tells what stood at the end. -/
def writeAt : List String → Value → Document → Document × Except String (Option Value)
  | [], _, doc => (doc, .ok none)
  | [name], value, doc => (doc.insert name value, .ok (doc.get? name))
  | name :: more, value, doc =>
    let doc := if doc.contains name then doc else doc.insert name (.document [])
    match doc.get? name with
    | some (.document inner) =>
      let (inner, outcome) := writeAt more value inner
      (doc.insert name (.document inner), outcome)
    | _ => (doc, .error name)

/-- Removing as one walk, which tells whether anything was there. -/
def removeAt : List String → Document → Document × Bool
  | [], doc => (doc, false)
  | [name], doc => (doc.erase name, doc.contains name)
  | name :: more, doc =>
    match doc.get? name with
    | some (.document inner) =>
      let (inner, removed) := removeAt more inner
      (doc.insert name (.document inner), removed)
    | _ => (doc, false)

/-- A walk that fails has made nothing on its way, since a document that it makes is empty and
does not block it. -/
theorem writeAt_eq (path : List String) (value : Value) (doc : Document) :
    writeAt path value doc =
      match setAt path value doc with
      | .ok updated => (updated, .ok (getAt? path doc))
      | .error part => (doc, .error part) := by
  induction path generalizing doc with
  | nil => rfl
  | cons name more ih =>
      cases more with
      | nil => rfl
      | cons next more =>
          have hrest : next :: more ≠ [] := by simp
          obtain hnone | ⟨inner, hinner⟩ | ⟨found, hfound, hnot⟩ := field_cases doc name
          · obtain ⟨made, hmade⟩ : ∃ made, setAt (next :: more) value [] = .ok made := by
              cases hset : setAt (next :: more) value [] with
              | ok made => exact ⟨made, rfl⟩
              | error part => exact absurd (setAt_eq_error_iff.mp hset) not_blockedAt_of_empty
            have hread : getAt? (name :: next :: more) doc = none :=
              getAt?_of_not_document hrest (by rw [hnone]; rfl)
            have hwrite := ih []
            rw [hmade, getAt?_of_empty] at hwrite
            rw [setAt_of_missing hrest hnone, hmade, hread]
            simp [writeAt, Fields.contains, hnone, Fields.get?_insert_self, hwrite, Except.map,
              Fields.insert_insert]
          · rw [setAt_of_document hrest hinner, getAt?_of_document hrest hinner]
            have hwrite := ih inner
            cases hset : setAt (next :: more) value inner with
            | ok updated =>
                rw [hset] at hwrite
                simp [writeAt, Fields.contains, hinner, hwrite, Except.map]
            | error part =>
                rw [hset] at hwrite
                simp [writeAt, Fields.contains, hinner, hwrite, Except.map,
                  Fields.insert_of_get? hinner]
          · rw [setAt_of_value hrest hfound hnot]
            cases found with
            | document _ => cases hnot
            | _ => simp [writeAt, Fields.contains, hfound]

theorem removeAt_eq (path : List String) (doc : Document) :
    removeAt path doc = (eraseAt path doc, (getAt? path doc).isSome) := by
  induction path generalizing doc with
  | nil => rfl
  | cons name more ih =>
      cases more with
      | nil => rfl
      | cons next more =>
          have hrest : next :: more ≠ [] := by simp
          obtain hnone | ⟨inner, hinner⟩ | ⟨found, hfound, hnot⟩ := field_cases doc name
          · have hblind : (doc.get? name).bind Value.document? = none := by rw [hnone]; rfl
            rw [eraseAt_of_not_document hrest hblind, getAt?_of_not_document hrest hblind]
            simp [removeAt, hnone]
          · rw [eraseAt_of_document hrest hinner, getAt?_of_document hrest hinner]
            simp [removeAt, hinner, ih inner]
          · have hblind : (doc.get? name).bind Value.document? = none := by rw [hfound]; exact hnot
            rw [eraseAt_of_not_document hrest hblind, getAt?_of_not_document hrest hblind]
            cases found with
            | document _ => cases hnot
            | _ => simp [removeAt, hfound]

end Path

namespace Update

open DocShell.Path (Diverge BlockedAt segments writeAt removeAt)

variable {doc updated : Document} {path : String} {value : Value} {changed : Bool}

/-- Writing, as reading sees it: the value is there, the report tells whether anything else
was, and no other path sees a difference. -/
structure Writes (doc : Document) (path : String) (value : Value) (updated : Document)
    (changed : Bool) : Prop where
  read : Path.get? updated path = some value
  report : changed = true ↔ ∀ old, Path.get? doc path = some old → old.same value = false
  others : ∀ other, Diverge (segments path) (segments other) →
    Path.get? updated other = Path.get? doc other

/-- Removing, as reading sees it. -/
structure Removes (doc : Document) (path : String) (updated : Document) (changed : Bool) :
    Prop where
  read : Path.get? updated path = none
  report : changed = true ↔ ∃ old, Path.get? doc path = some old
  others : ∀ other, Diverge (segments path) (segments other) →
    Path.get? updated other = Path.get? doc other

theorem setPath_eq_error_iff {failure : QueryFailure} : setPath doc path value = .error failure ↔
    ∃ part, failure = .notDocument path part ∧ BlockedAt (segments path) part doc := by
  have hblocked : ∀ part, Path.setAt (segments path) value doc = .error part ↔
      BlockedAt (segments path) part doc := fun _ => Path.setAt_eq_error_iff
  simp only [setPath, Path.set, ← hblocked]
  cases Path.setAt (segments path) value doc <;> simp [eq_comm]

theorem setPath_eq_ok_iff : setPath doc path value = .ok (updated, changed) ↔
    Path.set doc path value = .ok updated ∧
      changed = (Path.get? doc path).all fun old => !old.same value := by
  unfold setPath
  cases Path.set doc path value with
  | error part => simp
  | ok written => cases Path.get? doc path <;> simp [eq_comm]

theorem writes_of_setPath (hset : setPath doc path value = .ok (updated, changed)) :
    Writes doc path value updated changed := by
  obtain ⟨hwritten, rfl⟩ := setPath_eq_ok_iff.mp hset
  refine { read := ?_, report := ?_, others := ?_ }
  · exact Path.getAt?_setAt_self (Path.segments_ne_nil path) hwritten
  · cases Path.get? doc path <;> simp
  · exact fun other hdiverge => Path.getAt?_setAt_of_diverge hwritten hdiverge

theorem writeAt_of_setPath (hset : setPath doc path value = .ok (updated, changed)) :
    writeAt (segments path) value doc = (updated, .ok (Path.get? doc path)) := by
  obtain ⟨hwritten, -⟩ := setPath_eq_ok_iff.mp hset
  rw [Path.set] at hwritten
  rw [Path.writeAt_eq, hwritten]
  rfl

theorem removes_unsetPath (doc : Document) (path : String) :
    Removes doc path (unsetPath doc path).1 (unsetPath doc path).2 where
  read := Path.getAt?_eraseAt_self _ doc
  report := Option.isSome_iff_exists
  others := fun _ hdiverge => Path.getAt?_eraseAt_of_diverge doc hdiverge

/-- **Paths are lenses.**  Writing fails exactly if a segment in front of the last one holds
a value that is no document, and the document is then left as it was, even by a walk that
makes what is missing as it goes.  Else the value is there afterwards, the report tells
whether anything else was there before, and paths that go apart see no difference.  Removing
reports whether anything was there; nothing is there afterwards, and paths that go apart see
no difference either. -/
theorem paths_as_lenses (doc : Document) (path : String) (value : Value) :
    (∀ failure, setPath doc path value = .error failure ↔
        ∃ part, failure = .notDocument path part ∧ BlockedAt (segments path) part doc) ∧
      (∀ part, BlockedAt (segments path) part doc →
        writeAt (segments path) value doc = (doc, .error part)) ∧
      (∀ updated changed, setPath doc path value = .ok (updated, changed) →
        writeAt (segments path) value doc = (updated, .ok (Path.get? doc path)) ∧
          Writes doc path value updated changed) ∧
      unsetPath doc path = removeAt (segments path) doc ∧
      Removes doc path (unsetPath doc path).1 (unsetPath doc path).2 := by
  refine ⟨fun failure => setPath_eq_error_iff, ?_, ?_, ?_, removes_unsetPath doc path⟩
  · intro part hblocked
    rw [Path.writeAt_eq, Path.setAt_eq_error_iff.mpr hblocked]
  · exact fun updated changed hset => ⟨writeAt_of_setPath hset, writes_of_setPath hset⟩
  · rw [Path.removeAt_eq]
    rfl

/-- A path through an array is blocked there, and one through a missing document is not. -/
theorem paths_as_lenses_nested :
    let doc : Document := [("a", .document [("tags", .array [.null])])]
    BlockedAt (segments "a.tags.0") "tags" doc ∧
      writeAt (segments "a.tags.0") .null doc = (doc, .error "tags") ∧
      setPath doc "a.b.c" .null = .ok ([("a", .document [("tags", .array [.null]),
        ("b", .document [("c", .null)])])], true) ∧
      Writes doc "a.b.c" .null [("a", .document [("tags", .array [.null]),
        ("b", .document [("c", .null)])])] true := by
  intro doc
  have hblocked : BlockedAt (segments "a.tags.0") "tags" doc :=
    ⟨["a"], ["0"], rfl, by simp, .array [.null], rfl, rfl⟩
  have hset : setPath doc "a.b.c" .null = .ok ([("a", .document [("tags", .array [.null]),
      ("b", .document [("c", .null)])])], true) := rfl
  exact ⟨hblocked, (paths_as_lenses doc "a.tags.0" .null).2.1 "tags" hblocked, hset,
    ((paths_as_lenses doc "a.b.c" .null).2.2.1 _ _ hset).2⟩

end Update

end DocShell
