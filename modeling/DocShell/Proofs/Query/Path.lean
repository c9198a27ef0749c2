import DocShell.Proofs.Value.Equality
import DocShell.Query.Path

/-!
# Writing along a path

A path that does not begin with a name leaves the field of that name alone, and a path
that goes on behind the name finds and leaves a document there.  What is written keeps
names apart at every depth.
-/

namespace DocShell

namespace Value

theorem wellFormed_of_get? {doc : Document} {key : String} {value : Value}
    (hdoc : (Value.document doc).WellFormed) (hget : doc.get? key = some value) :
    value.WellFormed :=
  wellFormed_of_mem hdoc.2 (Fields.mem_of_get? hget)

theorem wellFormed_insert {doc : Document} {key : String} {value : Value}
    (hdoc : (Value.document doc).WellFormed) (hvalue : value.WellFormed) :
    (Value.document (doc.insert key value)).WellFormed := by
  refine ⟨Fields.nodup_keys_insert hdoc.1 key value, fieldsWellFormed_iff.mpr ?_⟩
  intro entry hentry
  rcases Fields.mem_insert hentry with hentry | rfl
  · exact wellFormed_of_mem hdoc.2 hentry
  · exact hvalue

theorem wellFormed_erase {doc : Document} (key : String)
    (hdoc : (Value.document doc).WellFormed) : (Value.document (doc.erase key)).WellFormed := by
  refine ⟨hdoc.1.sublist (List.filter_sublist.map Prod.fst), fieldsWellFormed_iff.mpr ?_⟩
  intro entry hentry
  exact wellFormed_of_mem hdoc.2 (List.mem_of_mem_filter hentry)

end Value

namespace Path

/-! ### Segments -/

theorem exists_segments (path : String) : ∃ name more, segments path = name :: more := by
  unfold segments
  rw [Text.pieces_eq]
  exact ⟨_, _, rfl⟩

/-- A path with the first segment `name` is `name`, or goes on behind a point. -/
theorem of_segments {path name : String} {more : List String}
    (hsegments : segments path = name :: more) :
    path = name ∧ more = [] ∨ (name ++ ".").toList <+: path.toList ∧ more ≠ [] := by
  unfold segments at hsegments
  rw [Text.pieces_eq, List.map_cons, List.cons.injEq] at hsegments
  obtain ⟨hname, hmore⟩ := hsegments
  have hsplit := List.takeWhile_append_dropWhile (p := fun c => !(c == '.')) (l := path.toList)
  cases hrest : path.toList.dropWhile (fun c => !(c == '.')) with
  | nil =>
      rw [hrest, List.append_nil] at hsplit
      rw [hsplit, String.ofList_toList] at hname
      simp only [hrest, List.map_nil] at hmore
      exact Or.inl ⟨hname, hmore.symm⟩
  | cons c rest =>
      have hpoint : c = '.' := by
        have := List.head?_dropWhile_not (fun c => !(c == '.')) path.toList
        simpa [hrest] using this
      subst hpoint
      simp only [hrest] at hmore
      refine Or.inr ⟨⟨rest, ?_⟩, ?_⟩
      · rw [hrest] at hsplit
        rw [← hname, String.toList_append, String.toList_ofList]
        simpa using hsplit
      · rw [← hmore, Ne, List.map_eq_nil_iff]
        exact Text.pieces_ne_nil _ _

/-! ### The field that a path begins with, and the others -/

variable {name key next : String} {more : List String} {value : Value} {doc updated : Document}

/-- Writing behind a name writes into the document that is found there, or into a new one. -/
theorem of_setAt (hset : setAt (name :: next :: more) value doc = .ok updated) :
    ∃ found inner, (doc.get? name = none ∧ found = [] ∨ doc.get? name = some (.document found)) ∧
      setAt (next :: more) value found = .ok inner ∧
      updated = doc.insert name (.document inner) := by
  simp only [setAt] at hset
  split at hset
  · rename_i hget
    cases hinner : setAt (next :: more) value [] with
    | error part => simp [hinner, Except.map] at hset
    | ok inner =>
        simp only [hinner, Except.map, Except.ok.injEq] at hset
        exact ⟨[], inner, Or.inl ⟨hget, rfl⟩, hinner, hset.symm⟩
  · rename_i found hget
    cases hinner : setAt (next :: more) value found with
    | error part => simp [hinner, Except.map] at hset
    | ok inner =>
        simp only [hinner, Except.map, Except.ok.injEq] at hset
        exact ⟨found, inner, Or.inr hget, hinner, hset.symm⟩
  · simp at hset

theorem get?_setAt_of_ne (hset : setAt (name :: more) value doc = .ok updated)
    (hne : name ≠ key) : updated.get? key = doc.get? key := by
  cases more with
  | nil =>
      simp only [setAt, Except.ok.injEq] at hset
      rw [← hset, Fields.get?_insert, if_neg hne]
  | cons next more =>
      obtain ⟨found, inner, -, -, rfl⟩ := of_setAt hset
      rw [Fields.get?_insert, if_neg hne]

theorem get?_eraseAt_of_ne (doc : Document) (more : List String) (hne : name ≠ key) :
    (eraseAt (name :: more) doc).get? key = doc.get? key := by
  cases more with
  | nil => rw [eraseAt, Fields.get?_erase, if_neg hne]
  | cons next more =>
      simp only [eraseAt]
      split
      · rw [Fields.get?_insert, if_neg hne]
      · rfl

/-- Writing behind a name leaves a document at the name, and has found one if anything. -/
theorem document_of_setAt (hset : setAt (name :: next :: more) value doc = .ok updated) :
    (∃ inner, updated.get? name = some (.document inner)) ∧
      ∀ old, doc.get? name = some old → ∃ inner, old = .document inner := by
  obtain ⟨found, inner, hfound, -, rfl⟩ := of_setAt hset
  refine ⟨⟨inner, by rw [Fields.get?_insert, if_pos rfl]⟩, ?_⟩
  intro old hold
  rcases hfound with ⟨hnone, -⟩ | hsome
  · rw [hnone] at hold
    cases hold
  · rw [hsome, Option.some.injEq] at hold
    exact ⟨found, hold.symm⟩

theorem document_of_eraseAt (doc : Document) (name next : String) (more : List String) :
    (eraseAt (name :: next :: more) doc).get? name = doc.get? name ∨
      ∃ inner inner', doc.get? name = some (.document inner) ∧
        (eraseAt (name :: next :: more) doc).get? name = some (.document inner') := by
  simp only [eraseAt]
  split
  · rename_i inner hget
    refine Or.inr ⟨inner, eraseAt (next :: more) inner, hget, ?_⟩
    rw [Fields.get?_insert, if_pos rfl]
  · exact Or.inl rfl

/-! ### Names stay apart -/

theorem wellFormed_getAt? {path : List String} (hdoc : (Value.document doc).WellFormed)
    (hget : getAt? path doc = some value) :
    value.WellFormed := by
  induction path generalizing doc with
  | nil => cases hget
  | cons name more ih =>
      cases more with
      | nil => exact Value.wellFormed_of_get? hdoc hget
      | cons next more =>
          simp only [getAt?] at hget
          split at hget
          · rename_i inner hinner
            exact ih (Value.wellFormed_of_get? hdoc hinner) hget
          · cases hget

theorem wellFormed_setAt {path : List String} (hvalue : value.WellFormed)
    (hdoc : (Value.document doc).WellFormed) (hset : setAt path value doc = .ok updated) :
    (Value.document updated).WellFormed := by
  induction path generalizing doc updated with
  | nil =>
      simp only [setAt, Except.ok.injEq] at hset
      exact hset ▸ hdoc
  | cons name more ih =>
      cases more with
      | nil =>
          simp only [setAt, Except.ok.injEq] at hset
          exact hset ▸ Value.wellFormed_insert hdoc hvalue
      | cons next more =>
          obtain ⟨found, inner, hfound, hinner, rfl⟩ := of_setAt hset
          have hwell : (Value.document found).WellFormed := by
            rcases hfound with ⟨-, rfl⟩ | hsome
            · exact ⟨List.nodup_nil, trivial⟩
            · exact Value.wellFormed_of_get? hdoc hsome
          exact Value.wellFormed_insert hdoc (ih hwell hinner)

theorem wellFormed_eraseAt (path : List String) (hdoc : (Value.document doc).WellFormed) :
    (Value.document (eraseAt path doc)).WellFormed := by
  induction path generalizing doc with
  | nil => exact hdoc
  | cons name more ih =>
      cases more with
      | nil => exact Value.wellFormed_erase name hdoc
      | cons next more =>
          simp only [eraseAt]
          split
          · rename_i inner hget
            exact Value.wellFormed_insert hdoc (ih (Value.wellFormed_of_get? hdoc hget))
          · exact hdoc

end Path

end DocShell
