import DocShell.Proofs.Query.Reading

/-!
# Excerpts of a document

A part of a document that is made of the values at some of its paths, each in its place.  The
paths may overlap and lead into each other: a row that can be read in an excerpt either goes on
behind one of its paths, where source and excerpt do not differ, or stops in front of the end of
one, at a document that is not empty.

Nothing in an excerpt can stand in the way of a further path of the source, since a value that is
no document stands in the source too (`Excerpt.not_blockedAt`).  So excerpts grow path by path,
in any order (`Excerpt.exists_setAt`, `Excerpt.add`).
-/

namespace DocShell

open DocShell.Path (getAt? setAt segments BlockedAt row_cases)

variable {path row : List String} {rows : List (List String)} {value : Value} {key part : String}
  {source shown updated : Document}

/-- A part of the source: what is read at the given rows, and nothing else but the documents
that lead there. -/
structure Excerpt (source : Document) (rows : List (List String)) (shown : Document) : Prop where
  ne_nil : ∀ path ∈ rows, path ≠ []
  reached : ∀ path ∈ rows, getAt? path shown = getAt? path source
  nothingElse : ∀ row value, getAt? row shown = some value →
    (∃ path ∈ rows, path <+: row) ∨
      ∃ path ∈ rows, row <+: path ∧ (getAt? path source).isSome ∧
        ∃ inner, value = .document inner ∧ inner ≠ []

theorem excerpt_nil (source : Document) : Excerpt source [] [] where
  ne_nil := by simp
  reached := by simp
  nothingElse := by
    intro row value hget
    rw [Path.getAt?_of_empty] at hget
    cases hget

/-- Behind a row that has been shown there is no difference. -/
theorem Excerpt.behind (hexcerpt : Excerpt source rows shown) (hpath : path ∈ rows)
    (hleads : path <+: row) : getAt? row shown = getAt? row source := by
  obtain ⟨rest, rfl⟩ := hleads
  have hnil := hexcerpt.ne_nil path hpath
  rw [Path.getAt?_append hnil, Path.getAt?_append hnil, hexcerpt.reached path hpath]

/-- What an excerpt has, the source has too, and a document in the place of a document. -/
theorem Excerpt.of_shown (hexcerpt : Excerpt source rows shown)
    (hget : getAt? row shown = some value) :
    getAt? row source = some value ∨
      (∃ inner, value = .document inner ∧ inner ≠ []) ∧
        ∃ inner, getAt? row source = some (.document inner) := by
  obtain ⟨path, hpath, hleads⟩ | ⟨path, hpath, hleads, hsome, hvalue⟩ :=
    hexcerpt.nothingElse row value hget
  · exact Or.inl (hexcerpt.behind hpath hleads ▸ hget)
  · obtain ⟨back, rfl⟩ := hleads
    by_cases hback : back = []
    · subst hback
      rw [List.append_nil] at hpath
      exact Or.inl (hexcerpt.reached row hpath ▸ hget)
    · obtain ⟨found, hfound⟩ := Option.isSome_iff_exists.mp hsome
      obtain ⟨inner, hinner, -⟩ :=
        Path.document_of_getAt?_append (Path.ne_nil_of_getAt? hget) hback hfound
      exact Or.inr ⟨hvalue, inner, hinner⟩

/-- No value in an excerpt stands in the way of a path of the source. -/
theorem Excerpt.not_blockedAt (hexcerpt : Excerpt source rows shown)
    (hsource : getAt? path source = some value) : ¬ BlockedAt path part shown := by
  rintro ⟨front, back, hpath, hback, found, hfound, hnot⟩
  obtain hsame | ⟨⟨inner, rfl, -⟩, -⟩ := hexcerpt.of_shown hfound
  · exact Path.not_blockedAt_of_getAt? hsource ⟨front, back, hpath, hback, found, hsame, hnot⟩
  · cases hnot

/-- What is explained by some rows is explained by these and one more. -/
theorem Excerpt.explained (hexcerpt : Excerpt source rows shown)
    (hget : getAt? row shown = some value) (path : List String) :
    (∃ other ∈ rows ++ [path], other <+: row) ∨
      ∃ other ∈ rows ++ [path], row <+: other ∧ (getAt? other source).isSome ∧
        ∃ inner, value = .document inner ∧ inner ≠ [] := by
  obtain ⟨other, hother, hrest⟩ | ⟨other, hother, hrest⟩ := hexcerpt.nothingElse row value hget
  · exact Or.inl ⟨other, List.mem_append_left _ hother, hrest⟩
  · exact Or.inr ⟨other, List.mem_append_left _ hother, hrest⟩

/-- A path that the source does not have adds nothing. -/
theorem Excerpt.add_missing (hexcerpt : Excerpt source rows shown) (hpath : path ≠ [])
    (hsource : getAt? path source = none) : Excerpt source (rows ++ [path]) shown := by
  refine { ne_nil := ?_, reached := ?_, nothingElse := ?_ }
  · rw [List.forall_mem_append, List.forall_mem_singleton]
    exact ⟨hexcerpt.ne_nil, hpath⟩
  · rw [List.forall_mem_append, List.forall_mem_singleton, hsource,
      Option.eq_none_iff_forall_ne_some]
    refine ⟨hexcerpt.reached, fun value hget => ?_⟩
    obtain hsome | ⟨-, inner, hsome⟩ := hexcerpt.of_shown hget
    · rw [hsource] at hsome
      cases hsome
    · rw [hsource] at hsome
      cases hsome
  · exact fun row value hget => hexcerpt.explained hget path

/-- A path of the source can be added to an excerpt, whatever has been shown before. -/
theorem Excerpt.exists_setAt (hexcerpt : Excerpt source rows shown)
    (hsource : getAt? path source = some value) :
    ∃ updated, setAt path value shown = .ok updated := by
  cases hset : setAt path value shown with
  | ok updated => exact ⟨updated, rfl⟩
  | error part =>
      exact absurd (Path.setAt_eq_error_iff.mp hset) (hexcerpt.not_blockedAt hsource)

theorem Excerpt.add (hexcerpt : Excerpt source rows shown)
    (hsource : getAt? path source = some value) (hset : setAt path value shown = .ok updated) :
    Excerpt source (rows ++ [path]) updated := by
  have hnil := Path.ne_nil_of_getAt? hsource
  have hread := Path.getAt?_setAt_self hnil hset
  refine { ne_nil := ?_, reached := ?_, nothingElse := ?_ }
  · rw [List.forall_mem_append, List.forall_mem_singleton]
    exact ⟨hexcerpt.ne_nil, hnil⟩
  · rw [List.forall_mem_append, List.forall_mem_singleton, hread, hsource]
    refine ⟨fun other hother => ?_, rfl⟩
    obtain ⟨rest, rfl⟩ | ⟨back, -, rfl⟩ | hdiverge := row_cases path other
    · rw [Path.getAt?_append hnil, Path.getAt?_append hnil, hread, hsource]
    · -- The path leads into what has been shown as a whole, and writes what is there.
      have hthere := hexcerpt.behind hother (List.prefix_append other back)
      rw [hsource] at hthere
      rw [Path.setAt_of_getAt? hthere, Except.ok.injEq] at hset
      rw [← hset, hexcerpt.reached other hother]
    · rw [Path.getAt?_setAt_of_diverge hset hdiverge, hexcerpt.reached other hother]
  · intro row found hget
    obtain ⟨rest, rfl⟩ | ⟨back, hback, hrow⟩ | hdiverge := row_cases path row
    · exact Or.inl ⟨path, by simp, List.prefix_append path rest⟩
    · subst hrow
      obtain ⟨inner, hinner, hvalue⟩ :=
        Path.document_of_getAt?_append (Path.ne_nil_of_getAt? hget) hback hread
      rw [hget, Option.some.injEq] at hinner
      refine Or.inr ⟨row ++ back, by simp, List.prefix_append row back, by rw [hsource]; rfl,
        inner, hinner, ?_⟩
      rintro rfl
      rw [Path.getAt?_of_empty] at hvalue
      cases hvalue
    · rw [Path.getAt?_setAt_of_diverge hset hdiverge] at hget
      exact hexcerpt.explained hget path

/-- A field of an excerpt is the first segment of a row. -/
theorem Excerpt.head_of_mem_keys (hexcerpt : Excerpt source rows shown)
    (hkey : key ∈ Fields.keys shown) : ∃ path ∈ rows, path.head? = some key := by
  obtain ⟨value, hget⟩ : ∃ value, getAt? [key] shown = some value := by
    rw [← Option.ne_none_iff_exists']
    exact fun hnone => Fields.get?_eq_none_iff.mp hnone hkey
  obtain ⟨path, hpath, hleads⟩ | ⟨path, hpath, ⟨back, rfl⟩, -⟩ :=
    hexcerpt.nothingElse [key] value hget
  · obtain ⟨name, more, rfl⟩ := List.exists_cons_of_ne_nil (hexcerpt.ne_nil path hpath)
    rw [List.cons_prefix_cons] at hleads
    exact ⟨name :: more, hpath, congrArg some hleads.1⟩
  · exact ⟨[key] ++ back, hpath, rfl⟩

end DocShell
