import DocShell.Proofs.Query.Lens

/-!
# What is read around a path

A row of segments that is read in a document stands to a given path in one of three ways: it
goes on behind the path, it stops in front of the end of the path, or it goes apart from it.
Lens laws speak of the path itself and of rows that go apart.  Here are the other two:

* behind the path, a row reads on in what stands at the path (`getAt?_append`);
* in front of the end, there is a document wherever the path leads to anything
  (`document_of_getAt?_append`), and what is removed at the end leaves a document there
  that was one before (`outline_getAt?_eraseAt`).

So writing what is there already changes nothing (`setAt_of_getAt?`), and what cannot be read
cannot be read after a removal either (`getAt?_eraseAt_eq_none`).
-/

namespace DocShell

namespace Value

/-- What a row of segments leads to from a value on. -/
def at? (value : Value) : List String → Option Value
  | [] => some value
  | name :: more => value.document?.bind (Path.getAt? (name :: more))

/-- A value as it is seen from the outside: of a document only that it is one. -/
def outline : Value → Value
  | .document _ => .document []
  | value => value

theorem at?_of_ne_nil {rest : List String} (hrest : rest ≠ []) (value : Value) :
    value.at? rest = value.document?.bind (Path.getAt? rest) := by
  obtain ⟨name, more, rfl⟩ := List.exists_cons_of_ne_nil hrest
  rfl

theorem eq_document_of_document? {value : Value} {inner : Document}
    (hdocument : value.document? = some inner) : value = .document inner := by
  cases value with
  | document fields => rw [Option.some.inj hdocument]
  | _ => cases hdocument

theorem outline_of_document?_eq_none {value : Value} (hvalue : value.document? = none) :
    value.outline = value := by
  cases value with
  | document fields => cases hvalue
  | _ => rfl

end Value

namespace Path

variable {name part : String} {path front back rest row : List String} {value : Value}
  {doc updated : Document}

/-! ### Behind a path -/

theorem getAt?_append (hpath : path ≠ []) (rest : List String) (doc : Document) :
    getAt? (path ++ rest) doc = (getAt? path doc).bind fun value => value.at? rest := by
  induction path generalizing doc with
  | nil => exact absurd rfl hpath
  | cons name more ih =>
      by_cases hmore : more = []
      · subst hmore
        by_cases hrest : rest = []
        · subst hrest
          show doc.get? name = (doc.get? name).bind some
          rw [Option.bind_fun_some]
        · show getAt? (name :: rest) doc = (doc.get? name).bind fun value => value.at? rest
          rw [getAt?_cons hrest, Option.bind_assoc]
          exact congrArg _ (funext fun value => (Value.at?_of_ne_nil hrest value).symm)
      · rw [List.cons_append, getAt?_cons (by simp [hmore]), getAt?_cons hmore,
          Option.bind_assoc (f := getAt? more)]
        exact congrArg _ (funext fun inner => ih hmore inner)

/-- A path that leads to something leads through documents only. -/
theorem document_of_getAt?_append (hfront : front ≠ []) (hback : back ≠ [])
    (hget : getAt? (front ++ back) doc = some value) :
    ∃ inner, getAt? front doc = some (.document inner) ∧ getAt? back inner = some value := by
  rw [getAt?_append hfront] at hget
  obtain ⟨found, hfound, hat⟩ := Option.bind_eq_some_iff.mp hget
  rw [Value.at?_of_ne_nil hback] at hat
  obtain ⟨inner, hinner, hvalue⟩ := Option.bind_eq_some_iff.mp hat
  rw [Value.eq_document_of_document? hinner] at hfound
  exact ⟨inner, hfound, hvalue⟩

theorem ne_nil_of_getAt? (hget : getAt? path doc = some value) : path ≠ [] := by
  rintro rfl
  cases hget

/-- Nothing stands in the way of a path that leads to something. -/
theorem not_blockedAt_of_getAt? (hget : getAt? path doc = some value) :
    ¬ BlockedAt path part doc := by
  rintro ⟨front, back, rfl, hback, found, hfound, hnot⟩
  have hsplit : front ++ part :: back = (front ++ [part]) ++ back := by simp
  rw [hsplit] at hget
  obtain ⟨inner, hinner, -⟩ := document_of_getAt?_append (by simp) hback hget
  rw [hfound, Option.some.injEq] at hinner
  subst hinner
  cases hnot

/-! ### How a row stands to a path -/

/-- The row goes on behind the path, stops in front of its end, or goes apart from it. -/
theorem row_cases (path row : List String) :
    (∃ rest, row = path ++ rest) ∨ (∃ back, back ≠ [] ∧ path = row ++ back) ∨
      Diverge path row := by
  by_cases hbehind : path <+: row
  · obtain ⟨rest, hrest⟩ := hbehind
    exact Or.inl ⟨rest, hrest.symm⟩
  · by_cases hfront : row <+: path
    · obtain ⟨back, hback⟩ := hfront
      refine Or.inr (Or.inl ⟨back, ?_, hback.symm⟩)
      rintro rfl
      rw [List.append_nil] at hback
      exact hbehind (hback ▸ List.prefix_rfl)
    · exact Or.inr (Or.inr ⟨hbehind, hfront⟩)

/-! ### Writing and removing -/

/-- Writing what is there already changes nothing. -/
theorem setAt_of_getAt? (hget : getAt? path doc = some value) : setAt path value doc = .ok doc := by
  induction path generalizing doc with
  | nil => rfl
  | cons name more ih =>
      by_cases hmore : more = []
      · subst hmore
        have hname : doc.get? name = some value := hget
        show Except.ok (doc.insert name value) = .ok doc
        rw [Fields.insert_of_get? hname]
      · have hsplit : getAt? ([name] ++ more) doc = some value := hget
        obtain ⟨inner, hinner, hvalue⟩ := document_of_getAt?_append (by simp) hmore hsplit
        have hname : doc.get? name = some (.document inner) := hinner
        rw [setAt_of_document hmore hname, ih hvalue, Except.map, Fields.insert_of_get? hname]

/-- A row that stops in front of the end sees no difference in a removal. -/
theorem outline_getAt?_eraseAt (hback : back ≠ []) (front : List String) (doc : Document) :
    (getAt? front (eraseAt (front ++ back) doc)).map Value.outline =
      (getAt? front doc).map Value.outline := by
  induction front generalizing doc with
  | nil => rfl
  | cons name more ih =>
      have hrest : more ++ back ≠ [] := by simp [hback]
      rw [List.cons_append]
      cases hdocument : (doc.get? name).bind Value.document? with
      | none => rw [eraseAt_of_not_document hrest hdocument]
      | some inner =>
          have hname := get?_of_document? hdocument
          rw [eraseAt_of_document hrest hname]
          by_cases hmore : more = []
          · subst hmore
            show ((doc.insert name _).get? name).map Value.outline =
              (doc.get? name).map Value.outline
            rw [Fields.get?_insert_self, hname]
            rfl
          · rw [getAt?_of_document hmore (Fields.get?_insert_self ..),
              getAt?_of_document hmore hname, ih inner]

/-- What cannot be read cannot be read after a removal either. -/
theorem getAt?_eraseAt_eq_none (path : List String) (hget : getAt? row doc = none) :
    getAt? row (eraseAt path doc) = none := by
  obtain ⟨rest, rfl⟩ | ⟨back, hback, rfl⟩ | hdiverge := row_cases path row
  · by_cases hpath : path = []
    · subst hpath
      exact hget
    · rw [getAt?_append hpath, getAt?_eraseAt_self]
      rfl
  · have houtline := outline_getAt?_eraseAt hback row doc
    rw [hget, Option.map_none, Option.map_eq_none_iff] at houtline
    exact houtline
  · rw [getAt?_eraseAt_of_diverge doc hdiverge, hget]

end Path

end DocShell
