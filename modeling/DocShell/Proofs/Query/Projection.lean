import DocShell.Proofs.Query.Excerpt
import DocShell.Query.Projection

/-!
# What a projection shows

An inclusion writes the values at the included paths one by one into a document that starts
with the kept `_id` or with nothing, and at every moment that document is an excerpt of the source
(`showPaths_of_excerpt`).  Paths that overlap, lead into each other or behind `_id` do not matter.

* Nothing in an excerpt stands in the way of a further path, so the only fault of a projection is
  to mix inclusion with exclusion.
* What a projection takes from the source is the readings of its paths, and these are the same
  in what it shows; so projecting that again shows the same.

An exclusion removes its paths one after the other, and what is gone stays gone.

The flag of `_id` does not take part in deciding between the two, not even if it is the only
flag: a projection that asks for `_id` alone excludes nothing, and the whole document is shown
(`id_alone_shows_all`).
-/

namespace DocShell.Projection

open DocShell.Path (getAt? eraseAt segments Diverge)

variable {path row : List String} {rows : List (List String)}
  {projection doc source shown : Document}

/-! ### Inclusions -/

/-- Showing further paths never fails, and leaves an excerpt. -/
theorem showPaths_of_excerpt (hexcerpt : Excerpt source rows shown) (paths : List String) :
    ∃ updated, showPaths source paths shown = .ok updated ∧
      Excerpt source (rows ++ paths.map segments) updated := by
  induction paths generalizing rows shown with
  | nil => exact ⟨shown, rfl, by simpa using hexcerpt⟩
  | cons path more ih =>
      have hstep : ∃ between, showPath source shown path = .ok between ∧
          Excerpt source (rows ++ [segments path]) between := by
        cases hget : Path.get? source path with
        | none =>
            refine ⟨shown, by rw [showPath, hget], ?_⟩
            exact hexcerpt.add_missing (Path.segments_ne_nil path) hget
        | some value =>
            obtain ⟨between, hset⟩ := hexcerpt.exists_setAt hget
            refine ⟨between, ?_, hexcerpt.add hget hset⟩
            have hwritten : Path.set shown path value = .ok between := hset
            rw [showPath, hget]
            simp only [hwritten, Except.mapError]
      obtain ⟨between, hshow, hbetween⟩ := hstep
      obtain ⟨updated, hmore, hupdated⟩ := ih hbetween
      refine ⟨updated, ?_, by simpa using hupdated⟩
      simp only [showPaths, hshow, hmore]

/-- Of the source only the readings at the paths count. -/
theorem showPaths_congr {source' : Document} {paths : List String}
    (hread : ∀ path ∈ paths, Path.get? source path = Path.get? source' path) (shown : Document) :
    showPaths source paths shown = showPaths source' paths shown := by
  induction paths generalizing shown with
  | nil => rfl
  | cons path more ih =>
      rw [List.forall_mem_cons] at hread
      have hstep : showPath source shown path = showPath source' shown path := by
        rw [showPath, showPath, hread.1]
      simp only [showPaths, hstep]
      cases showPath source' shown path with
      | error failure => rfl
      | ok between => exact ih hread.2 between

/-- The row of `_id`, if it is kept. -/
def keptRows (projection : Document) : List (List String) :=
  if showsId projection then [["_id"]] else []

/-- What an inclusion starts with. -/
def start (projection doc : Document) : Document :=
  if showsId projection then idAlone doc else []

theorem excerpt_start (projection doc : Document) :
    Excerpt doc (keptRows projection) (start projection doc) := by
  unfold keptRows start
  split
  · have hid : getAt? ["_id"] doc = doc.get? "_id" := rfl
    unfold idAlone
    split
    · rename_i id hget
      exact (excerpt_nil doc).add (hid.trans hget) rfl
    · rename_i hget
      exact (excerpt_nil doc).add_missing (by simp) (hid.trans hget)
  · exact excerpt_nil doc

/-- The rows that an inclusion shows. -/
def shownRows (projection : Document) : List (List String) :=
  keptRows projection ++ (paths projection true).map segments

theorem apply_of_inclusion (hincluded : paths projection true ≠ [])
    (hexcluded : paths projection false = []) :
    apply projection doc = showPaths doc (paths projection true) (start projection doc) := by
  simp [apply, start, hincluded, hexcluded]

theorem exists_excerpt (hincluded : paths projection true ≠ [])
    (hexcluded : paths projection false = []) (doc : Document) :
    ∃ shown, apply projection doc = .ok shown ∧ Excerpt doc (shownRows projection) shown := by
  rw [apply_of_inclusion hincluded hexcluded]
  exact showPaths_of_excerpt (excerpt_start projection doc) (paths projection true)

/-- An excerpt is shown as the source is. -/
theorem apply_of_excerpt (hincluded : paths projection true ≠ [])
    (hexcluded : paths projection false = [])
    (hexcerpt : Excerpt doc (shownRows projection) shown) :
    apply projection shown = apply projection doc := by
  have hstart : start projection shown = start projection doc := by
    unfold start
    split
    · rename_i hshows
      have hrow : ["_id"] ∈ shownRows projection := by simp [shownRows, keptRows, hshows]
      have hid : shown.get? "_id" = doc.get? "_id" := hexcerpt.reached ["_id"] hrow
      rw [idAlone, idAlone, hid]
    · rfl
  have hread : ∀ path ∈ paths projection true, Path.get? shown path = Path.get? doc path :=
    fun path hpath => hexcerpt.reached (segments path)
      (List.mem_append_right _ (List.mem_map_of_mem hpath))
  rw [apply_of_inclusion hincluded hexcluded, apply_of_inclusion hincluded hexcluded, hstart,
    showPaths_congr hread]

/-! ### Exclusions -/

/-- The document without what stands at the rows. -/
def withoutRows (doc : Document) (rows : List (List String)) : Document :=
  rows.foldl (fun doc row => eraseAt row doc) doc

theorem getAt?_withoutRows_eq_none_of (rows : List (List String))
    (hget : getAt? row doc = none) : getAt? row (withoutRows doc rows) = none := by
  induction rows generalizing doc with
  | nil => exact hget
  | cons first more ih => exact ih (Path.getAt?_eraseAt_eq_none first hget)

theorem getAt?_withoutRows_of_mem (hrow : row ∈ rows) :
    getAt? row (withoutRows doc rows) = none := by
  induction rows generalizing doc with
  | nil => cases hrow
  | cons first more ih =>
      rcases List.mem_cons.mp hrow with rfl | hmem
      · exact getAt?_withoutRows_eq_none_of more (Path.getAt?_eraseAt_self row doc)
      · exact ih hmem

theorem getAt?_withoutRows_of_diverge (hdiverge : ∀ path ∈ rows, Diverge path row) :
    getAt? row (withoutRows doc rows) = getAt? row doc := by
  induction rows generalizing doc with
  | nil => rfl
  | cons first more ih =>
      rw [List.forall_mem_cons] at hdiverge
      calc getAt? row (withoutRows doc (first :: more))
          = getAt? row (eraseAt first doc) := ih hdiverge.2
        _ = getAt? row doc := Path.getAt?_eraseAt_of_diverge doc hdiverge.1

theorem withoutRows_of_missing (hmissing : ∀ row ∈ rows, getAt? row doc = none) :
    withoutRows doc rows = doc := by
  induction rows with
  | nil => rfl
  | cons first more ih =>
      rw [List.forall_mem_cons] at hmissing
      show withoutRows (eraseAt first doc) more = doc
      rw [Path.eraseAt_of_getAt?_eq_none hmissing.1]
      exact ih hmissing.2

/-- The rows that an exclusion hides. -/
def hiddenRows (projection : Document) : List (List String) :=
  (paths projection false).map segments ++ if showsId projection then [] else [["_id"]]

theorem apply_of_exclusion (hincluded : paths projection true = []) (doc : Document) :
    apply projection doc = .ok (withoutRows doc (hiddenRows projection)) := by
  have hleave : leaveOut doc (paths projection false) =
      withoutRows doc ((paths projection false).map segments) := by
    rw [leaveOut, withoutRows, List.foldl_map]
    rfl
  cases hshows : showsId projection with
  | true => simp [apply, hincluded, hshows, hleave, hiddenRows]
  | false =>
      simp only [apply, hincluded, hshows, hleave, hiddenRows, withoutRows, List.foldl_append]
      rfl

/-! ### Fields and leaves -/

/-- A field other than `_id` has a flag that says so. -/
def Flags (projection : Document) (shown : Bool) : Prop :=
  ∃ entry ∈ projection, entry.1 ≠ "_id" ∧ entry.2.truthy = shown

theorem mem_paths_iff {name : String} {flag : Bool} : name ∈ paths projection flag ↔
    ∃ entry ∈ projection, entry.1 = name ∧ name ≠ "_id" ∧ entry.2.truthy = flag := by
  simp only [paths, List.mem_map, List.mem_filter, Bool.and_eq_true, bne_iff_ne, beq_iff_eq]
  constructor
  · rintro ⟨entry, ⟨hentry, hname, hflag⟩, rfl⟩
    exact ⟨entry, hentry, rfl, hname, hflag⟩
  · rintro ⟨entry, hentry, rfl, hname, hflag⟩
    exact ⟨entry, ⟨hentry, hname, hflag⟩, rfl⟩

theorem paths_ne_nil_iff {flag : Bool} : paths projection flag ≠ [] ↔ Flags projection flag := by
  constructor
  · intro hpaths
    obtain ⟨name, hname⟩ := List.exists_mem_of_ne_nil _ hpaths
    obtain ⟨entry, hentry, rfl, hfield, hflag⟩ := mem_paths_iff.mp hname
    exact ⟨entry, hentry, hfield, hflag⟩
  · rintro ⟨entry, hentry, hfield, hflag⟩
    exact List.ne_nil_of_mem (mem_paths_iff.mpr ⟨entry, hentry, rfl, hfield, hflag⟩)

theorem paths_eq_nil_iff {flag : Bool} :
    paths projection flag = [] ↔ ¬ Flags projection flag := by
  rw [← paths_ne_nil_iff, not_not]

/-- A value without values inside that a row could lead to. -/
def IsLeaf (value : Value) : Prop :=
  ∀ inner, value = .document inner → inner = []

/-- What an inclusion shows: the included paths read as in the source, and every leaf is one of
the source and lies under an included path or the kept `_id`. -/
structure Includes (projection doc shown : Document) : Prop where
  read : ∀ path ∈ paths projection true, Path.get? shown path = Path.get? doc path
  leaves : ∀ row value, getAt? row shown = some value → IsLeaf value →
    getAt? row doc = some value ∧
      ((∃ path ∈ paths projection true, segments path <+: row) ∨
        showsId projection = true ∧ ["_id"] <+: row)

/-- What an exclusion shows: no excluded path and no excluded `_id`, and all that goes apart
from these as in the source. -/
structure Excludes (projection doc shown : Document) : Prop where
  gone : ∀ path ∈ paths projection false, Path.get? shown path = none
  goneId : showsId projection = false → shown.get? "_id" = none
  others : ∀ row, (∀ path ∈ paths projection false, Diverge (segments path) row) →
    (showsId projection = false → Diverge ["_id"] row) → getAt? row shown = getAt? row doc

theorem mem_shownRows_iff : row ∈ shownRows projection ↔
    (showsId projection = true ∧ row = ["_id"]) ∨
      ∃ path ∈ paths projection true, segments path = row := by
  unfold shownRows keptRows
  rw [List.mem_append, List.mem_map]
  cases showsId projection <;> simp

theorem mem_hiddenRows_iff : row ∈ hiddenRows projection ↔
    (∃ path ∈ paths projection false, segments path = row) ∨
      (showsId projection = false ∧ row = ["_id"]) := by
  unfold hiddenRows
  rw [List.mem_append, List.mem_map]
  cases showsId projection <;> simp

theorem includes_of_excerpt (hexcerpt : Excerpt doc (shownRows projection) shown) :
    Includes projection doc shown := by
  refine { read := ?_, leaves := ?_ }
  · intro path hpath
    exact hexcerpt.reached (segments path) (mem_shownRows_iff.mpr (Or.inr ⟨path, hpath, rfl⟩))
  · intro row value hget hleaf
    have hsource : getAt? row doc = some value := by
      obtain hsame | ⟨⟨inner, rfl, hinner⟩, -⟩ := hexcerpt.of_shown hget
      · exact hsame
      · exact absurd (hleaf inner rfl) hinner
    refine ⟨hsource, ?_⟩
    obtain ⟨path, hpath, hleads⟩ | ⟨path, -, -, -, inner, rfl, hinner⟩ :=
      hexcerpt.nothingElse row value hget
    · obtain ⟨hshows, rfl⟩ | ⟨name, hname, rfl⟩ := mem_shownRows_iff.mp hpath
      · exact Or.inr ⟨hshows, hleads⟩
      · exact Or.inl ⟨name, hname, hleads⟩
    · exact absurd (hleaf inner rfl) hinner

theorem excludes_withoutRows (projection doc : Document) :
    Excludes projection doc (withoutRows doc (hiddenRows projection)) := by
  refine { gone := ?_, goneId := ?_, others := ?_ }
  · intro path hpath
    exact getAt?_withoutRows_of_mem (mem_hiddenRows_iff.mpr (Or.inl ⟨path, hpath, rfl⟩))
  · intro hshows
    show getAt? ["_id"] (withoutRows doc (hiddenRows projection)) = none
    exact getAt?_withoutRows_of_mem (mem_hiddenRows_iff.mpr (Or.inr ⟨hshows, rfl⟩))
  · intro row hpaths hid
    refine getAt?_withoutRows_of_diverge fun path hpath => ?_
    obtain ⟨name, hname, rfl⟩ | ⟨hshows, rfl⟩ := mem_hiddenRows_iff.mp hpath
    · exact hpaths name hname
    · exact hid hshows

/-! ### Every projection -/

theorem apply_of_mixed (hincluded : Flags projection true) (hexcluded : Flags projection false)
    (doc : Document) : apply projection doc = .error .mixedProjection := by
  rw [← paths_ne_nil_iff] at hincluded hexcluded
  simp [apply, hincluded, hexcluded]

/-- A projection that goes through is an inclusion or an exclusion. -/
theorem apply_cases (projection doc : Document) :
    (Flags projection true ∧ Flags projection false ∧
        apply projection doc = .error .mixedProjection) ∨
      (Flags projection true ∧ ¬ Flags projection false ∧ ∃ shown,
        apply projection doc = .ok shown ∧ Excerpt doc (shownRows projection) shown) ∨
      (¬ Flags projection true ∧
        apply projection doc = .ok (withoutRows doc (hiddenRows projection))) := by
  by_cases hincluded : Flags projection true
  · by_cases hexcluded : Flags projection false
    · exact Or.inl ⟨hincluded, hexcluded, apply_of_mixed hincluded hexcluded doc⟩
    · exact Or.inr (Or.inl ⟨hincluded, hexcluded, exists_excerpt
        (paths_ne_nil_iff.mpr hincluded) (paths_eq_nil_iff.mpr hexcluded) doc⟩)
  · exact Or.inr (Or.inr ⟨hincluded, apply_of_exclusion (paths_eq_nil_iff.mpr hincluded) doc⟩)

/-- What an exclusion leaves has nothing more to exclude. -/
theorem apply_withoutRows (hincluded : ¬ Flags projection true) (doc : Document) :
    apply projection (withoutRows doc (hiddenRows projection)) =
      .ok (withoutRows doc (hiddenRows projection)) := by
  rw [apply_of_exclusion (paths_eq_nil_iff.mpr hincluded)]
  exact congrArg _ (withoutRows_of_missing fun row hrow => getAt?_withoutRows_of_mem hrow)

/-- **A projection is total, faithful and idempotent.**  It fails only if it mixes inclusion
with exclusion.  An inclusion shows its paths as they are in the document and no other leaf than
those and the kept `_id`; an exclusion hides its paths and leaves what goes apart from them as
it is; and to project again changes nothing. -/
theorem faithful_and_idempotent (projection doc : Document) :
    (∀ failure, apply projection doc = .error failure ↔
        failure = .mixedProjection ∧ Flags projection true ∧ Flags projection false) ∧
      ∀ shown, apply projection doc = .ok shown →
        (Flags projection true → Includes projection doc shown) ∧
          (¬ Flags projection true → Excludes projection doc shown) ∧
          apply projection shown = .ok shown := by
  obtain ⟨hincluded, hexcluded, happly⟩ | ⟨hincluded, hexcluded, shown, happly, hexcerpt⟩ |
    ⟨hincluded, happly⟩ := apply_cases projection doc
  · refine ⟨fun failure => ?_, fun shown hshown => ?_⟩
    · rw [happly, Except.error.injEq, eq_comm]
      exact ⟨fun hfailure => ⟨hfailure, hincluded, hexcluded⟩, And.left⟩
    · rw [happly] at hshown
      cases hshown
  · refine ⟨fun failure => ?_, fun shown' hshown => ?_⟩
    · rw [happly]
      exact iff_of_false (by simp) fun hmixed => hexcluded hmixed.2.2
    · rw [happly, Except.ok.injEq] at hshown
      subst hshown
      refine ⟨fun _ => includes_of_excerpt hexcerpt, fun hnot => absurd hincluded hnot, ?_⟩
      rw [apply_of_excerpt (paths_ne_nil_iff.mpr hincluded) (paths_eq_nil_iff.mpr hexcluded)
        hexcerpt, happly]
  · refine ⟨fun failure => ?_, fun shown hshown => ?_⟩
    · rw [happly]
      exact iff_of_false (by simp) fun hmixed => hincluded hmixed.2.1
    · rw [happly, Except.ok.injEq] at hshown
      subst hshown
      exact ⟨fun hflags => absurd hflags hincluded, fun _ => excludes_withoutRows projection doc,
        apply_withoutRows hincluded doc⟩

/-- Two paths that share a parent, one that leads into what another shows as a whole, and one
behind an `_id` that is itself left out. -/
theorem faithful_and_idempotent_overlapping :
    let projection : Document := [("a.c", .int32 1), ("_id", .boolean false), ("a.b", .int32 1),
      ("e", .boolean true), ("e.f", .int32 1), ("_id.k", .int32 1), ("g.h", .int32 1)]
    let doc : Document := [("_id", .document [("k", .int32 1), ("l", .int32 2)]),
      ("a", .document [("b", .array []), ("c", .document []), ("d", .null)]),
      ("e", .document [("f", .int32 3), ("h", .int32 4)]), ("g", .int32 5)]
    let shown : Document := [("a", .document [("c", .document []), ("b", .array [])]),
      ("e", .document [("f", .int32 3), ("h", .int32 4)]), ("_id", .document [("k", .int32 1)])]
    apply projection doc = .ok shown ∧ Includes projection doc shown ∧
      apply projection shown = .ok shown := by
  intro projection doc shown
  have happly : apply projection doc = .ok shown := rfl
  have hincluded : Flags projection true :=
    ⟨("e", .boolean true), by simp [projection], by simp, rfl⟩
  obtain ⟨hincludes, -, hagain⟩ := (faithful_and_idempotent projection doc).2 shown happly
  exact ⟨happly, hincludes hincluded, hagain⟩

/-! ### The fields of an inclusion -/

/-- A field that an inclusion asks for is `_id`, if that is kept, or the first segment of an
included path. -/
def AsksFor (projection : Document) (key : String) : Prop :=
  (showsId projection = true ∧ key = "_id") ∨
    ∃ path ∈ paths projection true, (segments path).head? = some key

/-- **An inclusion shows only what it asks for**, if it asks for a field other than `_id`: there
is no flag that leaves another field out, so the projection goes through, every field that it
shows is asked for, and a `_id` that is left out stands there only if a path leads into it.  If
it asks for `_id` alone, the whole document is shown. -/
theorem fields_asked_for (projection doc : Document) (hflags : ¬ Flags projection false) :
    (Flags projection true → ∃ shown, apply projection doc = .ok shown ∧
        (∀ key ∈ Fields.keys shown, AsksFor projection key) ∧
        (showsId projection = false →
          (∀ path ∈ paths projection true, (segments path).head? ≠ some "_id") →
          "_id" ∉ Fields.keys shown)) ∧
      (¬ Flags projection true → showsId projection = true → apply projection doc = .ok doc) := by
  constructor
  · intro hincluded
    obtain ⟨shown, happly, hexcerpt⟩ := exists_excerpt (paths_ne_nil_iff.mpr hincluded)
      (paths_eq_nil_iff.mpr hflags) doc
    have hasked : ∀ key ∈ Fields.keys shown, AsksFor projection key := by
      intro key hkey
      obtain ⟨path, hpath, hhead⟩ := hexcerpt.head_of_mem_keys hkey
      obtain ⟨hshows, rfl⟩ | ⟨name, hname, rfl⟩ := mem_shownRows_iff.mp hpath
      · exact Or.inl ⟨hshows, (Option.some.inj hhead).symm⟩
      · exact Or.inr ⟨name, hname, hhead⟩
    refine ⟨shown, happly, hasked, ?_⟩
    intro hleftOut hnowhere hid
    obtain ⟨hshows, -⟩ | ⟨path, hpath, hhead⟩ := hasked "_id" hid
    · rw [hshows] at hleftOut
      cases hleftOut
    · exact hnowhere path hpath hhead
  · intro hincluded hshows
    rw [apply_of_exclusion (paths_eq_nil_iff.mpr hincluded)]
    simp [hiddenRows, paths_eq_nil_iff.mpr hflags, hshows, withoutRows]

/-- The `_id` is left out, and yet stands there for the path that leads into it. -/
theorem fields_asked_for_inside_id :
    let projection : Document := [("_id", .boolean false), ("a.b", .int32 1), ("_id.k", .int64 1)]
    let doc : Document := [("c", .null), ("_id", .document [("k", .int32 1), ("l", .int32 2)])]
    ¬ Flags projection false ∧ ∃ shown, apply projection doc = .ok shown ∧
      Fields.keys shown = ["_id"] ∧ ∀ key ∈ Fields.keys shown, AsksFor projection key := by
  intro projection doc
  have hflags : ¬ Flags projection false := by
    simp [projection, Flags, Value.truthy]
  have hincluded : Flags projection true := ⟨("a.b", .int32 1), by simp [projection], by simp, rfl⟩
  obtain ⟨shown, happly, hasked, -⟩ := (fields_asked_for projection doc hflags).1 hincluded
  have hshown : apply projection doc = .ok [("_id", .document [("k", .int32 1)])] := rfl
  refine ⟨hflags, shown, happly, ?_, hasked⟩
  rw [happly, Except.ok.injEq] at hshown
  rw [hshown]
  rfl

/-- A projection with one flag, a true one, shows a field that is neither `_id` nor the first
segment of a field with a true flag. -/
theorem id_alone_shows_all :
    let projection : Document := [("_id", .int32 1)]
    let doc : Document := [("_id", .int32 7), ("a", .string "hidden")]
    (∀ entry ∈ projection, entry.2.truthy = true) ∧ apply projection doc = .ok doc ∧
      "a" ∈ Fields.keys doc ∧ "a" ≠ "_id" ∧
      ∀ entry ∈ projection, (segments entry.1).head? ≠ some "a" := by
  intro projection doc
  refine ⟨by simp [projection, Value.truthy], rfl, by simp [doc, Fields.keys], by simp, ?_⟩
  intro entry hentry
  rw [List.mem_singleton] at hentry
  subst hentry
  decide

end DocShell.Projection
