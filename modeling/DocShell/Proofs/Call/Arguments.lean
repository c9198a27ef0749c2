import DocShell.Call.Argument
import DocShell.Proofs.Text.Splitting
import Mathlib.Data.List.Forall2

/-!
# Lists of arguments

The text between the parentheses of a call is read as a list of arguments exactly when it is
one: well-formed arguments with commas between them, blanks around each, and a comma behind
the last one if there is a last one.

## Strategy

* Blanks are seen neither by the scan at top level nor by `Argument.read`, so the trimmed text
  and the text itself have pieces that read alike (`readSeparated_of_padded`).
* The one array that fills the parentheses is a single piece, so that its special path reads
  what the general one would (`readList_eq`, `readList_eq_readCut`).
* What is left is cutting at commas, which undoes joining in both directions
  (`Text.cut_join`, `Text.cut_spec`), and the blank piece behind a trailing comma.
-/

namespace DocShell.Argument

open Text (AllBlank Padded Closed IsPiece)

variable {text inside core gap : List Char} {pieces kept arguments padded : List (List Char)}

/-- A text that can stand as one argument. -/
structure IsWellFormed (text : List Char) : Prop where
  notBlank : ¬ AllBlank text
  balanced : Text.checkBalanced text = .ok ()
  noComma : Text.Scan.hasTop ',' {} text = false

/-- The text holds these arguments, each with blanks around it, between commas. -/
inductive Listed : List (List Char) → List Char → Prop where
  | empty {gap : List Char} (hgap : AllBlank gap) : Listed [] gap
  | separated {arguments padded : List (List Char)} (hne : arguments ≠ [])
      (hpadded : List.Forall₂ Padded arguments padded) :
      Listed arguments (Text.join [','] padded)
  /-- A comma behind the last argument. -/
  | trailing {arguments padded : List (List Char)} {gap : List Char} (hne : arguments ≠ [])
      (hpadded : List.Forall₂ Padded arguments padded) (hgap : AllBlank gap) :
      Listed arguments (Text.join [','] (padded ++ [gap]))

/-! ## Blanks around arguments -/

theorem read_of_padded (hpadded : Padded core text) : read text = read core := by
  rw [read, read, hpadded.trim_eq]

theorem read_of_blank (hblank : AllBlank text) :
    read text = .error (.malformed "empty argument") := by
  simp [read, Text.trim_eq_nil_iff.mpr hblank]

theorem readPieces_eq_mapM (pieces : List (List Char)) : readPieces pieces = pieces.mapM read := by
  induction pieces with
  | nil => rfl
  | cons piece more ih =>
      rw [readPieces, List.mapM_cons, ih]
      cases read piece with
      | error failure => rfl
      | ok value => cases more.mapM read <;> rfl

theorem mapM_read_of_padded (hpadded : List.Forall₂ Padded arguments padded) :
    padded.mapM read = arguments.mapM read := by
  induction hpadded with
  | nil => rfl
  | cons hhead _ ih => rw [List.mapM_cons, List.mapM_cons, ih, read_of_padded hhead]

theorem mapM_read_map_trim (pieces : List (List Char)) :
    (pieces.map Text.trim).mapM read = pieces.mapM read := by
  induction pieces with
  | nil => rfl
  | cons piece more ih =>
      rw [List.map_cons, List.mapM_cons, List.mapM_cons, ih,
        ← read_of_padded (Text.padded_trim piece)]

theorem dropBlankLast_map_trim (pieces : List (List Char)) :
    (dropBlankLast pieces).map Text.trim = dropBlankLast (pieces.map Text.trim) := by
  cases hlast : pieces.getLast? with
  | none => simp [dropBlankLast, hlast]
  | some last =>
      simp only [dropBlankLast, hlast, List.getLast?_map, Option.map_some, List.length_map,
        Text.trim_trim]
      split
      · exact List.map_dropLast
      · rfl

theorem readSeparated_of_padded (hpadded : Padded core text) :
    readSeparated text = readSeparated core := by
  have hcomma : Text.isBlank ',' = false := by decide
  have hpieces := hpadded.map_trim_cut hcomma
  rw [readSeparated, readSeparated, Text.splitTop, Text.splitTop, hpadded.checkBalanced_eq]
  cases Text.checkBalanced core with
  | error failure => rfl
  | ok _ =>
      -- Both the test for a blank last piece and the reader see a piece only when it is trimmed.
      simp only [Except.map, readPieces_eq_mapM]
      rw [← mapM_read_map_trim, dropBlankLast_map_trim, hpieces, ← dropBlankLast_map_trim,
        mapM_read_map_trim]

/-! ## The array that fills the parentheses -/

theorem readSeparated_of_array (hbracket : text.head? = some '[')
    (htrim : Text.trim text = text) (hspans : Text.spansOneArray text = true) :
    readSeparated text = (read text).map ([·]) := by
  obtain ⟨rest, rfl⟩ : ∃ rest, text = '[' :: rest := by
    cases text with
    | nil => cases hbracket
    | cons c rest => exact ⟨rest, by rw [Option.some.inj hbracket]⟩
  have hcut : Text.Scan.cut ',' {} ('[' :: rest) = ['[' :: rest] :=
    Text.Scan.cut_of_hasTop_false (Text.hasTop_of_spansOneArray hspans (by decide))
  rw [readSeparated, Text.splitTop]
  cases hchecked : Text.checkBalanced ('[' :: rest) with
  | error failure => simp [read, htrim, startsContainer, readContainer, hchecked, Except.map]
  | ok _ =>
      have hdrop : dropBlankLast ['[' :: rest] = ['[' :: rest] := by simp [dropBlankLast]
      simp only [Except.map, hcut, hdrop, readPieces]
      cases read ('[' :: rest) <;> rfl

/-- **The special path of one array is no other than the general one.** -/
theorem readList_eq (inside : List Char) :
    readList inside =
      if (Text.trim inside).isEmpty then .ok [] else readSeparated inside := by
  unfold readList
  simp only
  split
  · rfl
  · rw [readSeparated_of_padded (Text.padded_trim inside)]
    split
    · next harray =>
        rw [Bool.and_eq_true, beq_iff_eq] at harray
        exact (readSeparated_of_array harray.1 (Text.trim_trim inside) harray.2).symm
    · rfl

/-- Reading that knows nothing of an array that fills the parentheses: the trimmed text is cut
at its top-level commas, a blank piece behind the last comma is dropped, and every piece is
read; the first failure counts. -/
def readCut (inside : List Char) : Except ParseFailure (List Value) :=
  let text := Text.trim inside
  if text.isEmpty then .ok []
  else (Text.splitTop ',' text).bind fun pieces => (dropBlankLast pieces).mapM read

/-- **One array or any list, the outcome is that of cutting at commas**: the same values or the
same failure, for balanced and for unbalanced text. -/
theorem readList_eq_readCut (inside : List Char) : readList inside = readCut inside := by
  rw [readList_eq, readCut, readSeparated_of_padded (Text.padded_trim inside), readSeparated]
  cases Text.splitTop ',' (Text.trim inside) with
  | error failure => rfl
  | ok pieces =>
      simp only [readPieces_eq_mapM]
      rfl

/-- A bracket that nothing has opened, in an array that fills the parentheses. -/
example : readList "[1)]".toList = .error (.unbalanced "[1)]") := by
  rfl

/-! ## The comma behind the last argument -/

theorem dropBlankLast_of_last (hlast : ∀ last ∈ kept.getLast?, ¬ AllBlank last) :
    dropBlankLast kept = kept := by
  unfold dropBlankLast
  split
  · next last hfound =>
      refine if_neg fun hdropped => hlast last hfound ?_
      exact Text.trim_eq_nil_iff.mp (List.isEmpty_iff.mp hdropped.2)
  · rfl

theorem dropBlankLast_blank (hkept : kept ≠ []) (hgap : AllBlank gap) :
    dropBlankLast (kept ++ [gap]) = kept := by
  have hlength : 1 < (kept ++ [gap]).length := by
    have hpos : 0 < kept.length := List.length_pos_iff.mpr hkept
    simp only [List.length_append, List.length_singleton]
    omega
  have hempty : (Text.trim gap).isEmpty = true := by rw [Text.trim_eq_nil_iff.mpr hgap]; rfl
  simp only [dropBlankLast, List.getLast?_concat, hlength, hempty, and_self, if_true,
    List.dropLast_concat]

/-- What is dropped is one blank piece, and never the only piece. -/
theorem dropBlankLast_cases (hpieces : pieces ≠ []) :
    dropBlankLast pieces ≠ [] ∧ (dropBlankLast pieces = pieces ∨
      ∃ gap, AllBlank gap ∧ pieces = dropBlankLast pieces ++ [gap]) := by
  rcases List.eq_nil_or_concat' pieces with rfl | ⟨front, last, rfl⟩
  · exact absurd rfl hpieces
  · by_cases hblank : AllBlank last
    · cases front with
      | nil => exact ⟨by simp [dropBlankLast], Or.inl (by simp [dropBlankLast])⟩
      | cons first front =>
          rw [dropBlankLast_blank (by simp) hblank]
          exact ⟨by simp, Or.inr ⟨last, hblank, rfl⟩⟩
    · have hkept : dropBlankLast (front ++ [last]) = front ++ [last] :=
        dropBlankLast_of_last (by simpa using hblank)
      rw [hkept]
      exact ⟨by simp, Or.inl rfl⟩

/-! ## Listed arguments -/

theorem IsWellFormed.isPiece (hformed : IsWellFormed text) : IsPiece ',' text :=
  ⟨Text.checkBalanced_eq_ok_iff.mp hformed.balanced, hformed.noComma⟩

theorem IsWellFormed.of_padded (hformed : IsWellFormed core) (hpadded : Padded core text) :
    IsWellFormed text := by
  refine ⟨fun hblank => hformed.notBlank ?_, ?_, ?_⟩
  · rw [← Text.trim_eq_nil_iff, ← hpadded.trim_eq, Text.trim_eq_nil_iff]
    exact hblank
  · rw [hpadded.checkBalanced_eq]
    exact hformed.balanced
  · exact (hformed.isPiece.padded hpadded (by decide)).noTop

theorem isWellFormed_of_padded (hpadded : List.Forall₂ Padded arguments padded)
    (hformed : ∀ argument ∈ arguments, IsWellFormed argument) :
    ∀ piece ∈ padded, IsWellFormed piece := by
  induction hpadded with
  | nil => simp
  | cons hhead _ ih =>
      rw [List.forall_mem_cons] at hformed ⊢
      exact ⟨hformed.1.of_padded hhead, ih hformed.2⟩

/-- A list that is not empty is its pieces, of which a blank last one is dropped. -/
theorem Listed.exists_pieces (hlisted : Listed arguments inside) (hne : arguments ≠ [])
    (hformed : ∀ argument ∈ arguments, IsWellFormed argument) :
    ∃ pieces, inside = Text.join [','] pieces ∧ pieces ≠ [] ∧
      (∀ piece ∈ pieces, IsPiece ',' piece) ∧
      List.Forall₂ Padded arguments (dropBlankLast pieces) := by
  cases hlisted with
  | empty hgap => exact absurd rfl hne
  | @separated _ padded _ hpadded =>
      have hpieces := isWellFormed_of_padded hpadded hformed
      have hkept : dropBlankLast padded = padded :=
        dropBlankLast_of_last fun last hlast => (hpieces last (List.mem_of_getLast? hlast)).notBlank
      refine ⟨padded, rfl, ?_, fun piece hmem => (hpieces piece hmem).isPiece, by rwa [hkept]⟩
      rintro rfl
      exact hne (List.forall₂_nil_right_iff.mp hpadded)
  | @trailing _ padded gap _ hpadded hgap =>
      have hpieces := isWellFormed_of_padded hpadded hformed
      have hnonempty : padded ≠ [] := by
        rintro rfl
        exact hne (List.forall₂_nil_right_iff.mp hpadded)
      have hcomma : ',' ∉ gap := fun hmem => absurd (hgap ',' hmem) (by decide)
      refine ⟨padded ++ [gap], rfl, by simp, fun piece hmem => ?_, ?_⟩
      · rcases List.mem_append.mp hmem with hmem | hmem
        · exact (hpieces piece hmem).isPiece
        · rw [List.mem_singleton.mp hmem]
          exact ⟨hgap.closed, Text.Scan.hasTop_of_not_mem hcomma {}⟩
      · rwa [dropBlankLast_blank hnonempty hgap]

theorem Listed.closed (hlisted : Listed arguments inside)
    (hformed : ∀ argument ∈ arguments, IsWellFormed argument) : Closed inside := by
  by_cases hne : arguments = []
  · subst hne
    cases hlisted with
    | empty hgap => exact hgap.closed
    | separated hne _ => exact absurd rfl hne
    | trailing hne _ _ => exact absurd rfl hne
  · obtain ⟨pieces, rfl, -, hpieces, -⟩ := hlisted.exists_pieces hne hformed
    exact Text.closed_join (by decide) hpieces

theorem readSeparated_of_closed (hclosed : Closed text) :
    readSeparated text = (dropBlankLast (Text.Scan.cut ',' {} text)).mapM read := by
  rw [readSeparated, Text.splitTop, Text.checkBalanced_eq_ok_iff.mpr hclosed,
    ← readPieces_eq_mapM]
  rfl

/-- **A list of arguments is read argument by argument**, and the first failure counts. -/
theorem readList_of_listed (hlisted : Listed arguments inside)
    (hformed : ∀ argument ∈ arguments, IsWellFormed argument) :
    readList inside = arguments.mapM read := by
  rw [readList_eq]
  by_cases hne : arguments = []
  · subst hne
    cases hlisted with
    | empty hgap => rw [Text.trim_eq_nil_iff.mpr hgap]; rfl
    | separated hne _ => exact absurd rfl hne
    | trailing hne _ _ => exact absurd rfl hne
  · have hclosed := hlisted.closed hformed
    obtain ⟨pieces, rfl, hpieces, hpiece, hpadded⟩ := hlisted.exists_pieces hne hformed
    have hcut : Text.Scan.cut ',' {} (Text.join [','] pieces) = pieces :=
      Text.cut_join (by decide) hpieces hpiece
    -- A blank text would be its own only piece, and that piece an argument.
    have hnotBlank : ¬ AllBlank (Text.join [','] pieces) := by
      intro hblank
      have hcomma : ',' ∉ Text.join [','] pieces := fun hmem => absurd (hblank ',' hmem) (by decide)
      rw [Text.Scan.cut_of_hasTop_false (Text.Scan.hasTop_of_not_mem hcomma {})] at hcut
      rw [← hcut] at hpadded
      have honly := isWellFormed_of_padded hpadded hformed (Text.join [','] pieces)
        (by simp [dropBlankLast])
      exact honly.notBlank hblank
    rw [if_neg (by rwa [List.isEmpty_iff, Text.trim_eq_nil_iff]), readSeparated_of_closed hclosed,
      hcut, mapM_read_of_padded hpadded]

theorem mem_of_mem_dropBlankLast {piece : List Char} (hmem : piece ∈ dropBlankLast pieces) :
    piece ∈ pieces := by
  unfold dropBlankLast at hmem
  split at hmem
  · split at hmem
    · exact (List.dropLast_sublist pieces).subset hmem
    · exact hmem
  · exact hmem

theorem listed_dropBlankLast (hpieces : pieces ≠ []) :
    Listed (dropBlankLast pieces) (Text.join [','] pieces) := by
  have hpadded : List.Forall₂ Padded (dropBlankLast pieces) (dropBlankLast pieces) :=
    List.forall₂_same.mpr fun piece _ => Text.padded_refl piece
  obtain ⟨hne, hkept | ⟨gap, hgap, hkept⟩⟩ := dropBlankLast_cases hpieces
  · have hlisted := Listed.separated hne hpadded
    rwa [hkept] at hlisted ⊢
  · have hlisted := Listed.trailing hne hpadded hgap
    rwa [← hkept] at hlisted

theorem notBlank_of_mapM_read {values : List Value} (hread : pieces.mapM read = .ok values) :
    ∀ piece ∈ pieces, ¬ AllBlank piece := by
  induction pieces generalizing values with
  | nil => simp
  | cons piece more ih =>
      rw [List.mapM_cons] at hread
      rw [List.forall_mem_cons]
      constructor
      · intro hblank
        rw [read_of_blank hblank] at hread
        cases hread
      · cases hpiece : read piece with
        | error failure => rw [hpiece] at hread; cases hread
        | ok value =>
            cases hmore : more.mapM read with
            | error failure => rw [hpiece, hmore] at hread; cases hread
            | ok rest => exact ih hmore

/-- **What is read as a list of arguments is one.** -/
theorem exists_listed_of_readList {values : List Value} (hread : readList inside = .ok values) :
    ∃ arguments, Listed arguments inside ∧ ∀ argument ∈ arguments, IsWellFormed argument := by
  rw [readList_eq] at hread
  split at hread
  · next hempty =>
      have hblank : AllBlank inside := Text.trim_eq_nil_iff.mp (List.isEmpty_iff.mp hempty)
      exact ⟨[], .empty hblank, by simp⟩
  · have hchecked : Text.checkBalanced inside = .ok () := by
      cases hchecked : Text.checkBalanced inside with
      | ok _ => rfl
      | error failure => simp [readSeparated, Text.splitTop, hchecked, Except.map] at hread
    have hclosed := Text.checkBalanced_eq_ok_iff.mp hchecked
    rw [readSeparated_of_closed hclosed] at hread
    obtain ⟨hpieces, hjoin⟩ := Text.cut_spec (by decide : ',' ∉ Literal.marks) hclosed
    have hne := Text.Scan.cut_ne_nil ',' {} inside
    generalize Text.Scan.cut ',' {} inside = pieces at hread hpieces hjoin hne
    refine ⟨dropBlankLast pieces, ?_, fun argument hmem => ?_⟩
    · rw [← hjoin]
      exact listed_dropBlankLast hne
    · obtain ⟨hargument, hnone⟩ := hpieces argument (mem_of_mem_dropBlankLast hmem)
      exact ⟨notBlank_of_mapM_read hread argument hmem,
        Text.checkBalanced_eq_ok_iff.mpr hargument, hnone⟩

end DocShell.Argument
