import DocShell.Failure.Outcome
import DocShell.Proofs.Literal.Balance
import DocShell.Proofs.Text.Trimming

/-!
# Cutting at separators that stand at top level

A text is closed when the scan of it ends as it began: every bracket and string in it is
closed, and nothing closes that was not opened.  Cutting a closed text at its top-level
separators gives closed pieces, and joining such pieces and cutting again gives the pieces.

## Strategy

* A scan that started outside of strings is `Proper`: no escape is open outside of strings,
  and the quote that is awaited is a quote.  A proper scan at top level that missed no
  bracket is the scan of the empty text (`Proper.eq_of_top`), so that the scan behind a
  separator goes on as if the text began there.
* A separator that is no quote and no bracket does not move the scan
  (`closed_iff_of_separator`).  So the text in front of the first cut is closed on its own,
  and the rest follows by induction on the length.
* The pieces of a closed text are therefore the only ones that join to it
  (`splitTop_eq_ok_iff`), which says both halves of the inverse at once.
* Behind an open parenthesis the scan runs one level `deeper` and otherwise alike, as long as
  no bracket is missed (`step_deeper`).  So the parenthesis that closes is the one behind a
  closed text (`splitParen_of_closed`).
-/

namespace DocShell.Text

open Literal (marks run_append)

namespace Scan

variable {s : Scan} {c separator : Char} {text front rest : List Char}

/-! ## What one character does -/

theorem stepInString_cases (s : Scan) (quote c : Char) :
    (∃ escaped, s.stepInString quote c = { s with escaped }) ∨
      (s.escaped = false ∧ c = quote ∧
        s.stepInString quote c = { s with nesting.quote := none }) := by
  unfold stepInString
  by_cases hprotect : s.escaped = true
  · exact Or.inl ⟨false, if_pos hprotect⟩
  · by_cases hslash : (c == '\\') = true
    · exact Or.inl ⟨true, by rw [if_neg hprotect, if_pos hslash]⟩
    · by_cases hclose : (c == quote) = true
      · refine Or.inr ⟨by simpa using hprotect, by simpa using hclose, ?_⟩
        rw [if_neg hprotect, if_neg hslash, if_pos hclose]
      · exact Or.inl ⟨s.escaped, by rw [if_neg hprotect, if_neg hslash, if_neg hclose]⟩

/-- Outside of strings a character opens a string, changes the counts, or was missed. -/
theorem stepOutside_cases (s : Scan) (c : Char) :
    (isQuote c = true ∧ s.stepOutside c = { s with nesting.quote := some c }) ∨
      (∃ parens brackets braces, s.stepOutside c =
        { s with nesting := { parens, brackets, braces, quote := s.nesting.quote } }) ∨
      s.stepOutside c = { s with underflow := true } := by
  obtain ⟨⟨parens, brackets, braces, quote⟩, escaped, underflow⟩ := s
  unfold stepOutside
  split
  · exact Or.inl ⟨rfl, rfl⟩
  · exact Or.inl ⟨rfl, rfl⟩
  · exact Or.inr (Or.inl ⟨_, _, _, rfl⟩)
  · exact Or.inr (Or.inl ⟨_, _, _, rfl⟩)
  · exact Or.inr (Or.inl ⟨_, _, _, rfl⟩)
  · cases parens with
    | zero => exact Or.inr (Or.inr rfl)
    | succ parens => exact Or.inr (Or.inl ⟨_, _, _, rfl⟩)
  · cases brackets with
    | zero => exact Or.inr (Or.inr rfl)
    | succ brackets => exact Or.inr (Or.inl ⟨_, _, _, rfl⟩)
  · cases braces with
    | zero => exact Or.inr (Or.inr rfl)
    | succ braces => exact Or.inr (Or.inl ⟨_, _, _, rfl⟩)
  · exact Or.inr (Or.inl ⟨_, _, _, rfl⟩)

/-! ## What a scan keeps -/

/-- No escape is open outside of strings, and only a quote is awaited. -/
structure Proper (s : Scan) : Prop where
  escaped : s.nesting.quote = none → s.escaped = false
  quote : ∀ quote, s.nesting.quote = some quote → isQuote quote = true

theorem proper_start : Proper {} :=
  ⟨fun _ => rfl, fun _ hquote => nomatch hquote⟩

theorem Proper.step (hproper : s.Proper) (c : Char) : (s.step c).Proper := by
  obtain ⟨hescaped, hquote⟩ := hproper
  unfold Scan.step
  split
  · next quote hopen =>
      rcases stepInString_cases s quote c with ⟨escaped, hstep⟩ | ⟨hprotect, -, hstep⟩
      · rw [hstep]
        exact ⟨fun hnone => by simp [hopen] at hnone, hquote⟩
      · rw [hstep]
        exact ⟨fun _ => hprotect, fun _ hsome => nomatch hsome⟩
  · next hopen =>
      have houtside : s.escaped = false := hescaped hopen
      rcases stepOutside_cases s c with ⟨hc, hstep⟩ | ⟨_, _, _, hstep⟩ | hstep <;> rw [hstep]
      · exact ⟨fun _ => houtside, fun _ hsome => by rwa [← Option.some.inj hsome]⟩
      · exact ⟨fun _ => houtside, hquote⟩
      · exact ⟨fun _ => houtside, hquote⟩

theorem Proper.run (hproper : s.Proper) (text : List Char) : (s.run text).Proper := by
  induction text generalizing s with
  | nil => exact hproper
  | cons c text ih => exact ih (hproper.step c)

/-- A bracket that was missed stays remembered. -/
theorem underflow_of_step (hstep : (s.step c).underflow = false) : s.underflow = false := by
  unfold Scan.step at hstep
  split at hstep
  · next quote _ =>
      rcases stepInString_cases s quote c with ⟨_, heq⟩ | ⟨-, -, heq⟩ <;> rwa [heq] at hstep
  · rcases stepOutside_cases s c with ⟨-, heq⟩ | ⟨_, _, _, heq⟩ | heq
    · rwa [heq] at hstep
    · rwa [heq] at hstep
    · rw [heq] at hstep
      cases hstep

theorem underflow_of_run (hrun : (s.run text).underflow = false) : s.underflow = false := by
  induction text generalizing s with
  | nil => exact hrun
  | cons c text ih => exact underflow_of_step (ih hrun)

theorem Proper.eq_of_top (hproper : s.Proper) (htop : s.nesting.isTop = true)
    (hunderflow : s.underflow = false) : s = {} := by
  obtain ⟨⟨parens, brackets, braces, quote⟩, escaped, underflow⟩ := s
  simp only [Nesting.isTop, Nesting.depth, Nesting.inString, Bool.and_eq_true, beq_iff_eq,
    Bool.not_eq_true', Option.isSome_eq_false_iff, Option.isNone_iff_eq_none] at htop
  obtain ⟨hdepth, rfl⟩ := htop
  have hescaped : escaped = false := hproper.escaped rfl
  simp only at hunderflow
  have hzero : parens = 0 ∧ brackets = 0 ∧ braces = 0 := by omega
  simp [hzero, hescaped, hunderflow]

/-! ## Separators -/

/-- A separator stands at top level somewhere in the text. -/
def hasTop (separator : Char) (s : Scan) : List Char → Bool
  | [] => false
  | c :: rest =>
    let next := s.step c
    (c == separator && next.nesting.isTop) || next.hasTop separator rest

theorem hasTop_append (front rest : List Char) :
    hasTop separator s (front ++ rest) =
      (hasTop separator s front || hasTop separator (s.run front) rest) := by
  induction front generalizing s with
  | nil => rfl
  | cons c front ih =>
      rw [List.cons_append, hasTop, hasTop, ih, Bool.or_assoc]
      rfl

theorem hasTop_of_not_mem (hmem : separator ∉ text) (s : Scan) :
    hasTop separator s text = false := by
  induction text generalizing s with
  | nil => rfl
  | cons c text ih =>
      rw [List.mem_cons, not_or] at hmem
      obtain ⟨hne, hrest⟩ := hmem
      rw [hasTop, ih hrest]
      simp [Ne.symm hne]

theorem cut_ne_nil (separator : Char) (s : Scan) (text : List Char) :
    cut separator s text ≠ [] := by
  cases text with
  | nil => simp [cut]
  | cons c rest =>
      rw [cut]
      split
      · simp
      · split <;> simp

theorem cut_of_hasTop_false (hnone : hasTop separator s text = false) :
    cut separator s text = [text] := by
  induction text generalizing s with
  | nil => rfl
  | cons c text ih =>
      rw [hasTop, Bool.or_eq_false_iff] at hnone
      rw [cut, if_neg (by simp [hnone.1]), ih hnone.2]

/-- The first piece ends where the first separator is. -/
theorem cut_append_cons (hfront : hasTop separator s front = false)
    (htop : (s.run (front ++ [separator])).nesting.isTop = true) :
    cut separator s (front ++ separator :: rest) =
      front :: cut separator (s.run (front ++ [separator])) rest := by
  induction front generalizing s with
  | nil => rw [List.nil_append, cut, if_pos (by simpa [run] using htop)]; rfl
  | cons c front ih =>
      rw [hasTop, Bool.or_eq_false_iff] at hfront
      rw [List.cons_append, cut, if_neg (by simp [hfront.1]), ih hfront.2 htop]
      rfl

theorem exists_first_of_hasTop (hsome : hasTop separator s text = true) :
    ∃ front rest, text = front ++ separator :: rest ∧ hasTop separator s front = false ∧
      (s.run (front ++ [separator])).nesting.isTop = true := by
  induction text generalizing s with
  | nil => cases hsome
  | cons c text ih =>
      by_cases hc : (c == separator && (s.step c).nesting.isTop) = true
      · rw [Bool.and_eq_true, beq_iff_eq] at hc
        obtain ⟨rfl, htop⟩ := hc
        exact ⟨[], text, rfl, rfl, htop⟩
      · rw [hasTop, Bool.or_eq_true, or_iff_right hc] at hsome
        obtain ⟨front, rest, rfl, hfront, htop⟩ := ih hsome
        refine ⟨c :: front, rest, rfl, ?_, htop⟩
        rw [hasTop, hfront, Bool.or_false]
        simpa using hc

/-- No separator stands at top level exactly if something is open behind each of them. -/
theorem hasTop_eq_false_iff :
    hasTop separator s text = false ↔ ∀ front rest, text = front ++ separator :: rest →
      (s.run (front ++ [separator])).nesting.isTop = false := by
  constructor
  · rintro hnone front rest rfl
    have hstep : s.run (front ++ [separator]) = (s.run front).step separator := run_append ..
    rw [hasTop_append, Bool.or_eq_false_iff, hasTop, beq_self_eq_true, Bool.true_and,
      Bool.or_eq_false_iff] at hnone
    rw [hstep]
    exact hnone.2.1
  · intro hopen
    rw [Bool.eq_false_iff]
    intro hsome
    obtain ⟨front, rest, htext, -, htop⟩ := exists_first_of_hasTop hsome
    rw [hopen front rest htext] at htop
    cases htop

end Scan

open Scan (cut hasTop)

variable {separator : Char} {text front rest piece : List Char} {pieces : List (List Char)}

/-! ## Closed texts -/

/-- The scan of the text ends as it began. -/
def Closed (text : List Char) : Prop :=
  ({} : Scan).run text = {}

/-- A closed text without a separator at top level. -/
structure IsPiece (separator : Char) (text : List Char) : Prop where
  closed : Closed text
  noTop : hasTop separator {} text = false

theorem checkBalanced_eq_ok_iff : checkBalanced text = .ok () ↔ Closed text := by
  constructor
  · intro hchecked
    unfold checkBalanced at hchecked
    simp only at hchecked
    split at hchecked
    · cases hchecked
    · next hunderflow =>
        split at hchecked
        · next htop =>
            exact (Scan.proper_start.run text).eq_of_top htop (by simpa using hunderflow)
        · cases hchecked
  · intro hclosed
    rw [checkBalanced, show ({} : Scan).run text = {} from hclosed]
    rfl

theorem Closed.append (hfront : Closed front) (hrest : Closed rest) : Closed (front ++ rest) := by
  rw [Closed, run_append, show ({} : Scan).run front = {} from hfront]
  exact hrest

theorem closed_plain (hplain : ∀ c ∈ text, c ∉ marks) : Closed text :=
  Literal.neutral_plain hplain {} ⟨rfl, rfl⟩

theorem mem_marks_of_isQuote {c : Char} (hc : isQuote c = true) : c ∈ marks := by
  simp only [isQuote, Bool.or_eq_true, beq_iff_eq] at hc
  rcases hc with rfl | rfl <;> decide

theorem closed_iff_of_separator (hseparator : separator ∉ marks) :
    Closed (front ++ [separator]) ↔ Closed front := by
  constructor
  · intro hclosed
    have hproper := Scan.proper_start.run front
    rw [Closed, run_append] at hclosed
    cases hquote : (({} : Scan).run front).nesting.quote with
    | none =>
        have hplain : ∀ c ∈ [separator], c ∉ marks := by simpa using hseparator
        rwa [Literal.neutral_plain hplain _ ⟨hquote, hproper.escaped hquote⟩] at hclosed
    | some quote =>
        -- In a string only its quote could lead to top level, and the separator is none.
        have hstep : (({} : Scan).run front).step separator = {} := hclosed
        simp only [Scan.step, hquote] at hstep
        rcases Scan.stepInString_cases _ quote separator with ⟨_, heq⟩ | ⟨-, rfl, -⟩
        · rw [heq] at hstep
          rw [congrArg (fun s : Scan => s.nesting.quote) hstep] at hquote
          cases hquote
        · exact absurd (mem_marks_of_isQuote (hproper.quote _ hquote)) hseparator
  · intro hfront
    exact hfront.append (closed_plain (by simpa using hseparator))

/-! ## Pieces -/

theorem join_cons (separator piece : List Char) (hpieces : pieces ≠ []) :
    join separator (piece :: pieces) = piece ++ separator ++ join separator pieces := by
  cases pieces with
  | nil => exact absurd rfl hpieces
  | cons first more => rfl

theorem closed_join (hseparator : separator ∉ marks)
    (hpieces : ∀ piece ∈ pieces, IsPiece separator piece) : Closed (join [separator] pieces) := by
  induction pieces with
  | nil => rfl
  | cons piece more ih =>
      have hpiece : Closed piece := (hpieces piece List.mem_cons_self).closed
      cases more with
      | nil => exact hpiece
      | cons next more =>
          rw [join_cons _ _ (by simp)]
          exact ((closed_iff_of_separator hseparator).mpr hpiece).append
            (ih fun piece hmem => hpieces piece (List.mem_cons_of_mem _ hmem))

/-- **Cutting undoes joining.** -/
theorem cut_join (hseparator : separator ∉ marks) (hne : pieces ≠ [])
    (hpieces : ∀ piece ∈ pieces, IsPiece separator piece) :
    cut separator {} (join [separator] pieces) = pieces := by
  induction pieces with
  | nil => exact absurd rfl hne
  | cons piece more ih =>
      obtain ⟨hclosed, hnone⟩ := hpieces piece List.mem_cons_self
      cases more with
      | nil => exact Scan.cut_of_hasTop_false hnone
      | cons next more =>
          have hrun : ({} : Scan).run (piece ++ [separator]) = {} :=
            (closed_iff_of_separator hseparator).mpr hclosed
          have hmore := ih (by simp) fun piece hmem => hpieces piece (List.mem_cons_of_mem _ hmem)
          rw [join_cons _ _ (by simp), List.append_assoc, List.singleton_append,
            Scan.cut_append_cons hnone (by rw [hrun]; rfl), hrun, hmore]

/-- **The pieces of a closed text are pieces, and joined they are the text.** -/
theorem cut_spec (hseparator : separator ∉ marks) (hclosed : Closed text) :
    (∀ piece ∈ cut separator {} text, IsPiece separator piece) ∧
      join [separator] (cut separator {} text) = text := by
  -- What stands behind the first separator is shorter, and closed like the text itself.
  induction hlength : text.length using Nat.strongRecOn generalizing text with
  | ind n ih =>
      cases hsome : hasTop separator {} text with
      | false =>
          rw [Scan.cut_of_hasTop_false hsome]
          exact ⟨fun piece hmem => by rw [List.mem_singleton.mp hmem]; exact ⟨hclosed, hsome⟩, rfl⟩
      | true =>
          obtain ⟨front, rest, rfl, hnone, htop⟩ := Scan.exists_first_of_hasTop hsome
          have hsplit : front ++ separator :: rest = front ++ [separator] ++ rest := by simp
          -- No bracket was missed in front of the separator, so the scan starts anew behind it.
          have hrun : ({} : Scan).run (front ++ [separator]) = {} := by
            have hend : ((({} : Scan).run (front ++ [separator])).run rest).underflow = false := by
              rw [← run_append, ← hsplit, show ({} : Scan).run _ = {} from hclosed]
            exact (Scan.proper_start.run _).eq_of_top htop (Scan.underflow_of_run hend)
          have hfront : Closed front := (closed_iff_of_separator hseparator).mp hrun
          have hrest : Closed rest := by
            rwa [Closed, hsplit, run_append, hrun] at hclosed
          obtain ⟨hpieces, hjoin⟩ := ih rest.length (by simp [← hlength]; omega) hrest rfl
          rw [Scan.cut_append_cons hnone htop, hrun]
          constructor
          · intro piece hmem
            rcases List.mem_cons.mp hmem with rfl | hmem
            · exact ⟨hfront, hnone⟩
            · exact hpieces piece hmem
          · rw [join_cons _ _ (Scan.cut_ne_nil _ _ _), hjoin, hsplit]

/-- A text splits into these pieces exactly if it is what joining them gives. -/
theorem splitTop_eq_ok_iff (hseparator : separator ∉ marks) :
    splitTop separator text = .ok pieces ↔
      pieces ≠ [] ∧ (∀ piece ∈ pieces, IsPiece separator piece) ∧
        join [separator] pieces = text := by
  constructor
  · intro hsplit
    obtain ⟨_, hchecked, rfl⟩ := Outcome.map_eq_ok_iff.mp hsplit
    obtain ⟨hpieces, hjoin⟩ := cut_spec hseparator (checkBalanced_eq_ok_iff.mp hchecked)
    exact ⟨Scan.cut_ne_nil _ _ _, hpieces, hjoin⟩
  · rintro ⟨hne, hpieces, rfl⟩
    have hchecked := checkBalanced_eq_ok_iff.mpr (closed_join hseparator hpieces)
    rw [splitTop, hchecked, Except.map, cut_join hseparator hne hpieces]

/-- No separator of the text stands at top level: behind each of them something is open. -/
def IsNested (separator : Char) (text : List Char) : Prop :=
  ∀ front rest, text = front ++ separator :: rest →
    (({} : Scan).run (front ++ [separator])).nesting.isTop = false

theorem isPiece_iff :
    IsPiece separator piece ↔ checkBalanced piece = .ok () ∧ IsNested separator piece := by
  rw [checkBalanced_eq_ok_iff, IsNested, ← Scan.hasTop_eq_false_iff]
  exact ⟨fun hpiece => ⟨hpiece.closed, hpiece.noTop⟩, fun hpiece => ⟨hpiece.1, hpiece.2⟩⟩

/-- **Splitting is the inverse of joining.**  Balanced pieces without a separator at top level
come back from their join.  What a text splits into gives it back when it is joined, and each
piece is balanced and its own only piece.  Splitting fails with the failure of the test for
balance, and only then. -/
theorem splitTop_inverts_join (hseparator : separator ∉ marks) :
    (∀ pieces, pieces ≠ [] →
      (∀ piece ∈ pieces, checkBalanced piece = .ok () ∧ IsNested separator piece) →
      splitTop separator (join [separator] pieces) = .ok pieces) ∧
    (∀ text pieces, splitTop separator text = .ok pieces →
      join [separator] pieces = text ∧
        ∀ piece ∈ pieces, checkBalanced piece = .ok () ∧
          splitTop separator piece = .ok [piece]) ∧
    ∀ text failure, splitTop separator text = .error failure ↔
      checkBalanced text = .error failure := by
  refine ⟨?_, ?_, fun text failure => Outcome.map_eq_error⟩
  · intro pieces hne hpieces
    refine (splitTop_eq_ok_iff hseparator).mpr ⟨hne, fun piece hmem => ?_, rfl⟩
    exact isPiece_iff.mpr (hpieces piece hmem)
  · intro text pieces hsplit
    obtain ⟨-, hpieces, hjoin⟩ := (splitTop_eq_ok_iff hseparator).mp hsplit
    refine ⟨hjoin, fun piece hmem => ⟨(isPiece_iff.mp (hpieces piece hmem)).1, ?_⟩⟩
    refine (splitTop_eq_ok_iff hseparator).mpr ⟨by simp, ?_, rfl⟩
    simpa using hpieces piece hmem

/-- Pieces with brackets, with a quote of the other kind, an escaped quote and a closing bracket
in strings, and an empty one. -/
theorem splitTop_inverts_join_comma :
    let pieces := ["[1,(2)]".toList, " \"it's\\\",)\"".toList, []]
    let text := "[1,(2)], \"it's\\\",)\",".toList
    ',' ∉ marks ∧ join [','] pieces = text ∧
      splitTop ',' text = .ok pieces ∧
      (join [','] pieces = text ∧
        ∀ piece ∈ pieces, checkBalanced piece = .ok () ∧ splitTop ',' piece = .ok [piece]) ∧
      ∀ failure, splitTop ',' text = .error failure ↔ checkBalanced text = .error failure := by
  intro pieces text
  have hcomma : ',' ∉ marks := by decide
  have hjoin : join [','] pieces = text := by decide
  have hpieces : ∀ piece ∈ pieces, checkBalanced piece = .ok () ∧ IsNested ',' piece := by
    have hall : ∀ piece ∈ pieces, checkBalanced piece = .ok () ∧ hasTop ',' {} piece = false := by
      decide
    exact fun piece hmem => (hall piece hmem).imp_right Scan.hasTop_eq_false_iff.mp
  obtain ⟨hback, hforth, hfails⟩ := splitTop_inverts_join hcomma
  have hsplit := hback pieces (by simp [pieces]) hpieces
  rw [hjoin] at hsplit
  exact ⟨hcomma, hjoin, hsplit, hforth text pieces hsplit, hfails text⟩

/-! ## Parentheses -/

namespace Scan

variable {s : Scan} {c : Char} {inside behind : List Char}

/-- The scan with one more open parenthesis around it. -/
def deeper (s : Scan) : Scan :=
  { s with nesting.parens := s.nesting.parens + 1 }

theorem stepOutside_deeper (hstep : (s.stepOutside c).underflow = false) :
    s.deeper.stepOutside c = (s.stepOutside c).deeper := by
  obtain ⟨⟨parens, brackets, braces, quote⟩, escaped, underflow⟩ := s
  unfold stepOutside at hstep ⊢
  simp only [deeper] at hstep ⊢
  split
  case h_6 => cases parens with
    | zero => cases hstep
    | succ parens => rfl
  case h_7 => cases brackets <;> rfl
  case h_8 => cases braces <;> rfl
  all_goals rfl

theorem step_deeper (hstep : (s.step c).underflow = false) :
    s.deeper.step c = (s.step c).deeper := by
  obtain ⟨⟨parens, brackets, braces, quote⟩, escaped, underflow⟩ := s
  cases quote with
  | none => exact stepOutside_deeper hstep
  | some quote =>
      simp only [step, deeper, stepInString]
      cases escaped with
      | true => rfl
      | false =>
          cases c == '\\' with
          | true => rfl
          | false => cases c == quote <;> rfl

theorem closeParen_deeper (hinside : (s.run inside).underflow = false) (rest : List Char) :
    s.deeper.closeParen (inside ++ rest) =
      ((s.run inside).deeper.closeParen rest).map
        fun (more, behind) => (inside ++ more, behind) := by
  induction inside generalizing s with
  | nil => simp [run]
  | cons c inside ih =>
      have hrun : ((s.step c).run inside).underflow = false := hinside
      have hstep : (s.step c).underflow = false := underflow_of_run hrun
      have hopen : ((s.step c).deeper.nesting.parens == 0) = false := rfl
      rw [List.cons_append, closeParen, step_deeper hstep]
      simp only [hopen, Bool.and_false, Bool.false_and, Bool.false_eq_true, if_false]
      rw [ih hinside, Option.map_map]
      rfl

/-- The bracket that is found does not depend on what stands behind it. -/
theorem of_closeParen (hclose : s.closeParen text = some (inside, behind)) :
    text = inside ++ ')' :: behind ∧
      ∀ other, s.closeParen (inside ++ ')' :: other) = some (inside, other) := by
  induction text generalizing s inside with
  | nil => cases hclose
  | cons c rest ih =>
      simp only [closeParen] at hclose
      split at hclose
      · next hfound =>
          simp only [Option.some.injEq, Prod.mk.injEq] at hclose
          obtain ⟨rfl, rfl⟩ := hclose
          obtain rfl : c = ')' := by
            simp only [Bool.and_eq_true, beq_iff_eq] at hfound
            exact hfound.1.1
          exact ⟨rfl, fun other => if_pos hfound⟩
      · next hother =>
          simp only [Option.map_eq_some_iff, Prod.mk.injEq] at hclose
          obtain ⟨⟨before, after⟩, hrest, rfl, rfl⟩ := hclose
          obtain ⟨rfl, hbehind⟩ := ih hrest
          refine ⟨rfl, fun other => ?_⟩
          simp only [List.cons_append, closeParen, hbehind, Option.map_some]
          exact if_neg hother

end Scan

/-- The parenthesis in front of a closed text is closed right behind it. -/
theorem splitParen_of_closed {inside : List Char} (hclosed : Closed inside)
    (behind : List Char) :
    splitParen ('(' :: (inside ++ ')' :: behind)) = some (inside, behind) := by
  have hrun : ({} : Scan).run inside = {} := hclosed
  have hopen : ({} : Scan).step '(' = ({} : Scan).deeper := rfl
  rw [splitParen, hopen, Scan.closeParen_deeper (by rw [hrun]), hrun]
  simp [Scan.closeParen, Scan.step, Scan.stepOutside, Scan.deeper, Nesting.inString]

theorem of_splitParen {inside behind : List Char}
    (hsplit : splitParen text = some (inside, behind)) :
    text = '(' :: (inside ++ ')' :: behind) ∧
      ∀ other, splitParen ('(' :: (inside ++ ')' :: other)) = some (inside, other) := by
  unfold splitParen at hsplit
  split at hsplit
  · obtain ⟨rfl, hother⟩ := Scan.of_closeParen hsplit
    exact ⟨rfl, hother⟩
  · cases hsplit

/-! ## Blanks around a text -/

theorem not_mem_marks_of_isBlank {c : Char} (hc : isBlank c = true) : c ∉ marks := by
  intro hmark
  simp only [marks, List.mem_cons, List.not_mem_nil, or_false] at hmark
  rcases hmark with rfl | rfl | rfl | rfl | rfl | rfl | rfl | rfl <;> exact absurd hc (by decide)

theorem AllBlank.closed {gap : List Char} (hgap : AllBlank gap) : Closed gap :=
  closed_plain fun c hc => not_mem_marks_of_isBlank (hgap c hc)

/-- Blanks can end an escape, and change nothing else. -/
theorem Scan.Proper.run_blank {s : Scan} (hproper : s.Proper) {gap : List Char}
    (hgap : AllBlank gap) :
    (s.run gap).nesting = s.nesting ∧ (s.run gap).underflow = s.underflow := by
  induction gap generalizing s with
  | nil => exact ⟨rfl, rfl⟩
  | cons c gap ih =>
      have hc : c ∉ marks := not_mem_marks_of_isBlank (hgap c List.mem_cons_self)
      have hstep : (s.step c).nesting = s.nesting ∧ (s.step c).underflow = s.underflow := by
        cases hquote : s.nesting.quote with
        | none =>
            have hplain : ∀ d ∈ [c], d ∉ marks := by simpa using hc
            have hsame : s.step c = s :=
              Literal.neutral_plain hplain s ⟨hquote, hproper.escaped hquote⟩
            rw [hsame]
            exact ⟨rfl, rfl⟩
        | some quote =>
            simp only [Scan.step, hquote]
            rcases Scan.stepInString_cases s quote c with ⟨_, heq⟩ | ⟨-, rfl, -⟩
            · rw [heq]
              exact ⟨rfl, rfl⟩
            · exact absurd (mem_marks_of_isQuote (hproper.quote _ hquote)) hc
      obtain ⟨hnesting, hunderflow⟩ :=
        ih (hproper.step c) fun d hd => hgap d (List.mem_cons_of_mem c hd)
      exact ⟨hnesting.trans hstep.1, hunderflow.trans hstep.2⟩

theorem Padded.checkBalanced_eq (hpadded : Padded piece text) :
    checkBalanced text = checkBalanced piece := by
  have htrim := hpadded.trim_eq
  obtain ⟨lead, trail, hlead, htrail, rfl⟩ := hpadded
  have hrun : ({} : Scan).run (lead ++ (piece ++ trail)) = (({} : Scan).run piece).run trail := by
    rw [run_append, run_append, show ({} : Scan).run lead = {} from hlead.closed]
  obtain ⟨hnesting, hunderflow⟩ := (Scan.proper_start.run piece).run_blank htrail
  simp only [checkBalanced, hrun, hnesting, hunderflow, htrim]

theorem IsPiece.padded (hpiece : IsPiece separator piece) (hpadded : Padded piece text)
    (hseparator : isBlank separator = false) : IsPiece separator text := by
  constructor
  · rw [← checkBalanced_eq_ok_iff, hpadded.checkBalanced_eq, checkBalanced_eq_ok_iff]
    exact hpiece.closed
  · obtain ⟨lead, trail, hlead, htrail, rfl⟩ := hpadded
    have hblank : ∀ gap, AllBlank gap → separator ∉ gap :=
      fun gap hgap hmem => by simp [hgap separator hmem] at hseparator
    rw [Scan.hasTop_append, Scan.hasTop_append, show ({} : Scan).run lead = {} from hlead.closed,
      Scan.hasTop_of_not_mem (hblank lead hlead), hpiece.noTop,
      Scan.hasTop_of_not_mem (hblank trail htrail)]
    rfl

theorem cut_append_blank {s : Scan} {trail : List Char} (htrail : separator ∉ trail)
    (text : List Char) :
    ∃ front last, cut separator s text = front ++ [last] ∧
      cut separator s (text ++ trail) = front ++ [last ++ trail] := by
  induction text generalizing s with
  | nil => exact ⟨[], [], rfl, Scan.cut_of_hasTop_false (Scan.hasTop_of_not_mem htrail s)⟩
  | cons c text ih =>
      obtain ⟨front, last, hcut, hlong⟩ := @ih (s.step c)
      simp only [cut, List.cons_append, hcut, hlong]
      split
      · exact ⟨[] :: front, last, rfl, rfl⟩
      · cases front with
        | nil => exact ⟨[], c :: last, rfl, rfl⟩
        | cons first front => exact ⟨(c :: first) :: front, last, rfl, rfl⟩

theorem cut_blank_append {lead : List Char} (hlead : AllBlank lead) (hmem : separator ∉ lead)
    (text : List Char) :
    ∃ first more, cut separator {} text = first :: more ∧
      cut separator {} (lead ++ text) = (lead ++ first) :: more := by
  induction lead with
  | nil =>
      obtain ⟨first, more, hcut⟩ := List.exists_cons_of_ne_nil (Scan.cut_ne_nil separator {} text)
      exact ⟨first, more, hcut, hcut⟩
  | cons c lead ih =>
      rw [List.mem_cons, not_or] at hmem
      have hrest : AllBlank lead := fun d hd => hlead d (List.mem_cons_of_mem c hd)
      obtain ⟨first, more, hcut, hlong⟩ := ih hrest hmem.2
      have hc : AllBlank [c] := by
        intro d hd
        rw [List.mem_singleton.mp hd]
        exact hlead c List.mem_cons_self
      have hstep : ({} : Scan).step c = {} := hc.closed
      refine ⟨first, more, hcut, ?_⟩
      simp only [List.cons_append, cut, hstep, hlong]
      rw [if_neg (by simp [Ne.symm hmem.1])]

/-- Blanks around a text are blanks around its pieces. -/
theorem Padded.map_trim_cut (hpadded : Padded piece text) (hseparator : isBlank separator = false) :
    (cut separator {} text).map trim = (cut separator {} piece).map trim := by
  obtain ⟨lead, trail, hlead, htrail, rfl⟩ := hpadded
  have hblank : ∀ gap, AllBlank gap → separator ∉ gap :=
    fun gap hgap hmem => by simp [hgap separator hmem] at hseparator
  obtain ⟨first, more, hcut, hlong⟩ := cut_blank_append hlead (hblank lead hlead) (piece ++ trail)
  obtain ⟨front, last, hpiece, htext⟩ := cut_append_blank (s := {}) (hblank trail htrail) piece
  have hfirst : trim (lead ++ first) = trim first :=
    Padded.trim_eq ⟨lead, [], hlead, allBlank_nil, by simp⟩
  have hlast : trim (last ++ trail) = trim last :=
    Padded.trim_eq ⟨[], trail, allBlank_nil, htrail, rfl⟩
  calc (cut separator {} (lead ++ (piece ++ trail))).map trim
      = (cut separator {} (piece ++ trail)).map trim := by
        rw [hlong, hcut, List.map_cons, List.map_cons, hfirst]
    _ = (cut separator {} piece).map trim := by
        rw [htext, hpiece, List.map_append, List.map_append, List.map_singleton,
          List.map_singleton, hlast]

/-! ## One array -/

/-- Nothing but the last character of the text stands at top level. -/
theorem Scan.hasTop_of_firstTop {s : Scan} {c : Char} (hfirst : s.firstTop text = some (c, []))
    (hne : c ≠ separator) : hasTop separator s text = false := by
  induction text generalizing s with
  | nil => cases hfirst
  | cons d rest ih =>
      simp only [firstTop] at hfirst
      split at hfirst
      · simp only [Option.some.injEq, Prod.mk.injEq] at hfirst
        obtain ⟨rfl, rfl⟩ := hfirst
        simp [hasTop, hne]
      · next htop =>
          rw [hasTop, ih hfirst]
          simp [htop]

theorem hasTop_of_spansOneArray (hspans : spansOneArray text = true) (hne : separator ≠ ']') :
    hasTop separator {} text = false := by
  unfold spansOneArray at hspans
  split at hspans
  · next hfirst => exact Scan.hasTop_of_firstTop hfirst (Ne.symm hne)
  · cases hspans

end DocShell.Text
