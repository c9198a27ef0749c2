import DocShell.Proofs.Text.Splitting
import Mathlib.Data.List.Induction

/-!
# String literals in a scan

A text between two quotes is one string literal when the scan that goes into it stays in the
string up to the last character.  If the scan is merely outside of strings behind the last
quote, the text may also have two literals, one at each end.  Behind a quote that nothing
closes, the scan stays in the string up to the end of the text (`IsUnclosed`).

## Strategy

* Of the state of a scan, only the awaited quote and the open escape matter for strings
  (`Alike`), so that a literal in the middle of a text is a literal on its own.
* A string that is closed in a text is closed for the first time somewhere
  (`exists_closing`), and a string that is open at the end of a text was opened for the last
  time somewhere (`exists_opening`).
-/

namespace DocShell.Text

open Literal (run_append)

namespace Scan

variable {s t : Scan} {quote c : Char} {text : List Char}

/-! ## What matters for strings -/

/-- The scans await the same quote and protect the next character alike. -/
def Alike (s t : Scan) : Prop :=
  s.nesting.quote = t.nesting.quote ∧ s.escaped = t.escaped

/-- Outside of strings a quote opens one, and nothing else does. -/
theorem step_of_outside (houtside : s.nesting.quote = none) (c : Char) :
    (s.step c).nesting.quote = (if isQuote c then some c else none) ∧
      (s.step c).escaped = s.escaped := by
  rw [step, houtside]
  simp only
  cases hc : isQuote c with
  | true =>
      have hcases : c = '"' ∨ c = '\'' := by simpa [isQuote] using hc
      rcases hcases with rfl | rfl <;> exact ⟨rfl, rfl⟩
  | false =>
      rcases stepOutside_cases s c with ⟨hquote, -⟩ | ⟨_, _, _, heq⟩ | heq
      · rw [hc] at hquote
        cases hquote
      · rw [heq]
        exact ⟨houtside, rfl⟩
      · rw [heq]
        exact ⟨houtside, rfl⟩

/-- Inside of a string only its quote leads out. -/
theorem step_of_inside (hopen : s.nesting.quote = some quote) (c : Char) :
    (s.step c).nesting.quote = some quote ∨
      (s.escaped = false ∧ c = quote ∧ (s.step c).nesting.quote = none) := by
  rw [step, hopen]
  simp only
  rcases stepInString_cases s quote c with ⟨_, heq⟩ | ⟨hescaped, hc, heq⟩
  · rw [heq]
    exact Or.inl hopen
  · rw [heq]
    exact Or.inr ⟨hescaped, hc, rfl⟩

theorem Alike.step (halike : s.Alike t) (c : Char) : (s.step c).Alike (t.step c) := by
  obtain ⟨hquote, hescaped⟩ := halike
  cases houtside : t.nesting.quote with
  | none =>
      have hs := step_of_outside (hquote.trans houtside) c
      have ht := step_of_outside houtside c
      exact ⟨hs.1.trans ht.1.symm, hs.2.trans (hescaped.trans ht.2.symm)⟩
  | some quote =>
      rw [houtside] at hquote
      simp only [Alike, Scan.step, hquote, houtside, stepInString, hescaped]
      split
      · exact ⟨by rw [hquote, houtside], rfl⟩
      · split
        · exact ⟨by rw [hquote, houtside], rfl⟩
        · split
          · exact ⟨rfl, rfl⟩
          · exact ⟨by rw [hquote, houtside], hescaped⟩

theorem Alike.run (halike : s.Alike t) (text : List Char) : (s.run text).Alike (t.run text) := by
  induction text generalizing s t with
  | nil => exact halike
  | cons c text ih => exact ih (halike.step c)

/-! ## Where strings open and close -/

/-- A string that does not stay open is closed for a first time. -/
theorem exists_closing (hopen : s.nesting.quote = some quote)
    (hclosed : (s.run text).nesting.quote = none) :
    ∃ first rest, text = first ++ quote :: rest ∧
      (∀ front back, first = front ++ back → (s.run front).nesting.quote = some quote) ∧
      (s.run (first ++ [quote])).nesting.quote = none := by
  induction text generalizing s with
  | nil =>
      rw [show s.run [] = s from rfl, hopen] at hclosed
      cases hclosed
  | cons c text ih =>
      rcases step_of_inside hopen c with hstay | ⟨-, rfl, hleave⟩
      · obtain ⟨first, rest, rfl, hinside, hend⟩ := ih hstay hclosed
        refine ⟨c :: first, rest, rfl, fun front back hfront => ?_, hend⟩
        cases front with
        | nil => exact hopen
        | cons d front =>
            obtain ⟨rfl, hrest⟩ := List.cons.inj hfront
            exact hinside front back hrest
      · refine ⟨[], text, rfl, fun front back hfront => ?_, hleave⟩
        obtain ⟨rfl, -⟩ := List.append_eq_nil_iff.mp hfront.symm
        exact hopen

/-- A string that is open at the end was opened for a last time. -/
theorem exists_opening (houtside : s.nesting.quote = none)
    (hopen : (s.run text).nesting.quote = some quote) :
    ∃ between last, text = between ++ quote :: last ∧
      (s.run between).nesting.quote = none ∧
      ∀ front back, last = front ++ back →
        (s.run (between ++ quote :: front)).nesting.quote = some quote := by
  induction text using List.reverseRecOn with
  | nil =>
      rw [show s.run [] = s from rfl, houtside] at hopen
      cases hopen
  | append_singleton text c ih =>
      have hstep : s.run (text ++ [c]) = (s.run text).step c := run_append ..
      cases hend : (s.run text).nesting.quote with
      | none =>
          rw [hstep, (step_of_outside hend c).1] at hopen
          obtain rfl : c = quote := by
            split at hopen
            · exact Option.some.inj hopen
            · cases hopen
          refine ⟨text, [], rfl, hend, fun front back hfront => ?_⟩
          obtain ⟨rfl, -⟩ := List.append_eq_nil_iff.mp hfront.symm
          rw [hstep, (step_of_outside hend c).1]
          exact hopen
      | some awaited =>
          obtain rfl : awaited = quote := by
            rcases step_of_inside hend c with hstay | ⟨-, -, hleave⟩
            · rw [hstep, hstay] at hopen
              exact Option.some.inj hopen
            · rw [hstep, hleave] at hopen
              cases hopen
          obtain ⟨between, last, rfl, hbetween, hlast⟩ := ih hend
          refine ⟨between, last ++ [c], by simp, hbetween, fun front back hfront => ?_⟩
          -- What stands in front of the end of the text is known; the end is `hopen`.
          cases back using List.reverseRecOn with
          | nil =>
              rw [List.append_nil] at hfront
              rw [← hfront]
              simpa using hopen
          | append_singleton back d =>
              rw [← List.append_assoc] at hfront
              exact hlast front back (List.append_inj_left' hfront rfl)

end Scan

/-! ## Literals -/

variable {s : Scan} {quote : Char} {content : List Char}

/-- Between two of these quotes the text is the content of one string literal: a scan is in
the string from the opening quote up to the last character, which closes it. -/
structure IsLiteral (quote : Char) (content : List Char) : Prop where
  quoted : isQuote quote = true
  inside : ∀ front back, content = front ++ back →
    (({} : Scan).run (quote :: front)).nesting.inString = true
  closed : (({} : Scan).run (quote :: (content ++ [quote]))).nesting.inString = false

/-- Behind this quote the text does not leave the string that the quote opens: a scan is in the
string from the opening quote up to the end. -/
structure IsUnclosed (quote : Char) (content : List Char) : Prop where
  quoted : isQuote quote = true
  inside : ∀ front back, content = front ++ back →
    (({} : Scan).run (quote :: front)).nesting.inString = true

/-- Between two of these quotes the text has one string literal at its start and another one,
in the same quotes, at its end. -/
def HasTwoLiterals (quote : Char) (content : List Char) : Prop :=
  ∃ first between last, content = first ++ quote :: (between ++ quote :: last) ∧
    IsLiteral quote first ∧ IsLiteral quote last

/-- A literal in the middle of a text is a literal on its own. -/
theorem IsLiteral.of_run (hs : s.Proper) (houtside : s.nesting.quote = none)
    (hquote : isQuote quote = true)
    (hinside : ∀ front back, content = front ++ back →
      (s.run (quote :: front)).nesting.quote = some quote)
    (hclosed : (s.run (quote :: (content ++ [quote]))).nesting.quote = none) :
    IsLiteral quote content := by
  have hfresh : ∀ text, (s.run text).Alike (({} : Scan).run text) :=
    Scan.Alike.run ⟨houtside, hs.escaped houtside⟩
  refine ⟨hquote, fun front back hcontent => ?_, ?_⟩
  · rw [Nesting.inString, ← (hfresh _).1, hinside front back hcontent]
    rfl
  · rw [Nesting.inString, ← (hfresh _).1, hclosed]
    rfl

theorem IsLiteral.not_isUnclosed (hliteral : IsLiteral quote content) (behind : List Char) :
    ¬ IsUnclosed quote (content ++ quote :: behind) := by
  intro hunclosed
  have hopen := hunclosed.inside (content ++ [quote]) behind (by simp)
  rw [hliteral.closed] at hopen
  cases hopen

theorem IsLiteral.not_hasTwoLiterals (hliteral : IsLiteral quote content) :
    ¬ HasTwoLiterals quote content := by
  rintro ⟨first, between, last, hcontent, hfirst, -⟩
  have hopen := hliteral.inside (first ++ [quote]) (between ++ quote :: last) (by simp [hcontent])
  rw [hfirst.closed] at hopen
  cases hopen

/-- **One literal or two.**  When a scan is outside of strings in front of a quote and behind
another one of its kind, one literal stands between, or one at each end. -/
theorem literal_or_two (hs : s.Proper) (houtside : s.nesting.quote = none)
    (hquote : isQuote quote = true)
    (hend : (s.run (quote :: (content ++ [quote]))).nesting.quote = none) :
    IsLiteral quote content ∨ HasTwoLiterals quote content := by
  have hopens : ∀ {s : Scan}, s.nesting.quote = none → (s.step quote).nesting.quote = some quote :=
    fun houtside => by rw [(Scan.step_of_outside houtside quote).1, if_pos hquote]
  obtain ⟨first, rest, hcontent, hfirst, hclosed⟩ :=
    Scan.exists_closing (hopens houtside) hend
  have hliteral : IsLiteral quote first := .of_run hs houtside hquote hfirst hclosed
  cases rest using List.reverseRecOn with
  | nil =>
      rw [List.append_inj_left' hcontent rfl]
      exact Or.inl hliteral
  | append_singleton rest c =>
      rw [← List.cons_append, ← List.append_assoc] at hcontent
      obtain ⟨hfront, hc⟩ := List.append_inj' hcontent rfl
      obtain rfl : quote = c := by simpa using hc
      -- Behind the first literal the scan is outside, and the last quote leads out again.
      let behind := s.run (quote :: (first ++ [quote]))
      have hbehind : behind.Proper := hs.run _
      have hsplit : s.run (quote :: (content ++ [quote])) = (behind.run rest).step quote := by
        have htext : quote :: (content ++ [quote]) =
            quote :: (first ++ [quote]) ++ (rest ++ [quote]) := by simp [hfront]
        rw [htext, run_append, run_append]
        rfl
      rw [hsplit] at hend
      cases hlast : (behind.run rest).nesting.quote with
      | none =>
          rw [hopens hlast] at hend
          cases hend
      | some awaited =>
          obtain rfl : awaited = quote := by
            rcases Scan.step_of_inside hlast quote with hstay | ⟨-, hsame, -⟩
            · rw [hstay] at hend
              cases hend
            · exact hsame.symm
          obtain ⟨between, last, rfl, hbetween, hinside⟩ := Scan.exists_opening hclosed hlast
          refine Or.inr ⟨first, between, last, hfront, hliteral,
            .of_run (hbehind.run between) hbetween hquote (fun front back hfront => ?_) ?_⟩
          · rw [← run_append]
            exact hinside front back hfront
          · rw [← run_append, ← List.cons_append, ← List.append_assoc, run_append]
            exact hend

/-- What stands between two such quotes is one literal unless another one stands at its end. -/
theorem isLiteral_iff (hs : s.Proper) (houtside : s.nesting.quote = none)
    (hquote : isQuote quote = true)
    (hend : (s.run (quote :: (content ++ [quote]))).nesting.quote = none) :
    IsLiteral quote content ↔ ¬ HasTwoLiterals quote content :=
  ⟨IsLiteral.not_hasTwoLiterals, (literal_or_two hs houtside hquote hend).resolve_right⟩

end DocShell.Text
