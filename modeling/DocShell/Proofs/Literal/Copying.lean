import DocShell.Proofs.Literal.Normalization
import DocShell.Proofs.Text.StringLiteral

/-!
# String literals for the pass and for the scan

Two machines look for the end of a string literal: the scan for brackets and strings, and
the copy that the pass over a relaxed literal makes.  They see the same literals, and the
scan sees one literal in the copy, too, closed when the original is.

## Strategy

* What stands between the quotes is a body (`IsBody`): characters that mean nothing there,
  and backslashes with the characters they protect.  A scan stays in the string throughout a
  body, and only what follows the body can lead out.
* A literal ends in three ways: it is closed, the text ends behind the body, or the text ends
  behind a backslash that has nothing to protect.  The copy takes a body to a body between
  double quotes and ends in the same way (`Copied`).
* So original and copy are never compared character by character.  What the scan does with
  each of them follows from the same lemmas about a body and its end.
-/

namespace DocShell.Literal

open Text (Scan IsLiteral IsUnclosed)

variable {quote : Char} {body front rest copied behind : List Char} {s : Scan}

/-! ## Bodies of literals -/

/-- What can stand between two of these quotes: characters that neither close the string nor
protect the next one, and backslashes, each with the character that it protects. -/
inductive IsBody (quote : Char) : List Char → Prop
  | nil : IsBody quote []
  | plain {c : Char} {body : List Char} (hclose : c ≠ quote) (hslash : c ≠ '\\')
      (hbody : IsBody quote body) : IsBody quote (c :: body)
  | escape {c : Char} {body : List Char} (hbody : IsBody quote body) :
      IsBody quote ('\\' :: c :: body)

theorem IsBody.append {back : List Char} (hfront : IsBody quote front)
    (hback : IsBody quote back) : IsBody quote (front ++ back) := by
  induction hfront with
  | nil => exact hback
  | plain hclose hslash _ ih => exact ih.plain hclose hslash
  | escape _ ih => exact ih.escape

theorem IsBody.inert (hbody : IsBody quote body) : Inert quote body := by
  induction hbody with
  | nil => exact inert_nil quote
  | plain hclose hslash _ ih => exact ih.cons hclose hslash
  | escape _ ih => exact ih.escape _

/-- A backslash leads out of no string. -/
theorem quote_step_backslash (hopen : s.nesting.quote = some quote) (hescaped : s.escaped = false) :
    (s.step '\\').nesting.quote = some quote := by
  simp [Scan.step, Scan.stepInString, hopen, hescaped]

/-- A scan is in the string behind every beginning of a body. -/
theorem IsBody.quote_run (hbody : IsBody quote body) (hopen : s.nesting.quote = some quote)
    (hescaped : s.escaped = false) (hfront : front <+: body) :
    (s.run front).nesting.quote = some quote := by
  induction hbody generalizing front with
  | nil =>
      rw [List.prefix_nil.mp hfront]
      exact hopen
  | @plain c body hclose hslash _ ih =>
      rcases List.prefix_cons_iff.mp hfront with rfl | ⟨more, rfl, hmore⟩
      · exact hopen
      · have hpassed : s.run [c] = s := (IsBody.nil.plain hclose hslash).inert s hopen hescaped
        rw [← List.singleton_append, run_append, hpassed]
        exact ih hmore
  | @escape c body _ ih =>
      rcases List.prefix_cons_iff.mp hfront with rfl | ⟨more, rfl, hmore⟩
      · exact hopen
      -- The beginning may end between the backslash and what it protects.
      rcases List.prefix_cons_iff.mp hmore with rfl | ⟨behind, rfl, hbehind⟩
      · exact quote_step_backslash hopen hescaped
      · have hpassed : s.run ['\\', c] = s := IsBody.nil.escape.inert s hopen hescaped
        rw [show '\\' :: c :: behind = ['\\', c] ++ behind from rfl, run_append, hpassed]
        exact ih hbehind

/-! ## Literals in a scan -/

/-- The scan behind a quote at the start of a text. -/
def opened (quote : Char) : Scan :=
  { nesting := { quote := some quote } }

theorem run_quote (hquote : Text.isQuote quote = true) (text : List Char) :
    ({} : Scan).run (quote :: text) = (opened quote).run text := by
  have hcases : quote = '"' ∨ quote = '\'' := by simpa [Text.isQuote] using hquote
  rcases hcases with rfl | rfl <;> rfl

theorem IsBody.inString_run (hbody : IsBody quote body) (hquote : Text.isQuote quote = true)
    (hfront : front <+: body) : (({} : Scan).run (quote :: front)).nesting.inString = true := by
  rw [run_quote hquote, Text.Nesting.inString, hbody.quote_run rfl rfl hfront]
  rfl

/-- The scan stands behind a body as it stood in front of it. -/
theorem IsBody.run_concat (hbody : IsBody quote body) (hquote : Text.isQuote quote = true)
    (c : Char) : ({} : Scan).run (quote :: (body ++ [c])) = (opened quote).step c := by
  rw [run_quote hquote, run_append, hbody.inert _ rfl rfl]
  rfl

theorem IsBody.isLiteral (hbody : IsBody quote body) (hquote : Text.isQuote quote = true) :
    IsLiteral quote body := by
  refine ⟨hquote, fun front back hfront => hbody.inString_run hquote ⟨back, hfront.symm⟩, ?_⟩
  have hslash : quote ≠ '\\' := by
    rintro rfl
    cases hquote
  rw [hbody.run_concat hquote]
  simp [opened, Scan.step, Scan.stepInString, Text.Nesting.inString, hslash]

theorem IsBody.isUnclosed (hbody : IsBody quote body) (hquote : Text.isQuote quote = true) :
    IsUnclosed quote body :=
  ⟨hquote, fun _ back hfront => hbody.inString_run hquote ⟨back, hfront.symm⟩⟩

/-- A backslash at the end of the text protects nothing, and closes nothing. -/
theorem IsBody.isUnclosed_backslash (hbody : IsBody quote body)
    (hquote : Text.isQuote quote = true) : IsUnclosed quote (body ++ ['\\']) := by
  refine ⟨hquote, fun front back hfront => ?_⟩
  have hbeginning : front <+: body ++ ['\\'] := ⟨back, hfront.symm⟩
  rcases List.prefix_concat_iff.mp hbeginning with rfl | hinside
  · rw [hbody.run_concat hquote, Text.Nesting.inString, quote_step_backslash rfl rfl]
    rfl
  · exact hbody.inString_run hquote hinside

/-! ## What the copy does -/

/-- In front of `rest` the quote opens a literal with the body and one of the ends of a literal,
`copied` has a body for double quotes and the same end, and `behind` is what is left. -/
inductive Copied (quote : Char) : (rest copied behind : List Char) → Prop
  | closed {body written behind : List Char} (hbody : IsBody quote body)
      (hwritten : IsBody '"' written) :
      Copied quote (body ++ quote :: behind) (written ++ ['"']) behind
  | unclosed {body written : List Char} (hbody : IsBody quote body)
      (hwritten : IsBody '"' written) : Copied quote body written []
  | cutOff {body written : List Char} (hbody : IsBody quote body)
      (hwritten : IsBody '"' written) : Copied quote (body ++ ['\\']) (written ++ ['\\']) []

/-- Another piece in front of the body is copied by itself. -/
theorem Copied.append {piece written : List Char} (hcopied : Copied quote rest copied behind)
    (hpiece : IsBody quote piece) (hpieceWritten : IsBody '"' written) :
    Copied quote (piece ++ rest) (written ++ copied) behind := by
  cases hcopied with
  | closed hbody hwritten =>
      rw [← List.append_assoc, ← List.append_assoc]
      exact .closed (hpiece.append hbody) (hpieceWritten.append hwritten)
  | unclosed hbody hwritten =>
      exact .unclosed (hpiece.append hbody) (hpieceWritten.append hwritten)
  | cutOff hbody hwritten =>
      rw [← List.append_assoc, ← List.append_assoc]
      exact .cutOff (hpiece.append hbody) (hpieceWritten.append hwritten)

/-- The copy follows the literal piece by piece: a plain character, or a backslash and the
character behind it. -/
theorem copied_copyString (hquote : Text.isQuote quote = true) : ∀ rest : List Char,
    Copied quote rest (copyString quote rest).1 (copyString quote rest).2
  | [] => .unclosed .nil .nil
  | c :: rest => by
      by_cases hslash : c = '\\'
      · subst hslash
        cases rest with
        | nil => exact .cutOff .nil .nil
        | cons c rest =>
            rw [copyString_escape]
            refine (copied_copyString hquote rest).append IsBody.nil.escape ?_
            -- Between double quotes an apostrophe needs no backslash.
            split
            · next hapostrophe =>
                rw [hapostrophe.1]
                exact .plain (by decide) (by decide) .nil
            · exact .escape .nil
      · by_cases hclose : c = quote
        · subst hclose
          rw [copyString_close hquote]
          exact .closed .nil .nil
        · rw [copyString_raw hclose hslash]
          refine (copied_copyString hquote rest).append (IsBody.nil.plain hclose hslash) ?_
          split
          · exact .escape .nil
          · next hdouble => exact .plain hdouble hslash .nil
  termination_by rest => rest.length

theorem copied_of_eq (hquote : Text.isQuote quote = true)
    (hcopy : copyString quote rest = (copied, behind)) : Copied quote rest copied behind := by
  have hcopied := copied_copyString hquote rest
  rwa [hcopy] at hcopied

/-! ## One notion of a literal -/

/-- A string that is not closed is the last thing that the pass writes. -/
theorem normalizeFrom_unclosed (hquote : Text.isQuote quote = true)
    (hcopy : copyString quote rest = (copied, [])) (inWord : Bool) (last : Option Char) :
    normalizeFrom 0 inWord last (quote :: rest) = '"' :: copied := by
  obtain ⟨inWord', hskip⟩ := normalizeFrom_skip rest [] false (some '"')
  rw [List.append_nil] at hskip
  rw [normalizeFrom, if_pos hquote]
  simp only [hcopy, List.length_nil, Nat.sub_zero, hskip, normalizeFrom, List.append_nil]

/-- The pass writes a double quote and the copy, and goes on with what the copy has left. -/
theorem normalizeFrom_copyString (hquote : Text.isQuote quote = true)
    (hcopy : copyString quote rest = (copied, behind)) (inWord : Bool) (last : Option Char) :
    normalizeFrom 0 inWord last (quote :: rest) =
      '"' :: (copied ++ normalizeFrom 0 false (some '"') behind) := by
  cases copied_of_eq hquote hcopy with
  | closed hbody hwritten =>
      rw [normalizeFrom_copied hquote hcopy, List.append_assoc]
      rfl
  | unclosed hbody hwritten =>
      rw [normalizeFrom_unclosed hquote hcopy, normalizeFrom, List.append_nil]
  | cutOff hbody hwritten =>
      rw [normalizeFrom_unclosed hquote hcopy, normalizeFrom, List.append_nil]

/-- **Literals are copied whole.**  The copy of a string literal ends behind the first character
with which a scan of the text leaves the string, or at the end of the text when none does.
What the pass writes for it, the copy behind a double quote, is one string literal for a scan
as well, and it is closed when the original is; a literal is not closed and unclosed at once
(`IsLiteral.not_isUnclosed`). -/
theorem literals_copied_whole (hquote : Text.isQuote quote = true) (rest : List Char) :
    ∃ copied behind, copyString quote rest = (copied, behind) ∧
      (∀ inWord last, normalizeFrom 0 inWord last (quote :: rest) =
        '"' :: (copied ++ normalizeFrom 0 false (some '"') behind)) ∧
      ((∃ content written, rest = content ++ quote :: behind ∧ copied = written ++ ['"'] ∧
          IsLiteral quote content ∧ IsLiteral '"' written) ∨
        (behind = [] ∧ IsUnclosed quote rest ∧ IsUnclosed '"' copied)) := by
  rcases hcopy : copyString quote rest with ⟨copied, behind⟩
  refine ⟨copied, behind, rfl, normalizeFrom_copyString hquote hcopy, ?_⟩
  have hdouble : Text.isQuote '"' = true := rfl
  cases copied_of_eq hquote hcopy with
  | closed hbody hwritten =>
      exact Or.inl ⟨_, _, rfl, rfl, hbody.isLiteral hquote, hwritten.isLiteral hdouble⟩
  | unclosed hbody hwritten =>
      exact Or.inr ⟨rfl, hbody.isUnclosed hquote, hwritten.isUnclosed hdouble⟩
  | cutOff hbody hwritten =>
      exact Or.inr ⟨rfl, hbody.isUnclosed_backslash hquote, hwritten.isUnclosed_backslash hdouble⟩

/-- A literal in single quotes with both kinds of quotes in it, and a text behind it. -/
theorem literals_copied_whole_apostrophes :
    Text.isQuote '\'' = true ∧
      copyString '\'' "it\\'s \"so\"', 1".toList = ("it's \\\"so\\\"\"".toList, ", 1".toList) ∧
      IsLiteral '\'' "it\\'s \"so\"".toList ∧ IsLiteral '"' "it's \\\"so\\\"".toList := by
  have hquote : Text.isQuote '\'' = true := rfl
  obtain ⟨copied, behind, hcopy, -, hends⟩ :=
    literals_copied_whole hquote "it\\'s \"so\"', 1".toList
  obtain ⟨rfl, rfl⟩ := Prod.mk.inj hcopy
  rcases hends with ⟨content, written, hrest, hcopied, hliteral, hwritten⟩ | ⟨hbehind, -⟩
  · have hcontent : content = "it\\'s \"so\"".toList := (List.append_cancel_right hrest).symm
    have hsame : written = "it's \\\"so\\\"".toList := (List.append_cancel_right hcopied).symm
    rw [hcontent] at hliteral
    rw [hsame] at hwritten
    exact ⟨hquote, rfl, hliteral, hwritten⟩
  · cases hbehind

end DocShell.Literal
