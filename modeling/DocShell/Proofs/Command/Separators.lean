import DocShell.Proofs.Call.Grammar
import DocShell.Proofs.Command.Routing
import Mathlib.Data.List.Induction

/-!
# Separators at the end of a line

Blanks and semicolons may stand behind a command, in any number: `show dbs ;;` is `show dbs`.
But they are taken away in three passes, blanks, semicolons and blanks again, so a semicolon
stays if the end of the line has blanks between its semicolons.  No command ends with a
semicolon, and such a line is refused whatever stands in front (`trailing_separators`,
`separators_apart`).

## Strategy

* The three passes take away all separators, unless they leave a semicolon at the end
  (`bareEnd_of_getLast?`).
* They leave one if the end of the line is `Scattered` (`getLast?_bareEnd_iff`), and one more
  separator leaves it so (`Scattered.concat`).
* What is understood ends with a word or with a parenthesis (`getLast?_bare_of_read`).
-/

namespace DocShell.Command

open Text (AllBlank)

variable {current : Option String} {command : Command} {text more : List Char}

/-- What may stand behind a command. -/
def isSeparator (c : Char) : Bool :=
  Text.isBlank c || c == ';'

/-- The end of the text is a semicolon, blanks, and semicolons again, maybe with blanks behind
them. -/
def Scattered (text : List Char) : Prop :=
  ∃ front gap semicolons trail, AllBlank gap ∧ gap ≠ [] ∧ (∀ c ∈ semicolons, c = ';') ∧
    semicolons ≠ [] ∧ AllBlank trail ∧ text = front ++ ';' :: (gap ++ (semicolons ++ trail))

/-! ## What the three passes leave -/

/-- A line loses its blanks in front and the separators at its end independently. -/
theorem bare_eq (line : List Char) : bare line = Text.trimStart (bareEnd line) :=
  let inner := Text.trimEndWhile (· == ';') (Text.trimEnd line)
  calc bare line
      = Text.trim (Text.trimEndWhile (· == ';') (Text.trimStart (Text.trimEnd line))) := by
        rw [bare, Text.trimStart_trimEnd]
    _ = Text.trim (Text.trimStart inner) := by rw [Text.trimStart_trimEndWhile]
    _ = Text.trim inner := (Text.padded_trimStart inner).trim_eq.symm
    _ = Text.trimStart (bareEnd line) := (Text.trimStart_trimEnd inner).symm

theorem trimEndWhile_bareEnd (text : List Char) :
    Text.trimEndWhile isSeparator (bareEnd text) = Text.trimEndWhile isSeparator text := by
  have hblank : ∀ c, Text.isBlank c = true → isSeparator c = true := by
    intro c hc
    simp [isSeparator, hc]
  have hsemicolon : ∀ c, (c == ';') = true → isSeparator c = true := by
    intro c hc
    simp [isSeparator, hc]
  rw [bareEnd, Text.trimEnd, Text.trimEndWhile_trimEndWhile hblank,
    Text.trimEndWhile_trimEndWhile hsemicolon, Text.trimEnd, Text.trimEndWhile_trimEndWhile hblank]

/-- Without a semicolon at the end of what is left, no separator is. -/
theorem bareEnd_of_getLast? (hlast : (bareEnd text).getLast? ≠ some ';') :
    bareEnd text = Text.trimEndWhile isSeparator text := by
  rw [← trimEndWhile_bareEnd, Text.trimEndWhile_of_last]
  intro c hc
  have hblank : Text.isBlank c = false := Text.drop_of_getLast?_trimEndWhile hc
  have hne : c ≠ ';' := by
    rintro rfl
    exact hlast hc
  simp [isSeparator, hblank, hne]

/-! ## Scattered ends -/

theorem scattered_of_getLast? (hlast : (bareEnd text).getLast? = some ';') : Scattered text := by
  obtain ⟨front, hfront⟩ := List.getLast?_eq_some_iff.mp hlast
  obtain ⟨trail, htrail, htext⟩ := Text.exists_append_trimEndWhile Text.isBlank text
  obtain ⟨semicolons, hsemicolons, hinner⟩ :=
    Text.exists_append_trimEndWhile (· == ';') (Text.trimEnd text)
  obtain ⟨gap, hgap, hkept⟩ := Text.exists_append_trimEndWhile Text.isBlank
    (Text.trimEndWhile (· == ';') (Text.trimEnd text))
  rw [← Text.trimEnd, ← bareEnd, hfront, List.append_assoc, List.singleton_append] at hkept
  rw [hkept] at hinner
  -- Each pass goes on to a character that it does not take away.
  have hgapne : gap ≠ [] := by
    rintro rfl
    have hend : (Text.trimEndWhile (· == ';') (Text.trimEnd text)).getLast? = some ';' := by
      rw [hkept, List.getLast?_concat]
    exact absurd (Text.drop_of_getLast?_trimEndWhile hend) (by decide)
  have hne : semicolons ≠ [] := by
    rintro rfl
    obtain ⟨before, c, rfl⟩ := (List.eq_nil_or_concat gap).resolve_left hgapne
    have hend : (Text.trimEnd text).getLast? = some c := by
      rw [hinner, List.append_nil, List.concat_eq_append, ← List.cons_append, ← List.append_assoc,
        List.getLast?_concat]
    exact absurd (hgap c (by simp)) (by simp [Text.drop_of_getLast?_trimEndWhile hend])
  refine ⟨front, gap, semicolons, trail, hgap, hgapne, by simpa using hsemicolons, hne, htrail, ?_⟩
  calc text = Text.trimEnd text ++ trail := htext
    _ = front ++ ';' :: gap ++ semicolons ++ trail := by rw [hinner]
    _ = front ++ ';' :: (gap ++ (semicolons ++ trail)) := by simp

theorem Scattered.exists_bareEnd (hscattered : Scattered text) :
    ∃ front, bareEnd text = front ++ [';'] := by
  obtain ⟨front, gap, semicolons, trail, hgap, hgapne, hsemicolons, hne, htrail, rfl⟩ := hscattered
  have houter : Text.trimEnd (front ++ ';' :: (gap ++ (semicolons ++ trail))) =
      front ++ ';' :: (gap ++ semicolons) := by
    have hkept := Text.trimEndWhile_behind (front ++ ';' :: gap) hne
      (fun c hc => hsemicolons c hc ▸ by decide) htrail
    simpa [Text.trimEnd] using hkept
  have hinner : Text.trimEndWhile (· == ';') (front ++ ';' :: (gap ++ semicolons)) =
      front ++ ';' :: gap := by
    have hblank : ∀ c ∈ gap, (c == ';') = false := by
      intro c hc
      rw [beq_eq_false_iff_ne]
      rintro rfl
      exact absurd (hgap _ hc) (by decide)
    have hkept := Text.trimEndWhile_behind (front ++ [';']) hgapne hblank
      (by simpa using hsemicolons)
    simpa using hkept
  have hkept : Text.trimEnd (front ++ ';' :: gap) = front ++ [';'] := by
    rw [Text.trimEnd, Text.trimEndWhile_append_cons (by decide), Text.trimEndWhile_of_all hgap]
  exact ⟨front, by rw [bareEnd, houter, hinner, hkept]⟩

theorem getLast?_bareEnd_iff : (bareEnd text).getLast? = some ';' ↔ Scattered text := by
  refine ⟨scattered_of_getLast?, fun hscattered => ?_⟩
  obtain ⟨front, hfront⟩ := hscattered.exists_bareEnd
  rw [hfront, List.getLast?_concat]

instance (text : List Char) : Decidable (Scattered text) :=
  decidable_of_iff _ getLast?_bareEnd_iff

/-- One more separator at the end only makes the end longer. -/
theorem Scattered.concat (hscattered : Scattered text) {c : Char} (hc : isSeparator c = true) :
    Scattered (text ++ [c]) := by
  obtain ⟨front, gap, semicolons, trail, hgap, hgapne, hsemicolons, hne, htrail, rfl⟩ := hscattered
  simp only [isSeparator, Bool.or_eq_true, beq_iff_eq] at hc
  rcases hc with hblank | rfl
  · exact ⟨front, gap, semicolons, trail ++ [c], hgap, hgapne, hsemicolons, hne,
      htrail.append (by simpa [AllBlank] using hblank), by simp⟩
  · cases trail with
    | nil =>
        refine ⟨front, gap, semicolons ++ [';'], [], hgap, hgapne, ?_, by simp,
          Text.allBlank_nil, by simp⟩
        simpa [or_imp, forall_and] using hsemicolons
    | cons blank trail =>
        -- The blanks at the end now lie between two semicolons, and so become the gap.
        obtain ⟨others, last, rfl⟩ := (List.eq_nil_or_concat semicolons).resolve_left hne
        obtain rfl : last = ';' := hsemicolons last (by simp)
        exact ⟨front ++ ';' :: (gap ++ others), blank :: trail, [';'], [], htrail, by simp,
          by simp, by simp, Text.allBlank_nil, by simp⟩

theorem Scattered.append (hscattered : Scattered text)
    (hmore : ∀ c ∈ more, isSeparator c = true) : Scattered (text ++ more) := by
  induction more using List.reverseRecOn with
  | nil => rwa [List.append_nil]
  | append_singleton more c ih =>
      rw [List.forall_mem_append, List.forall_mem_singleton] at hmore
      rw [← List.append_assoc]
      exact (ih hmore.1).concat hmore.2

/-! ## The end of what is understood -/

theorem exists_paren_of_checkEmptyCall {call : List Char} (hcheck : checkEmptyCall call = .ok ()) :
    ∃ inner trail, AllBlank trail ∧ call = inner ++ ')' :: trail := by
  unfold checkEmptyCall at hcheck
  split at hcheck
  · cases hcheck
  · next inside behind hsplit =>
      split at hcheck
      · next hempty =>
          simp only [Bool.and_eq_true, List.isEmpty_iff, Text.trim_eq_nil_iff] at hempty
          exact ⟨'(' :: inside, behind, hempty.2, (Text.of_splitParen hsplit).1⟩
      · cases hcheck

theorem exists_paren_of_ofChain {ns : Namespace} (hread : ofChain ns text = .ok command) :
    ∃ inner trail, AllBlank trail ∧ text = inner ++ ')' :: trail := by
  obtain ⟨calls, hcalls, -⟩ := exists_chain_of_ofChain hread
  obtain ⟨lead, name, gap, inner, trail, -, -, -, -, htrail, htext⟩ :=
    Chain.exists_ends_of_read hcalls
  exact ⟨lead ++ (name ++ (gap ++ '(' :: inner)), trail, htrail, by simp [htext]⟩

/-- Whatever the command, what its reference is read from ends with a parenthesis. -/
theorem exists_paren_of_ofReference {reference : Reference}
    (hreference : Reference.read? text = some reference)
    (hread : ofReference current reference = .ok command) :
    ∃ inner trail, AllBlank trail ∧ text = inner ++ ')' :: trail := by
  obtain ⟨front, name, arguments, rfl, hother⟩ := Reference.exists_front_of_read? hreference
  have hself := Option.some.inj (hreference.symm.trans (hother arguments))
  have hchain : reference.chain = name ++ '(' :: arguments := congrArg Reference.chain hself
  have harguments : reference.arguments = '(' :: arguments := congrArg Reference.arguments hself
  unfold ofReference at hread
  split at hread
  · unfold ofListing at hread
    split at hread
    · cases hread
    · next hcheck =>
        obtain ⟨inner, trail, htrail, hend⟩ := exists_paren_of_checkEmptyCall hcheck
        rw [harguments] at hend
        exact ⟨front ++ (name ++ inner), trail, htrail, by simp only [hend, List.append_assoc]⟩
  · have hends : ∀ {ns}, ofChain ns reference.chain = .ok command →
        ∃ inner trail, AllBlank trail ∧ front ++ (name ++ '(' :: arguments) =
          inner ++ ')' :: trail := by
      intro ns hread
      obtain ⟨inner, trail, htrail, hend⟩ := exists_paren_of_ofChain hread
      rw [hchain] at hend
      exact ⟨front ++ inner, trail, htrail, by rw [hend, List.append_assoc]⟩
    split at hread
    · simp [unknown] at hread
    · split at hread
      · exact hends hread
      · simp [databaseRequired] at hread
    · exact hends hread

/-- A line that is understood keeps no semicolon at its end. -/
theorem getLast?_bare_of_read {line : String} (hread : read line current = .ok command) :
    (bare line.toList).getLast? ≠ some ';' := by
  intro hlast
  unfold read at hread
  simp only at hread
  split at hread
  · cases hread
  · split at hread
    · next outcome hwords =>
        subst hread
        have hmem := List.mem_of_getLast? hlast
        exact absurd (isNameChar_of_ofWords hwords (by decide) hmem) (by decide)
    · split at hread
      · simp [unknown] at hread
      · next rest hrest =>
          split at hread
          · next reference hreference =>
              obtain ⟨inner, trail, htrail, rfl⟩ := exists_paren_of_ofReference hreference hread
              rw [Text.behind?_eq_some_iff.mp hrest, ← List.append_assoc,
                List.getLast?_append_cons] at hlast
              rcases List.mem_cons.mp (List.mem_of_getLast? hlast) with hparen | hblank
              · exact absurd hparen (by decide)
              · exact absurd (htrail _ hblank) (by decide)
          · simp [unknown] at hread

theorem read_congr {line other : String} (hbare : bare line.toList = bare other.toList) :
    read line current = read other current := by
  simp only [read, hbare]

/-- **Trailing separators.**  Blanks and semicolons at the end of a line make no difference,
unless its semicolons then have blanks between them; such a line is refused. -/
theorem trailing_separators (line separators : String) (current : Option String)
    (hseparators : ∀ c ∈ separators.toList, isSeparator c = true) :
    (¬ Scattered (line ++ separators).toList →
      read (line ++ separators) current = read line current) ∧
    (Scattered (line ++ separators).toList →
      ∃ failure, read (line ++ separators) current = .error failure) := by
  rw [String.toList_append]
  constructor
  · intro hnot
    -- Separators behind a scattered end leave it scattered, so the line's own end is not.
    have hline : ¬ Scattered line.toList := fun hline => hnot (hline.append hseparators)
    have hkept {text : List Char} (hnot : ¬ Scattered text) :=
      bareEnd_of_getLast? (mt getLast?_bareEnd_iff.mp hnot)
    refine read_congr ?_
    rw [bare_eq, bare_eq, String.toList_append, hkept hnot, hkept hline,
      Text.trimEndWhile_append hseparators]
  · intro hscattered
    obtain ⟨front, hfront⟩ := hscattered.exists_bareEnd
    have hlast : (bare (line ++ separators).toList).getLast? = some ';' := by
      rw [bare_eq, String.toList_append, hfront, Text.trimStart_append_cons (by decide),
        List.getLast?_concat]
    cases hread : read (line ++ separators) current with
    | ok command => exact absurd hlast (getLast?_bare_of_read hread)
    | error failure => exact ⟨failure, rfl⟩

/-- Blanks may stand on both sides of the semicolons, but not between them. -/
theorem trailing_separators_one_run :
    read ("use shop ;" ++ ";; \t") (some "stock") = read "use shop ;" (some "stock") ∧
      ∃ failure, read ("use shop ;" ++ " ;") (some "stock") = .error failure :=
  ⟨(trailing_separators _ ";; \t" _ (List.all_eq_true.mp rfl)).1 (by decide),
    (trailing_separators _ " ;" _ (List.all_eq_true.mp rfl)).2 (by decide)⟩

/-- With a blank between two semicolons, `show dbs` is a command that is not known. -/
theorem separators_apart :
    (∀ c ∈ "; ;".toList, isSeparator c = true) ∧
      read "show dbs" none = .ok .showDatabases ∧
      read ("show dbs" ++ "; ;") none = unknown none ∧
      read ("show dbs" ++ "; ;") none ≠ read "show dbs" none := by
  have hshow : read "show dbs" none = .ok .showDatabases := by rfl
  have hunknown : read ("show dbs" ++ "; ;") none = unknown none := by rfl
  refine ⟨List.all_eq_true.mp rfl, hshow, hunknown, ?_⟩
  rw [hshow, hunknown]
  simp [unknown]

end DocShell.Command
