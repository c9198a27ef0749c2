import DocShell.Text.Pieces
import Mathlib.Data.List.Basic
import Mathlib.Data.List.TakeWhile

/-!
# Trimming

What trimming takes away is blank, and what it leaves does not change when it is trimmed
again.  `Padded` says of two texts that one is the other with blanks around it; whatever
looks at trimmed text only cannot tell the two apart.
-/

namespace DocShell.Text

variable {text front rest : List Char}

/-- The text holds nothing but blanks. -/
def AllBlank (text : List Char) : Prop :=
  ∀ c ∈ text, isBlank c = true

instance (text : List Char) : Decidable (AllBlank text) :=
  decidable_of_iff (text.all isBlank = true) List.all_eq_true

/-- The second text is the first one with blanks around it. -/
def Padded (core text : List Char) : Prop :=
  ∃ lead trail, AllBlank lead ∧ AllBlank trail ∧ text = lead ++ (core ++ trail)

theorem allBlank_nil : AllBlank [] :=
  fun _ hc => nomatch hc

theorem AllBlank.append {first second : List Char} (hfirst : AllBlank first)
    (hsecond : AllBlank second) : AllBlank (first ++ second) :=
  fun c hc => (List.mem_append.mp hc).elim (hfirst c) (hsecond c)

/-! ## At the start -/

theorem exists_append_trimStart (text : List Char) :
    ∃ lead, AllBlank lead ∧ text = lead ++ trimStart text :=
  ⟨text.takeWhile isBlank, List.all_eq_true.mp List.all_takeWhile,
    List.takeWhile_append_dropWhile.symm⟩

theorem isBlank_of_trimStart_eq_cons {c : Char} (htrim : trimStart text = c :: rest) :
    isBlank c = false := by
  have hhead := List.head?_dropWhile_not isBlank text
  rw [trimStart] at htrim
  simpa [htrim] using hhead

/-- In front of a character that stays, the start is trimmed on its own. -/
theorem trimStart_append_cons {c : Char} (hc : isBlank c = false) (front rest : List Char) :
    trimStart (front ++ c :: rest) = trimStart front ++ c :: rest := by
  obtain ⟨gap, hgap, hfront⟩ := exists_append_trimStart front
  cases hstart : trimStart front with
  | nil =>
      rw [hstart, List.append_nil] at hfront
      rw [hfront, trimStart_append hgap, trimStart_cons hc]
      rfl
  | cons d more =>
      have hd : isBlank d = false := isBlank_of_trimStart_eq_cons hstart
      rw [hfront, hstart, List.append_assoc, trimStart_append hgap, List.cons_append,
        trimStart_cons hd]

/-! ## At the end -/

/-- Behind a character that stays, the end is trimmed on its own. -/
theorem trimEndWhile_append_cons {drop : Char → Bool} {c : Char} (hc : drop c = false)
    (front rest : List Char) :
    trimEndWhile drop (front ++ c :: rest) = front ++ c :: trimEndWhile drop rest := by
  induction front with
  | nil => exact trimEndWhile_cons hc rest
  | cons d front ih =>
      rw [List.cons_append, trimEndWhile, ih]
      cases front <;> rfl

theorem exists_append_trimEndWhile (drop : Char → Bool) (text : List Char) :
    ∃ trail, (∀ c ∈ trail, drop c = true) ∧ text = trimEndWhile drop text ++ trail := by
  induction text with
  | nil => exact ⟨[], by simp, rfl⟩
  | cons c text ih =>
      obtain ⟨trail, htrail, htext⟩ := ih
      rw [trimEndWhile]
      cases hkept : trimEndWhile drop text with
      | cons d kept => exact ⟨trail, htrail, by rw [hkept] at htext; simp [← htext]⟩
      | nil =>
          cases hc : drop c with
          | false => exact ⟨trail, htrail, by rw [hkept] at htext; simp [htext]⟩
          | true =>
              rw [hkept, List.nil_append] at htext
              refine ⟨c :: text, ?_, rfl⟩
              rw [htext]
              simpa [hc] using htrail

/-- What stands in front of all that is trimmed away stays. -/
theorem trimEndWhile_behind {drop : Char → Bool} {kept trail : List Char} (front : List Char)
    (hne : kept ≠ []) (hkept : ∀ c ∈ kept, drop c = false) (htrail : ∀ c ∈ trail, drop c = true) :
    trimEndWhile drop (front ++ (kept ++ trail)) = front ++ kept := by
  rw [← List.append_assoc, trimEndWhile_append htrail, trimEndWhile_of_last]
  intro c hc
  rw [List.getLast?_append_of_ne_nil front hne] at hc
  exact hkept c (List.mem_of_getLast? hc)

/-- What is left does not end with what is trimmed away. -/
theorem drop_of_getLast?_trimEndWhile {drop : Char → Bool} {c : Char}
    (hlast : (trimEndWhile drop text).getLast? = some c) : drop c = false := by
  induction text with
  | nil => cases hlast
  | cons d text ih =>
      rw [trimEndWhile] at hlast
      cases hkept : trimEndWhile drop text with
      | cons e kept =>
          simp only [hkept, List.getLast?_cons_cons] at hlast
          rw [hkept] at ih
          exact ih hlast
      | nil =>
          cases hd : drop d with
          | true => simp [hkept, hd] at hlast
          | false =>
              obtain rfl : d = c := by simpa [hkept, hd] using hlast
              exact hd

/-- Trimming less first does not matter. -/
theorem trimEndWhile_trimEndWhile {drop fewer : Char → Bool}
    (hfewer : ∀ c, fewer c = true → drop c = true) (text : List Char) :
    trimEndWhile drop (trimEndWhile fewer text) = trimEndWhile drop text := by
  obtain ⟨trail, htrail, htext⟩ := exists_append_trimEndWhile fewer text
  calc trimEndWhile drop (trimEndWhile fewer text)
      = trimEndWhile drop (trimEndWhile fewer text ++ trail) :=
        (trimEndWhile_append (fun c hc => hfewer c (htrail c hc)) _).symm
    _ = trimEndWhile drop text := by rw [← htext]

/-! ## At both ends -/

theorem padded_refl (text : List Char) : Padded text text :=
  ⟨[], [], allBlank_nil, allBlank_nil, by simp⟩

theorem padded_trimStart (text : List Char) : Padded (trimStart text) text := by
  obtain ⟨lead, hlead, htext⟩ := exists_append_trimStart text
  exact ⟨lead, [], hlead, allBlank_nil, by rwa [List.append_nil]⟩

theorem padded_trim (text : List Char) : Padded (trim text) text := by
  obtain ⟨lead, hlead, htext⟩ := exists_append_trimStart text
  obtain ⟨trail, htrail, hstart⟩ := exists_append_trimEndWhile isBlank (trimStart text)
  exact ⟨lead, trail, hlead, htrail, htext.trans (congrArg (lead ++ ·) hstart)⟩

theorem trimStart_eq_nil_iff : trimStart text = [] ↔ AllBlank text :=
  List.dropWhile_eq_nil_iff

theorem trim_eq_nil_iff : trim text = [] ↔ AllBlank text := by
  constructor
  · intro hempty
    obtain ⟨lead, trail, hlead, htrail, htext⟩ := padded_trim text
    rw [hempty, List.nil_append] at htext
    rw [htext]
    exact hlead.append htrail
  · intro hblank
    rw [trim, trimStart_eq_nil_iff.mpr hblank]
    rfl

/-- What looks at trimmed text does not see the blanks around it. -/
theorem Padded.trim_eq {core : List Char} (hpadded : Padded core text) :
    trim text = trim core := by
  obtain ⟨lead, trail, hlead, htrail, rfl⟩ := hpadded
  rw [trim, trimStart_append hlead, trim]
  cases hcore : trimStart core with
  | nil =>
      have hall : AllBlank core := trimStart_eq_nil_iff.mp hcore
      rw [trimStart_append hall, trimStart_eq_nil_iff.mpr htrail]
  | cons c rest =>
      have hstart : trimStart (core ++ trail) = c :: rest ++ trail := by
        obtain ⟨gap, hgap, htext⟩ := exists_append_trimStart core
        have hc : isBlank c = false := isBlank_of_trimStart_eq_cons hcore
        rw [htext, hcore, List.append_assoc, trimStart_append hgap, List.cons_append,
          trimStart_cons hc]
      rw [hstart]
      exact trimEndWhile_append htrail _

/-- It does not matter which end is trimmed first. -/
theorem trimStart_trimEndWhile (drop : Char → Bool) (text : List Char) :
    trimStart (trimEndWhile drop text) = trimEndWhile drop (trimStart text) := by
  induction text with
  | nil => rfl
  | cons c rest ih =>
      have hblank (more : List Char) (hc : isBlank c = true) :
          trimStart (c :: more) = trimStart more := List.dropWhile_cons_of_pos hc
      rw [trimEndWhile]
      cases hc : isBlank c with
      | true =>
          rw [hblank rest hc, ← ih]
          cases trimEndWhile drop rest with
          | nil => cases drop c <;> simp [hblank, hc]
          | cons d kept => exact hblank _ hc
      | false =>
          rw [trimStart_cons hc, trimEndWhile]
          cases trimEndWhile drop rest with
          | nil => cases drop c <;> simp [trimStart, hc]
          | cons d kept => exact trimStart_cons hc _

theorem trimStart_trimEnd (text : List Char) : trimStart (trimEnd text) = trim text :=
  trimStart_trimEndWhile isBlank text

theorem trim_trim (text : List Char) : trim (trim text) = trim text :=
  (padded_trim text).trim_eq.symm

end DocShell.Text
