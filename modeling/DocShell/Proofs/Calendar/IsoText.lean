import DocShell.Calendar.Text
import DocShell.Proofs.Calendar.Days
import DocShell.Proofs.Text.Trimming
import DocShell.Value.Extended
import DocShell.Value.Plain

/-!
# Instants through their text

An instant whose year has four digits is shown in its ISO form, and that text read as a `$date`
is the instant again (`dates_read_back`).

## Strategy

The form with an offset is tried first, and it takes the text apart piece by piece.

* A number of fixed width is taken back from the front of any text (`exactly_fixed`).
* Trailing zeros of the fraction are not written, and are put back before it is read
  (`readFraction_written`).
* So the pieces of a valid moment are its fields (`offsetForm?_iso`), and every instant has such
  a moment.
-/

namespace DocShell.Calendar

variable {rest : List Char}

/-! ## Numbers of fixed width -/

section Fixed

variable {width : Nat} {n : Int}

theorem isDigit_of_mem_fixed {c : Char} (hc : c ∈ fixed width n) : c.isDigit = true := by
  rcases List.mem_append.mp hc with hzero | hdigit
  · rw [List.eq_of_mem_replicate hzero]
    rfl
  · exact Nat.isDigit_of_mem_toDigits (by decide) (by decide) hdigit

theorem length_fixed (hwidth : 0 < width) (hlt : n.natAbs < Nat.pow 10 width) :
    (fixed width n).length = width := by
  have hdigits : (Text.natDigits n.natAbs).length ≤ width :=
    (Nat.length_toDigits_le_iff (by decide) hwidth).mpr hlt
  rw [fixed, Text.padded, List.length_leftpad]
  omega

theorem natOfDigits_fixed (hn : 0 ≤ n) : (Text.natOfDigits (fixed width n) : Int) = n := by
  rw [fixed, Text.padded, List.leftpad, Text.natOfDigits, Nat.ofDigitChars_append,
    Nat.ofDigitChars_replicate_zero, Nat.mul_zero]
  have hvalue : Nat.ofDigitChars 10 (Text.natDigits n.natAbs) 0 = n.natAbs :=
    Nat.ofDigitChars_ten_toDigits
  omega

/-- A number in a field of fixed width is read back from in front of any text. -/
theorem exactly_fixed (hwidth : 0 < width) (hn : 0 ≤ n) (hlt : n.natAbs < Nat.pow 10 width)
    (rest : List Char) : exactly width (fixed width n ++ rest) = some (n, rest) := by
  have hlength := length_fixed hwidth hlt
  have hdigits : (fixed width n).all Char.isDigit = true :=
    List.all_eq_true.mpr fun c hc => isDigit_of_mem_fixed hc
  rw [exactly, List.take_left' hlength, List.drop_left' hlength]
  simp only [hlength, hdigits, natOfDigits_fixed hn, and_self, if_true]

end Fixed

/-! ## Fractions -/

section Fraction

variable {milli : Int}

theorem exists_zeros (milli : Int) :
    ∃ count, fixed 3 milli = fraction milli ++ List.replicate count '0' := by
  obtain ⟨zeros, hzeros, hfixed⟩ := Text.exists_append_trimEndWhile (· == '0') (fixed 3 milli)
  refine ⟨zeros.length, hfixed.trans ?_⟩
  rw [← List.eq_replicate_of_mem fun c hc => by simpa using hzeros c hc]
  rfl

/-- What is written of a fraction, with zeros behind it, is all three digits. -/
theorem thousandths_fraction (hlow : 0 < milli) (hhigh : milli ≤ 999) :
    fraction milli ≠ [] ∧ (fraction milli ++ ['0', '0']).take 3 = fixed 3 milli := by
  obtain ⟨count, hfixed⟩ := exists_zeros milli
  have hlt : milli.natAbs < Nat.pow 10 3 := Nat.lt_of_le_of_lt (m := 999) (by omega) (by decide)
  have hthree : (fixed 3 milli).length = 3 := length_fixed (by decide) hlt
  have hsome : fraction milli ≠ [] := by
    intro hempty
    have hvalue : (Text.natOfDigits (fixed 3 milli) : Int) = milli :=
      natOfDigits_fixed (by omega)
    rw [hfixed, hempty, List.nil_append, Text.natOfDigits,
      Nat.ofDigitChars_replicate_zero] at hvalue
    omega
  have hcount : count ≤ 2 := by
    have hpos := List.length_pos_iff.mpr hsome
    rw [hfixed, List.length_append, List.length_replicate] at hthree
    omega
  -- The zeros that were dropped are the first of those that are put back.
  have hzeros : ['0', '0'] = List.replicate count '0' ++ List.replicate (2 - count) '0' := by
    rw [List.replicate_append_replicate, Nat.add_sub_cancel' hcount]
    rfl
  refine ⟨hsome, ?_⟩
  rw [hzeros, ← List.append_assoc, ← hfixed, List.take_left' hthree]

/-- A fraction of a second is read back from in front of the mark for UTC. -/
theorem readFraction_written (hlow : 0 ≤ milli) (hhigh : milli ≤ 999) :
    readFraction ((if milli = 0 then [] else '.' :: fraction milli) ++ ['Z']) =
      some (milli, ['Z']) := by
  by_cases hzero : milli = 0
  · subst hzero
    rfl
  · obtain ⟨hsome, hdigits⟩ := thousandths_fraction (by omega) hhigh
    have hall : ∀ c ∈ fraction milli, c.isDigit = true := by
      intro c hc
      obtain ⟨count, hfixed⟩ := exists_zeros milli
      have hmem : c ∈ fixed 3 milli := hfixed ▸ List.mem_append_left _ hc
      exact isDigit_of_mem_fixed hmem
    have hrun : (fraction milli ++ ['Z']).takeWhile Char.isDigit = fraction milli := by
      rw [List.takeWhile_append_of_pos hall]
      simp
    rw [if_neg hzero, List.cons_append, readFraction]
    simp only [hrun, hdigits, natOfDigits_fixed hlow, List.isEmpty_eq_false_iff.mpr hsome,
      List.drop_left]
    rfl

end Fraction

/-! ## The ISO form -/

theorem expect_cons (c : Char) (rest : List Char) : expect c (c :: rest) = some rest :=
  if_pos (beq_self_eq_true c)

/-- A valid moment in a year of four digits is read back field by field. -/
theorem offsetForm?_iso {m : Moment} (hvalid : m.isValid = true) (hfirst : 0 ≤ m.date.year)
    (hlast : m.date.year ≤ 9999) : offsetForm? m.iso = some m.toMillis := by
  have hfields := hvalid
  simp only [Moment.isValid, Date.isValid, Bool.and_eq_true, decide_eq_true_eq] at hfields
  have hlength : monthLength m.date.year m.date.month ≤ 31 := by
    unfold monthLength
    repeat' split
    all_goals omega
  have htwo {n : Int} (hn : 0 ≤ n) (hlt : n ≤ 99) (rest : List Char) :
      exactly 2 (fixed 2 n ++ rest) = some (n, rest) :=
    exactly_fixed (by decide) hn (Nat.lt_of_le_of_lt (m := 99) (by omega) (by decide)) rest
  have hyear (rest : List Char) : exactly 4 (fixed 4 m.date.year ++ rest) = some (_, rest) :=
    exactly_fixed (by decide) hfirst (Nat.lt_of_le_of_lt (m := 9999) (by omega) (by decide)) rest
  have hmonth := @htwo m.date.month (by omega) (by omega)
  have hday := @htwo m.date.day (by omega) (by omega)
  have hhour := @htwo m.hour (by omega) (by omega)
  have hminute := @htwo m.minute (by omega) (by omega)
  have hsecond := @htwo m.second (by omega) (by omega)
  have hmilli := @readFraction_written m.milli (by omega) (by omega)
  have hoffset : readOffset ['Z'] = some 0 := rfl
  unfold offsetForm? Moment.iso
  simp only [List.append_assoc, List.cons_append, Option.bind_eq_bind, hyear, Option.bind_some,
    expect_cons, hmonth, hday, Option.orElse_some, hhour, hminute, hsecond, hmilli, hoffset, hvalid,
    if_true, Int.sub_zero]

theorem read?_iso {m : Moment} (hvalid : m.isValid = true) (hfirst : 0 ≤ m.date.year)
    (hlast : m.date.year ≤ 9999) : read? m.iso = some m.toMillis := by
  rw [read?, offsetForm?_iso hvalid hfirst hlast]
  rfl

/-- **Instants that are shown can be read back.**  An instant whose year has four digits is
shown in its ISO form, and a `$date` of that text is the instant again, to the millisecond. -/
theorem dates_read_back (t : Int64) (hfirst : 0 ≤ (Moment.ofMillis t.toInt).date.year)
    (hlast : (Moment.ofMillis t.toInt).date.year ≤ 9999) :
    isoText t.toInt = String.ofList (Moment.ofMillis t.toInt).iso ∧
      Value.toJson (.dateTime t) = .string (isoText t.toInt) ∧
      Value.ofExtended (.object [("$date", .string (isoText t.toInt))]) = .ok (.dateTime t) := by
  have htext : isoText t.toInt = String.ofList (Moment.ofMillis t.toInt).iso := by
    rw [isoText, isoText?, if_pos ⟨hfirst, hlast⟩, Option.getD_some]
  have hread : read? (isoText t.toInt).toList = some t.toInt := by
    rw [htext, String.toList_ofList,
      read?_iso (Moment.isValid_ofMillis _) hfirst hlast, Moment.toMillis_ofMillis]
  refine ⟨htext, by rw [Value.toJson], ?_⟩
  simp [Value.ofExtended, Value.ofWrapper, Fields.get?, Value.instantPayload, hread, Except.map]

/-- A leap day of a century, before 1970, with a zero at the end of the fraction. -/
theorem dates_read_back_leap_day :
    isoText (-11670912000950) = "1600-02-29T23:59:59.05Z" ∧
      Value.ofExtended (.object [("$date", .string "1600-02-29T23:59:59.05Z")]) =
        .ok (.dateTime (-11670912000950)) := by
  obtain ⟨-, -, hread⟩ := dates_read_back (-11670912000950) (by decide) (by decide)
  have htext : isoText (Int64.toInt (-11670912000950)) = "1600-02-29T23:59:59.05Z" := by decide
  rw [htext] at hread
  exact ⟨htext, hread⟩

end DocShell.Calendar
