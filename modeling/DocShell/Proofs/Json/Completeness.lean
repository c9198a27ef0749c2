import DocShell.Proofs.Literal.Grammar

/-!
# What is written is read

The JSON reader accepts every text that the strict style of `Literal.Written`
allows, and gives back the value that was written.  Each reader is shown to take
exactly the text of its own piece and to leave what stands behind it, so the
proofs follow the shape of the written text; the value readers need to know only
that something that can follow a value does follow (`Literal.Closes`).

The depth of a value counts the arrays and objects around its deepest part, which
is what the reader limits.
-/

namespace DocShell.Json

open Literal (IsGap Spells Closes OpensValue Written WrittenItems WrittenMember WrittenMembers)

/-! ### Blanks -/

theorem skipSpace_cons {c : Char} {rest : List Char} (hc : isSpace c = false) :
    skipSpace (c :: rest) = c :: rest := by
  simp [skipSpace, hc]

theorem skipSpace_append {gap rest : List Char} (hgap : IsGap gap) :
    skipSpace (gap ++ rest) = skipSpace rest :=
  List.dropWhile_append_of_pos hgap

/-- A gap in front of a character that is not blank is what the reader skips. -/
theorem skipSpace_gap {gap rest : List Char} {c : Char} (hgap : IsGap gap)
    (hc : isSpace c = false) : skipSpace (gap ++ c :: rest) = c :: rest := by
  rw [skipSpace_append hgap, skipSpace_cons hc]

theorem skipSpace_written {value : Json} {lead text : List Char} (hlead : IsGap lead)
    (hwritten : Written .json value text) (rest : List Char) :
    skipSpace (lead ++ (text ++ rest)) = text ++ rest := by
  obtain ⟨c, more, rfl, hopens⟩ := hwritten.head
  exact skipSpace_gap hlead hopens.isSpace_eq

theorem eq_cons_of_member {member : String × Json} {text : List Char}
    (hmember : WrittenMember .json member text) : ∃ more, text = '"' :: more := by
  obtain ⟨hkey, -, -, -⟩ := hmember
  cases hkey with
  | quoted hquote =>
      rcases hquote with rfl | ⟨hstyle, -⟩
      · exact ⟨_, rfl⟩
      · contradiction
  | bare hstyle => contradiction

theorem skipSpace_member {member : String × Json} {lead text : List Char} (hlead : IsGap lead)
    (hmember : WrittenMember .json member text) (rest : List Char) :
    skipSpace (lead ++ (text ++ rest)) = text ++ rest := by
  obtain ⟨more, rfl⟩ := eq_cons_of_member hmember
  exact skipSpace_gap hlead (by decide)

/-- Written items start with a value, so the reader does not take them for the end of
the array. -/
theorem skipSpace_items {items : List Json} {text : List Char}
    (hitems : WrittenItems .json items text) (rest : List Char) :
    ∃ c more, skipSpace (text ++ rest) = c :: more ∧ c ≠ ']' := by
  have hhead : ∃ lead item front behind, IsGap lead ∧ Written .json item front ∧
      text = lead ++ (front ++ behind) := by
    cases hitems with
    | last hlead hitem htrail => exact ⟨_, _, _, _, hlead, hitem, rfl⟩
    | more hlead hitem htrail hmore => exact ⟨_, _, _, _, hlead, hitem, rfl⟩
  obtain ⟨lead, item, front, behind, hlead, hitem, rfl⟩ := hhead
  obtain ⟨c, more, hfront, hopens⟩ := hitem.head
  refine ⟨c, more ++ (behind ++ rest), ?_, ?_⟩
  · simp only [List.append_assoc]
    rw [skipSpace_written hlead hitem, hfront, List.cons_append]
  · rintro rfl
    rcases hopens with hopens | hopens <;> simp at hopens

theorem skipSpace_members {members : List (String × Json)} {text : List Char}
    (hmembers : WrittenMembers .json members text) (rest : List Char) :
    ∃ c more, skipSpace (text ++ rest) = c :: more ∧ c ≠ '}' := by
  have hhead : ∃ lead member front behind, IsGap lead ∧ WrittenMember .json member front ∧
      text = lead ++ (front ++ behind) := by
    cases hmembers with
    | last hlead hmember htrail => exact ⟨_, _, _, _, hlead, hmember, rfl⟩
    | more hlead hmember htrail hmore => exact ⟨_, _, _, _, hlead, hmember, rfl⟩
  obtain ⟨lead, member, front, behind, hlead, hmember, rfl⟩ := hhead
  obtain ⟨more, hfront⟩ := eq_cons_of_member hmember
  refine ⟨'"', more ++ (behind ++ rest), ?_, by decide⟩
  simp only [List.append_assoc]
  rw [skipSpace_member hlead hmember, hfront, List.cons_append]

/-! ### Strings -/

theorem simpleEscape?_of_mem {letter c : Char} (hmem : (letter, c) ∈ Literal.shortEscapes) :
    simpleEscape? letter = some c ∧ letter ≠ 'u' := by
  simp only [Literal.shortEscapes, List.mem_cons, Prod.mk.injEq, List.not_mem_nil, or_false] at hmem
  rcases hmem with ⟨rfl, rfl⟩ | ⟨rfl, rfl⟩ | ⟨rfl, rfl⟩ | ⟨rfl, rfl⟩ | ⟨rfl, rfl⟩ | ⟨rfl, rfl⟩ |
    ⟨rfl, rfl⟩ | ⟨rfl, rfl⟩ <;> exact ⟨rfl, by decide⟩

/-- No character has the number of half a surrogate pair. -/
theorem not_isSurrogate (c : Char) :
    isHighSurrogate c.toNat = false ∧ isLowSurrogate c.toNat = false := by
  have hvalid := c.valid
  simp only [UInt32.isValidChar, Nat.isValidChar, Char.toNat_val] at hvalid
  simp only [isHighSurrogate, isLowSurrogate, Bool.and_eq_false_iff, decide_eq_false_iff_not]
  omega

theorem readString_spells {content body : List Char} (hspells : Spells '"' content body)
    (rest : List Char) : readString (body ++ '"' :: rest) = .ok (content, rest) := by
  induction hspells with
  | nil => rfl
  | @raw c content body hquote hslash hprint _ ih =>
      have hstep : readString (c :: (body ++ '"' :: rest)) =
          if c.toNat < 0x20 then failAt .controlCharacter (body ++ '"' :: rest)
          else consChar c (readString (body ++ '"' :: rest)) := by
        rw [readString] <;> simp_all
      rw [List.cons_append, hstep, if_neg (by omega), ih]
      rfl
  | @short letter c content body hmem _ ih =>
      obtain ⟨hescape, hletter⟩ := simpleEscape?_of_mem hmem
      have hstep : readString ('\\' :: letter :: (body ++ '"' :: rest)) =
          consChar c (readString (body ++ '"' :: rest)) := by
        rw [readString] <;> simp_all
      rw [List.cons_append, List.cons_append, hstep, ih]
      rfl
  | @unit d₁ d₂ d₃ d₄ c content body hunit _ ih =>
      obtain ⟨hhigh, hlow⟩ := not_isSurrogate c
      simp only [List.cons_append, readString, hunit, hhigh, hlow, ih]
      simp [consChar, Except.map]
  | @pair d₁ d₂ d₃ d₄ e₁ e₂ e₃ e₄ c high low content body hd he hhigh hlow hc _ ih =>
      have hnot : isLowSurrogate high = false := by
        simp only [isHighSurrogate, isLowSurrogate, Bool.and_eq_true, decide_eq_true_eq,
          Bool.and_eq_false_iff, decide_eq_false_iff_not] at hhigh ⊢
        omega
      have hpair : surrogatePair high low = c := by
        have hsum : (high - 0xD800) * 0x400 + (low - 0xDC00) + 0x10000 = c.toNat := by omega
        rw [surrogatePair, hsum, Char.ofNat_toNat]
      simp only [List.cons_append, readString, hd, he, hhigh, hlow, hnot, ih, hpair]
      rfl
  | apostrophe hquote => exact absurd hquote (by decide)

/-! ### Numbers -/

/-- A number other than zero starts with a digit other than zero. -/
theorem natDigits_eq_cons {n : Nat} (hn : n ≠ 0) :
    ∃ c more, Text.natDigits n = c :: more ∧ c ≠ '0' := by
  unfold Text.natDigits
  -- The first digit is that of `n / 10`, as long as there is more than one.
  induction n using Nat.strongRecOn with
  | ind n ih =>
      by_cases hsmall : n < 10
      · refine ⟨n.digitChar, [], Nat.toDigits_of_lt_base hsmall, ?_⟩
        intro hzero
        have hdigit := Nat.toNat_digitChar_sub_48_of_lt_ten hsmall
        rw [hzero] at hdigit
        exact hn (by simpa using hdigit.symm)
      · obtain ⟨c, more, hfront, hc⟩ := ih (n / 10) (by omega) (by omega)
        refine ⟨c, more ++ [(n % 10).digitChar], ?_, hc⟩
        rw [Nat.toDigits_of_base_le (by decide) (by omega), hfront]
        rfl

/-- Further digits only make a number larger. -/
theorem le_ofDigitChars (digits : List Char) (start : Nat) :
    start ≤ Nat.ofDigitChars 10 digits start := by
  rw [Nat.ofDigitChars_eq_ofDigitChars_zero]
  have hpos : 1 ≤ 10 ^ digits.length := Nat.one_le_pow _ _ (by decide)
  have hmul : 1 * start ≤ 10 ^ digits.length * start := Nat.mul_le_mul_right start hpos
  omega

/-- Nothing behind a value belongs to a number in front of it. -/
theorem head_of_closes {rest : List Char} (hrest : Closes rest) :
    ∀ c ∈ rest.head?, c.isDigit = false ∧ c ≠ '.' ∧ c ≠ 'e' ∧ c ≠ 'E' := by
  intro c hc
  rcases hrest.head c hc with hspace | rfl | rfl | rfl
  · simp only [isSpace, Bool.or_eq_true, beq_iff_eq] at hspace
    rcases hspace with ((rfl | rfl) | rfl) | rfl <;> decide
  all_goals decide

theorem finishInteger_of_closes (negative : Bool) (significand : Nat) {rest : List Char}
    (hrest : Closes rest) :
    finishInteger negative significand rest = .ok (wholeNumber negative significand, rest) := by
  have hhead := head_of_closes hrest
  unfold finishInteger
  split <;> simp_all

theorem readInteger_digits (negative : Bool) {digits rest : List Char} {start : Nat}
    (hdigits : ∀ c ∈ digits, c.isDigit = true)
    (hmax : Nat.ofDigitChars 10 digits start ≤ maxSignificand) (hrest : Closes rest) :
    readInteger negative start (digits ++ rest) =
      .ok (wholeNumber negative (Nat.ofDigitChars 10 digits start), rest) := by
  induction digits generalizing start with
  | nil =>
      rw [List.nil_append, Nat.ofDigitChars_nil, ← finishInteger_of_closes negative start hrest]
      cases rest with
      | nil => rfl
      | cons c rest =>
          have hc := (head_of_closes hrest c rfl).1
          simp [readInteger, hc]
  | cons c digits ih =>
      have hc : c.isDigit = true := hdigits c List.mem_cons_self
      have hnext : appendDigit start c = 10 * start + (c.toNat - '0'.toNat) := by
        rw [appendDigit, Nat.mul_comm]
      rw [Nat.ofDigitChars_cons, ← hnext] at hmax ⊢
      have hfits : appendDigit start c ≤ maxSignificand :=
        Nat.le_trans (le_ofDigitChars digits _) hmax
      rw [List.cons_append, readInteger, if_pos hc]
      simp only [if_pos hfits]
      exact ih (fun d hd => hdigits d (List.mem_cons_of_mem c hd)) hmax

theorem readUnsigned_natDigits (negative : Bool) {n : Nat} {rest : List Char}
    (hmax : n ≤ maxSignificand) (hrest : Closes rest) :
    readUnsigned negative (Text.natDigits n ++ rest) = .ok (wholeNumber negative n, rest) := by
  by_cases hn : n = 0
  · subst hn
    rw [← finishInteger_of_closes negative 0 hrest]
    cases rest with
    | nil => rfl
    | cons c rest =>
        have hc := (head_of_closes hrest c rfl).1
        simp [Text.natDigits, readUnsigned, hc]
  · obtain ⟨c, more, hcons, hzero⟩ := natDigits_eq_cons hn
    have hdigits : ∀ d ∈ c :: more, d.isDigit = true := fun d hd =>
      Literal.isDigit_of_mem_natDigits (hcons ▸ hd)
    have hvalue : Nat.ofDigitChars 10 more (c.toNat - '0'.toNat) = n := by
      have hall : Nat.ofDigitChars 10 (Text.natDigits n) 0 = n := Nat.ofDigitChars_ten_toDigits
      rw [hcons, Nat.ofDigitChars_cons, Nat.mul_zero, Nat.zero_add] at hall
      exact hall
    have hstep : readUnsigned negative (c :: (more ++ rest)) =
        readInteger negative (c.toNat - '0'.toNat) (more ++ rest) := by
      have hc : c.isDigit = true := hdigits c List.mem_cons_self
      rw [readUnsigned] <;> simp_all
    rw [hcons, List.cons_append, hstep,
      readInteger_digits negative (fun d hd => hdigits d (List.mem_cons_of_mem c hd))
        (by rw [hvalue]; exact hmax) hrest, hvalue]

theorem readScalar_digit {c : Char} (hc : c.isDigit = true) (rest : List Char) :
    readScalar c rest =
      (readUnsigned false (c :: rest)).map fun (n, rest) => (.number n, rest) := by
  unfold readScalar
  split
  case h_6 => exact if_pos hc
  all_goals exact absurd hc (by decide)

/-! ### Values -/

mutual

/-- How many arrays and objects stand around the deepest part of a value. -/
def depth : Json → Nat
  | .array items => depthOfItems items + 1
  | .object members => depthOfMembers members + 1
  | _ => 0

/-- The greatest depth of an item. -/
def depthOfItems : List Json → Nat
  | [] => 0
  | item :: more => max item.depth (depthOfItems more)

/-- The greatest depth of the value of a member. -/
def depthOfMembers : List (String × Json) → Nat
  | [] => 0
  | (_, item) :: more => max item.depth (depthOfMembers more)

end

theorem readValue_gap {gap : List Char} (hgap : IsGap gap) (depth : Nat) (text : List Char) :
    readValue depth (gap ++ text) = readValue depth text := by
  rw [readValue, readValue, skipSpace_append hgap]

theorem readValue_scalar {c : Char} (hspace : isSpace c = false) (harray : c ≠ '[')
    (hobject : c ≠ '{') (depth : Nat) (rest : List Char) :
    readValue depth (c :: rest) = readScalar c rest := by
  rw [readValue, skipSpace_cons hspace]
  split <;> simp_all

theorem readValue_array (depth : Nat) (rest : List Char) :
    readValue (depth + 1) ('[' :: rest) = readArray (readValue depth) rest := by
  rw [readValue]
  rfl

theorem readValue_object (depth : Nat) (rest : List Char) :
    readValue (depth + 1) ('{' :: rest) = readObject (readValue depth) rest := by
  rw [readValue]
  rfl

theorem readValue_intDigits {n : Int} (hlow : -9223372036854775808 ≤ n)
    (hhigh : n ≤ 18446744073709551615) (depth : Nat) {rest : List Char} (hrest : Closes rest) :
    readValue depth (Text.intDigits n ++ rest) = .ok (.number (.int n), rest) := by
  unfold Text.intDigits
  split
  · next hneg =>
    have hmax : n.natAbs ≤ maxSignificand := by
      unfold maxSignificand
      omega
    have hwhole : wholeNumber true n.natAbs = .int n := by
      unfold wholeNumber
      rw [if_neg (by decide), if_neg (by omega)]
      congr 1
      omega
    rw [List.cons_append, readValue_scalar (by decide) (by decide) (by decide)]
    simp only [readScalar, readUnsigned_natDigits true hmax hrest, hwhole]
    rfl
  · next hnonneg =>
    have hmax : n.natAbs ≤ maxSignificand := by
      unfold maxSignificand
      omega
    have hwhole : wholeNumber false n.natAbs = .int n := by
      unfold wholeNumber
      rw [if_pos (by decide)]
      congr 1
      omega
    have hread := readUnsigned_natDigits false hmax hrest
    cases hdigits : Text.natDigits n.natAbs with
    | nil => exact absurd hdigits Nat.toDigits_ne_nil
    | cons c more =>
        have hc : c.isDigit = true :=
          Literal.isDigit_of_mem_natDigits (hdigits ▸ List.mem_cons_self)
        rw [hdigits] at hread
        rw [List.cons_append, readValue_scalar (OpensValue.isSpace_eq (Or.inr hc))
          (by rintro rfl; simp at hc) (by rintro rfl; simp at hc),
          readScalar_digit hc]
        rw [← List.cons_append, hread, hwhole]
        rfl

/-! ### Containers -/

section Containers

variable {item : List Char → Reading Json} {fuel : Nat} {text trail behind rest : List Char}

theorem readItems_last {value : Json} (hitem : item text = .ok (value, trail ++ ']' :: rest))
    (htrail : IsGap trail) : readItems item (fuel + 1) text = .ok ([value], rest) := by
  rw [readItems, hitem]
  simp only [skipSpace_gap htrail (show isSpace ']' = false by decide)]

theorem readItems_more {value : Json} {items : List Json} {c : Char} {next : List Char}
    (hitem : item text = .ok (value, trail ++ ',' :: behind)) (htrail : IsGap trail)
    (hnext : skipSpace behind = c :: next) (hc : c ≠ ']')
    (hitems : readItems item fuel (skipSpace behind) = .ok (items, rest)) :
    readItems item (fuel + 1) text = .ok (value :: items, rest) := by
  rw [hnext] at hitems
  rw [readItems, hitem]
  simp only [skipSpace_gap htrail (show isSpace ',' = false by decide), hnext]
  split
  · contradiction
  · simp_all
  · rw [hitems]
    rfl

theorem readMember_spells {name body : List Char} {value : Json} (hname : Spells '"' name body)
    (htrail : IsGap trail) (hitem : item behind = .ok (value, rest)) :
    readMember item ('"' :: (body ++ '"' :: (trail ++ ':' :: behind))) =
      .ok ((String.ofList name, value), rest) := by
  rw [readMember, readString_spells hname]
  simp only [skipSpace_gap htrail (show isSpace ':' = false by decide), hitem]
  rfl

theorem readMembers_last {member : String × Json}
    (hmember : readMember item text = .ok (member, trail ++ '}' :: rest)) (htrail : IsGap trail) :
    readMembers item (fuel + 1) text = .ok ([member], rest) := by
  rw [readMembers, hmember]
  simp only [skipSpace_gap htrail (show isSpace '}' = false by decide)]

theorem readMembers_more {member : String × Json} {members : List (String × Json)} {c : Char}
    {next : List Char} (hmember : readMember item text = .ok (member, trail ++ ',' :: behind))
    (htrail : IsGap trail) (hnext : skipSpace behind = c :: next) (hc : c ≠ '}')
    (hmembers : readMembers item fuel (skipSpace behind) = .ok (members, rest)) :
    readMembers item (fuel + 1) text = .ok (member :: members, rest) := by
  rw [hnext] at hmembers
  rw [readMembers, hmember]
  simp only [skipSpace_gap htrail (show isSpace ',' = false by decide), hnext]
  split
  · contradiction
  · simp_all
  · rw [hmembers]
    rfl

theorem readArray_empty (htrail : IsGap trail) :
    readArray item (trail ++ ']' :: rest) = .ok (.array [], rest) := by
  rw [readArray, skipSpace_gap htrail (by decide)]
  rfl

theorem readArray_items {items : List Json} {c : Char} {next : List Char}
    (hnext : skipSpace text = c :: next) (hc : c ≠ ']')
    (hitems : readItems item ((skipSpace text).length + 1) (skipSpace text) = .ok (items, rest)) :
    readArray item text = .ok (.array items, rest) := by
  rw [hnext] at hitems
  rw [readArray, hnext]
  split
  · contradiction
  · simp_all
  · rw [hitems]
    rfl

theorem readObject_empty (htrail : IsGap trail) :
    readObject item (trail ++ '}' :: rest) = .ok (.object [], rest) := by
  rw [readObject, skipSpace_gap htrail (by decide)]
  rfl

theorem readObject_members {members : List (String × Json)} {c : Char} {next : List Char}
    (hnext : skipSpace text = c :: next) (hc : c ≠ '}')
    (hmembers : readMembers item ((skipSpace text).length + 1) (skipSpace text) =
      .ok (members, rest)) (hkeys : (members.map Prod.fst).Nodup) :
    readObject item text = .ok (.object members, rest) := by
  rw [hnext] at hmembers
  rw [readObject, hnext]
  split
  · contradiction
  · simp_all
  · rw [hmembers]
    simp only [Except.map, Fields.ofList_of_nodup hkeys]

end Containers

/-! ### The whole text -/

mutual

/-- **A written value is read back**, up to what may follow it, as long as the reader
is allowed the depth of the value. -/
theorem readValue_written {value : Json} {text : List Char} :
    Written .json value text → ∀ {limit : Nat} {rest : List Char}, value.depth ≤ limit →
      Closes rest → readValue limit (text ++ rest) = .ok (value, rest)
  | .null, limit, rest, _, _ => by
      exact readValue_scalar (by decide) (by decide) (by decide) limit _
  | .yes, limit, rest, _, _ => by
      exact readValue_scalar (by decide) (by decide) (by decide) limit _
  | .no, limit, rest, _, _ => by
      exact readValue_scalar (by decide) (by decide) (by decide) limit _
  | .int hlow hhigh, limit, rest, _, hrest => readValue_intDigits hlow hhigh limit hrest
  | .string hquote hspells, limit, rest, _, _ => by
      rcases hquote with rfl | ⟨hstyle, -⟩
      · simp only [List.cons_append, List.append_assoc, List.nil_append]
        rw [readValue_scalar (by decide) (by decide) (by decide)]
        simp only [readScalar, readString_spells hspells]
        rfl
      · contradiction
  | .emptyArray hgap, limit, rest, hdepth, _ => by
      obtain ⟨limit, rfl⟩ : ∃ n, limit = n + 1 := Nat.exists_eq_add_one.mpr hdepth
      simp only [List.cons_append, List.append_assoc, List.nil_append]
      rw [readValue_array, readArray_empty hgap]
  | @Written.array _ items _ hitems, limit, rest, hdepth, _ => by
      obtain ⟨limit, rfl⟩ : ∃ n, limit = n + 1 :=
        Nat.exists_eq_add_one.mpr (Nat.lt_of_lt_of_le (Nat.succ_pos _) hdepth)
      have hinner : depthOfItems items ≤ limit := Nat.le_of_succ_le_succ hdepth
      obtain ⟨c, next, hnext, hc⟩ := skipSpace_items hitems (']' :: rest)
      simp only [List.cons_append, List.append_assoc, List.nil_append]
      rw [readValue_array]
      exact readArray_items hnext hc (readItems_written hitems hinner (Nat.lt_succ_self _))
  | .emptyObject hgap, limit, rest, hdepth, _ => by
      obtain ⟨limit, rfl⟩ : ∃ n, limit = n + 1 := Nat.exists_eq_add_one.mpr hdepth
      simp only [List.cons_append, List.append_assoc, List.nil_append]
      rw [readValue_object, readObject_empty hgap]
  | @Written.object _ members _ hkeys hmembers, limit, rest, hdepth, _ => by
      obtain ⟨limit, rfl⟩ : ∃ n, limit = n + 1 :=
        Nat.exists_eq_add_one.mpr (Nat.lt_of_lt_of_le (Nat.succ_pos _) hdepth)
      have hinner : depthOfMembers members ≤ limit := Nat.le_of_succ_le_succ hdepth
      obtain ⟨c, next, hnext, hc⟩ := skipSpace_members hmembers ('}' :: rest)
      simp only [List.cons_append, List.append_assoc, List.nil_append]
      rw [readValue_object]
      exact readObject_members hnext hc
        (readMembers_written hmembers hinner (Nat.lt_succ_self _)) hkeys
  | .call hstyle _ _ _ _ _, limit, rest, _, _ => nomatch hstyle

theorem readItems_written {items : List Json} {text : List Char} :
    WrittenItems .json items text → ∀ {limit fuel : Nat} {rest : List Char},
      depthOfItems items ≤ limit → (skipSpace (text ++ ']' :: rest)).length < fuel →
      readItems (readValue limit) fuel (skipSpace (text ++ ']' :: rest)) = .ok (items, rest)
  | .last hlead hitem htrail, limit, fuel, rest, hdepth, hfuel => by
      obtain ⟨fuel, rfl⟩ : ∃ n, fuel = n + 1 := Nat.exists_eq_add_one.mpr (Nat.zero_lt_of_lt hfuel)
      simp only [depthOfItems, Nat.max_le] at hdepth
      simp only [List.append_assoc]
      rw [skipSpace_written hlead hitem]
      exact readItems_last
        (readValue_written hitem hdepth.1 (Literal.closes_mark htrail (Or.inr (Or.inl rfl)))) htrail
  | @WrittenItems.more _ _ _ _ _ _ behind hlead hitem htrail hitems, limit, fuel, rest, hdepth,
      hfuel => by
      obtain ⟨fuel, rfl⟩ : ∃ n, fuel = n + 1 := Nat.exists_eq_add_one.mpr (Nat.zero_lt_of_lt hfuel)
      simp only [depthOfItems, Nat.max_le] at hdepth
      simp only [List.append_assoc, List.cons_append] at hfuel ⊢
      rw [skipSpace_written hlead hitem] at hfuel ⊢
      obtain ⟨c, next, hnext, hc⟩ := skipSpace_items hitems (']' :: rest)
      -- The comma alone makes the text of the other items shorter.
      have hshorter : (skipSpace (behind ++ ']' :: rest)).length < fuel := by
        have hle := (List.dropWhile_sublist isSpace (l := behind ++ ']' :: rest)).length_le
        simp only [skipSpace, List.length_append, List.length_cons] at hle hfuel ⊢
        omega
      exact readItems_more
        (readValue_written hitem hdepth.1 (Literal.closes_mark htrail (Or.inl rfl))) htrail hnext hc
        (readItems_written hitems hdepth.2 hshorter)

theorem readMember_written {member : String × Json} {text : List Char} :
    WrittenMember .json member text → ∀ {limit : Nat} {rest : List Char},
      member.2.depth ≤ limit → Closes rest →
      readMember (readValue limit) (text ++ rest) = .ok (member, rest)
  | .mk hkey hlead htrail hitem, limit, rest, hdepth, hrest => by
      cases hkey with
      | quoted hquote hspells =>
          rcases hquote with rfl | ⟨hstyle, -⟩
          · simp only [List.cons_append, List.append_assoc, List.nil_append]
            refine readMember_spells hspells hlead ?_
            rw [readValue_gap htrail]
            exact readValue_written hitem hdepth hrest
          · contradiction
      | bare hstyle => contradiction

theorem readMembers_written {members : List (String × Json)} {text : List Char} :
    WrittenMembers .json members text → ∀ {limit fuel : Nat} {rest : List Char},
      depthOfMembers members ≤ limit → (skipSpace (text ++ '}' :: rest)).length < fuel →
      readMembers (readValue limit) fuel (skipSpace (text ++ '}' :: rest)) =
        .ok (members, rest)
  | .last hlead hmember htrail, limit, fuel, rest, hdepth, hfuel => by
      obtain ⟨fuel, rfl⟩ : ∃ n, fuel = n + 1 := Nat.exists_eq_add_one.mpr (Nat.zero_lt_of_lt hfuel)
      simp only [depthOfMembers, Nat.max_le] at hdepth
      simp only [List.append_assoc]
      rw [skipSpace_member hlead hmember]
      exact readMembers_last
        (readMember_written hmember hdepth.1 (Literal.closes_mark htrail (Or.inr (Or.inr rfl))))
        htrail
  | @WrittenMembers.more _ _ _ _ _ _ behind hlead hmember htrail hmembers, limit, fuel, rest,
      hdepth, hfuel => by
      obtain ⟨fuel, rfl⟩ : ∃ n, fuel = n + 1 := Nat.exists_eq_add_one.mpr (Nat.zero_lt_of_lt hfuel)
      simp only [depthOfMembers, Nat.max_le] at hdepth
      simp only [List.append_assoc, List.cons_append] at hfuel ⊢
      rw [skipSpace_member hlead hmember] at hfuel ⊢
      obtain ⟨c, next, hnext, hc⟩ := skipSpace_members hmembers ('}' :: rest)
      have hshorter : (skipSpace (behind ++ '}' :: rest)).length < fuel := by
        have hle := (List.dropWhile_sublist isSpace (l := behind ++ '}' :: rest)).length_le
        simp only [skipSpace, List.length_append, List.length_cons] at hle hfuel ⊢
        omega
      exact readMembers_more
        (readMember_written hmember hdepth.1 (Literal.closes_mark htrail (Or.inl rfl))) htrail
        hnext hc (readMembers_written hmembers hdepth.2 hshorter)

end

/-- **What is written is read.**  The whole text may have gaps at its ends. -/
theorem read_written {value : Json} {lead text trail : List Char}
    (hwritten : Written .json value text) (hlead : IsGap lead) (htrail : IsGap trail)
    (hdepth : value.depth ≤ maxDepth) : read (lead ++ (text ++ trail)) = .ok value := by
  have hvalue := readValue_written hwritten hdepth (Literal.closes_gap htrail)
  have hend : skipSpace trail = [] := by
    rw [← List.append_nil trail, skipSpace_append htrail]
    rfl
  rw [read, readValue_gap hlead, hvalue]
  simp only [hend]

end DocShell.Json
