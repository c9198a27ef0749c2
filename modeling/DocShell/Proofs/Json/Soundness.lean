import DocShell.Failure.Outcome
import DocShell.Proofs.Json.Grammar
import DocShell.Json.Reader

/-!
# What is read is JSON

The JSON reader accepts nothing but JSON: every reader takes a text of its part of the grammar
from the front and leaves what stands behind it.

## Strategy

* `Takes P text rest` says that a reader which has turned `text` into `rest` has taken a text
  with the property `P`.  Each reader gets one such lemma, and its callers cite that lemma only.
* The readers of numbers call each other digit by digit, and what is still to come after a
  digit is the same whether or not the significand has been full before.  So digits are
  collected in front of a property (`DigitsThen`).
* The readers of arrays and objects are given the reader of their values.  What they need of it
  is a hypothesis, which the induction on the depth discharges.
-/

namespace DocShell.Json

open Literal (IsGap Spells)

/-! ## Taking -/

/-- A text with the property stands in front of the rest. -/
def Takes (P : List Char → Prop) (text rest : List Char) : Prop :=
  ∃ front, P front ∧ text = front ++ rest

/-- Digits in front of a text with the property. -/
def DigitsThen (P : List Char → Prop) (text : List Char) : Prop :=
  ∃ digits more, AllDigits digits ∧ P more ∧ text = digits ++ more

variable {P Q : List Char → Prop} {text front rest digits : List Char} {c : Char}

theorem Takes.of_append (front : List Char) (hfront : P front) : Takes P (front ++ rest) rest :=
  ⟨front, hfront, rfl⟩

theorem Takes.behind (front : List Char) (htakes : Takes P text rest)
    (hfront : ∀ taken, P taken → Q (front ++ taken)) : Takes Q (front ++ text) rest := by
  obtain ⟨taken, htaken, rfl⟩ := htakes
  exact ⟨front ++ taken, hfront taken htaken, (List.append_assoc front taken rest).symm⟩

theorem Takes.imp (htakes : Takes P text rest) (himp : ∀ taken, P taken → Q taken) :
    Takes Q text rest :=
  htakes.behind [] himp

/-- A run of digits is taken as a whole. -/
theorem takes_run (text : List Char) : Takes AllDigits text (text.dropWhile Char.isDigit) :=
  ⟨text.takeWhile Char.isDigit, List.all_eq_true.mp List.all_takeWhile,
    List.takeWhile_append_dropWhile.symm⟩

theorem DigitsThen.of_self (htext : P text) : DigitsThen P text :=
  ⟨[], text, allDigits_nil, htext, rfl⟩

theorem DigitsThen.behind (hfront : AllDigits front) (htext : DigitsThen P text) :
    DigitsThen P (front ++ text) := by
  obtain ⟨digits, more, hdigits, hmore, rfl⟩ := htext
  exact ⟨front ++ digits, more, hfront.append hdigits, hmore,
    (List.append_assoc front digits more).symm⟩

/-- One more digit in front of digits and what follows them. -/
theorem Takes.digit (hc : c.isDigit = true) (htakes : Takes (DigitsThen P) text rest) :
    Takes (DigitsThen P) (c :: text) rest :=
  htakes.behind [c] fun _ => .behind (allDigits_singleton hc)

/-- A run of digits in front of digits and what follows them. -/
theorem Takes.run (htakes : Takes (DigitsThen P) (text.dropWhile Char.isDigit) rest) :
    Takes (DigitsThen P) text rest := by
  obtain ⟨front, hfront, htext⟩ := takes_run text
  rw [htext]
  exact htakes.behind front fun _ => .behind hfront

/-- A reading whose value is changed leaves the rest as it was. -/
theorem exists_of_map_eq_ok {α β : Type} {reading : Reading α} {result : β}
    {change : α × List Char → β × List Char} (hchange : ∀ found more, (change (found, more)).2 = more)
    (hread : reading.map change = .ok (result, rest)) : ∃ found, reading = .ok (found, rest) := by
  obtain ⟨⟨found, more⟩, hreading, hresult⟩ := Outcome.map_eq_ok_iff.mp hread
  have hmore := hchange found more
  rw [hresult] at hmore
  exact ⟨found, by rw [hreading, ← hmore]⟩

@[simp] theorem failAt_eq_ok_iff {α : Type} {problem : Problem} {reading : α} :
    failAt problem rest = .ok reading ↔ False := by
  simp [failAt]

@[simp] theorem failNext_eq_ok_iff {α : Type} {problem : Problem} {reading : α} :
    failNext problem rest = .ok reading ↔ False := by
  simp [failNext]

@[simp] theorem badHex_eq_ok_iff {α : Type} {reading : α} :
    badHex rest = .ok reading ↔ False := by
  unfold badHex
  split <;> simp

/-! ## Strings -/

theorem mem_shortEscapes_of_simpleEscape? {plain : Char} (hescape : simpleEscape? c = some plain) :
    (c, plain) ∈ Literal.shortEscapes := by
  unfold simpleEscape? at hescape
  split at hescape <;> first | (cases hescape; decide) | cases hescape

theorem hexValue?_lt {n : Nat} (hvalue : Text.hexValue? c = some n) : n < 16 := by
  unfold Text.hexValue? at hvalue
  simp only [Char.isDigit, Bool.and_eq_true, decide_eq_true_eq, ge_iff_le, Char.le_def,
    UInt32.le_iff_toNat_le, Char.toNat_val, Char.reduceToNat] at hvalue
  split at hvalue
  · cases hvalue
    omega
  · split at hvalue
    · cases hvalue
      omega
    · split at hvalue
      · cases hvalue
        omega
      · cases hvalue

theorem hexUnit?_lt {d₁ d₂ d₃ d₄ : Char} {n : Nat} (hunit : hexUnit? d₁ d₂ d₃ d₄ = some n) :
    n < 0x10000 := by
  unfold hexUnit? at hunit
  simp only [bind, pure, Option.bind_eq_some_iff, Option.some.injEq] at hunit
  obtain ⟨v₁, h₁, v₂, h₂, v₃, h₃, v₄, h₄, rfl⟩ := hunit
  have hlt₁ := hexValue?_lt h₁
  have hlt₂ := hexValue?_lt h₂
  have hlt₃ := hexValue?_lt h₃
  have hlt₄ := hexValue?_lt h₄
  omega

theorem toNat_ofNat_of_isValidChar {n : Nat} (hvalid : n.isValidChar) :
    (Char.ofNat n).toNat = n := by
  rw [Char.ofNat, dif_pos hvalid]
  rfl

theorem toNat_ofNat_unit {n : Nat} (hlt : n < 0x10000) (hhigh : ¬ isHighSurrogate n = true)
    (hlow : ¬ isLowSurrogate n = true) : (Char.ofNat n).toNat = n := by
  simp only [isHighSurrogate, isLowSurrogate, Bool.and_eq_true, decide_eq_true_eq] at hhigh hlow
  refine toNat_ofNat_of_isValidChar ?_
  unfold Nat.isValidChar
  omega

theorem toNat_surrogatePair {high low : Nat} (hhigh : isHighSurrogate high = true)
    (hlow : isLowSurrogate low = true) :
    (surrogatePair high low).toNat = 0x10000 + (high - 0xD800) * 0x400 + (low - 0xDC00) := by
  simp only [isHighSurrogate, isLowSurrogate, Bool.and_eq_true, decide_eq_true_eq] at hhigh hlow
  rw [surrogatePair, toNat_ofNat_of_isValidChar]
  · omega
  · unfold Nat.isValidChar
    omega

theorem consChar_eq_ok_iff {content : List Char} {more : Reading (List Char)} :
    consChar c more = .ok (content, rest) ↔
      ∃ tail, more = .ok (tail, rest) ∧ content = c :: tail := by
  simp only [consChar, Outcome.map_eq_ok_iff, Prod.exists, Prod.mk.injEq]
  constructor
  · rintro ⟨tail, _, hmore, rfl, rfl⟩
    exact ⟨tail, hmore, rfl⟩
  · rintro ⟨tail, hmore, rfl⟩
    exact ⟨tail, rest, hmore, rfl, rfl⟩

/-- What is read as the content of a string is spelled in front of its closing quote. -/
theorem exists_spells_of_readString {content : List Char}
    (hread : readString text = .ok (content, rest)) :
    ∃ body, Spells '"' content body ∧ text = body ++ '"' :: rest := by
  fun_induction readString text generalizing content rest
  case case2 =>
    cases hread
    exact ⟨[], .nil, rfl⟩
  case case6 hd hlow' hhigh _ _ _ _ _ _ he hlow ih =>
    obtain ⟨tail, hmore, rfl⟩ := consChar_eq_ok_iff.mp hread
    obtain ⟨body, hspells, rfl⟩ := ih hmore
    exact ⟨_, .pair hd he hhigh hlow (toNat_surrogatePair hhigh hlow) hspells, rfl⟩
  case case13 hd hlow hhigh ih =>
    obtain ⟨tail, hmore, rfl⟩ := consChar_eq_ok_iff.mp hread
    obtain ⟨body, hspells, rfl⟩ := ih hmore
    have hunit := toNat_ofNat_unit (hexUnit?_lt hd) hhigh hlow
    exact ⟨_, .unit (by rw [hd, hunit]) hspells, rfl⟩
  case case16 hescape ih =>
    obtain ⟨tail, hmore, rfl⟩ := consChar_eq_ok_iff.mp hread
    obtain ⟨body, hspells, rfl⟩ := ih hmore
    exact ⟨_, .short (mem_shortEscapes_of_simpleEscape? hescape) hspells, rfl⟩
  case case19 c more hquote _ _ hend hslash hprint ih =>
    obtain ⟨tail, hmore, rfl⟩ := consChar_eq_ok_iff.mp hread
    obtain ⟨body, hspells, rfl⟩ := ih hmore
    have hplain : c ≠ '\\' := by
      rintro rfl
      cases body with
      | nil => exact hslash _ _ rfl rfl
      | cons d body => exact hslash _ _ rfl rfl
    exact ⟨_, .raw hquote hplain (by omega) hspells, rfl⟩
  all_goals simp at hread

/-! ## Numbers -/

section Numbers

variable {negative : Bool} {significand : Nat} {exponent : Int} {n : Number}

/-- Where the number ends nothing more is taken. -/
theorem takes_finishDouble (hnone : P [])
    (hread : finishDouble negative significand exponent text = .ok (n, rest)) :
    Takes P text rest := by
  unfold finishDouble at hread
  split at hread
  · cases hread
    exact .of_append [] hnone
  · simp at hread

theorem takes_readExponentDigits {negativeExponent : Bool} {start : Int} {written : Nat}
    (hread : readExponentDigits negative negativeExponent significand start written text =
      .ok (n, rest)) : Takes AllDigits text rest := by
  induction text generalizing written with
  | nil => exact takes_finishDouble allDigits_nil hread
  | cons c text ih =>
      rw [readExponentDigits] at hread
      split at hread
      · next hc =>
          have hdigit : ∀ digits, AllDigits digits → AllDigits ([c] ++ digits) :=
            fun _ => (allDigits_singleton hc).append
          simp only at hread
          split at hread
          · exact (ih hread).behind [c] hdigit
          · split at hread
            · simp at hread
            · cases hread
              exact (takes_run text).behind [c] hdigit
      · exact takes_finishDouble allDigits_nil hread

/-- Behind its letter an exponent has a sign or none, and digits. -/
theorem takes_readExponent {letter : Char} (hletter : letter = 'e' ∨ letter = 'E')
    (hread : readExponent negative significand exponent text = .ok (n, rest)) :
    Takes IsExponent (letter :: text) rest := by
  unfold readExponent at hread
  split at hread
  next negativeExponent behind hbehind =>
    obtain ⟨sign, hsign, rfl⟩ : ∃ sign ∈ [[], ['+'], ['-']], text = sign ++ behind := by
      split at hbehind <;> cases hbehind
      · exact ⟨['+'], by decide, rfl⟩
      · exact ⟨['-'], by decide, rfl⟩
      · exact ⟨[], by decide, rfl⟩
    split at hread
    · simp at hread
    · next c more =>
        split at hread
        · next hc =>
            have htaken := (takes_readExponentDigits hread).behind [c] fun _ => IsDigits.of_append hc
            exact htaken.behind (letter :: sign) fun _ => .power hletter hsign
        · simp at hread

theorem takes_readScale (hread : readScale negative significand exponent text = .ok (n, rest)) :
    Takes IsExponent text rest := by
  unfold readScale at hread
  split at hread
  · exact takes_readExponent (Or.inl rfl) hread
  · exact takes_readExponent (Or.inr rfl) hread
  · exact takes_finishDouble .absent hread

/-- Whether a first digit has to be there or not, what is taken are digits and an exponent. -/
theorem takes_readFraction {first : Bool}
    (hread : readFraction negative first significand exponent text = .ok (n, rest)) :
    Takes (DigitsThen IsExponent) text rest := by
  induction text generalizing first significand exponent with
  | nil =>
      rw [readFraction] at hread
      split at hread
      · simp at hread
      · exact takes_finishDouble (.of_self .absent) hread
  | cons c text ih =>
      rw [readFraction] at hread
      split at hread
      · next hc =>
          simp only at hread
          split at hread
          · exact (ih hread).digit hc
          · exact ((takes_readScale hread).imp fun _ => .of_self).run.digit hc
      · split at hread
        · simp at hread
        · exact (takes_readScale hread).imp fun _ => .of_self

/-- Directly behind the point there is a digit. -/
theorem takes_readFraction_first
    (hread : readFraction negative true significand exponent text = .ok (n, rest)) :
    Takes IsScale ('.' :: text) rest := by
  obtain ⟨c, more, rfl, hc, htaken⟩ : ∃ c more, text = c :: more ∧ c.isDigit = true ∧
      Takes (DigitsThen IsExponent) more rest := by
    cases text with
    | nil => simp [readFraction] at hread
    | cons c more =>
        rw [readFraction] at hread
        split at hread
        · next hc =>
            refine ⟨c, more, rfl, hc, ?_⟩
            simp only at hread
            split at hread
            · exact takes_readFraction hread
            · exact ((takes_readScale hread).imp fun _ => .of_self).run
        · simp at hread
  refine htaken.behind ['.', c] ?_
  rintro _ ⟨digits, exponent, hdigits, hexponent, rfl⟩
  have hpoint : IsFraction ('.' :: ([c] ++ digits)) := .point (.of_append hc hdigits)
  change IsScale ('.' :: ([c] ++ digits) ++ exponent)
  exact .mk hpoint hexponent

theorem takes_isScale_of_readScale
    (hread : readScale negative significand exponent text = .ok (n, rest)) :
    Takes IsScale text rest :=
  (takes_readScale hread).imp fun _ => .mk .absent

theorem takes_readLong (hread : readLong negative significand exponent text = .ok (n, rest)) :
    Takes (DigitsThen IsScale) text rest := by
  induction text generalizing exponent with
  | nil =>
      rw [readLong] at hread
      exact takes_finishDouble (.of_self (.mk .absent .absent)) hread
  | cons c text ih =>
      rw [readLong] at hread
      split at hread
      · next hc => exact (ih hread).digit hc
      · split at hread
        · next hpoint =>
            rw [beq_iff_eq] at hpoint
            subst hpoint
            exact (takes_readFraction_first hread).imp fun _ => .of_self
        · exact (takes_isScale_of_readScale hread).imp fun _ => .of_self

theorem takes_finishInteger (hread : finishInteger negative significand text = .ok (n, rest)) :
    Takes IsScale text rest := by
  unfold finishInteger at hread
  split at hread
  · exact takes_readFraction_first hread
  · exact (takes_readExponent (Or.inl rfl) hread).imp fun _ => .mk .absent
  · exact (takes_readExponent (Or.inr rfl) hread).imp fun _ => .mk .absent
  · cases hread
    exact .of_append [] (.mk .absent .absent)

theorem takes_readInteger (hread : readInteger negative significand text = .ok (n, rest)) :
    Takes (DigitsThen IsScale) text rest := by
  induction text generalizing significand with
  | nil =>
      rw [readInteger] at hread
      exact (takes_finishInteger hread).imp fun _ => .of_self
  | cons c text ih =>
      rw [readInteger] at hread
      split at hread
      · next hc =>
          simp only at hread
          split at hread
          · exact (ih hread).digit hc
          · exact takes_readLong hread
      · exact (takes_finishInteger hread).imp fun _ => .of_self

/-- **What is read as a number is one.** -/
theorem takes_readUnsigned (hread : readUnsigned negative text = .ok (n, rest)) :
    Takes IsUnsigned text rest := by
  have hzero : IsWhole ['0'] := ⟨.of_append (by decide) allDigits_nil, fun _ => rfl⟩
  unfold readUnsigned at hread
  split at hread
  · simp at hread
  · next more =>
      have htaken : Takes IsScale more rest := by
        split at hread
        · exact takes_finishInteger hread
        · split at hread
          · simp at hread
          · exact takes_finishInteger hread
      exact htaken.behind ['0'] fun _ => .mk hzero
  · next c more hc =>
      split at hread
      · next hdigit =>
          refine (takes_readInteger hread).behind [c] ?_
          rintro _ ⟨digits, scale, hdigits, hscale, rfl⟩
          have hwhole : IsWhole ([c] ++ digits) :=
            ⟨.of_append hdigit hdigits, fun hhead => absurd (Option.some.inj hhead) hc⟩
          rw [← List.append_assoc]
          exact .mk hwhole hscale
      · simp at hread

end Numbers

/-! ## Values -/

/-- A gap in front of a text with the property. -/
def Gapped (P : List Char → Prop) (text : List Char) : Prop :=
  ∃ gap more, IsGap gap ∧ P more ∧ text = gap ++ more

theorem exists_gap (text : List Char) : ∃ gap, IsGap gap ∧ text = gap ++ skipSpace text :=
  ⟨text.takeWhile isSpace, List.all_eq_true.mp List.all_takeWhile,
    List.takeWhile_append_dropWhile.symm⟩

theorem eq_of_readWord {value found : Json} {word : List Char}
    (hread : readWord value word text = .ok (found, rest)) : text = word ++ rest := by
  induction word generalizing text with
  | nil =>
      cases hread
      rfl
  | cons expected more ih =>
      cases text with
      | nil => simp [readWord] at hread
      | cons c text =>
          rw [readWord] at hread
          split at hread
          · next hc => rw [beq_iff_eq.mp hc, ih hread, List.cons_append]
          · simp at hread

theorem takes_readScalar {value : Json} (hread : readScalar c text = .ok (value, rest)) :
    Takes IsValue (c :: text) rest := by
  unfold readScalar at hread
  split at hread
  · rw [eq_of_readWord hread]
    exact .of_append ['n', 'u', 'l', 'l'] (.word (by decide))
  · rw [eq_of_readWord hread]
    exact .of_append ['t', 'r', 'u', 'e'] (.word (by decide))
  · rw [eq_of_readWord hread]
    exact .of_append ['f', 'a', 'l', 's', 'e'] (.word (by decide))
  · obtain ⟨content, hstring⟩ := exists_of_map_eq_ok (fun _ _ => rfl) hread
    obtain ⟨body, hspells, rfl⟩ := exists_spells_of_readString hstring
    exact ⟨_, .string hspells, by simp⟩
  · obtain ⟨n, hnumber⟩ := exists_of_map_eq_ok (fun _ _ => rfl) hread
    exact (takes_readUnsigned hnumber).behind ['-'] fun _ => .number (by decide)
  · split at hread
    · obtain ⟨n, hnumber⟩ := exists_of_map_eq_ok (fun _ _ => rfl) hread
      have hnone : [] ∈ [[], ['-']] := List.mem_cons_self
      exact (takes_readUnsigned hnumber).imp fun _ => .number hnone
    · simp at hread

section Containers

variable {item : List Char → Reading Json} {fuel : Nat}
  (hitem : ∀ {text rest value}, item text = .ok (value, rest) → Takes (Gapped IsValue) text rest)

include hitem

/-- What is taken between brackets are items. -/
theorem takes_readItems {items : List Json} (hread : readItems item fuel text = .ok (items, rest)) :
    Takes AreItems text (']' :: rest) := by
  induction fuel generalizing text items with
  | zero => simp [readItems] at hread
  | succ fuel ih =>
      rw [readItems] at hread
      split at hread
      · cases hread
      · next value behind hvalue =>
          obtain ⟨_, ⟨gap, front, hgap, hfront, rfl⟩, rfl⟩ := hitem hvalue
          obtain ⟨trail, htrail, hbehind⟩ := exists_gap behind
          split at hread
          · simp at hread
          · next hnext =>
              cases hread
              rw [hbehind, hnext]
              exact ⟨_, .last hgap hfront htrail, by simp⟩
          · next more hnext =>
              obtain ⟨lead, hlead, hmore⟩ := exists_gap more
              split at hread
              · simp at hread
              · simp at hread
              · obtain ⟨_, hothers⟩ := exists_of_map_eq_ok (fun _ _ => rfl) hread
                obtain ⟨others, hitems, heq⟩ := ih hothers
                rw [hbehind, hnext, hmore, heq]
                exact ⟨_, .more hgap hfront htrail (hitems.gap hlead), by simp⟩
          · simp at hread

theorem takes_readMember {member : String × Json}
    (hread : readMember item text = .ok (member, rest)) : Takes IsMember text rest := by
  unfold readMember at hread
  split at hread
  · next text =>
      split at hread
      · cases hread
      · next name behind hname =>
          obtain ⟨body, hspells, rfl⟩ := exists_spells_of_readString hname
          obtain ⟨lead, hlead, hbehind⟩ := exists_gap behind
          split at hread
          · simp at hread
          · next more hcolon =>
              obtain ⟨value, hvalue⟩ := exists_of_map_eq_ok (fun _ _ => rfl) hread
              obtain ⟨_, ⟨trail, front, htrail, hfront, rfl⟩, rfl⟩ := hitem hvalue
              rw [hbehind, hcolon]
              exact ⟨_, .mk hspells hlead htrail hfront, by simp⟩
          · simp at hread
  · simp at hread

theorem takes_readMembers {members : List (String × Json)}
    (hread : readMembers item fuel text = .ok (members, rest)) :
    Takes AreMembers text ('}' :: rest) := by
  induction fuel generalizing text members with
  | zero => simp [readMembers] at hread
  | succ fuel ih =>
      rw [readMembers] at hread
      split at hread
      · cases hread
      · next member behind hmember =>
          obtain ⟨front, hfront, rfl⟩ := takes_readMember hitem hmember
          obtain ⟨trail, htrail, hbehind⟩ := exists_gap behind
          split at hread
          · simp at hread
          · next hnext =>
              cases hread
              rw [hbehind, hnext]
              exact ⟨_, .last Literal.isGap_nil hfront htrail, by simp⟩
          · next more hnext =>
              obtain ⟨lead, hlead, hmore⟩ := exists_gap more
              split at hread
              · simp at hread
              · simp at hread
              · obtain ⟨_, hothers⟩ := exists_of_map_eq_ok (fun _ _ => rfl) hread
                obtain ⟨others, hmembers, heq⟩ := ih hothers
                rw [hbehind, hnext, hmore, heq]
                exact ⟨_, .more Literal.isGap_nil hfront htrail (hmembers.gap hlead), by simp⟩
          · simp at hread

theorem takes_readArray {value : Json} (hread : readArray item text = .ok (value, rest)) :
    Takes IsValue ('[' :: text) rest := by
  obtain ⟨gap, hgap, htext⟩ := exists_gap text
  unfold readArray at hread
  split at hread
  · simp at hread
  · next hnext =>
      cases hread
      rw [htext, hnext]
      exact ⟨_, .emptyArray hgap, by simp⟩
  · obtain ⟨items, hitems⟩ := exists_of_map_eq_ok (fun _ _ => rfl) hread
    obtain ⟨front, hfront, heq⟩ := takes_readItems hitem hitems
    rw [htext, heq]
    exact ⟨_, .array (hfront.gap hgap), by simp⟩

theorem takes_readObject {value : Json} (hread : readObject item text = .ok (value, rest)) :
    Takes IsValue ('{' :: text) rest := by
  obtain ⟨gap, hgap, htext⟩ := exists_gap text
  unfold readObject at hread
  split at hread
  · simp at hread
  · next hnext =>
      cases hread
      rw [htext, hnext]
      exact ⟨_, .emptyObject hgap, by simp⟩
  · obtain ⟨members, hmembers⟩ := exists_of_map_eq_ok (fun _ _ => rfl) hread
    obtain ⟨front, hfront, heq⟩ := takes_readMembers hitem hmembers
    rw [htext, heq]
    exact ⟨_, .object (hfront.gap hgap), by simp⟩

end Containers

/-- **What is read as a value is the text of one**, with a gap in front of it. -/
theorem takes_readValue {depth : Nat} {value : Json}
    (hread : readValue depth text = .ok (value, rest)) : Takes (Gapped IsValue) text rest := by
  induction depth using Nat.strongRecOn generalizing text rest value with
  | ind depth ih =>
      obtain ⟨gap, hgap, htext⟩ := exists_gap text
      have htaken : Takes IsValue (skipSpace text) rest := by
        rw [readValue] at hread
        split at hread
        · simp at hread
        · next more hnext =>
            rw [hnext]
            split at hread
            · simp at hread
            · next depth => exact takes_readArray (ih depth (Nat.lt_succ_self depth)) hread
        · next more hnext =>
            rw [hnext]
            split at hread
            · simp at hread
            · next depth => exact takes_readObject (ih depth (Nat.lt_succ_self depth)) hread
        · next c more _ _ hnext =>
            rw [hnext]
            exact takes_readScalar hread
      rw [htext]
      exact htaken.behind gap fun front hfront => ⟨gap, front, hgap, hfront, rfl⟩

/-- **What the reader accepts is JSON**: the text of a value with gaps at its ends. -/
theorem exists_isValue_of_read {value : Json} (hread : read text = .ok value) :
    ∃ lead front trail, IsGap lead ∧ IsValue front ∧ IsGap trail ∧
      text = lead ++ (front ++ trail) := by
  unfold read at hread
  split at hread
  · cases hread
  · next behind hvalue =>
      obtain ⟨_, ⟨lead, front, hlead, hfront, rfl⟩, rfl⟩ := takes_readValue hvalue
      obtain ⟨trail, htrail, hbehind⟩ := exists_gap behind
      split at hread
      · next hend =>
          rw [hend, List.append_nil] at hbehind
          subst hbehind
          exact ⟨lead, front, behind, hlead, hfront, htrail, by simp⟩
      · simp at hread

end DocShell.Json
