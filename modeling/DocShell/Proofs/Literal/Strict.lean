import DocShell.Proofs.Json.Soundness
import DocShell.Proofs.Literal.Normalization

/-!
# Strict literals stay as they are

JSON is a part of the relaxed style: the pass that makes JSON of a literal does not touch a
text that is JSON already, so such a text is read as what it is read as without the pass.

## Strategy

The reader accepts texts of the grammar only (`Json.exists_isValue_of_read`).  For each kind of
text in the grammar the pass writes what it reads, whatever stands in front of it, and goes on
behind it (`Becomes`).  The rules of the pass can start at three places only:

* at a quote, where the copy of a strict string is the string itself (`copyString_strict`);
* at a letter of `null`, `true` or `false`, behind which no colon and no parenthesis stands;
* at the letter of an exponent, which a digit stands in front of, so that no word starts there
  (`normalizeFrom_exponent`).
-/

namespace DocShell.Literal

open Json (AllDigits IsDigits IsWhole IsExponent IsFraction IsScale IsUnsigned IsValue AreItems
  IsMember AreMembers)

/-! ## Strings -/

/-- A string of strict JSON is copied as it stands. -/
theorem copyString_strict {content body : List Char} (hspells : Spells '"' content body)
    (rest : List Char) : copyString '"' (body ++ '"' :: rest) = (body ++ ['"'], rest) := by
  have hquote : Text.isQuote '"' = true := rfl
  induction hspells with
  | nil => exact copyString_close hquote rest
  | raw hclose hslash _ _ ih =>
      rw [List.cons_append, copyString_raw hclose hslash, ih, if_neg hclose]
      rfl
  | short _ _ ih =>
      rw [List.cons_append, List.cons_append, copyString_escape, ih, if_neg (by simp)]
      rfl
  | @unit d₁ d₂ d₃ d₄ _ _ body hunit _ ih =>
      have hdigits := copyString_plain hquote (hexUnit?_plain hunit) (body ++ '"' :: rest)
      rw [ih] at hdigits
      simp only [List.cons_append, List.nil_append] at hdigits ⊢
      rw [copyString_escape, hdigits, if_neg (by simp)]
      rfl
  | @pair d₁ d₂ d₃ d₄ e₁ e₂ e₃ e₄ _ _ _ _ body hd he _ _ _ _ ih =>
      have hsecond := copyString_plain hquote (hexUnit?_plain he) (body ++ '"' :: rest)
      have hfirst := copyString_plain hquote (hexUnit?_plain hd)
        ('\\' :: 'u' :: e₁ :: e₂ :: e₃ :: e₄ :: (body ++ '"' :: rest))
      rw [ih] at hsecond
      simp only [List.cons_append, List.nil_append] at hsecond hfirst ⊢
      rw [copyString_escape, hsecond, if_neg (by simp)] at hfirst
      rw [copyString_escape, hfirst, if_neg (by simp)]
      rfl
  | apostrophe hsingle => exact absurd hsingle (by decide)

/-! ## Numbers -/

theorem digit_other {c : Char} (hc : c.isDigit = true) :
    Text.isQuote c = false ∧ isWordStart c = false :=
  ⟨isQuote_of_isWordChar (isWordChar_of_isDigit hc), isWordStart_of_isDigit hc⟩

theorem sign_other {sign : List Char} (hsign : sign ∈ [[], ['+'], ['-']]) :
    ∀ c ∈ sign, Text.isQuote c = false ∧ isWordStart c = false := by
  intro c hc
  have hsymbol : c = '+' ∨ c = '-' := by
    simp only [List.mem_cons, List.not_mem_nil, or_false] at hsign
    rcases hsign with rfl | rfl | rfl <;> simp_all
  rcases hsymbol with rfl | rfl <;> decide

/-- Behind digits the pass is inside a word. -/
theorem normalizeFrom_digits {digits : List Char} (hdigits : IsDigits digits) (inWord : Bool)
    (last : Option Char) (rest : List Char) :
    ∃ last', normalizeFrom 0 inWord last (digits ++ rest) =
      digits ++ normalizeFrom 0 true last' rest := by
  obtain ⟨hne, hall⟩ := hdigits
  obtain ⟨c, more, rfl⟩ := List.exists_cons_of_ne_nil hne
  obtain ⟨hc, hmore⟩ := List.forall_mem_cons.mp hall
  have hchar : isWordChar c = true := isWordChar_of_isDigit hc
  obtain ⟨hquote, hstart⟩ := digit_other hc
  obtain ⟨last', hrest⟩ := normalizeFrom_word (fun d hd => isWordChar_of_isDigit (hmore d hd))
    (if Text.isBlank c then last else some c) rest
  exact ⟨last', by rw [List.cons_append, normalizeFrom_other hquote hstart, hchar, hrest]; rfl⟩

/-- The letter of an exponent belongs to the digits in front of it and starts no word. -/
theorem normalizeFrom_exponent {exponent : List Char} (hexponent : IsExponent exponent)
    (last : Option Char) (rest : List Char) :
    ∃ inWord' last', normalizeFrom 0 true last (exponent ++ rest) =
      exponent ++ normalizeFrom 0 inWord' last' rest := by
  cases hexponent with
  | absent => exact ⟨true, last, rfl⟩
  | @power letter sign digits hletter hsign hdigits =>
      have hchar : isWordChar letter = true := by
        rcases hletter with rfl | rfl <;> decide
      have hword : ∀ c ∈ [letter], isWordChar c = true := List.forall_mem_singleton.mpr hchar
      obtain ⟨last₁, hfirst⟩ := normalizeFrom_word hword last (sign ++ (digits ++ rest))
      obtain ⟨inWord, last₂, hsecond⟩ := normalizeFrom_others (sign_other hsign) true last₁ (digits ++ rest)
      obtain ⟨last₃, hthird⟩ := normalizeFrom_digits hdigits inWord last₂ rest
      refine ⟨true, last₃, ?_⟩
      simp only [List.cons_append, List.nil_append, List.append_assoc] at hfirst ⊢
      rw [hfirst, hsecond, hthird]

theorem normalizeFrom_fraction {fraction : List Char} (hfraction : IsFraction fraction)
    (last : Option Char) (rest : List Char) :
    ∃ last', normalizeFrom 0 true last (fraction ++ rest) =
      fraction ++ normalizeFrom 0 true last' rest := by
  cases hfraction with
  | absent => exact ⟨last, rfl⟩
  | @point digits hdigits =>
      obtain ⟨last', hrest⟩ := normalizeFrom_digits hdigits (isWordChar '.') (some '.') rest
      refine ⟨last', ?_⟩
      rw [List.cons_append, normalizeFrom_other (by decide) (by decide),
        if_neg (show ¬ Text.isBlank '.' = true by decide), hrest]
      rfl

theorem normalizeFrom_unsigned {text : List Char} (htext : IsUnsigned text) (inWord : Bool)
    (last : Option Char) (rest : List Char) :
    ∃ inWord' last', normalizeFrom 0 inWord last (text ++ rest) =
      text ++ normalizeFrom 0 inWord' last' rest := by
  obtain ⟨⟨hwhole, -⟩, hscale⟩ := htext
  obtain ⟨hfraction, hexponent⟩ := hscale
  rename_i fraction exponent
  obtain ⟨last₁, hfirst⟩ := normalizeFrom_digits hwhole inWord last (fraction ++ (exponent ++ rest))
  obtain ⟨last₂, hsecond⟩ := normalizeFrom_fraction hfraction last₁ (exponent ++ rest)
  obtain ⟨inWord', last₃, hthird⟩ := normalizeFrom_exponent hexponent last₂ rest
  refine ⟨inWord', last₃, ?_⟩
  simp only [List.append_assoc]
  rw [hfirst, hsecond, hthird]

/-! ## Values -/

theorem becomes_word {text : List Char}
    (htext : text ∈ [['n', 'u', 'l', 'l'], ['t', 'r', 'u', 'e'], ['f', 'a', 'l', 's', 'e']])
    (last : Option Char) : Becomes last text text := by
  simp only [List.mem_cons, List.not_mem_nil, or_false] at htext
  rcases htext with rfl | rfl | rfl <;>
    exact .constant rfl (List.all_eq_true.mp rfl) last

theorem becomes_number {sign text : List Char} (hsign : sign ∈ [[], ['-']])
    (htext : IsUnsigned text) (last : Option Char) : Becomes last (sign ++ text) (sign ++ text) := by
  refine .of_inWord fun rest _ => ?_
  have hsymbol : sign ∈ [[], ['+'], ['-']] := by
    simp only [List.mem_cons, List.not_mem_nil, or_false] at hsign ⊢
    exact hsign.imp_right Or.inr
  obtain ⟨inWord₁, last₁, hfirst⟩ := normalizeFrom_others (sign_other hsymbol) false last (text ++ rest)
  obtain ⟨inWord₂, last₂, hsecond⟩ := normalizeFrom_unsigned htext inWord₁ last₁ rest
  refine ⟨inWord₂, last₂, ?_⟩
  simp only [List.append_assoc]
  rw [hfirst, hsecond]

theorem becomes_string {content body : List Char} (hspells : Spells '"' content body)
    (last : Option Char) : Becomes last ('"' :: (body ++ ['"'])) ('"' :: (body ++ ['"'])) := by
  refine .of_inWord fun rest _ => ?_
  refine ⟨false, some '"', ?_⟩
  simpa using normalizeFrom_copied rfl (copyString_strict hspells rest) false last

theorem keyBecomes_string {name body : List Char} (hspells : Spells '"' name body)
    (last : Option Char) : KeyBecomes last ('"' :: (body ++ ['"'])) ('"' :: (body ++ ['"'])) := by
  intro lead tail _
  refine ⟨false, some '"', ?_⟩
  simpa using normalizeFrom_copied rfl (copyString_strict hspells (lead ++ ':' :: tail)) false last

mutual

/-- **The pass leaves the text of a value as it is.** -/
theorem becomes_value {text : List Char} : IsValue text → ∀ last, Becomes last text text
  | .word htext, last => becomes_word htext last
  | .number hsign htext, last => becomes_number hsign htext last
  | .string hspells, last => becomes_string hspells last
  | .emptyArray hgap, last => (Becomes.gap hgap (some '[')).bracketed (by decide) (Or.inl rfl) last
  | .array hitems, last => (becomes_items hitems (some '[')).bracketed (by decide) (Or.inl rfl) last
  | .emptyObject hgap, last => (Becomes.gap hgap (some '{')).bracketed (by decide) (Or.inr rfl) last
  | .object hmembers, last =>
      (becomes_members hmembers (some '{')).bracketed (by decide) (Or.inr rfl) last

theorem becomes_items {text : List Char} : AreItems text → ∀ last, Becomes last text text
  | .last hlead hitem htrail, last => (becomes_value hitem last).last hlead htrail
  | .more hlead hitem htrail hitems, last =>
      (becomes_value hitem last).more hlead htrail (becomes_items hitems (some ','))

theorem becomes_member {text : List Char} : IsMember text → ∀ last, Becomes last text text
  | .mk hspells hlead htrail hitem, last => by
      have hvalue := becomes_value hitem (some ':')
      simpa using hvalue.member (keyBecomes_string hspells last) hlead htrail

theorem becomes_members {text : List Char} : AreMembers text → ∀ last, Becomes last text text
  | .last hlead hmember htrail, last => (becomes_member hmember last).last hlead htrail
  | .more hlead hmember htrail hmembers, last =>
      (becomes_member hmember last).more hlead htrail (becomes_members hmembers (some ','))

end

/-- **Relaxed reading extends strict reading.**  A text that is JSON stays as it is, and it is
read as the value that it has as JSON. -/
theorem read_of_strict {text : List Char} {value : Json} (hread : Json.read text = .ok value) :
    normalize text = text ∧ read text = .ok value := by
  obtain ⟨lead, front, trail, hlead, hfront, htrail, rfl⟩ := Json.exists_isValue_of_read hread
  have hsame := normalize_of_becomes (becomes_value hfront none) hlead htrail
  refine ⟨hsame, ?_⟩
  rw [read, hsame, Json.ofText, hread]
  rfl

/-- Keywords in an array, an exponent, and strings that look like a call, like a relaxed object
and like an end of the string. -/
theorem read_of_strict_lookalikes :
    let text :=
      " [null , 0E+9999999999,true, \x7b \"ObjectId(\": \"\x7b'a': \\\"b\\\\\" \x7d\n] ".toList
    let value : Json := .array [.null, .number (.float (Double.zero false)), .bool true,
      .object [("ObjectId(", .string "\x7b'a': \"b\\")]]
    Json.read text = .ok value ∧ normalize text = text ∧ read text = .ok value := by
  intro text value
  have hread : Json.read text = .ok value := by rfl
  exact ⟨hread, read_of_strict hread⟩

end DocShell.Literal
