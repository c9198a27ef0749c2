import DocShell.Literal.Relaxed

/-!
# How literals are written

A JSON value has many texts.  `Written` relates a value to all of them, in one of
two styles: strict JSON, and the relaxed style in which strings may stand in single
quotes, keys may stand without quotes, and the wrapper of an object id may be a
call.  The relation knows nothing of the readers; what they make of such a text is
said elsewhere.

A text is built from pieces with gaps of JSON blanks between them, and carries no
gap at its own ends.  What may follow a value in a larger text is `Closes`: a gap,
and then the end, a comma or a closing bracket.
-/

namespace DocShell.Literal

open Json (isSpace hexUnit? isHighSurrogate isLowSurrogate)

/-- Blanks of JSON and nothing else. -/
def IsGap (text : List Char) : Prop :=
  ∀ c ∈ text, isSpace c = true

/-! ## Strings -/

/-- The letters behind a backslash, with the characters that they stand for. -/
def shortEscapes : List (Char × Char) :=
  [('"', '"'), ('\\', '\\'), ('/', '/'), ('b', '\x08'), ('f', '\x0c'), ('n', '\n'),
    ('r', '\r'), ('t', '\t')]

/-- The ways to write the content of a string between two quotes.  A character
stands for itself or is escaped; the quote itself, the backslash and the control
characters have to be escaped.  `\'` is an escape between single quotes only. -/
inductive Spells (quote : Char) : List Char → List Char → Prop
  | nil : Spells quote [] []
  | raw {c : Char} {content body : List Char} :
      c ≠ quote → c ≠ '\\' → 0x20 ≤ c.toNat → Spells quote content body →
      Spells quote (c :: content) (c :: body)
  | short {letter c : Char} {content body : List Char} :
      (letter, c) ∈ shortEscapes → Spells quote content body →
      Spells quote (c :: content) ('\\' :: letter :: body)
  | unit {d₁ d₂ d₃ d₄ c : Char} {content body : List Char} :
      hexUnit? d₁ d₂ d₃ d₄ = some c.toNat → Spells quote content body →
      Spells quote (c :: content) ('\\' :: 'u' :: d₁ :: d₂ :: d₃ :: d₄ :: body)
  | pair {d₁ d₂ d₃ d₄ e₁ e₂ e₃ e₄ c : Char} {high low : Nat} {content body : List Char} :
      hexUnit? d₁ d₂ d₃ d₄ = some high → hexUnit? e₁ e₂ e₃ e₄ = some low →
      isHighSurrogate high = true → isLowSurrogate low = true →
      c.toNat = 0x10000 + (high - 0xD800) * 0x400 + (low - 0xDC00) →
      Spells quote content body →
      Spells quote (c :: content)
        ('\\' :: 'u' :: d₁ :: d₂ :: d₃ :: d₄ :: '\\' :: 'u' :: e₁ :: e₂ :: e₃ :: e₄ :: body)
  | apostrophe {content body : List Char} :
      quote = '\'' → Spells quote content body →
      Spells quote ('\'' :: content) ('\\' :: '\'' :: body)

/-! ## Values -/

/-- How freely a literal is written. -/
inductive Style where
  | json
  | relaxed
  deriving DecidableEq

/-- The quotes that a style allows. -/
def Style.Quotes (style : Style) (quote : Char) : Prop :=
  quote = '"' ∨ style = .relaxed ∧ quote = '\''

/-- The ways to write a key: as a string, or in the relaxed style as a bare word. -/
inductive WrittenKey (style : Style) : List Char → List Char → Prop
  | quoted {quote : Char} {name body : List Char} :
      style.Quotes quote → Spells quote name body →
      WrittenKey style name (quote :: (body ++ [quote]))
  | bare {c : Char} {more : List Char} :
      style = .relaxed → isWordStart c = true → (∀ d ∈ more, isWordChar d = true) →
      WrittenKey style (c :: more) (c :: more)

mutual

/-- The ways to write a value. -/
inductive Written (style : Style) : Json → List Char → Prop
  | null : Written style .null ['n', 'u', 'l', 'l']
  | yes : Written style (.bool true) ['t', 'r', 'u', 'e']
  | no : Written style (.bool false) ['f', 'a', 'l', 's', 'e']
  | int {n : Int} :
      -9223372036854775808 ≤ n → n ≤ 18446744073709551615 →
      Written style (.number (.int n)) (Text.intDigits n)
  | string {quote : Char} {content body : List Char} :
      style.Quotes quote → Spells quote content body →
      Written style (.string (String.ofList content)) (quote :: (body ++ [quote]))
  | emptyArray {gap : List Char} :
      IsGap gap → Written style (.array []) ('[' :: (gap ++ [']']))
  | array {items : List Json} {text : List Char} :
      WrittenItems style items text → Written style (.array items) ('[' :: (text ++ [']']))
  | emptyObject {gap : List Char} :
      IsGap gap → Written style (.object []) ('{' :: (gap ++ ['}']))
  | object {members : List (String × Json)} {text : List Char} :
      (members.map Prod.fst).Nodup → WrittenMembers style members text →
      Written style (.object members) ('{' :: (text ++ ['}']))
  | call {quote : Char} {content gap₁ gap₂ gap₃ : List Char} :
      style = .relaxed → Text.isQuote quote = true →
      (∀ c ∈ content, Text.isQuote c = false ∧ c ≠ '\\') →
      IsGap gap₁ → IsGap gap₂ → IsGap gap₃ →
      Written style (.object [("$oid", .string (String.ofList content))])
        (objectIdName ++ (gap₁ ++ '(' :: (gap₂ ++ quote :: (content ++ quote :: (gap₃ ++ [')'])))))

/-- The ways to write the items between the brackets of an array. -/
inductive WrittenItems (style : Style) : List Json → List Char → Prop
  | last {item : Json} {lead text trail : List Char} :
      IsGap lead → Written style item text → IsGap trail →
      WrittenItems style [item] (lead ++ (text ++ trail))
  | more {item : Json} {items : List Json} {lead text trail rest : List Char} :
      IsGap lead → Written style item text → IsGap trail → WrittenItems style items rest →
      WrittenItems style (item :: items) (lead ++ (text ++ (trail ++ ',' :: rest)))

/-- The ways to write a member: its key, a colon and its value. -/
inductive WrittenMember (style : Style) : String × Json → List Char → Prop
  | mk {name key lead trail text : List Char} {item : Json} :
      WrittenKey style name key → IsGap lead → IsGap trail → Written style item text →
      WrittenMember style (String.ofList name, item) (key ++ (lead ++ ':' :: (trail ++ text)))

/-- The ways to write the members between the braces of an object. -/
inductive WrittenMembers (style : Style) : List (String × Json) → List Char → Prop
  | last {member : String × Json} {lead text trail : List Char} :
      IsGap lead → WrittenMember style member text → IsGap trail →
      WrittenMembers style [member] (lead ++ (text ++ trail))
  | more {member : String × Json} {members : List (String × Json)}
      {lead text trail rest : List Char} :
      IsGap lead → WrittenMember style member text → IsGap trail →
      WrittenMembers style members rest →
      WrittenMembers style (member :: members) (lead ++ (text ++ (trail ++ ',' :: rest)))

end

/-- What may follow a value: a gap, and then the end, a comma or a closing bracket. -/
def Closes (text : List Char) : Prop :=
  ∃ gap tail, IsGap gap ∧ text = gap ++ tail ∧
    ∀ c ∈ tail.head?, c = ',' ∨ c = ']' ∨ c = '}'

theorem isGap_nil : IsGap [] := by
  simp [IsGap]

theorem isGap_cons {c : Char} {gap : List Char} :
    IsGap (c :: gap) ↔ isSpace c = true ∧ IsGap gap := by
  simp [IsGap]

theorem closes_gap {gap : List Char} (hgap : IsGap gap) : Closes gap :=
  ⟨gap, [], hgap, (List.append_nil gap).symm, by simp⟩

theorem closes_mark {gap rest : List Char} {mark : Char} (hgap : IsGap gap)
    (hmark : mark = ',' ∨ mark = ']' ∨ mark = '}') : Closes (gap ++ mark :: rest) :=
  ⟨gap, mark :: rest, hgap, rfl, by simpa using hmark⟩

theorem Closes.gap {gap rest : List Char} (hrest : Closes rest) (hgap : IsGap gap) :
    Closes (gap ++ rest) := by
  obtain ⟨inner, tail, hinner, rfl, htail⟩ := hrest
  refine ⟨gap ++ inner, tail, ?_, (List.append_assoc gap inner tail).symm, htail⟩
  intro c hc
  rcases List.mem_append.mp hc with hc | hc
  · exact hgap c hc
  · exact hinner c hc

/-- The text is over, or goes on with a blank or a mark, so nothing of it belongs to
a word or number in front. -/
theorem Closes.head {text : List Char} (hcloses : Closes text) :
    ∀ c ∈ text.head?, isSpace c = true ∨ c = ',' ∨ c = ']' ∨ c = '}' := by
  obtain ⟨gap, tail, hgap, rfl, htail⟩ := hcloses
  cases gap with
  | nil => exact fun c hc => Or.inr (htail c hc)
  | cons d gap =>
      intro c hc
      simp only [List.cons_append, List.head?_cons, Option.mem_def, Option.some.injEq] at hc
      exact Or.inl (hc ▸ (isGap_cons.mp hgap).1)

/-! ## Kinds of characters -/

theorem ne_of_isQuote {quote c : Char} (hquote : Text.isQuote quote = true)
    (hc : Text.isQuote c = false) : c ≠ quote := by
  rintro rfl
  rw [hquote] at hc
  contradiction

theorem isBlank_of_isQuote {quote : Char} (hquote : Text.isQuote quote = true) :
    Text.isBlank quote = false := by
  simp only [Text.isQuote, Bool.or_eq_true, beq_iff_eq] at hquote
  rcases hquote with rfl | rfl <;> rfl

theorem isBlank_of_isSpace {c : Char} (hspace : isSpace c = true) : Text.isBlank c = true := by
  simp only [isSpace, Bool.or_eq_true, beq_iff_eq] at hspace
  rcases hspace with ((rfl | rfl) | rfl) | rfl <;> rfl

theorem isWordChar_of_isWordStart {c : Char} (hc : isWordStart c = true) :
    isWordChar c = true := by
  simp only [isWordStart, isWordChar, Char.isAlphanum, Bool.or_eq_true] at hc ⊢
  rcases hc with (hletter | hc) | hc
  · exact Or.inl (Or.inl (Or.inl hletter))
  · exact Or.inl (Or.inr hc)
  · exact Or.inr hc

theorem isBlank_eq_false_of_le {c : Char} (hlow : 0x21 ≤ c.toNat) (hhigh : c.toNat ≤ 0x7e) :
    Text.isBlank c = false := by
  simp only [Text.isBlank, Bool.or_eq_false_iff, Bool.and_eq_false_iff, decide_eq_false_iff_not,
    beq_eq_false_iff_ne]
  omega

theorem isWordChar_of_isDigit {c : Char} (hc : c.isDigit = true) : isWordChar c = true := by
  simp [isWordChar, Char.isAlphanum, hc]

/-- The characters of words are printed ones of ASCII. -/
theorem range_of_isWordChar {c : Char} (hc : isWordChar c = true) :
    0x21 ≤ c.toNat ∧ c.toNat ≤ 0x7e := by
  delta isWordChar Char.isAlphanum Char.isAlpha Char.isUpper Char.isLower Char.isDigit at hc
  simp only [Bool.or_eq_true, Bool.and_eq_true, decide_eq_true_eq, beq_iff_eq,
    UInt32.le_iff_toNat_le, ge_iff_le, Char.toNat_val, Char.reduceToNat] at hc
  rcases hc with (((hc | hc) | hc) | rfl) | rfl
  · omega
  · omega
  · omega
  · decide
  · decide

theorem isBlank_of_isWordChar {c : Char} (hc : isWordChar c = true) :
    Text.isBlank c = false := by
  obtain ⟨hlow, hhigh⟩ := range_of_isWordChar hc
  exact isBlank_eq_false_of_le hlow hhigh

theorem isQuote_of_isWordChar {c : Char} (hc : isWordChar c = true) :
    Text.isQuote c = false := by
  have hne : c ≠ '"' ∧ c ≠ '\'' := by
    constructor <;> rintro rfl <;> exact absurd hc (by decide)
  simp [Text.isQuote, hne]

/-! ## Pieces of strings -/

theorem hexValue?_plain {c : Char} {n : Nat} (hvalue : Text.hexValue? c = some n) :
    Text.isQuote c = false ∧ c ≠ '\\' := by
  have hne : c ≠ '"' ∧ c ≠ '\'' ∧ c ≠ '\\' := by
    refine ⟨?_, ?_, ?_⟩ <;> rintro rfl <;> simp [Text.hexValue?] at hvalue
  simp [Text.isQuote, hne]

/-- The digits of an escape are neither quotes nor backslashes. -/
theorem hexUnit?_plain {d₁ d₂ d₃ d₄ : Char} {n : Nat} (hunit : hexUnit? d₁ d₂ d₃ d₄ = some n) :
    ∀ c ∈ [d₁, d₂, d₃, d₄], Text.isQuote c = false ∧ c ≠ '\\' := by
  unfold hexUnit? at hunit
  simp only [bind, Option.bind_eq_some_iff] at hunit
  obtain ⟨v₁, h₁, v₂, h₂, v₃, h₃, v₄, h₄, -⟩ := hunit
  intro c hc
  simp only [List.mem_cons, List.not_mem_nil, or_false] at hc
  rcases hc with rfl | rfl | rfl | rfl
  · exact hexValue?_plain h₁
  · exact hexValue?_plain h₂
  · exact hexValue?_plain h₃
  · exact hexValue?_plain h₄

/-- Without quotes, backslashes and control characters a content stands for itself. -/
theorem spells_raw (quote : Char) {content : List Char}
    (hraw : ∀ c ∈ content, c ≠ quote ∧ c ≠ '\\' ∧ 0x20 ≤ c.toNat) :
    Spells quote content content := by
  induction content with
  | nil => exact .nil
  | cons c content ih =>
      obtain ⟨hquote, hslash, hprint⟩ := hraw c List.mem_cons_self
      exact .raw hquote hslash hprint (ih fun d hd => hraw d (List.mem_cons_of_mem c hd))

/-! ## The ends of a text -/

/-- The first character of some value. -/
def OpensValue (c : Char) : Prop :=
  c ∈ ['n', 't', 'f', '"', '\'', '-', '[', '{', 'O'] ∨ c.isDigit = true

theorem Style.Quotes.isQuote {style : Style} {quote : Char} (hquote : style.Quotes quote) :
    Text.isQuote quote = true := by
  rcases hquote with rfl | ⟨-, rfl⟩ <;> rfl

theorem Style.Quotes.eq_or {style : Style} {quote : Char} (hquote : style.Quotes quote) :
    quote = '"' ∨ quote = '\'' := by
  rcases hquote with h | ⟨-, h⟩
  · exact Or.inl h
  · exact Or.inr h

theorem isDigit_of_mem_natDigits {n : Nat} {c : Char} (hc : c ∈ Text.natDigits n) :
    c.isDigit = true :=
  Nat.isDigit_of_mem_toDigits (by decide) (by decide) hc

theorem mem_intDigits {n : Int} {c : Char} (hc : c ∈ Text.intDigits n) :
    c = '-' ∨ c.isDigit = true := by
  unfold Text.intDigits at hc
  split at hc
  · rcases List.mem_cons.mp hc with hc | hc
    · exact Or.inl hc
    · exact Or.inr (isDigit_of_mem_natDigits hc)
  · exact Or.inr (isDigit_of_mem_natDigits hc)

theorem intDigits_ne_nil (n : Int) : Text.intDigits n ≠ [] := by
  unfold Text.intDigits
  split
  · exact List.cons_ne_nil _ _
  · exact Nat.toDigits_ne_nil

theorem Written.head {style : Style} {value : Json} {text : List Char}
    (hwritten : Written style value text) : ∃ c more, text = c :: more ∧ OpensValue c := by
  cases hwritten with
  | null | yes | no | emptyArray | array | emptyObject | object | call =>
      exact ⟨_, _, rfl, Or.inl (by decide)⟩
  | @int n =>
      cases htext : Text.intDigits n with
      | nil => exact absurd htext (intDigits_ne_nil n)
      | cons c more =>
          refine ⟨c, more, rfl, ?_⟩
          rcases mem_intDigits (htext ▸ List.mem_cons_self : c ∈ Text.intDigits n) with rfl | hc
          · exact Or.inl (by decide)
          · exact Or.inr hc
  | string hquote =>
      refine ⟨_, _, rfl, Or.inl ?_⟩
      rcases hquote.eq_or with rfl | rfl <;> decide

theorem OpensValue.isBlank_eq {c : Char} (hopens : OpensValue c) : Text.isBlank c = false := by
  rcases hopens with hc | hc
  · simp only [List.mem_cons, List.not_mem_nil, or_false] at hc
    rcases hc with rfl | rfl | rfl | rfl | rfl | rfl | rfl | rfl | rfl <;> decide
  · exact isBlank_of_isWordChar (isWordChar_of_isDigit hc)

theorem OpensValue.isSpace_eq {c : Char} (hopens : OpensValue c) : isSpace c = false := by
  cases hspace : isSpace c with
  | false => rfl
  | true =>
      have hblank := isBlank_of_isSpace hspace
      rw [hopens.isBlank_eq] at hblank
      contradiction

theorem Written.last {style : Style} {value : Json} {text : List Char}
    (hwritten : Written style value text) : ∀ c ∈ text.getLast?, Text.isBlank c = false := by
  have hconcat : ∀ (front : List Char) {c : Char}, Text.isBlank c = false →
      ∀ d ∈ (front ++ [c]).getLast?, Text.isBlank d = false := by
    intro front c hc d hd
    rw [List.getLast?_concat] at hd
    cases hd
    exact hc
  cases hwritten with
  | null => exact hconcat ['n', 'u', 'l'] rfl
  | yes => exact hconcat ['t', 'r', 'u'] rfl
  | no => exact hconcat ['f', 'a', 'l', 's'] rfl
  | @int n =>
      intro c hc
      rcases mem_intDigits (List.mem_of_getLast? hc) with rfl | hdigit
      · decide
      · exact isBlank_of_isWordChar (isWordChar_of_isDigit hdigit)
  | @string quote content body hquote _ =>
      exact hconcat (quote :: body) (isBlank_of_isQuote hquote.isQuote)
  | emptyArray | array => exact hconcat ('[' :: _) (by decide)
  | emptyObject | object => exact hconcat ('{' :: _) (by decide)
  | @call quote content gap₁ gap₂ gap₃ =>
      have hparen := hconcat (objectIdName ++
        (gap₁ ++ '(' :: (gap₂ ++ quote :: (content ++ quote :: gap₃)))) (c := ')') (by decide)
      simpa only [List.append_assoc, List.cons_append] using hparen

end DocShell.Literal
