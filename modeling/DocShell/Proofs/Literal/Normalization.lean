import DocShell.Proofs.Literal.Grammar

/-!
# From relaxed literals to JSON

Normalizing a relaxed writing of a value gives a strict writing of the same value.
No output is computed here: for each piece of a relaxed text some strict text of the
same piece exists, and the pass writes that one.

## Strategy

* **The pass goes on behind the piece.**  What is written for a value depends neither
  on the last character in front of it nor on what stands behind it, if only
  something that can follow a value does (`Closes`).  Only a bare key needs one of
  the characters that a key may stand behind; the braces and commas of an object
  provide it.
* **The word boundary.**  Behind a piece no word can start, so the pass does not care
  any more whether it stands inside a word (`normalizeFrom_inWord`), and the
  statements may leave that out.
* **Strings.**  `copyString` keeps the content, whatever it looks like: the escapes
  of the copy need not be those of the original.
* **Words.**  A key is not taken for a call, because a colon follows it and no
  parenthesis; the three constants are not taken for keys, because no colon follows.
-/

namespace DocShell.Literal

open Json (isSpace)

/-! ## Steps of the pass -/

/-- Dealt with characters are passed over. -/
theorem normalizeFrom_skip (skipped rest : List Char) (inWord : Bool) (last : Option Char) :
    ∃ inWord', normalizeFrom skipped.length inWord last (skipped ++ rest) =
      normalizeFrom 0 inWord' last rest := by
  induction skipped generalizing inWord with
  | nil => exact ⟨inWord, rfl⟩
  | cons c skipped ih =>
      obtain ⟨inWord', hskip⟩ := ih (isWordChar c)
      exact ⟨inWord', by rw [← hskip]; rfl⟩

/-- Behind dealt with characters the last of them tells whether a word goes on. -/
theorem normalizeFrom_skip_concat (skipped rest : List Char) (c : Char) (inWord : Bool)
    (last : Option Char) :
    normalizeFrom (skipped ++ [c]).length inWord last (skipped ++ c :: rest) =
      normalizeFrom 0 (isWordChar c) last rest := by
  induction skipped generalizing inWord with
  | nil => rfl
  | cons d skipped ih => exact ih (isWordChar d)

theorem normalizeFrom_other {c : Char} (hquote : Text.isQuote c = false)
    (hstart : isWordStart c = false) (inWord : Bool) (last : Option Char) (rest : List Char) :
    normalizeFrom 0 inWord last (c :: rest) =
      c :: normalizeFrom 0 (isWordChar c) (if Text.isBlank c then last else some c) rest := by
  rw [normalizeFrom, hquote, hstart]
  rfl

/-- Where no word starts, it does not matter whether one ends. -/
theorem normalizeFrom_inWord {rest : List Char}
    (hrest : ∀ c ∈ rest.head?, isWordStart c = false) (inWord inWord' : Bool)
    (last : Option Char) :
    normalizeFrom 0 inWord last rest = normalizeFrom 0 inWord' last rest := by
  cases rest with
  | nil => rfl
  | cons c rest =>
      have hstart : isWordStart c = false := hrest c rfl
      simp only [normalizeFrom, hstart, Bool.false_and, Bool.false_eq_true, if_false]

theorem not_word_of_isSpace {c : Char} (hspace : isSpace c = true) :
    Text.isQuote c = false ∧ isWordStart c = false ∧ isWordChar c = false := by
  simp only [isSpace, Bool.or_eq_true, beq_iff_eq] at hspace
  rcases hspace with ((rfl | rfl) | rfl) | rfl <;> decide

theorem normalizeFrom_gap {gap : List Char} (hgap : IsGap gap) (last : Option Char)
    (rest : List Char) :
    normalizeFrom 0 false last (gap ++ rest) = gap ++ normalizeFrom 0 false last rest := by
  induction gap with
  | nil => rfl
  | cons c gap ih =>
      obtain ⟨hspace, hgap⟩ := isGap_cons.mp hgap
      obtain ⟨hquote, hstart, hchar⟩ := not_word_of_isSpace hspace
      rw [List.cons_append, normalizeFrom_other hquote hstart, hchar,
        if_pos (isBlank_of_isSpace hspace), ih hgap, List.cons_append]

/-- The marks between the values of a text. -/
def punctuation : List Char :=
  [',', ':', '[', ']', '{', '}']

theorem normalizeFrom_mark {c : Char} (hc : c ∈ punctuation) (inWord : Bool)
    (last : Option Char) (rest : List Char) :
    normalizeFrom 0 inWord last (c :: rest) = c :: normalizeFrom 0 false (some c) rest := by
  have hmark : Text.isQuote c = false ∧ isWordStart c = false ∧ isWordChar c = false ∧
      Text.isBlank c = false := by
    simp only [punctuation, List.mem_cons, List.not_mem_nil, or_false] at hc
    rcases hc with rfl | rfl | rfl | rfl | rfl | rfl <;> decide
  obtain ⟨hquote, hstart, hchar, hblank⟩ := hmark
  rw [normalizeFrom_other hquote hstart, hchar, hblank]
  rfl

/-- The characters that follow a value belong to no word. -/
theorem isWordChar_of_closes {rest : List Char} (hrest : Closes rest) :
    ∀ c ∈ rest.head?, isWordChar c = false := by
  intro c hc
  rcases hrest.head c hc with hspace | rfl | rfl | rfl
  · exact (not_word_of_isSpace hspace).2.2
  all_goals decide

theorem isWordStart_of_not_isWordChar {c : Char} (hc : isWordChar c = false) :
    isWordStart c = false := by
  cases hstart : isWordStart c with
  | false => rfl
  | true => rw [isWordChar_of_isWordStart hstart] at hc; contradiction

/-! ## Strings -/

theorem copyString_close {quote : Char} (hquote : Text.isQuote quote = true)
    (rest : List Char) : copyString quote (quote :: rest) = (['"'], rest) := by
  simp only [Text.isQuote, Bool.or_eq_true, beq_iff_eq] at hquote
  rcases hquote with rfl | rfl <;> simp [copyString]

theorem copyString_raw {quote c : Char} (hclose : c ≠ quote) (hslash : c ≠ '\\')
    (rest : List Char) :
    copyString quote (c :: rest) =
      ((if c = '"' then ['\\', '"'] else [c]) ++ (copyString quote rest).1,
        (copyString quote rest).2) := by
  rw [copyString]
  · by_cases hc : c = '"'
    · subst hc
      simp [hclose]
    · simp [hclose, hc]
  · simp_all
  · simp_all

theorem copyString_escape (quote c : Char) (rest : List Char) :
    copyString quote ('\\' :: c :: rest) =
      ((if c = '\'' ∧ quote = '\'' then [c] else ['\\', c]) ++ (copyString quote rest).1,
        (copyString quote rest).2) := by
  rw [copyString]
  by_cases hc : c = '\'' ∧ quote = '\''
  · simp [hc]
  · simp only [Bool.and_eq_true, beq_iff_eq, if_neg hc]
    rfl

theorem copyString_plain {quote : Char} (hquote : Text.isQuote quote = true)
    {plain : List Char} (hplain : ∀ c ∈ plain, Text.isQuote c = false ∧ c ≠ '\\')
    (rest : List Char) :
    copyString quote (plain ++ rest) =
      (plain ++ (copyString quote rest).1, (copyString quote rest).2) := by
  induction plain with
  | nil => rfl
  | cons c plain ih =>
      obtain ⟨hc, hslash⟩ := hplain c List.mem_cons_self
      have hdouble : c ≠ '"' := by
        rintro rfl
        contradiction
      rw [List.cons_append, copyString_raw (ne_of_isQuote hquote hc) hslash, if_neg hdouble,
        ih fun d hd => hplain d (List.mem_cons_of_mem c hd)]
      rfl

/-- **A copied string has the content of the original.** -/
theorem copyString_spells {quote : Char} {content body : List Char}
    (hquote : Text.isQuote quote = true) (hspells : Spells quote content body) :
    ∃ copied, Spells '"' content copied ∧ ∀ rest,
      copyString quote (body ++ quote :: rest) = (copied ++ ['"'], rest) := by
  induction hspells with
  | nil => exact ⟨[], .nil, fun rest => copyString_close hquote rest⟩
  | @raw c content body hclose hslash hprint _ ih =>
      obtain ⟨copied, hcopied, hcopy⟩ := ih
      -- A double quote needs no escape between single quotes, but it does in the copy.
      by_cases hc : c = '"'
      · subst hc
        refine ⟨'\\' :: '"' :: copied, .short (by decide) hcopied, fun rest => ?_⟩
        rw [List.cons_append, copyString_raw hclose hslash, hcopy]
        rfl
      · refine ⟨c :: copied, .raw hc hslash hprint hcopied, fun rest => ?_⟩
        rw [List.cons_append, copyString_raw hclose hslash, hcopy, if_neg hc]
        rfl
  | @short letter c content body hmem _ ih =>
      obtain ⟨copied, hcopied, hcopy⟩ := ih
      refine ⟨'\\' :: letter :: copied, .short hmem hcopied, fun rest => ?_⟩
      -- No short escape is `\'`, the one that loses its backslash.
      have hletter : letter ≠ '\'' := by
        rintro rfl
        simp [shortEscapes] at hmem
      rw [List.cons_append, List.cons_append, copyString_escape, hcopy,
        if_neg fun h => hletter h.1]
      rfl
  | @unit d₁ d₂ d₃ d₄ c content body hunit _ ih =>
      obtain ⟨copied, hcopied, hcopy⟩ := ih
      refine ⟨_, .unit hunit hcopied, fun rest => ?_⟩
      have hdigits := copyString_plain hquote (hexUnit?_plain hunit) (body ++ quote :: rest)
      rw [hcopy] at hdigits
      simp only [List.cons_append, List.nil_append] at hdigits ⊢
      rw [copyString_escape, hdigits, if_neg (by simp)]
      rfl
  | @pair d₁ d₂ d₃ d₄ e₁ e₂ e₃ e₄ c high low content body hd he hhigh hlow hc _ ih =>
      obtain ⟨copied, hcopied, hcopy⟩ := ih
      refine ⟨_, .pair hd he hhigh hlow hc hcopied, fun rest => ?_⟩
      have hsecond := copyString_plain hquote (hexUnit?_plain he) (body ++ quote :: rest)
      have hfirst := copyString_plain hquote (hexUnit?_plain hd)
        ('\\' :: 'u' :: e₁ :: e₂ :: e₃ :: e₄ :: (body ++ quote :: rest))
      rw [hcopy] at hsecond
      simp only [List.cons_append, List.nil_append] at hsecond hfirst ⊢
      rw [copyString_escape, hsecond, if_neg (by simp)] at hfirst
      rw [copyString_escape, hfirst, if_neg (by simp)]
      rfl
  | apostrophe hsingle _ ih =>
      obtain ⟨copied, hcopied, hcopy⟩ := ih
      refine ⟨'\'' :: copied, .raw (by decide) (by decide) (by decide) hcopied, fun rest => ?_⟩
      rw [List.cons_append, List.cons_append, copyString_escape, hcopy, if_pos ⟨rfl, hsingle⟩]
      rfl

/-- Behind the copy of a string the pass goes on behind the string. -/
theorem normalizeFrom_copied {quote : Char} {body copied rest : List Char}
    (hquote : Text.isQuote quote = true)
    (hcopy : copyString quote (body ++ quote :: rest) = (copied ++ ['"'], rest))
    (inWord : Bool) (last : Option Char) :
    normalizeFrom 0 inWord last (quote :: (body ++ quote :: rest)) =
      '"' :: (copied ++ '"' :: normalizeFrom 0 false (some '"') rest) := by
  have hlength : (body ++ quote :: rest).length - rest.length = (body ++ [quote]).length := by
    simp only [List.length_append, List.length_cons, List.length_nil]
    omega
  -- A quote ends every word.
  have hword : isWordChar quote = false := by
    refine Bool.eq_false_iff.mpr fun hchar => ?_
    rw [isQuote_of_isWordChar hchar] at hquote
    cases hquote
  calc normalizeFrom 0 inWord last (quote :: (body ++ quote :: rest))
      = '"' :: (copied ++ ['"']) ++ normalizeFrom ((body ++ quote :: rest).length - rest.length)
          false (some '"') (body ++ quote :: rest) := by
        rw [normalizeFrom, if_pos hquote]
        simp only [hcopy]
    _ = '"' :: (copied ++ ['"']) ++ normalizeFrom 0 false (some '"') rest := by
        rw [hlength, normalizeFrom_skip_concat, hword]
    _ = '"' :: (copied ++ '"' :: normalizeFrom 0 false (some '"') rest) := by simp

theorem normalizeFrom_string {quote : Char} {content body : List Char}
    (hquote : Text.isQuote quote = true) (hspells : Spells quote content body) :
    ∃ copied, Spells '"' content copied ∧ ∀ inWord last rest, ∃ inWord' last',
      normalizeFrom 0 inWord last (quote :: (body ++ quote :: rest)) =
        '"' :: (copied ++ '"' :: normalizeFrom 0 inWord' last' rest) := by
  obtain ⟨copied, hcopied, hcopy⟩ := copyString_spells hquote hspells
  exact ⟨copied, hcopied, fun inWord last rest =>
    ⟨false, some '"', normalizeFrom_copied hquote (hcopy rest) inWord last⟩⟩

/-! ## Words -/

theorem trimStart_gap {gap : List Char} (hgap : IsGap gap) (rest : List Char) :
    Text.trimStart (gap ++ rest) = Text.trimStart rest :=
  Text.trimStart_append (fun c hc => isBlank_of_isSpace (hgap c hc)) rest

theorem head_trimStart_of_closes {rest : List Char} (hrest : Closes rest) :
    ∀ c ∈ (Text.trimStart rest).head?, c = ',' ∨ c = ']' ∨ c = '}' := by
  obtain ⟨gap, tail, hgap, rfl, htail⟩ := hrest
  rw [trimStart_gap hgap]
  cases tail with
  | nil => simp [Text.trimStart]
  | cons d tail =>
      have hd : d = ',' ∨ d = ']' ∨ d = '}' := htail d rfl
      have hblank : Text.isBlank d = false := by
        rcases hd with rfl | rfl | rfl <;> decide
      rw [Text.trimStart_cons hblank]
      exact htail

/-- Behind a word that is followed by no parenthesis there is no call. -/
theorem objectIdCall?_word {word tail : List Char} (hword : ∀ c ∈ word, isWordChar c = true)
    (htail : ∀ c ∈ tail.head?, isWordChar c = false)
    (hparen : (Text.trimStart tail).head? ≠ some '(') : objectIdCall? (word ++ tail) = none := by
  -- What stands behind the name is `tail`, or starts inside the word.
  have hbehind : ∀ after, word ++ tail = objectIdName ++ after →
      (Text.trimStart after).head? ≠ some '(' := by
    intro after heq
    rcases List.append_eq_append_iff.mp heq with ⟨name, hname, hafter⟩ | ⟨more, hmore, hafter⟩
    · cases name with
      | nil => rwa [← List.nil_append after, ← hafter]
      | cons c name =>
          have hall : ∀ d ∈ objectIdName, isWordChar d = true := List.all_eq_true.mp rfl
          have hc : isWordChar c = true := hall c (by rw [hname]; simp)
          have hnot : isWordChar c = false := htail c (by rw [hafter]; rfl)
          rw [hc] at hnot
          exact absurd hnot (by decide)
    · cases more with
      | nil => rwa [hafter]
      | cons c more =>
          have hc : isWordChar c = true := hword c (by rw [hmore]; simp)
          rw [hafter, List.cons_append, Text.trimStart_cons (isBlank_of_isWordChar hc)]
          intro hparen
          cases hparen
          exact absurd hc (by decide)
  rw [objectIdCall?]
  split
  · rfl
  · next after hafter =>
    have hne := hbehind after (Text.behind?_eq_some_iff.mp hafter)
    split
    · next afterParen hopen =>
      rw [hopen] at hne
      exact absurd rfl hne
    · rfl

theorem takeWhile_word {word tail : List Char} (hword : ∀ c ∈ word, isWordChar c = true)
    (htail : ∀ c ∈ tail.head?, isWordChar c = false) :
    (word ++ tail).takeWhile isWordChar = word ∧ (word ++ tail).dropWhile isWordChar = tail := by
  rw [List.takeWhile_append_of_pos hword, List.dropWhile_append_of_pos hword]
  cases tail with
  | nil => simp
  | cons c tail =>
      have hc : isWordChar c = false := htail c rfl
      simp [hc]

/-- Inside a word the pass copies. -/
theorem normalizeFrom_word {word : List Char} (hword : ∀ c ∈ word, isWordChar c = true)
    (last : Option Char) (rest : List Char) :
    ∃ last', normalizeFrom 0 true last (word ++ rest) =
      word ++ normalizeFrom 0 true last' rest := by
  induction word generalizing last with
  | nil => exact ⟨last, rfl⟩
  | cons c word ih =>
      have hc : isWordChar c = true := hword c List.mem_cons_self
      obtain ⟨last', hrest⟩ := ih (fun d hd => hword d (List.mem_cons_of_mem c hd))
        (if Text.isBlank c then last else some c)
      refine ⟨last', ?_⟩
      rw [List.cons_append, List.cons_append, ← hrest, normalizeFrom, isQuote_of_isWordChar hc,
        hc, Bool.not_true, Bool.and_false]
      rfl

/-- A constant such as `null` is copied: no parenthesis and no colon follows it. -/
theorem normalizeFrom_constant {c : Char} {more rest : List Char} (hstart : isWordStart c = true)
    (hmore : ∀ d ∈ more, isWordChar d = true) (hrest : Closes rest) (last : Option Char) :
    ∃ last', normalizeFrom 0 false last (c :: (more ++ rest)) =
      c :: (more ++ normalizeFrom 0 true last' rest) := by
  have hchar : isWordChar c = true := isWordChar_of_isWordStart hstart
  have hword : ∀ d ∈ c :: more, isWordChar d = true := List.forall_mem_cons.mpr ⟨hchar, hmore⟩
  have htail := isWordChar_of_closes hrest
  have hhead := head_trimStart_of_closes hrest
  have hcall : objectIdCall? (c :: (more ++ rest)) = none :=
    objectIdCall?_word hword htail fun hparen => by
      rcases hhead '(' hparen with h | h | h <;> contradiction
  have hkey : key? (c :: (more ++ rest)) = none := by
    have hdrop : (c :: (more ++ rest)).dropWhile isWordChar = rest := (takeWhile_word hword htail).2
    rw [key?, hdrop]
    split
    · next behind hcolon =>
      rcases hhead ':' (by rw [hcolon]; rfl) with h | h | h <;> contradiction
    · rfl
  obtain ⟨last', hcopy⟩ := normalizeFrom_word hmore (some c) rest
  refine ⟨last', ?_⟩
  rw [← hcopy, normalizeFrom, isQuote_of_isWordChar hchar, hstart, hcall, hkey]
  simp

/-- A word ends where blanks or a mark stand behind it. -/
theorem head_behind_blanks {lead : List Char} {mark : Char}
    (hlead : ∀ c ∈ lead, Text.isBlank c = true) (hmark : isWordChar mark = false)
    (tail : List Char) : ∀ c ∈ (lead ++ mark :: tail).head?, isWordChar c = false := by
  intro c hc
  cases lead with
  | nil =>
      cases hc
      exact hmark
  | cons d lead =>
      cases hc
      have hblank : Text.isBlank c = true := hlead c List.mem_cons_self
      cases hword : isWordChar c with
      | false => rfl
      | true =>
          rw [isBlank_of_isWordChar hword] at hblank
          cases hblank

/-- A bare key gets quotes where a key may stand. -/
theorem normalizeFrom_key {c : Char} {more lead : List Char} {last : Option Char}
    (hstart : isWordStart c = true) (hmore : ∀ d ∈ more, isWordChar d = true)
    (hlead : IsGap lead) (hlast : opensKey last = true) (tail : List Char) :
    ∃ inWord' last', normalizeFrom 0 false last (c :: (more ++ (lead ++ ':' :: tail))) =
      '"' :: c :: (more ++ '"' :: normalizeFrom 0 inWord' last' (lead ++ ':' :: tail)) := by
  have hchar : isWordChar c = true := isWordChar_of_isWordStart hstart
  have hword : ∀ d ∈ c :: more, isWordChar d = true := List.forall_mem_cons.mpr ⟨hchar, hmore⟩
  have htail := head_behind_blanks (fun c hc => isBlank_of_isSpace (hlead c hc))
    (by decide : isWordChar ':' = false) tail
  have hcolon : Text.trimStart (lead ++ ':' :: tail) = ':' :: tail := by
    rw [trimStart_gap hlead, Text.trimStart_cons (by decide)]
  have hcall : objectIdCall? (c :: (more ++ (lead ++ ':' :: tail))) = none :=
    objectIdCall?_word hword htail (by rw [hcolon]; simp)
  have hkey : key? (c :: (more ++ (lead ++ ':' :: tail))) = some (c :: more) := by
    obtain ⟨htake, hdrop⟩ := takeWhile_word hword htail
    rw [← List.cons_append, key?, hdrop, hcolon, htake]
    rfl
  obtain ⟨inWord', hskip⟩ :=
    normalizeFrom_skip more (lead ++ ':' :: tail) true (c :: more).getLast?
  refine ⟨inWord', (c :: more).getLast?, ?_⟩
  rw [← hskip, normalizeFrom, isQuote_of_isWordChar hchar, hstart, hcall, hlast, if_pos rfl, hkey]
  simp

/-! ## Numbers -/

theorem normalizeFrom_others {text : List Char}
    (htext : ∀ c ∈ text, Text.isQuote c = false ∧ isWordStart c = false) (inWord : Bool)
    (last : Option Char) (rest : List Char) :
    ∃ inWord' last', normalizeFrom 0 inWord last (text ++ rest) =
      text ++ normalizeFrom 0 inWord' last' rest := by
  induction text generalizing inWord last with
  | nil => exact ⟨inWord, last, rfl⟩
  | cons c text ih =>
      obtain ⟨hquote, hstart⟩ := htext c List.mem_cons_self
      obtain ⟨inWord', last', hrest⟩ := ih (fun d hd => htext d (List.mem_cons_of_mem c hd))
        (isWordChar c) (if Text.isBlank c then last else some c)
      refine ⟨inWord', last', ?_⟩
      rw [List.cons_append, normalizeFrom_other hquote hstart, hrest, List.cons_append]

theorem isWordStart_of_isDigit {c : Char} (hc : c.isDigit = true) : isWordStart c = false := by
  simp only [Char.isDigit, Bool.and_eq_true, decide_eq_true_eq, ge_iff_le,
    UInt32.le_iff_toNat_le, Char.toNat_val, Char.reduceToNat] at hc
  have hne : c ≠ '_' ∧ c ≠ '$' := by
    constructor <;> rintro rfl <;> revert hc <;> decide
  delta isWordStart Char.isAlpha Char.isUpper Char.isLower
  simp only [ge_iff_le, UInt32.le_iff_toNat_le, Char.toNat_val, Char.reduceToNat,
    Bool.or_eq_false_iff, Bool.and_eq_false_iff, decide_eq_false_iff_not, beq_eq_false_iff_ne]
  exact ⟨⟨by omega, hne.1⟩, hne.2⟩

theorem intDigits_other {n : Int} {c : Char} (hc : c ∈ Text.intDigits n) :
    Text.isQuote c = false ∧ isWordStart c = false := by
  rcases mem_intDigits hc with rfl | hdigit
  · decide
  · exact ⟨isQuote_of_isWordChar (isWordChar_of_isDigit hdigit), isWordStart_of_isDigit hdigit⟩

/-! ## Calls -/

theorem untilQuote_append {quote : Char} {content : List Char}
    (hcontent : ∀ c ∈ content, c ≠ quote) (rest : List Char) :
    untilQuote quote (content ++ quote :: rest) = some (content, rest) := by
  induction content with
  | nil => simp [untilQuote]
  | cons c content ih =>
      have hc : c ≠ quote := hcontent c List.mem_cons_self
      rw [List.cons_append, untilQuote, if_neg (by simpa using hc),
        ih fun d hd => hcontent d (List.mem_cons_of_mem c hd)]
      rfl

theorem objectIdCall?_call {quote : Char} {content gap₁ gap₂ gap₃ : List Char}
    (hquote : Text.isQuote quote = true) (hcontent : ∀ c ∈ content, Text.isQuote c = false)
    (hgap₁ : IsGap gap₁) (hgap₂ : IsGap gap₂) (hgap₃ : IsGap gap₃) (rest : List Char) :
    objectIdCall? (objectIdName ++ (gap₁ ++ '(' ::
      (gap₂ ++ quote :: (content ++ quote :: (gap₃ ++ ')' :: rest))))) = some (content, rest) := by
  have hbehind : ∀ after, Text.behind? objectIdName (objectIdName ++ after) = some after :=
    fun _ => Text.behind?_eq_some_iff.mpr rfl
  have huntil := untilQuote_append (fun c hc => ne_of_isQuote hquote (hcontent c hc))
    (gap₃ ++ ')' :: rest)
  rw [objectIdCall?, hbehind]
  simp only [trimStart_gap hgap₁, trimStart_gap hgap₂, trimStart_gap hgap₃,
    Text.trimStart_cons (show Text.isBlank '(' = false by decide),
    Text.trimStart_cons (show Text.isBlank ')' = false by decide),
    Text.trimStart_cons (isBlank_of_isQuote hquote), hquote, if_true, huntil]

theorem hexUnit?_control (n : Nat) (hn : n < 0x20) :
    Json.hexUnit? '0' '0' (Nat.digitChar (n / 16)) (Nat.digitChar (n % 16)) = some n := by
  revert n
  decide

theorem spells_escape (content : List Char) :
    Spells '"' content (content.flatMap Json.escape) := by
  induction content with
  | nil => exact .nil
  | cons c content ih =>
      rw [List.flatMap_cons]
      unfold Json.escape
      split
      case h_8 hdouble hslash _ _ _ _ _ =>
        split
        · next hcontrol =>
          have hbyte : (UInt8.ofNat c.toNat).toNat = c.toNat :=
            Nat.mod_eq_of_lt (Nat.lt_trans hcontrol (by decide))
          simp only [Text.hexByte, hbyte, List.cons_append, List.nil_append]
          exact .unit (hexUnit?_control c.toNat hcontrol) ih
        · next hprint =>
          exact .raw (by simpa using hdouble) (by simpa using hslash) (by omega) ih
      all_goals exact .short (by decide) ih

/-- The wrapper that a call becomes is a strict writing of it. -/
theorem written_objectIdWrapper (content : List Char) :
    Written .json (.object [("$oid", .string (String.ofList content))])
      (objectIdWrapper content) := by
  have hname : Spells '"' ['$', 'o', 'i', 'd'] ['$', 'o', 'i', 'd'] :=
    spells_raw '"' (by simp)
  have hcontent : Written .json (.string (String.ofList content)) (Json.quoted content) :=
    .string (Or.inl rfl) (spells_escape content)
  have hmember : WrittenMember .json (String.ofList ['$', 'o', 'i', 'd'], _) _ :=
    .mk (.quoted (Or.inl rfl) hname) isGap_nil isGap_nil hcontent
  have hmembers := WrittenMembers.last isGap_nil hmember isGap_nil
  have hobject := Written.object (by simp) hmembers
  simpa [objectIdWrapper, Json.quoted] using hobject

theorem normalizeFrom_call {quote : Char} {content gap₁ gap₂ gap₃ : List Char}
    (hquote : Text.isQuote quote = true) (hcontent : ∀ c ∈ content, Text.isQuote c = false)
    (hgap₁ : IsGap gap₁) (hgap₂ : IsGap gap₂) (hgap₃ : IsGap gap₃) (last : Option Char)
    (rest : List Char) :
    ∃ inWord' last', normalizeFrom 0 false last (objectIdName ++ (gap₁ ++ '(' ::
      (gap₂ ++ quote :: (content ++ quote :: (gap₃ ++ ')' :: rest))))) =
        objectIdWrapper content ++ normalizeFrom 0 inWord' last' rest := by
  have hcall := objectIdCall?_call hquote hcontent hgap₁ hgap₂ hgap₃ rest
  -- What the pass has dealt with when it meets the first letter of the name.
  let call := ['b', 'j', 'e', 'c', 't', 'I', 'd'] ++
    (gap₁ ++ '(' :: (gap₂ ++ quote :: (content ++ quote :: (gap₃ ++ [')']))))
  have htext : objectIdName ++ (gap₁ ++ '(' ::
      (gap₂ ++ quote :: (content ++ quote :: (gap₃ ++ ')' :: rest)))) = 'O' :: (call ++ rest) := by
    simp [objectIdName, call]
  have hlength : (call ++ rest).length - rest.length = call.length := by
    rw [List.length_append, Nat.add_sub_cancel]
  obtain ⟨inWord', hskip⟩ := normalizeFrom_skip call rest true (some '}')
  refine ⟨inWord', some '}', ?_⟩
  rw [htext] at hcall ⊢
  rw [normalizeFrom, hcall, ← hskip]
  simp only [hlength]
  rfl

/-! ## Values -/

/-- Behind `last` the pass writes `written` for `text`, and goes on behind it. -/
def Becomes (last : Option Char) (text written : List Char) : Prop :=
  ∀ rest, Closes rest → ∃ last',
    normalizeFrom 0 false last (text ++ rest) = written ++ normalizeFrom 0 false last' rest

/-- The word boundary behind a piece may be left out. -/
theorem Becomes.of_inWord {last : Option Char} {text written : List Char}
    (hpass : ∀ rest, Closes rest → ∃ inWord' last', normalizeFrom 0 false last (text ++ rest) =
      written ++ normalizeFrom 0 inWord' last' rest) : Becomes last text written := by
  intro rest hrest
  obtain ⟨inWord', last', hpass⟩ := hpass rest hrest
  refine ⟨last', ?_⟩
  rw [hpass, normalizeFrom_inWord
    (fun c hc => isWordStart_of_not_isWordChar (isWordChar_of_closes hrest c hc)) inWord' false]

theorem Becomes.constant {c : Char} {more : List Char} (hstart : isWordStart c = true)
    (hmore : ∀ d ∈ more, isWordChar d = true) (last : Option Char) :
    Becomes last (c :: more) (c :: more) := by
  refine .of_inWord fun rest hrest => ?_
  obtain ⟨last', hpass⟩ := normalizeFrom_constant hstart hmore hrest last
  exact ⟨true, last', hpass⟩

theorem Becomes.bracketed {opening closing : Char} {text written : List Char}
    (hinside : Becomes (some opening) text written) (hopening : opening ∈ punctuation)
    (hclosing : closing = ']' ∨ closing = '}') (last : Option Char) :
    Becomes last (opening :: (text ++ [closing])) (opening :: (written ++ [closing])) := by
  intro rest _
  have hmark : closing ∈ punctuation := by
    rcases hclosing with rfl | rfl <;> decide
  obtain ⟨last', hpass⟩ :=
    hinside (closing :: rest) (closes_mark isGap_nil (Or.inr hclosing))
  refine ⟨some closing, ?_⟩
  simp only [List.cons_append, List.append_assoc, List.nil_append]
  rw [normalizeFrom_mark hopening, hpass, normalizeFrom_mark hmark]

theorem Becomes.last {last : Option Char} {lead text written trail : List Char}
    (hpiece : Becomes last text written) (hlead : IsGap lead) (htrail : IsGap trail) :
    Becomes last (lead ++ (text ++ trail)) (lead ++ (written ++ trail)) := by
  intro rest hrest
  obtain ⟨last', hpass⟩ := hpiece (trail ++ rest) (hrest.gap htrail)
  refine ⟨last', ?_⟩
  simp only [List.append_assoc]
  rw [normalizeFrom_gap hlead, hpass, normalizeFrom_gap htrail]

theorem Becomes.more {last : Option Char} {lead text written trail front front' : List Char}
    (hpiece : Becomes last text written) (hlead : IsGap lead) (htrail : IsGap trail)
    (hmore : Becomes (some ',') front front') :
    Becomes last (lead ++ (text ++ (trail ++ ',' :: front)))
      (lead ++ (written ++ (trail ++ ',' :: front'))) := by
  intro rest hrest
  obtain ⟨last', hpass⟩ := hpiece (trail ++ ',' :: (front ++ rest))
    (closes_mark htrail (Or.inl rfl))
  obtain ⟨last'', hfront⟩ := hmore rest hrest
  refine ⟨last'', ?_⟩
  simp only [List.append_assoc, List.cons_append]
  calc normalizeFrom 0 false last (lead ++ (text ++ (trail ++ ',' :: (front ++ rest))))
      = lead ++ normalizeFrom 0 false last (text ++ (trail ++ ',' :: (front ++ rest))) :=
        normalizeFrom_gap hlead _ _
    _ = lead ++ (written ++ normalizeFrom 0 false last' (trail ++ ',' :: (front ++ rest))) := by
        rw [hpass]
    _ = lead ++ (written ++ (trail ++ ',' ::
          normalizeFrom 0 false (some ',') (front ++ rest))) := by
        rw [normalizeFrom_gap htrail, normalizeFrom_mark (by decide)]
    _ = lead ++ (written ++ (trail ++ ',' ::
          (front' ++ normalizeFrom 0 false last'' rest))) := by
        rw [hfront]

theorem Becomes.gap {gap : List Char} (hgap : IsGap gap) (last : Option Char) :
    Becomes last gap gap :=
  fun rest _ => ⟨last, normalizeFrom_gap hgap last rest⟩

/-- The pass writes `written` for a key, whatever its value. -/
def KeyBecomes (last : Option Char) (key written : List Char) : Prop :=
  ∀ lead tail, IsGap lead → ∃ inWord' last',
    normalizeFrom 0 false last (key ++ (lead ++ ':' :: tail)) =
      written ++ normalizeFrom 0 inWord' last' (lead ++ ':' :: tail)

theorem Becomes.member {last : Option Char} {key key' lead trail text written : List Char}
    (hitem : Becomes (some ':') text written) (hkey : KeyBecomes last key key')
    (hlead : IsGap lead) (htrail : IsGap trail) :
    Becomes last (key ++ (lead ++ ':' :: (trail ++ text)))
      (key' ++ (lead ++ ':' :: (trail ++ written))) := by
  intro rest hrest
  obtain ⟨inWord', last', hpass⟩ := hkey lead (trail ++ (text ++ rest)) hlead
  obtain ⟨last'', hvalue⟩ := hitem rest hrest
  have hblank : ∀ c ∈ lead, Text.isBlank c = true := fun c hc => isBlank_of_isSpace (hlead c hc)
  have hcolon : ∀ c ∈ (lead ++ ':' :: (trail ++ (text ++ rest))).head?, isWordStart c = false :=
    fun c hc => isWordStart_of_not_isWordChar (head_behind_blanks hblank (by decide) _ c hc)
  refine ⟨last'', ?_⟩
  simp only [List.append_assoc, List.cons_append]
  calc normalizeFrom 0 false last (key ++ (lead ++ ':' :: (trail ++ (text ++ rest))))
      = key' ++ normalizeFrom 0 false last' (lead ++ ':' :: (trail ++ (text ++ rest))) := by
        rw [hpass, normalizeFrom_inWord hcolon inWord' false]
    _ = key' ++ (lead ++ ':' :: normalizeFrom 0 false (some ':') (trail ++ (text ++ rest))) := by
        rw [normalizeFrom_gap hlead, normalizeFrom_mark (by decide)]
    _ = key' ++ (lead ++ ':' :: (trail ++ (written ++ normalizeFrom 0 false last'' rest))) := by
        rw [normalizeFrom_gap htrail, hvalue]

theorem spells_word {word : List Char} (hword : ∀ c ∈ word, isWordChar c = true) :
    Spells '"' word word := by
  refine spells_raw '"' fun c hc => ?_
  have hchar : isWordChar c = true := hword c hc
  have hprint : 0x20 ≤ c.toNat := Nat.le_of_succ_le (range_of_isWordChar hchar).1
  refine ⟨?_, ?_, hprint⟩ <;> rintro rfl <;> exact absurd hchar (by decide)

theorem WrittenKey.normalizes {name key : List Char} (hkey : WrittenKey .relaxed name key) :
    ∃ key', WrittenKey .json name key' ∧ ∀ last, opensKey last = true →
      KeyBecomes last key key' := by
  cases hkey with
  | quoted hquote hspells =>
      obtain ⟨copied, hcopied, hpass⟩ := normalizeFrom_string hquote.isQuote hspells
      refine ⟨_, .quoted (Or.inl rfl) hcopied, fun last _ lead tail _ => ?_⟩
      simpa using hpass false last (lead ++ ':' :: tail)
  | @bare c more _ hstart hmore =>
      have hword : ∀ d ∈ c :: more, isWordChar d = true :=
        List.forall_mem_cons.mpr ⟨isWordChar_of_isWordStart hstart, hmore⟩
      refine ⟨_, .quoted (Or.inl rfl) (spells_word hword), fun last hlast lead tail hlead => ?_⟩
      simpa using normalizeFrom_key hstart hmore hlead hlast tail

mutual

/-- **A relaxed writing becomes a strict writing of the same value.** -/
theorem Written.normalizes {value : Json} {text : List Char} :
    Written .relaxed value text →
      ∃ written, Written .json value written ∧ ∀ last, Becomes last text written
  | .null => ⟨_, .null, .constant rfl (List.all_eq_true.mp rfl)⟩
  | .yes => ⟨_, .yes, .constant rfl (List.all_eq_true.mp rfl)⟩
  | .no => ⟨_, .no, .constant rfl (List.all_eq_true.mp rfl)⟩
  | .int hlow hhigh => by
      refine ⟨_, .int hlow hhigh, fun last => .of_inWord fun rest _ => ?_⟩
      exact normalizeFrom_others (fun c hc => intDigits_other hc) false last rest
  | .string hquote hspells => by
      obtain ⟨copied, hcopied, hpass⟩ := normalizeFrom_string hquote.isQuote hspells
      refine ⟨_, .string (Or.inl rfl) hcopied, fun last => .of_inWord fun rest _ => ?_⟩
      simpa using hpass false last rest
  | .emptyArray hgap => by
      refine ⟨_, .emptyArray hgap, fun last => ?_⟩
      exact (Becomes.gap hgap (some '[')).bracketed (by decide) (Or.inl rfl) last
  | .array hitems => by
      obtain ⟨written, hwritten, hpass⟩ := hitems.normalizes
      exact ⟨_, .array hwritten, (hpass (some '[')).bracketed (by decide) (Or.inl rfl)⟩
  | .emptyObject hgap => by
      refine ⟨_, .emptyObject hgap, fun last => ?_⟩
      exact (Becomes.gap hgap (some '{')).bracketed (by decide) (Or.inr rfl) last
  | .object hkeys hmembers => by
      obtain ⟨written, hwritten, hpass⟩ := hmembers.normalizes
      exact ⟨_, .object hkeys hwritten,
        (hpass (some '{') rfl).bracketed (by decide) (Or.inr rfl)⟩
  | .call _ hquote hcontent hgap₁ hgap₂ hgap₃ => by
      refine ⟨_, written_objectIdWrapper _, fun last => .of_inWord fun rest _ => ?_⟩
      have hpass := normalizeFrom_call hquote (fun c hc => (hcontent c hc).1) hgap₁ hgap₂ hgap₃
        last rest
      simpa using hpass

theorem WrittenItems.normalizes {items : List Json} {text : List Char} :
    WrittenItems .relaxed items text →
      ∃ written, WrittenItems .json items written ∧ ∀ last, Becomes last text written
  | .last hlead hitem htrail => by
      obtain ⟨written, hwritten, hpass⟩ := hitem.normalizes
      exact ⟨_, .last hlead hwritten htrail, fun last => (hpass last).last hlead htrail⟩
  | .more hlead hitem htrail hitems => by
      obtain ⟨written, hwritten, hpass⟩ := hitem.normalizes
      obtain ⟨front, hfront, hmore⟩ := hitems.normalizes
      exact ⟨_, .more hlead hwritten htrail hfront,
        fun last => (hpass last).more hlead htrail (hmore (some ','))⟩

theorem WrittenMember.normalizes {member : String × Json} {text : List Char} :
    WrittenMember .relaxed member text →
      ∃ written, WrittenMember .json member written ∧
        ∀ last, opensKey last = true → Becomes last text written
  | .mk hkey hlead htrail hitem => by
      obtain ⟨written, hwritten, hpass⟩ := hitem.normalizes
      obtain ⟨key', hkey', hpass'⟩ := hkey.normalizes
      exact ⟨_, .mk hkey' hlead htrail hwritten,
        fun last hlast => (hpass (some ':')).member (hpass' last hlast) hlead htrail⟩

theorem WrittenMembers.normalizes {members : List (String × Json)} {text : List Char} :
    WrittenMembers .relaxed members text →
      ∃ written, WrittenMembers .json members written ∧
        ∀ last, opensKey last = true → Becomes last text written
  | .last hlead hmember htrail => by
      obtain ⟨written, hwritten, hpass⟩ := hmember.normalizes
      exact ⟨_, .last hlead hwritten htrail,
        fun last hlast => (hpass last hlast).last hlead htrail⟩
  | .more hlead hmember htrail hmembers => by
      obtain ⟨written, hwritten, hpass⟩ := hmember.normalizes
      obtain ⟨front, hfront, hmore⟩ := hmembers.normalizes
      exact ⟨_, .more hlead hwritten htrail hfront,
        fun last hlast => (hpass last hlast).more hlead htrail (hmore (some ',') rfl)⟩

end

/-- The pass over a whole text: gaps at its ends stay. -/
theorem normalize_of_becomes {lead text written trail : List Char}
    (hbecomes : Becomes none text written) (hlead : IsGap lead) (htrail : IsGap trail) :
    normalize (lead ++ (text ++ trail)) = lead ++ (written ++ trail) := by
  obtain ⟨last', hpass⟩ := hbecomes trail (closes_gap htrail)
  have hend : normalizeFrom 0 false last' trail = trail := by
    have hgap := normalizeFrom_gap htrail last' []
    simpa [normalizeFrom] using hgap
  calc normalize (lead ++ (text ++ trail))
      = lead ++ normalizeFrom 0 false none (text ++ trail) := normalizeFrom_gap hlead _ _
    _ = lead ++ (written ++ normalizeFrom 0 false last' trail) := by rw [hpass]
    _ = lead ++ (written ++ trail) := by rw [hend]

/-- **The pass over a whole literal** gives a strict writing of the same value. -/
theorem normalize_written {value : Json} {text lead trail : List Char}
    (hwritten : Written .relaxed value text) (hlead : IsGap lead) (htrail : IsGap trail) :
    ∃ written, Written .json value written ∧
      normalize (lead ++ (text ++ trail)) = lead ++ (written ++ trail) := by
  obtain ⟨written, hstrict, hpass⟩ := hwritten.normalizes
  exact ⟨written, hstrict, normalize_of_becomes (hpass none) hlead htrail⟩

end DocShell.Literal
