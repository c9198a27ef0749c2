import DocShell.Proofs.Literal.Grammar

/-!
# Written literals are balanced

The scan for brackets and strings passes over a written value, in either style, and
stands afterwards where it stood before.

## Strategy

A text is `Neutral` when this holds for every scan that is outside of strings, and
`Inert` for a quote when it holds inside of a string that this quote will close.
Neutral texts may be put one behind the other and into brackets, inert ones between
their quotes, so that the main result is an induction in which every way of writing
is one of these steps.
-/

namespace DocShell.Literal

open Json (isSpace)
open Text (Scan)

/-- The scan is outside of strings. -/
def IsOutside (s : Scan) : Prop :=
  s.nesting.quote = none ∧ s.escaped = false

/-- The text leaves every scan outside of strings as it was. -/
def Neutral (text : List Char) : Prop :=
  ∀ s : Scan, IsOutside s → s.run text = s

/-- The text leaves every scan in a string as it was. -/
def Inert (quote : Char) (body : List Char) : Prop :=
  ∀ s : Scan, s.nesting.quote = some quote → s.escaped = false → s.run body = s

theorem run_append (s : Scan) (front back : List Char) :
    s.run (front ++ back) = (s.run front).run back :=
  List.foldl_append

/-! ## Inside strings -/

theorem inert_nil (quote : Char) : Inert quote [] :=
  fun _ _ _ => rfl

theorem Inert.cons {quote c : Char} {body : List Char} (hbody : Inert quote body)
    (hquote : c ≠ quote) (hslash : c ≠ '\\') : Inert quote (c :: body) := by
  intro s hopen hescaped
  have hstep : s.step c = s := by
    simp [Scan.step, hopen, Scan.stepInString, hescaped, hquote, hslash]
  rw [Scan.run, List.foldl_cons, hstep]
  exact hbody s hopen hescaped

/-- A backslash takes the character behind it along, whatever it is. -/
theorem Inert.escape {quote : Char} {body : List Char} (hbody : Inert quote body)
    (c : Char) : Inert quote ('\\' :: c :: body) := by
  intro s hopen hescaped
  have hstep : (s.step '\\').step c = s := by
    cases s
    simp_all [Scan.step, Scan.stepInString]
  rw [Scan.run, List.foldl_cons, List.foldl_cons, hstep]
  exact hbody s hopen hescaped

theorem Inert.append {quote : Char} {front back : List Char} (hback : Inert quote back)
    (hplain : ∀ c ∈ front, c ≠ quote ∧ c ≠ '\\') : Inert quote (front ++ back) := by
  induction front with
  | nil => exact hback
  | cons c front ih =>
      obtain ⟨hquote, hslash⟩ := hplain c List.mem_cons_self
      exact (ih fun d hd => hplain d (List.mem_cons_of_mem c hd)).cons hquote hslash

theorem inert_spells {quote : Char} {content body : List Char}
    (hquote : Text.isQuote quote = true) (hspells : Spells quote content body) :
    Inert quote body := by
  have hdigits : ∀ {d₁ d₂ d₃ d₄ : Char} {n : Nat}, Json.hexUnit? d₁ d₂ d₃ d₄ = some n →
      ∀ c ∈ [d₁, d₂, d₃, d₄], c ≠ quote ∧ c ≠ '\\' := by
    intro d₁ d₂ d₃ d₄ n hunit c hc
    obtain ⟨hplain, hslash⟩ := hexUnit?_plain hunit c hc
    exact ⟨ne_of_isQuote hquote hplain, hslash⟩
  induction hspells with
  | nil => exact inert_nil quote
  | raw hc hslash _ _ ih => exact ih.cons hc hslash
  | short _ _ ih => exact ih.escape _
  | unit hunit _ ih => exact (ih.append (hdigits hunit)).escape 'u'
  | pair hhigh hlow _ _ _ _ ih =>
      exact ((((ih.append (hdigits hlow)).escape 'u').append (hdigits hhigh)).escape 'u')
  | apostrophe _ _ ih => exact ih.escape '\''

/-! ## Outside of strings -/

/-- Every character that the scan takes notice of outside of strings. -/
def marks : List Char :=
  ['"', '\'', '(', ')', '[', ']', '{', '}']

/-- The opening brackets with their partners. -/
def bracketPairs : List (Char × Char) :=
  [('(', ')'), ('[', ']'), ('{', '}')]

theorem neutral_nil : Neutral [] :=
  fun _ _ => rfl

theorem Neutral.append {front back : List Char} (hfront : Neutral front)
    (hback : Neutral back) : Neutral (front ++ back) := by
  intro s hs
  rw [run_append, hfront s hs, hback s hs]

theorem neutral_plain {text : List Char} (hplain : ∀ c ∈ text, c ∉ marks) : Neutral text := by
  induction text with
  | nil => exact neutral_nil
  | cons c text ih =>
      have htext : Neutral text := ih fun d hd => hplain d (List.mem_cons_of_mem c hd)
      have hc : c ∉ marks := hplain c List.mem_cons_self
      simp only [marks, List.mem_cons, List.not_mem_nil, or_false, not_or] at hc
      intro s hs
      have hstep : s.step c = s := by
        simp [Scan.step, hs.1, Scan.stepOutside, hc]
      rw [Scan.run, List.foldl_cons, hstep]
      exact htext s hs

theorem Neutral.after_plain {c : Char} {text : List Char} (htext : Neutral text)
    (hc : c ∉ marks) : Neutral (c :: text) :=
  (neutral_plain (show ∀ d ∈ [c], d ∉ marks by simpa using hc)).append htext

theorem Neutral.bracketed {opening closing : Char} {text : List Char} (htext : Neutral text)
    (hpair : (opening, closing) ∈ bracketPairs) : Neutral (opening :: (text ++ [closing])) := by
  intro s hs
  obtain ⟨hquote, hescaped⟩ := hs
  -- The counter of this kind of bracket goes up by one and down again.
  have hinside : IsOutside (s.step opening) ∧ (s.step opening).step closing = s := by
    simp only [bracketPairs, List.mem_cons, Prod.mk.injEq, List.not_mem_nil, or_false] at hpair
    cases s with
    | mk nesting escaped underflow =>
        cases nesting
        rcases hpair with ⟨rfl, rfl⟩ | ⟨rfl, rfl⟩ | ⟨rfl, rfl⟩ <;>
          simp_all [IsOutside, Scan.step, Scan.stepOutside]
  calc s.run (opening :: (text ++ [closing]))
      = ((s.step opening).run text).step closing := by simp [Scan.run]
    _ = (s.step opening).step closing := by rw [htext _ hinside.1]
    _ = s := hinside.2

theorem Inert.quoted {quote : Char} {body : List Char} (hbody : Inert quote body)
    (hquote : Text.isQuote quote = true) : Neutral (quote :: (body ++ [quote])) := by
  intro s hs
  obtain ⟨houtside, hescaped⟩ := hs
  have hinside : (s.step quote).nesting.quote = some quote ∧ (s.step quote).escaped = false ∧
      (s.step quote).step quote = s := by
    simp only [Text.isQuote, Bool.or_eq_true, beq_iff_eq] at hquote
    cases s with
    | mk nesting escaped underflow =>
        cases nesting
        rcases hquote with rfl | rfl <;>
          simp_all [Scan.step, Scan.stepOutside, Scan.stepInString]
  calc s.run (quote :: (body ++ [quote]))
      = ((s.step quote).run body).step quote := by simp [Scan.run]
    _ = (s.step quote).step quote := by rw [hbody _ hinside.1 hinside.2.1]
    _ = s := hinside.2.2

theorem neutral_gap {gap : List Char} (hgap : IsGap gap) : Neutral gap := by
  refine neutral_plain fun c hc => ?_
  have hspace := hgap c hc
  intro hmark
  simp only [marks, List.mem_cons, List.not_mem_nil, or_false] at hmark
  rcases hmark with rfl | rfl | rfl | rfl | rfl | rfl | rfl | rfl <;> simp [isSpace] at hspace

theorem not_mem_marks_of_isWordChar {c : Char} (hc : isWordChar c = true) : c ∉ marks := by
  intro hmark
  simp only [marks, List.mem_cons, List.not_mem_nil, or_false] at hmark
  rcases hmark with rfl | rfl | rfl | rfl | rfl | rfl | rfl | rfl <;> exact absurd hc (by decide)

theorem not_mem_marks_of_isDigit {c : Char} (hc : c.isDigit = true) : c ∉ marks :=
  not_mem_marks_of_isWordChar (isWordChar_of_isDigit hc)

theorem neutral_intDigits (n : Int) : Neutral (Text.intDigits n) := by
  refine neutral_plain fun c hc => ?_
  rcases mem_intDigits hc with rfl | hdigit
  · decide
  · exact not_mem_marks_of_isDigit hdigit

/-! ## Values -/

theorem WrittenKey.neutral {style : Style} {name key : List Char}
    (hkey : WrittenKey style name key) : Neutral key := by
  cases hkey with
  | quoted hquote hspells => exact (inert_spells hquote.isQuote hspells).quoted hquote.isQuote
  | bare _ hstart hmore =>
      refine neutral_plain fun c hc => not_mem_marks_of_isWordChar ?_
      rcases List.mem_cons.mp hc with rfl | hc
      · exact isWordChar_of_isWordStart hstart
      · exact hmore c hc

theorem neutral_call {quote : Char} {content gap₁ gap₂ gap₃ : List Char}
    (hquote : Text.isQuote quote = true)
    (hcontent : ∀ c ∈ content, Text.isQuote c = false ∧ c ≠ '\\')
    (hgap₁ : IsGap gap₁) (hgap₂ : IsGap gap₂) (hgap₃ : IsGap gap₃) :
    Neutral (objectIdName ++
      (gap₁ ++ '(' :: (gap₂ ++ quote :: (content ++ quote :: (gap₃ ++ [')']))))) := by
  have hname : Neutral objectIdName := neutral_plain (by simp [objectIdName, marks])
  have hinert : Inert quote content := by
    rw [← List.append_nil content]
    refine (inert_nil quote).append fun c hc => ?_
    exact ⟨ne_of_isQuote hquote (hcontent c hc).1, (hcontent c hc).2⟩
  have hinner : Neutral (gap₂ ++ (quote :: (content ++ [quote]) ++ gap₃)) :=
    (neutral_gap hgap₂).append ((hinert.quoted hquote).append (neutral_gap hgap₃))
  have hcall := hname.append ((neutral_gap hgap₁).append
    (hinner.bracketed (show ('(', ')') ∈ bracketPairs by decide)))
  simpa using hcall

mutual

/-- **A written value leaves the scan as it was.** -/
theorem Written.neutral {style : Style} {value : Json} {text : List Char} :
    Written style value text → Neutral text
  | .null => neutral_plain (by simp [marks])
  | .yes => neutral_plain (by simp [marks])
  | .no => neutral_plain (by simp [marks])
  | .int _ _ => neutral_intDigits _
  | .string hquote hspells => (inert_spells hquote.isQuote hspells).quoted hquote.isQuote
  | .emptyArray hgap => (neutral_gap hgap).bracketed (by decide)
  | .array hitems => hitems.neutral.bracketed (by decide)
  | .emptyObject hgap => (neutral_gap hgap).bracketed (by decide)
  | .object _ hmembers => hmembers.neutral.bracketed (by decide)
  | .call _ hquote hcontent hgap₁ hgap₂ hgap₃ => neutral_call hquote hcontent hgap₁ hgap₂ hgap₃

theorem WrittenItems.neutral {style : Style} {items : List Json} {text : List Char} :
    WrittenItems style items text → Neutral text
  | .last hlead hitem htrail =>
      (neutral_gap hlead).append (hitem.neutral.append (neutral_gap htrail))
  | .more hlead hitem htrail hitems =>
      (neutral_gap hlead).append (hitem.neutral.append
        ((neutral_gap htrail).append (hitems.neutral.after_plain (by decide))))

theorem WrittenMember.neutral {style : Style} {member : String × Json} {text : List Char} :
    WrittenMember style member text → Neutral text
  | .mk hkey hlead htrail hitem =>
      hkey.neutral.append ((neutral_gap hlead).append
        (((neutral_gap htrail).append hitem.neutral).after_plain (by decide)))

theorem WrittenMembers.neutral {style : Style} {members : List (String × Json)}
    {text : List Char} : WrittenMembers style members text → Neutral text
  | .last hlead hmember htrail =>
      (neutral_gap hlead).append (hmember.neutral.append (neutral_gap htrail))
  | .more hlead hmember htrail hmembers =>
      (neutral_gap hlead).append (hmember.neutral.append
        ((neutral_gap htrail).append (hmembers.neutral.after_plain (by decide))))

end

/-- **A written value is balanced.** -/
theorem checkBalanced_written {style : Style} {value : Json} {text : List Char}
    (hwritten : Written style value text) : Text.checkBalanced text = .ok () := by
  have hrun : ({} : Scan).run text = {} := hwritten.neutral {} ⟨rfl, rfl⟩
  rw [Text.checkBalanced, hrun]
  rfl

end DocShell.Literal
