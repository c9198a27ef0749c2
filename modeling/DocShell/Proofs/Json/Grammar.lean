import DocShell.Proofs.Literal.Grammar

/-!
# The grammar of JSON

Which texts are numbers and which are values, and nothing about what they denote.  A text of a
value has no gap at its ends; the texts between brackets may have.
-/

namespace DocShell.Json

open Literal (IsGap Spells)

/-! ## Numbers -/

/-- Digits only. -/
def AllDigits (text : List Char) : Prop :=
  ∀ c ∈ text, c.isDigit = true

/-- Digits, and at least one. -/
def IsDigits (text : List Char) : Prop :=
  text ≠ [] ∧ AllDigits text

/-- A whole number without its sign; it starts with zero only if it is zero. -/
def IsWhole (text : List Char) : Prop :=
  IsDigits text ∧ (text.head? = some '0' → text = ['0'])

/-- A point with digits behind it, or nothing. -/
inductive IsFraction : List Char → Prop
  | absent : IsFraction []
  | point {digits : List Char} : IsDigits digits → IsFraction ('.' :: digits)

/-- A power of ten, or nothing. -/
inductive IsExponent : List Char → Prop
  | absent : IsExponent []
  | power {letter : Char} {sign digits : List Char} :
      letter = 'e' ∨ letter = 'E' → sign ∈ [[], ['+'], ['-']] → IsDigits digits →
      IsExponent (letter :: (sign ++ digits))

/-- What may follow the whole part of a number. -/
inductive IsScale : List Char → Prop
  | mk {fraction exponent : List Char} :
      IsFraction fraction → IsExponent exponent → IsScale (fraction ++ exponent)

/-- A number without its sign. -/
inductive IsUnsigned : List Char → Prop
  | mk {whole scale : List Char} : IsWhole whole → IsScale scale → IsUnsigned (whole ++ scale)

/-! ## Values -/

mutual

/-- The texts of values. -/
inductive IsValue : List Char → Prop
  | word {text : List Char} :
      text ∈ [['n', 'u', 'l', 'l'], ['t', 'r', 'u', 'e'], ['f', 'a', 'l', 's', 'e']] → IsValue text
  | number {sign text : List Char} : sign ∈ [[], ['-']] → IsUnsigned text → IsValue (sign ++ text)
  | string {content body : List Char} : Spells '"' content body → IsValue ('"' :: (body ++ ['"']))
  | emptyArray {gap : List Char} : IsGap gap → IsValue ('[' :: (gap ++ [']']))
  | array {text : List Char} : AreItems text → IsValue ('[' :: (text ++ [']']))
  | emptyObject {gap : List Char} : IsGap gap → IsValue ('{' :: (gap ++ ['}']))
  | object {text : List Char} : AreMembers text → IsValue ('{' :: (text ++ ['}']))

/-- The texts between the brackets of an array with items. -/
inductive AreItems : List Char → Prop
  | last {lead text trail : List Char} :
      IsGap lead → IsValue text → IsGap trail → AreItems (lead ++ (text ++ trail))
  | more {lead text trail rest : List Char} :
      IsGap lead → IsValue text → IsGap trail → AreItems rest →
      AreItems (lead ++ (text ++ (trail ++ ',' :: rest)))

/-- The texts of a member: its key, a colon and its value. -/
inductive IsMember : List Char → Prop
  | mk {name body lead trail text : List Char} :
      Spells '"' name body → IsGap lead → IsGap trail → IsValue text →
      IsMember ('"' :: (body ++ '"' :: (lead ++ ':' :: (trail ++ text))))

/-- The texts between the braces of an object with members. -/
inductive AreMembers : List Char → Prop
  | last {lead text trail : List Char} :
      IsGap lead → IsMember text → IsGap trail → AreMembers (lead ++ (text ++ trail))
  | more {lead text trail rest : List Char} :
      IsGap lead → IsMember text → IsGap trail → AreMembers rest →
      AreMembers (lead ++ (text ++ (trail ++ ',' :: rest)))

end

/-! ## Digits and gaps in front -/

variable {text front digits lead : List Char} {c : Char}

theorem AllDigits.append (hfront : AllDigits front) (hdigits : AllDigits digits) :
    AllDigits (front ++ digits) :=
  fun c hc => (List.mem_append.mp hc).elim (hfront c) (hdigits c)

theorem allDigits_nil : AllDigits [] :=
  fun _ hc => absurd hc List.not_mem_nil

theorem allDigits_singleton (hc : c.isDigit = true) : AllDigits [c] := by
  simpa [AllDigits] using hc

theorem IsDigits.of_append (hc : c.isDigit = true) (hdigits : AllDigits digits) :
    IsDigits ([c] ++ digits) :=
  ⟨by simp, (allDigits_singleton hc).append hdigits⟩

theorem isGap_append {gap trail : List Char} (hgap : IsGap gap) (htrail : IsGap trail) :
    IsGap (gap ++ trail) :=
  fun c hc => (List.mem_append.mp hc).elim (hgap c) (htrail c)

theorem AreItems.gap (hlead : IsGap lead) (hitems : AreItems text) :
    AreItems (lead ++ text) := by
  cases hitems with
  | last hgap htext htrail =>
      rw [← List.append_assoc]
      exact .last (isGap_append hlead hgap) htext htrail
  | more hgap htext htrail hmore =>
      rw [← List.append_assoc]
      exact .more (isGap_append hlead hgap) htext htrail hmore

theorem AreMembers.gap (hlead : IsGap lead) (hmembers : AreMembers text) :
    AreMembers (lead ++ text) := by
  cases hmembers with
  | last hgap htext htrail =>
      rw [← List.append_assoc]
      exact .last (isGap_append hlead hgap) htext htrail
  | more hgap htext htrail hmore =>
      rw [← List.append_assoc]
      exact .more (isGap_append hlead hgap) htext htrail hmore

end DocShell.Json
