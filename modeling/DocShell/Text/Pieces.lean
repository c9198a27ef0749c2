import DocShell.Text.Blank

/-!
# Cutting texts

`pieces` cuts a text at every character that a test accepts, so a text with `n`
such characters has `n + 1` pieces, empty ones included; `words` keeps the pieces
between blanks that hold something.  `behind?` and `splitOnce?` look for a given
text at the start and anywhere.
-/

namespace DocShell.Text

/-- The pieces between the characters that `cut` accepts, in order. -/
def pieces (cut : Char → Bool) : List Char → List (List Char)
  | [] => [[]]
  | c :: rest =>
    if cut c then
      [] :: pieces cut rest
    else
      match pieces cut rest with
      | [] => [[c]]
      | piece :: more => (c :: piece) :: more

/-- The runs of characters that are not blank. -/
def words (text : List Char) : List (List Char) :=
  (pieces isBlank text).filter fun word => !word.isEmpty

/-- What stands behind `lead`, for a text that starts with it. -/
def behind? : (lead text : List Char) → Option (List Char)
  | [], text => some text
  | _ :: _, [] => none
  | c :: lead, d :: text => if c = d then behind? lead text else none

/-- What stands before and behind the first occurrence of `marker`. -/
def splitOnce? (marker : List Char) : List Char → Option (List Char × List Char)
  | [] => if marker.isEmpty then some ([], []) else none
  | c :: rest =>
    match behind? marker (c :: rest) with
    | some behind => some ([], behind)
    | none => (splitOnce? marker rest).map fun (before, behind) => (c :: before, behind)

/-- ASCII capitals become small letters; every other character stays. -/
def lowercase (text : List Char) : List Char :=
  text.map Char.toLower

/-- The pieces joined with `separator` between them. -/
def join (separator : List Char) : List (List Char) → List Char
  | [] => []
  | [piece] => piece
  | piece :: more => piece ++ separator ++ join separator more

@[simp] theorem pieces_nil (cut : Char → Bool) : pieces cut [] = [[]] := rfl

theorem pieces_ne_nil (cut : Char → Bool) (text : List Char) : pieces cut text ≠ [] := by
  cases text with
  | nil => simp
  | cons c rest =>
      by_cases h : cut c
      · simp [pieces, h]
      · cases hrest : pieces cut rest <;> simp [pieces, h, hrest]

/-- The first piece ends where the first cut is, and the others are the pieces behind it. -/
theorem pieces_eq (cut : Char → Bool) (text : List Char) :
    pieces cut text = text.takeWhile (fun c => !cut c) ::
      match text.dropWhile (fun c => !cut c) with
      | [] => []
      | _ :: rest => pieces cut rest := by
  induction text with
  | nil => rfl
  | cons c rest ih =>
      by_cases h : cut c
      · simp [pieces, h]
      · simp [pieces, h, ih]

theorem behind?_eq_some_iff {lead text rest : List Char} :
    behind? lead text = some rest ↔ text = lead ++ rest := by
  induction lead generalizing text with
  | nil => simp [behind?]
  | cons c lead ih =>
      cases text with
      | nil => simp [behind?]
      | cons d text =>
          by_cases h : c = d
          · simp [behind?, h, ih]
          · simp [behind?, h, Ne.symm h]

end DocShell.Text
