import DocShell.Text.Numeral
import DocShell.Text.Pieces

/-!
# Strings of settings files

A string in double quotes knows escapes, one in single quotes does not.  Both end on
their line; between three quotes each they may go over several lines.  There a line end
directly behind the opening quotes does not count, one or two quotes may stand in front
of the closing ones, and a backslash at the end of a line drops all blanks and line ends
that follow.
-/

namespace DocShell.Toml

/-- A character that may stand in a string or comment: no control character but the
tabulator. -/
def isPlain (c : Char) : Bool :=
  c == '\t' || (0x20 ≤ c.toNat && c.toNat != 0x7F)

/-- The text without leading blanks and tabulators. -/
def skipBlank (text : List Char) : List Char :=
  text.dropWhile fun c => c == ' ' || c == '\t'

/-- The text without a line end at its start. -/
def skipLineEnd : List Char → List Char
  | '\n' :: rest => rest
  | '\r' :: '\n' :: rest => rest
  | text => text

/-- A line end, with nothing but blanks in front of it. -/
def isLineEnd (text : List Char) : Bool :=
  let bare := skipBlank text
  (skipLineEnd bare).length < bare.length

/-- The text without leading blanks, tabulators and line ends. -/
def skipSpace : List Char → List Char
  | ' ' :: rest => skipSpace rest
  | '\t' :: rest => skipSpace rest
  | '\n' :: rest => skipSpace rest
  | '\r' :: '\n' :: rest => skipSpace rest
  | text => text

theorem length_skipSpace_le (text : List Char) : (skipSpace text).length ≤ text.length := by
  fun_induction skipSpace text <;> grind

/-! ## Escapes -/

/-- The character with the code that hexadecimal digits denote. -/
def codePoint? (digits : List Char) : Option Char := do
  let values ← digits.mapM Text.hexValue?
  let n := values.foldl (fun n d => n * 16 + d) 0
  if n.isValidChar then some (Char.ofNat n) else none

/-- The character that a letter behind a backslash stands for. -/
def escaped? : Char → Option Char
  | 'b' => some '\x08'
  | 't' => some '\t'
  | 'n' => some '\n'
  | 'f' => some '\x0c'
  | 'r' => some '\r'
  | 'e' => some '\x1b'
  | '"' => some '"'
  | '\\' => some '\\'
  | _ => none

/-- A character in front of a text, if there are both. -/
def consText (c : Option Char) (text : Option (List Char)) : Option (List Char) :=
  match c, text with
  | some c, some text => some (c :: text)
  | _, _ => none

/-- The text that the inside of a string in double quotes stands for. -/
def unescape (lines : Bool) : List Char → Option (List Char)
  | [] => some []
  | '\\' :: 'x' :: a :: b :: rest => consText (codePoint? [a, b]) (unescape lines rest)
  | '\\' :: 'u' :: a :: b :: c :: d :: rest =>
    consText (codePoint? [a, b, c, d]) (unescape lines rest)
  | '\\' :: 'U' :: a :: b :: c :: d :: e :: f :: g :: h :: rest =>
    consText (codePoint? [a, b, c, d, e, f, g, h]) (unescape lines rest)
  | '\\' :: rest =>
    if lines && isLineEnd rest then
      unescape lines (skipSpace rest)
    else
      match rest with
      | [] => none
      | c :: rest => consText (escaped? c) (unescape lines rest)
  | '\r' :: '\n' :: rest =>
    if lines then consText (some '\r') (consText (some '\n') (unescape lines rest)) else none
  | c :: rest =>
    if isPlain c || (lines && c == '\n') then consText (some c) (unescape lines rest) else none
termination_by text => text.length
decreasing_by
  all_goals simp_wf
  all_goals have := length_skipSpace_le
  all_goals grind

/-- The inside of a string in single quotes holds nothing but plain characters, and line
ends if there may be `lines`. -/
def isVerbatim (lines : Bool) : List Char → Bool
  | [] => true
  | '\r' :: '\n' :: rest => lines && isVerbatim lines rest
  | c :: rest => (isPlain c || (lines && c == '\n')) && isVerbatim lines rest

/-! ## Ends of strings -/

/-- What stands before and behind the closing quotes of a string with escapes. -/
def cutEscaped? (closing : List Char) : List Char → Option (List Char × List Char)
  | [] => none
  | '\\' :: c :: rest =>
    (cutEscaped? closing rest).map fun (inside, behind) => ('\\' :: c :: inside, behind)
  | c :: rest =>
    match Text.behind? closing (c :: rest) with
    | some behind => some ([], behind)
    | none => (cutEscaped? closing rest).map fun (inside, behind) => (c :: inside, behind)

/-- Up to two quotes behind the closing ones still belong to the inside, in whose end
they stand. -/
def claimQuotes (quote : Char) : List Char × List Char → List Char × List Char
  | (inside, behind) =>
    let claimed := (behind.take 2).takeWhile (· == quote)
    (inside ++ claimed, behind.drop claimed.length)

/-! ## Strings -/

/-- The string behind an opening double quote, and the rest. -/
def readBasic (text : List Char) : Option (List Char × List Char) := do
  let (inside, rest) ← cutEscaped? ['"'] text
  return (← unescape false inside, rest)

/-- The string behind an opening single quote, and the rest. -/
def readLiteral (text : List Char) : Option (List Char × List Char) := do
  let (inside, rest) ← Text.splitOnce? ['\''] text
  if isVerbatim false inside then some (inside, rest) else none

/-- The string behind three opening double quotes, and the rest. -/
def readBasicLines (text : List Char) : Option (List Char × List Char) := do
  let cut ← cutEscaped? ['"', '"', '"'] (skipLineEnd text)
  let (inside, rest) := claimQuotes '"' cut
  return (← unescape true inside, rest)

/-- The string behind three opening single quotes, and the rest. -/
def readLiteralLines (text : List Char) : Option (List Char × List Char) := do
  let cut ← Text.splitOnce? ['\'', '\'', '\''] (skipLineEnd text)
  let (inside, rest) := claimQuotes '\'' cut
  if isVerbatim true inside then some (inside, rest) else none

end DocShell.Toml
