import DocShell.Failure.Parse
import DocShell.Text.Blank

/-!
# Brackets and string literals

One machine walks over a text and tells, after each character, how many
brackets of each kind are open and whether a string literal is being read.

A quote, double or single, opens a string only outside of one.  Inside a string
only the same quote closes it, a backslash protects the character behind it,
and brackets count for nothing.  A closing bracket without a partner leaves the
counts as they are and is remembered.

On top of the machine stand the three questions that the rest of the library
asks: where a text may be cut at a separator (`splitTop`), where the
parenthesis that a text starts with is closed (`splitParen`), and whether
everything that was opened is closed (`checkBalanced`).
-/

namespace DocShell.Text

/-- How deep a scan stands in brackets, and in which kind of string. -/
structure Nesting where
  /-- Open round brackets. -/
  parens : Nat := 0
  /-- Open square brackets. -/
  brackets : Nat := 0
  /-- Open braces. -/
  braces : Nat := 0
  /-- The quote that will close the string being read, if one is. -/
  quote : Option Char := none
  deriving DecidableEq, Repr, Inhabited

namespace Nesting

/-- The number of open brackets of all kinds. -/
def depth (n : Nesting) : Nat :=
  n.parens + n.brackets + n.braces

/-- A string literal is being read. -/
def inString (n : Nesting) : Bool :=
  n.quote.isSome

/-- Nothing is open. -/
def isTop (n : Nesting) : Bool :=
  n.depth == 0 && !n.inString

end Nesting

/-- The state of a scan between two characters. -/
structure Scan where
  nesting : Nesting := {}
  /-- The last character was a backslash that protects the next one. -/
  escaped : Bool := false
  /-- A closing bracket without a partner was seen. -/
  underflow : Bool := false
  deriving DecidableEq, Repr, Inhabited

/-- The characters that delimit strings. -/
def isQuote (c : Char) : Bool :=
  c == '"' || c == '\''

namespace Scan

/-- One character inside a string that `quote` closes. -/
def stepInString (s : Scan) (quote c : Char) : Scan :=
  if s.escaped then
    { s with escaped := false }
  else if c == '\\' then
    { s with escaped := true }
  else if c == quote then
    { s with nesting := { s.nesting with quote := none } }
  else
    s

/-- One character outside of strings. -/
def stepOutside (s : Scan) (c : Char) : Scan :=
  let n := s.nesting
  match c with
  | '"' | '\'' => { s with nesting := { n with quote := some c } }
  | '(' => { s with nesting := { n with parens := n.parens + 1 } }
  | '[' => { s with nesting := { n with brackets := n.brackets + 1 } }
  | '{' => { s with nesting := { n with braces := n.braces + 1 } }
  | ')' =>
    match n.parens with
    | 0 => { s with underflow := true }
    | open_ + 1 => { s with nesting := { n with parens := open_ } }
  | ']' =>
    match n.brackets with
    | 0 => { s with underflow := true }
    | open_ + 1 => { s with nesting := { n with brackets := open_ } }
  | '}' =>
    match n.braces with
    | 0 => { s with underflow := true }
    | open_ + 1 => { s with nesting := { n with braces := open_ } }
  | _ => s

/-- The state after one more character. -/
def step (s : Scan) (c : Char) : Scan :=
  match s.nesting.quote with
  | some quote => s.stepInString quote c
  | none => s.stepOutside c

/-- The state at the end of a text. -/
def run (s : Scan) (text : List Char) : Scan :=
  text.foldl step s

/-- The state is at top level and no closing bracket was without a partner. -/
def isBalanced (s : Scan) : Bool :=
  s.nesting.isTop && !s.underflow

/-- Every character with its byte offset and the state behind it. -/
def trace (s : Scan) (offset : Nat) : List Char → List (Nat × Char × Nesting)
  | [] => []
  | c :: rest =>
    let next := s.step c
    (offset, c, next.nesting) :: next.trace (offset + c.utf8Size) rest

/-- The pieces between the separators that stand at top level, scanning on from
the state `s`. -/
def cut (separator : Char) (s : Scan) : List Char → List (List Char)
  | [] => [[]]
  | c :: rest =>
    let next := s.step c
    if c == separator && next.nesting.isTop then
      [] :: next.cut separator rest
    else
      match next.cut separator rest with
      | [] => [[c]]
      | piece :: more => (c :: piece) :: more

/-- What stands before and behind the first `)` after which no round bracket is
open, scanning on from the state `s`. -/
def closeParen (s : Scan) : List Char → Option (List Char × List Char)
  | [] => none
  | c :: rest =>
    let next := s.step c
    if c == ')' && next.nesting.parens == 0 && !next.nesting.inString then
      some ([], rest)
    else
      (next.closeParen rest).map fun (inside, behind) => (c :: inside, behind)

/-- The first character that leaves the scan at top level, and what follows. -/
def firstTop (s : Scan) : List Char → Option (Char × List Char)
  | [] => none
  | c :: rest =>
    let next := s.step c
    if next.nesting.isTop then some (c, rest) else next.firstTop rest

end Scan

/-- Refuses a text in which something closes without having been opened, or is
still open at the end. -/
def checkBalanced (text : List Char) : Except ParseFailure Unit :=
  let final := ({} : Scan).run text
  if final.underflow then
    .error (.unbalanced (String.ofList (trim text)))
  else if final.nesting.isTop then
    .ok ()
  else
    .error (.unterminated (String.ofList (trim text)))

/-- The pieces of a balanced text between its top-level separators, untrimmed. -/
def splitTop (separator : Char) (text : List Char) : Except ParseFailure (List (List Char)) :=
  (checkBalanced text).map fun _ => ({} : Scan).cut separator text

/-- For a text that starts with `(`: what stands inside the bracket and what
stands behind it. -/
def splitParen : List Char → Option (List Char × List Char)
  | '(' :: rest => (({} : Scan).step '(').closeParen rest
  | _ => none

/-- The square bracket that the text starts with closes at its very end. -/
def spansOneArray (text : List Char) : Bool :=
  match ({} : Scan).firstTop text with
  | some (']', []) => true
  | _ => false

theorem Scan.closeParen_length {s : Scan} {text inside behind : List Char}
    (h : s.closeParen text = some (inside, behind)) : behind.length < text.length := by
  induction text generalizing s inside with
  | nil => simp [Scan.closeParen] at h
  | cons c rest ih =>
      simp only [Scan.closeParen] at h
      split at h
      · simp only [Option.some.injEq, Prod.mk.injEq] at h
        simp [← h.2]
      · simp only [Option.map_eq_some_iff, Prod.mk.injEq] at h
        obtain ⟨⟨before, after⟩, hclose, -, rfl⟩ := h
        have hlt : after.length < rest.length := ih hclose
        simp only [List.length_cons]
        omega

theorem splitParen_length {text inside behind : List Char}
    (h : splitParen text = some (inside, behind)) : behind.length < text.length := by
  unfold splitParen at h
  split at h
  · have := Scan.closeParen_length h
    simp only [List.length_cons]
    omega
  · simp at h

end DocShell.Text
