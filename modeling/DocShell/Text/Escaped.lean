import DocShell.Text.Pieces
import DocShell.Text.Unmarked

/-!
# Strings with everything invisible spelled out

A string shown with its type stands in double quotes.  The quote, the backslash
and the usual control characters have short escapes; every other character that
leaves no mark of its own, or joins the one before it, is written by its number.
-/

namespace DocShell.Text

/-- A character inside quotes. -/
def spellChar (c : Char) : List Char :=
  match c with
  | '"' => ['\\', '"']
  | '\\' => ['\\', '\\']
  | '\n' => ['\\', 'n']
  | '\r' => ['\\', 'r']
  | '\t' => ['\\', 't']
  | '\x00' => ['\\', '0']
  | c =>
    if isUnmarked c then
      '\\' :: 'u' :: '{' :: Nat.toDigits 16 c.toNat ++ ['}']
    else
      [c]

/-- A string in quotes. -/
def spell (text : List Char) : List Char :=
  '"' :: text.flatMap spellChar ++ ['"']

end DocShell.Text
