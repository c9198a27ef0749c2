import DocShell.Double.Text
import DocShell.Json.Basic
import DocShell.Text.Numeral

/-!
# Writing JSON

`compact` writes a value on one line without blanks.  `pretty` puts every item
on a line of its own, indented by its depth, and a space behind the colon; empty
containers stay `[]` and `{}`.

In strings only the quote, the backslash and characters below U+0020 are
escaped.
-/

namespace DocShell.Json

/-- A character inside a JSON string. -/
def escape (c : Char) : List Char :=
  match c with
  | '"' => ['\\', '"']
  | '\\' => ['\\', '\\']
  | '\x08' => ['\\', 'b']
  | '\x0c' => ['\\', 'f']
  | '\n' => ['\\', 'n']
  | '\r' => ['\\', 'r']
  | '\t' => ['\\', 't']
  | c =>
    if c.toNat < 0x20 then
      '\\' :: 'u' :: '0' :: '0' :: Text.hexByte (UInt8.ofNat c.toNat)
    else
      [c]

/-- A string with its quotes. -/
def quoted (text : List Char) : List Char :=
  '"' :: text.flatMap escape ++ ['"']

/-- The text of a number. -/
def Number.text : Number → List Char
  | .int n => Text.intDigits n
  | .float x => (Double.Layout.json.text x).toList

mutual

/-- The characters of a value on one line. -/
def compactChars : Json → List Char
  | .null => ['n', 'u', 'l', 'l']
  | .bool true => ['t', 'r', 'u', 'e']
  | .bool false => ['f', 'a', 'l', 's', 'e']
  | .number n => n.text
  | .string s => quoted s.toList
  | .array [] => ['[', ']']
  | .array (item :: more) => '[' :: compactChars item ++ compactItems more
  | .object [] => ['{', '}']
  | .object ((key, value) :: more) =>
    '{' :: quoted key.toList ++ ':' :: compactChars value ++ compactMembers more

/-- The items behind the first, with the closing bracket. -/
def compactItems : List Json → List Char
  | [] => [']']
  | item :: more => ',' :: compactChars item ++ compactItems more

/-- The members behind the first, with the closing brace. -/
def compactMembers : List (String × Json) → List Char
  | [] => ['}']
  | (key, value) :: more =>
    ',' :: quoted key.toList ++ ':' :: compactChars value ++ compactMembers more

end

/-- A line break and the blanks in front of an item at `depth`. -/
def newLine (indent depth : Nat) : List Char :=
  '\n' :: List.replicate (indent * depth) ' '

mutual

/-- The characters of a value that starts at `depth`, one item on a line. -/
def prettyChars (indent depth : Nat) : Json → List Char
  | .array (item :: more) =>
    '[' :: newLine indent (depth + 1) ++ prettyChars indent (depth + 1) item ++
      prettyItems indent depth more
  | .object ((key, value) :: more) =>
    '{' :: newLine indent (depth + 1) ++ quoted key.toList ++ ':' :: ' ' ::
      prettyChars indent (depth + 1) value ++ prettyMembers indent depth more
  | .array [] => ['[', ']']
  | .object [] => ['{', '}']
  | .null => compactChars .null
  | .bool b => compactChars (.bool b)
  | .number n => compactChars (.number n)
  | .string s => compactChars (.string s)

/-- The items behind the first, with the closing bracket at `depth`. -/
def prettyItems (indent depth : Nat) : List Json → List Char
  | [] => newLine indent depth ++ [']']
  | item :: more =>
    ',' :: newLine indent (depth + 1) ++ prettyChars indent (depth + 1) item ++
      prettyItems indent depth more

/-- The members behind the first, with the closing brace at `depth`. -/
def prettyMembers (indent depth : Nat) : List (String × Json) → List Char
  | [] => newLine indent depth ++ ['}']
  | (key, value) :: more =>
    ',' :: newLine indent (depth + 1) ++ quoted key.toList ++ ':' :: ' ' ::
      prettyChars indent (depth + 1) value ++ prettyMembers indent depth more

end

/-- The value on one line. -/
def compact (value : Json) : String :=
  String.ofList value.compactChars

/-- The value with one item on a line. -/
def pretty (indent : Nat) (value : Json) : String :=
  String.ofList (value.prettyChars indent 0)

end DocShell.Json
