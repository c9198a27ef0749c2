import DocShell.Toml.Scalar

/-!
# Reading settings files

The form is that of TOML, version 1.1.  A reader takes the characters that are left and
gives what it has read with the rest.  Between brackets and braces, line ends and
comments count as blanks, and a comma may stand behind the last element.
-/

namespace DocShell.Toml

/-! ## Comments and line ends -/

/-- The text without the comment that it starts with. -/
def skipComment : List Char → List Char
  | '#' :: rest => rest.dropWhile isPlain
  | text => text

/-- What stands behind the end of the line, for a text that has come to it. -/
def behindLine? : List Char → Option (List Char)
  | [] => some []
  | '\n' :: rest => some rest
  | '\r' :: '\n' :: rest => some rest
  | _ => none

/-- What stands behind the line, if only blanks and a comment are left on it. -/
def endLine? (text : List Char) : Option (List Char) :=
  behindLine? (skipComment (skipBlank text))

/-- The text without leading blanks, comments and line ends; `fuel` bounds the number
of lines. -/
def skipLinesWith : Nat → List Char → List Char
  | 0, text => text
  | fuel + 1, text =>
    match endLine? text with
    | some [] => []
    | some rest => skipLinesWith fuel rest
    | none => skipBlank text

/-- The text without leading blanks, comments and line ends. -/
def skipLines (text : List Char) : List Char :=
  skipLinesWith (text.length + 1) text

/-! ## Names and values -/

/-- A character of a name without quotes. -/
def isNameChar (c : Char) : Bool :=
  c.isAlphanum || c == '_' || c == '-'

/-- A name, with or without quotes. -/
def readName : List Char → Option (List Char × List Char)
  | '"' :: rest => readBasic rest
  | '\'' :: rest => readLiteral rest
  | text =>
    let name := text.takeWhile isNameChar
    if name.isEmpty then none else some (name, text.dropWhile isNameChar)

/-- At most so many arrays and tables in braces may be open at a time, and so many
names may be dotted. -/
def maxDepth : Nat :=
  80

/-- Names with points between them, at most `count` of them. -/
def readNames : (count : Nat) → List Char → Option (List String × List Char)
  | 0, _ => none
  | count + 1, text => do
    let (name, rest) ← readName (skipBlank text)
    match skipBlank rest with
    | '.' :: rest => do
      let (more, rest) ← readNames count rest
      return (String.ofList name :: more, rest)
    | rest => return ([String.ofList name], rest)

/-- A dotted name, and what stands behind the blanks that follow. -/
def readKey (text : List Char) : Option (List String × List Char) :=
  readNames maxDepth text

/-- A dotted name, its equals sign and its value; `skip` drops what may stand between
them. -/
def readEntry (skip : List Char → List Char) (value : List Char → Option (Toml × List Char))
    (text : List Char) : Option ((List String × Toml) × List Char) := do
  let (key, rest) ← readKey text
  match skip rest with
  | '=' :: rest => do
    let (value, rest) ← value (skip rest)
    return ((key, value), rest)
  | _ => none

/-- Elements with commas between them, and one behind the last or not, up to a closing
character; `fuel` bounds their number. -/
def readElements {α : Type} (closing : Char) (element : List Char → Option (α × List Char)) :
    Nat → List Char → Option (List α × List Char)
  | 0, _ => none
  | fuel + 1, text =>
    let text := skipLines text
    if text.head? = some closing then
      some ([], text.drop 1)
    else do
      let (a, rest) ← element text
      match skipLines rest with
      | ',' :: rest => do
        let (more, rest) ← readElements closing element fuel rest
        return (a :: more, rest)
      | c :: rest => if c = closing then some ([a], rest) else none
      | [] => none

/-- A value in which at most `depth` arrays and tables in braces are nested. -/
def readValue : (depth : Nat) → List Char → Option (Toml × List Char)
  | _, '"' :: '"' :: '"' :: rest => do
    let (text, rest) ← readBasicLines rest
    return (.string (String.ofList text), rest)
  | _, '"' :: rest => do
    let (text, rest) ← readBasic rest
    return (.string (String.ofList text), rest)
  | _, '\'' :: '\'' :: '\'' :: rest => do
    let (text, rest) ← readLiteralLines rest
    return (.string (String.ofList text), rest)
  | _, '\'' :: rest => do
    let (text, rest) ← readLiteral rest
    return (.string (String.ofList text), rest)
  | depth + 1, '[' :: rest => do
    let (items, rest) ← readElements ']' (readValue depth) (rest.length + 1) rest
    return (.array items, rest)
  | depth + 1, '{' :: rest => do
    let (entries, rest) ←
      readElements '}' (readEntry skipLines (readValue depth)) (rest.length + 1) rest
    return (← inBraces entries, rest)
  | _, text => readWord text

/-! ## Files -/

/-- A statement. -/
def readStatement : List Char → Option (Statement × List Char)
  | '[' :: '[' :: rest => do
    match ← readKey rest with
    | (key, ']' :: ']' :: rest) => return (.row key, rest)
    | _ => none
  | '[' :: rest => do
    match ← readKey rest with
    | (key, ']' :: rest) => return (.header key, rest)
    | _ => none
  | text => do
    let ((key, value), rest) ← readEntry skipBlank (readValue maxDepth) text
    return (.entry key value, rest)

/-- The statements of a text, one on a line; `fuel` bounds their number. -/
def readStatements : Nat → List Char → Option (List Statement)
  | 0, _ => none
  | fuel + 1, text =>
    match skipLines text with
    | [] => some []
    | text => do
      let (statement, rest) ← readStatement text
      let more ← readStatements fuel (← endLine? rest)
      return statement :: more

/-- The text without the byte order mark at its start. -/
def skipMark : List Char → List Char
  | '\ufeff' :: rest => rest
  | text => text

/-- The table that a whole file denotes. -/
def read? (text : List Char) : Option (Fields Toml) := do
  let statements ← readStatements (text.length + 1) (skipMark text)
  build [] statements []

end DocShell.Toml
