import DocShell.Double.Basic
import DocShell.Json.Basic
import DocShell.Text.Numeral

/-!
# Reading JSON

A reader takes the characters that are left and gives a value and what is left
behind it, or a fault.  A fault remembers what was unread when it arose, and how
many bytes of that count as looked at; `Fault.message` turns this into a line
and a column of the whole text, columns being counted in bytes.

At most 127 arrays and objects may be open at a time.

## Numbers

An integer that 64 bits can hold, with or without sign, is read as it stands;
`-0` and every number with a point or an exponent is a double.  The digits of a
double are collected into a 64-bit significand as long as it does not overflow,
and the significand is then scaled by a power of ten, with one rounding for each
of the two steps.
-/

namespace DocShell.Json

/-- What can be wrong with a text that should be JSON. -/
inductive Problem where
  | endInValue
  | endInList
  | endInObject
  | endInString
  | expectedColon
  | expectedListEnd
  | expectedObjectEnd
  | expectedIdent
  | expectedValue
  | numberOutOfRange
  | invalidNumber
  | invalidEscape
  | controlCharacter
  | keyNotString
  | loneSurrogate
  | unfinishedSurrogate
  | trailingComma
  | trailingCharacters
  | tooDeep
  deriving DecidableEq, Repr, Inhabited

/-- The wording of a problem. -/
def Problem.message : Problem → String
  | .endInValue => "EOF while parsing a value"
  | .endInList => "EOF while parsing a list"
  | .endInObject => "EOF while parsing an object"
  | .endInString => "EOF while parsing a string"
  | .expectedColon => "expected `:`"
  | .expectedListEnd => "expected `,` or `]`"
  | .expectedObjectEnd => "expected `,` or `\x7d`"
  | .expectedIdent => "expected ident"
  | .expectedValue => "expected value"
  | .numberOutOfRange => "number out of range"
  | .invalidNumber => "invalid number"
  | .invalidEscape => "invalid escape"
  | .controlCharacter =>
    "control character (\\u0000-\\u001F) found while parsing a string"
  | .keyNotString => "key must be a string"
  | .loneSurrogate => "lone leading surrogate in hex escape"
  | .unfinishedSurrogate => "unexpected end of hex escape"
  | .trailingComma => "trailing comma"
  | .trailingCharacters => "trailing characters"
  | .tooDeep => "recursion limit exceeded"

/-- A problem, what was unread when it arose, and how many bytes of that count
as looked at. -/
structure Fault where
  problem : Problem
  rest : List Char
  ahead : Nat
  deriving DecidableEq, Repr, Inhabited

/-- What is read from a text, and what is left of it. -/
abbrev Reading (α : Type) : Type :=
  Except Fault (α × List Char)

/-! ## Positions -/

/-- A line, counted from one, and the number of bytes since it began. -/
structure Position where
  line : Nat := 1
  column : Nat := 0
  deriving DecidableEq, Repr, Inhabited

/-- The position behind a character. -/
def Position.after (p : Position) (c : Char) : Position :=
  if c == '\n' then ⟨p.line + 1, 0⟩ else ⟨p.line, p.column + c.utf8Size⟩

/-- The position `bytes` bytes further into a text, or at its end. -/
def Position.advance (p : Position) : Nat → List Char → Position
  | _, [] => p
  | bytes, c :: rest =>
    if bytes = 0 then p
    else if c.utf8Size ≤ bytes then (p.after c).advance (bytes - c.utf8Size) rest
    else ⟨p.line, p.column + bytes⟩

/-- The place of a fault in the whole text. -/
def Fault.position (fault : Fault) (text : List Char) : Position :=
  let consumed := text.take (text.length - fault.rest.length)
  (consumed.foldl Position.after {}).advance fault.ahead fault.rest

/-- The wording of a fault, with its place in the whole text. -/
def Fault.message (fault : Fault) (text : List Char) : String :=
  let p := fault.position text
  s!"{fault.problem.message} at line {p.line} column {p.column}"

/-- A problem at the place that has been reached. -/
def failAt {α : Type} (problem : Problem) (rest : List Char) : Except Fault α :=
  .error ⟨problem, rest, 0⟩

/-- A problem with the next byte. -/
def failNext {α : Type} (problem : Problem) (rest : List Char) : Except Fault α :=
  .error ⟨problem, rest, 1⟩

/-! ## Blanks and words -/

/-- The four blanks of JSON. -/
def isSpace (c : Char) : Bool :=
  c == ' ' || c == '\n' || c == '\t' || c == '\r'

/-- The text from its first character that is not blank. -/
def skipSpace (text : List Char) : List Char :=
  text.dropWhile isSpace

/-- The rest of a word such as `null`, and then `value`. -/
def readWord (value : Json) : List Char → List Char → Reading Json
  | [], text => .ok (value, text)
  | _ :: _, [] => failAt .endInValue []
  | expected :: more, c :: rest =>
    if c == expected then readWord value more rest else failNext .expectedIdent (c :: rest)

/-! ## Strings -/

/-- The number of bytes of a text. -/
def byteLength (text : List Char) : Nat :=
  text.foldr (fun c n => c.utf8Size + n) 0

/-- The 16-bit number that four hexadecimal digits denote. -/
def hexUnit? (a b c d : Char) : Option Nat := do
  let a ← Text.hexValue? a
  let b ← Text.hexValue? b
  let c ← Text.hexValue? c
  let d ← Text.hexValue? d
  return ((a * 16 + b) * 16 + c) * 16 + d

/-- The fault of an escape whose four hexadecimal digits are not there. -/
def badHex {α : Type} (text : List Char) : Except Fault α :=
  if byteLength text < 4 then failAt .endInString [] else .error ⟨.invalidEscape, text, 4⟩

/-- The number is the first half of a surrogate pair. -/
def isHighSurrogate (n : Nat) : Bool :=
  0xD800 ≤ n && n ≤ 0xDBFF

/-- The number is the second half of a surrogate pair. -/
def isLowSurrogate (n : Nat) : Bool :=
  0xDC00 ≤ n && n ≤ 0xDFFF

/-- The character that a surrogate pair denotes. -/
def surrogatePair (high low : Nat) : Char :=
  Char.ofNat ((high - 0xD800) * 0x400 + (low - 0xDC00) + 0x10000)

/-- The character that a one-letter escape denotes. -/
def simpleEscape? (c : Char) : Option Char :=
  match c with
  | '"' => some '"'
  | '\\' => some '\\'
  | '/' => some '/'
  | 'b' => some '\x08'
  | 'f' => some '\x0c'
  | 'n' => some '\n'
  | 'r' => some '\r'
  | 't' => some '\t'
  | _ => none

/-- Puts a character in front of what a string goes on with. -/
def consChar (c : Char) (more : Reading (List Char)) : Reading (List Char) :=
  more.map fun (text, rest) => (c :: text, rest)

/-- The content of a string whose opening quote has been read. -/
def readString : List Char → Reading (List Char)
  | [] => failAt .endInString []
  | '"' :: rest => .ok ([], rest)
  | '\\' :: 'u' :: a :: b :: c :: d :: rest =>
    match hexUnit? a b c d with
    | none => badHex (a :: b :: c :: d :: rest)
    | some unit =>
      if isLowSurrogate unit then
        failAt .loneSurrogate rest
      else if isHighSurrogate unit then
        match rest with
        | '\\' :: 'u' :: e :: f :: g :: h :: more =>
          match hexUnit? e f g h with
          | none => badHex (e :: f :: g :: h :: more)
          | some low =>
            if isLowSurrogate low then
              consChar (surrogatePair unit low) (readString more)
            else
              failAt .loneSurrogate more
        | '\\' :: 'u' :: more => badHex more
        | '\\' :: [] => failAt .endInString []
        | '\\' :: more => failNext .unfinishedSurrogate more
        | [] => failAt .endInString []
        | more => failNext .unfinishedSurrogate more
      else
        consChar (Char.ofNat unit) (readString rest)
  | '\\' :: 'u' :: rest => badHex rest
  | '\\' :: [] => failAt .endInString []
  | '\\' :: c :: rest =>
    match simpleEscape? c with
    | some plain => consChar plain (readString rest)
    | none => failNext .invalidEscape (c :: rest)
  | c :: rest =>
    if c.toNat < 0x20 then failAt .controlCharacter rest else consChar c (readString rest)

/-! ## Numbers -/

/-- The greatest unsigned 64-bit integer. -/
def maxSignificand : Nat :=
  18446744073709551615

/-- The greatest signed 32-bit integer. -/
def maxExponent : Nat :=
  2147483647

/-- The significand with a digit at its end; 64 bits may be too few to hold it. -/
def appendDigit (significand : Nat) (c : Char) : Nat :=
  significand * 10 + (c.toNat - '0'.toNat)

/-- The significand scaled by a power of ten of at most `10 ^ 308`, or nothing if
that is too large. -/
def scaleOnce? (x : Double) (exponent : Int) : Option Double :=
  let power := Double.ofRatio false (Nat.pow 10 exponent.natAbs) 1
  if 0 ≤ exponent then
    let y := x.mulFinite power
    if y.isFinite then some y else none
  else
    some (x.divFinite power)

/-- The significand scaled by any power of ten; small ones go down in steps of
`10 ^ 308`. -/
def scale? : Nat → Double → Int → Option Double
  | 0, x, _ => some x
  | fuel + 1, x, exponent =>
    if exponent.natAbs ≤ 308 then scaleOnce? x exponent
    else if x.isZero then some x
    else if 0 ≤ exponent then none
    else scale? fuel (x.divFinite (Double.ofRatio false (Nat.pow 10 308) 1)) (exponent + 308)

/-- The double `±significand * 10 ^ exponent`. -/
def finishDouble (negative : Bool) (significand : Nat) (exponent : Int) (rest : List Char) :
    Reading Number :=
  match scale? 4 (Double.ofInt significand) exponent with
  | some x => .ok (.float (if negative then x.negate else x), rest)
  | none => failAt .numberOutOfRange rest

/-- The digits of a written exponent behind the first, and the number. -/
def readExponentDigits (negative negativeExponent : Bool) (significand : Nat) (start : Int)
    (written : Nat) : List Char → Reading Number
  | [] => finishDouble negative significand
      (if negativeExponent then start - written else start + written) []
  | c :: rest =>
    if c.isDigit then
      let next := written * 10 + (c.toNat - '0'.toNat)
      if next ≤ maxExponent then
        readExponentDigits negative negativeExponent significand start next rest
      else if significand ≠ 0 ∧ !negativeExponent then
        failAt .numberOutOfRange rest
      else
        .ok (.float (Double.zero negative), rest.dropWhile Char.isDigit)
    else
      finishDouble negative significand
        (if negativeExponent then start - written else start + written) (c :: rest)

/-- The written exponent behind its letter, and the number. -/
def readExponent (negative : Bool) (significand : Nat) (start : Int) (text : List Char) :
    Reading Number :=
  let (negativeExponent, digits) :=
    match text with
    | '+' :: rest => (false, rest)
    | '-' :: rest => (true, rest)
    | rest => (false, rest)
  match digits with
  | [] => failAt .endInValue []
  | c :: rest =>
    if c.isDigit then
      readExponentDigits negative negativeExponent significand start
        (c.toNat - '0'.toNat) rest
    else
      failNext .invalidNumber (c :: rest)

/-- What may follow the digits of a double: an exponent, or nothing. -/
def readScale (negative : Bool) (significand : Nat) (exponent : Int) : List Char → Reading Number
  | 'e' :: rest | 'E' :: rest => readExponent negative significand exponent rest
  | rest => finishDouble negative significand exponent rest

/-- The digits behind the point; once the significand is full the others are
dropped. -/
def readFraction (negative first : Bool) (significand : Nat) (exponent : Int) :
    List Char → Reading Number
  | [] =>
    if first then failNext .endInValue [] else finishDouble negative significand exponent []
  | c :: rest =>
    if c.isDigit then
      let next := appendDigit significand c
      if next ≤ maxSignificand then readFraction negative false next (exponent - 1) rest
      else readScale negative significand exponent (rest.dropWhile Char.isDigit)
    else if first then
      failNext .invalidNumber (c :: rest)
    else
      readScale negative significand exponent (c :: rest)

/-- What may follow the digits of a full significand: each further digit counts
as a factor of ten. -/
def readLong (negative : Bool) (significand : Nat) (exponent : Int) : List Char → Reading Number
  | [] => finishDouble negative significand exponent []
  | c :: rest =>
    if c.isDigit then readLong negative significand (exponent + 1) rest
    else if c == '.' then readFraction negative true significand exponent rest
    else readScale negative significand exponent (c :: rest)

/-- The number that a significand without point and exponent denotes. -/
def wholeNumber (negative : Bool) (significand : Nat) : Number :=
  if !negative then .int significand
  else if significand = 0 ∨ 9223372036854775808 < significand then .float (Double.ofInt significand).negate
  else .int (-(significand : Int))

/-- What may follow an integer: a fraction, an exponent, or nothing. -/
def finishInteger (negative : Bool) (significand : Nat) : List Char → Reading Number
  | '.' :: rest => readFraction negative true significand 0 rest
  | 'e' :: rest | 'E' :: rest => readExponent negative significand 0 rest
  | rest => .ok (wholeNumber negative significand, rest)

/-- The digits of an integer behind the first. -/
def readInteger (negative : Bool) (significand : Nat) : List Char → Reading Number
  | [] => finishInteger negative significand []
  | c :: rest =>
    if c.isDigit then
      let next := appendDigit significand c
      if next ≤ maxSignificand then readInteger negative next rest
      else readLong negative significand 0 (c :: rest)
    else
      finishInteger negative significand (c :: rest)

/-- A number without its sign. -/
def readUnsigned (negative : Bool) : List Char → Reading Number
  | [] => failAt .endInValue []
  | '0' :: rest =>
    match rest with
    | [] => finishInteger negative 0 []
    | c :: _ =>
      if c.isDigit then failNext .invalidNumber rest else finishInteger negative 0 rest
  | c :: rest =>
    if c.isDigit then readInteger negative (c.toNat - '0'.toNat) rest
    else failNext .invalidNumber (c :: rest)

/-! ## Values -/

/-- Items up to the closing bracket; `fuel` bounds their number. -/
def readItems (item : List Char → Reading Json) : Nat → List Char → Reading (List Json)
  | 0, text => failNext .endInList text
  | fuel + 1, text =>
    match item text with
    | .error fault => .error fault
    | .ok (value, rest) =>
      match skipSpace rest with
      | [] => failNext .endInList []
      | ']' :: rest => .ok ([value], rest)
      | ',' :: rest =>
        match skipSpace rest with
        | [] => failNext .endInValue []
        | ']' :: rest => failNext .trailingComma (']' :: rest)
        | next => (readItems item fuel next).map fun (more, rest) => (value :: more, rest)
      | rest => failNext .expectedListEnd rest

/-- A key, its colon and its value, from the opening quote of the key on. -/
def readMember (item : List Char → Reading Json) : List Char → Reading (String × Json)
  | '"' :: text =>
    match readString text with
    | .error fault => .error fault
    | .ok (key, rest) =>
      match skipSpace rest with
      | [] => failNext .endInObject []
      | ':' :: rest =>
        (item rest).map fun (value, rest) => ((String.ofList key, value), rest)
      | rest => failNext .expectedColon rest
  | text => failNext .keyNotString text

/-- Members up to the closing brace; `fuel` bounds their number. -/
def readMembers (item : List Char → Reading Json) :
    Nat → List Char → Reading (List (String × Json))
  | 0, text => failNext .endInObject text
  | fuel + 1, text =>
    match readMember item text with
    | .error fault => .error fault
    | .ok (member, rest) =>
      match skipSpace rest with
      | [] => failNext .endInObject []
      | '}' :: rest => .ok ([member], rest)
      | ',' :: rest =>
        match skipSpace rest with
        | [] => failNext .endInValue []
        | '}' :: rest => failNext .trailingComma ('}' :: rest)
        | next => (readMembers item fuel next).map fun (more, rest) => (member :: more, rest)
      | rest => failNext .expectedObjectEnd rest

/-- The rest of an array behind its bracket. -/
def readArray (item : List Char → Reading Json) (text : List Char) : Reading Json :=
  match skipSpace text with
  | [] => failNext .endInList []
  | ']' :: rest => .ok (.array [], rest)
  | text => (readItems item (text.length + 1) text).map fun (items, rest) => (.array items, rest)

/-- The rest of an object behind its brace. -/
def readObject (item : List Char → Reading Json) (text : List Char) : Reading Json :=
  match skipSpace text with
  | [] => failNext .endInObject []
  | '}' :: rest => .ok (.object [], rest)
  | text =>
    (readMembers item (text.length + 1) text).map fun (members, rest) =>
      (.object (Fields.ofList members), rest)

/-- A value that is neither an array nor an object, from its first character. -/
def readScalar (c : Char) (rest : List Char) : Reading Json :=
  match c with
  | 'n' => readWord .null ['u', 'l', 'l'] rest
  | 't' => readWord (.bool true) ['r', 'u', 'e'] rest
  | 'f' => readWord (.bool false) ['a', 'l', 's', 'e'] rest
  | '"' => (readString rest).map fun (text, rest) => (.string (String.ofList text), rest)
  | '-' => (readUnsigned true rest).map fun (n, rest) => (.number n, rest)
  | c =>
    if c.isDigit then (readUnsigned false (c :: rest)).map fun (n, rest) => (.number n, rest)
    else failNext .expectedValue (c :: rest)

/-- A value in which at most `depth` arrays and objects are nested. -/
def readValue : Nat → List Char → Reading Json
  | depth, text =>
    match skipSpace text with
    | [] => failNext .endInValue []
    | '[' :: rest =>
      match depth with
      | 0 => failNext .tooDeep ('[' :: rest)
      | depth + 1 => readArray (readValue depth) rest
    | '{' :: rest =>
      match depth with
      | 0 => failNext .tooDeep ('{' :: rest)
      | depth + 1 => readObject (readValue depth) rest
    | c :: rest => readScalar c rest

/-- The most arrays and objects that may be open at a time. -/
def maxDepth : Nat :=
  127

/-- The value that a whole text denotes. -/
def read (text : List Char) : Except Fault Json :=
  match readValue maxDepth text with
  | .error fault => .error fault
  | .ok (value, rest) =>
    match skipSpace rest with
    | [] => .ok value
    | rest => failNext .trailingCharacters rest

/-- The value that a whole text denotes, or the wording of what is wrong. -/
def ofText (text : List Char) : Except String Json :=
  (read text).mapError fun fault => fault.message text

end DocShell.Json
