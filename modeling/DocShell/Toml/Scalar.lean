import DocShell.Calendar.Basic
import DocShell.Double.Text
import DocShell.Toml.Basic
import DocShell.Toml.Quoted

/-!
# Numbers, booleans and dates of settings files

These values are words: they stand without quotes.  Digits of numbers may be parted by
single underscores.  A date and a time of day may be joined by a `T` or a blank; seconds
may be left out, and an offset needs both date and time.
-/

namespace DocShell.Toml

/-! ## Numbers -/

/-- The digits of a number without the underscores between them. -/
def digits? (isDigit : Char → Bool) (text : List Char) : Option (List Char) :=
  let groups := Text.pieces (· == '_') text
  if groups.all fun group => !group.isEmpty && group.all isDigit then some groups.flatten
  else none

/-- The digits of a decimal number, which starts with a zero only if it is zero. -/
def decimal? (text : List Char) : Option (List Char) :=
  (digits? Char.isDigit text).filter fun digits =>
    digits.head? != some '0' || digits.length == 1

/-- A text without its sign, and the sign. -/
def signed : List Char → Bool × List Char
  | '-' :: rest => (true, rest)
  | '+' :: rest => (false, rest)
  | rest => (false, rest)

/-- The number that digits of a base denote. -/
def inBase? (base : Nat) (text : List Char) : Option Toml := do
  let digits ← digits? (fun c => (Text.hexValue? c).any (· < base)) text
  let values ← digits.mapM Text.hexValue?
  let n := values.foldl (fun n d => n * base + d) 0
  return .integer n

/-- An integer with an optional sign. -/
def integer? (text : List Char) : Option Toml := do
  let (negative, digits) := signed text
  let n := Text.natOfDigits (← decimal? digits)
  return .integer (if negative then -(n : Int) else n)

/-- The written exponent of a number, which may start with zeros. -/
def isExponent (text : List Char) : Bool :=
  (digits? Char.isDigit (signed text).2).isSome

/-- The digits in front of the exponent, with a fraction if there is a point. -/
def isMantissa (text : List Char) : Bool :=
  match Text.splitOnce? ['.'] text with
  | some (whole, fraction) =>
    (decimal? whole).isSome && (digits? Char.isDigit fraction).isSome
  | none => (decimal? text).isSome

/-- The text is a number with a fraction or an exponent. -/
def isFloat (text : List Char) : Bool :=
  let unsigned := (signed text).2
  let isMark := fun (c : Char) => c == 'e' || c == 'E'
  match unsigned.dropWhile (fun c => !isMark c) with
  | [] => unsigned.contains '.' && isMantissa unsigned
  | _ :: exponent => isMantissa (unsigned.takeWhile fun c => !isMark c) && isExponent exponent

/-- A number with a fraction or an exponent, or the word for infinity or not a number. -/
def float? (text : List Char) : Option Toml :=
  if ["inf", "nan"].contains (String.ofList (signed text).2) then
    some (.float (Double.read? text))
  else if isFloat text then
    some (.float ((Double.read? (text.filter (· != '_'))).filter Double.isFinite))
  else
    none

/-! ## Dates -/

/-- The number of a text of exactly `width` digits. -/
def field? (width : Nat) (text : List Char) : Option Int :=
  if text.length = width then (Text.readNat? text).map Int.ofNat else none

/-- A date, `YYYY-MM-DD`. -/
def isDate (text : List Char) : Bool :=
  match Text.pieces (· == '-') text with
  | [year, month, day] =>
    match field? 4 year, field? 2 month, field? 2 day with
    | some year, some month, some day => (Calendar.Date.mk year month day).isValid
    | _, _, _ => false
  | _ => false

/-- Two digits for a number of at most `greatest`. -/
def isUpTo (greatest : Int) (text : List Char) : Bool :=
  (field? 2 text).any (· ≤ greatest)

/-- Seconds, with a fraction or without; there may be a sixtieth. -/
def isSeconds (text : List Char) : Bool :=
  match Text.splitOnce? ['.'] text with
  | some (whole, fraction) => isUpTo 60 whole && (Text.readNat? fraction).isSome
  | none => isUpTo 60 text

/-- A time of day, `HH:MM` or `HH:MM:SS`. -/
def isTime (text : List Char) : Bool :=
  match Text.pieces (· == ':') text with
  | [hour, minute] => isUpTo 23 hour && isUpTo 59 minute
  | [hour, minute, second] => isUpTo 23 hour && isUpTo 59 minute && isSeconds second
  | _ => false

/-- A distance from Greenwich, `HH:MM`. -/
def isOffset (text : List Char) : Bool :=
  match Text.pieces (· == ':') text with
  | [hour, minute] => isUpTo 23 hour && isUpTo 59 minute
  | _ => false

/-- A character that an offset starts with. -/
def isOffsetStart (c : Char) : Bool :=
  ['Z', 'z', '+', '-'].contains c

/-- A time of day that may have an offset. -/
def isTimeWithOffset (text : List Char) : Bool :=
  match text.span fun c => !isOffsetStart c with
  | (time, []) => isTime time
  | (time, 'Z' :: rest) | (time, 'z' :: rest) => isTime time && rest.isEmpty
  | (time, _ :: offset) => isTime time && isOffset offset

/-- A date, a time of day, or both with a `T` or a blank between them. -/
def isDateTime (text : List Char) : Bool :=
  isDate text || isTime text ||
    match text.drop 10 with
    | c :: rest => ['T', 't', ' '].contains c && isDate (text.take 10) && isTimeWithOffset rest
    | [] => false

/-! ## Words -/

/-- A boolean, a number or a date. -/
def word? (text : List Char) : Option Toml :=
  match text with
  | ['t', 'r', 'u', 'e'] => some (.boolean true)
  | ['f', 'a', 'l', 's', 'e'] => some (.boolean false)
  | '0' :: 'x' :: digits => inBase? 16 digits
  | '0' :: 'o' :: digits => inBase? 8 digits
  | '0' :: 'b' :: digits => inBase? 2 digits
  | text =>
    if isDateTime text then some (.dateTime (String.ofList text))
    else (float? text).orElse fun _ => integer? text

/-- A character of a word. -/
def isWordChar (c : Char) : Bool :=
  c.isAlphanum || ['_', '-', '+', '.', ':'].contains c

/-- The word that a text starts with, and the rest.  A blank with a digit behind joins a
date and a time of day. -/
def takeWord (text : List Char) : List Char × List Char :=
  match text.span isWordChar with
  | (word, ' ' :: c :: rest) =>
    if isDate word && c.isDigit then
      let (time, rest) := (c :: rest).span isWordChar
      (word ++ ' ' :: time, rest)
    else
      (word, ' ' :: c :: rest)
  | cut => cut

/-- The value of the word that a text starts with, and the rest. -/
def readWord (text : List Char) : Option (Toml × List Char) :=
  let (word, rest) := takeWord text
  (word? word).map fun value => (value, rest)

end DocShell.Toml
