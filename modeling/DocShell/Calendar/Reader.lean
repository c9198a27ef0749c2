import DocShell.Calendar.Basic
import DocShell.Text.Numeral

/-!
# Reading instants

Three forms are tried in turn.

* `offsetForm?`: exactly `YYYY-MM-DD`, then `T`, `t` or a space, then
  `HH:MM:SS` with an optional fraction, then `Z`, `z` or an offset `±HH:MM`.
* `plainForm?`: `Y-M-DTH:M:S` with an optional fraction, taken as UTC.
* `dateForm?`: `Y-M-D`, at midnight.

In the last two each number may have blanks in front and fewer digits, and the
year may have a sign, which lifts the limit on its digits.  Fractions are cut to
milliseconds.
-/

namespace DocShell.Calendar

/-- What is left of the text behind the character `c`. -/
def expect (c : Char) : List Char → Option (List Char)
  | d :: rest => if d == c then some rest else none
  | [] => none

/-- A number of exactly `width` digits. -/
def exactly (width : Nat) (text : List Char) : Option (Int × List Char) :=
  let digits := text.take width
  if digits.length = width ∧ digits.all Char.isDigit then
    some (Text.natOfDigits digits, text.drop width)
  else
    none

/-- A number of one to `width` digits; more digits stay behind. -/
def upTo (width : Nat) (text : List Char) : Option (Int × List Char) :=
  let digits := (text.take width).takeWhile Char.isDigit
  if digits.isEmpty then none else some (Text.natOfDigits digits, text.drop digits.length)

/-- A number of at least one digit. -/
def atLeastOne (text : List Char) : Option (Int × List Char) :=
  upTo text.length text

/-- A fraction of a second in milliseconds, if the text starts with a point. -/
def readFraction : List Char → Option (Int × List Char)
  | '.' :: rest =>
    let digits := rest.takeWhile Char.isDigit
    if digits.isEmpty then none
    else
      let thousandths := (digits ++ ['0', '0']).take 3
      some (Text.natOfDigits thousandths, rest.drop digits.length)
  | text => some (0, text)

/-- `Z`, `z` or an offset, in milliseconds east of Greenwich, up to the end of
the text. -/
def readOffset : List Char → Option Int
  | ['Z'] | ['z'] => some 0
  | sign :: rest => do
    let factor ←
      if sign == '+' then some 1
      else if sign == '-' || sign == '−' then some (-1)
      else none
    let (hours, rest) ← exactly 2 rest
    let rest ← expect ':' rest
    let (minutes, rest) ← exactly 2 rest
    if rest.isEmpty && hours ≤ 23 && minutes ≤ 59 then
      some (factor * (hours * 60 + minutes) * 60000)
    else
      none
  | [] => none

/-- Four-digit year, two-digit fields and an offset. -/
def offsetForm? (text : List Char) : Option Int := do
  let (year, text) ← exactly 4 text
  let text ← expect '-' text
  let (month, text) ← exactly 2 text
  let text ← expect '-' text
  let (day, text) ← exactly 2 text
  let text ← (expect 'T' text).orElse fun _ => (expect 't' text).orElse fun _ => expect ' ' text
  let (hour, text) ← exactly 2 text
  let text ← expect ':' text
  let (minute, text) ← exactly 2 text
  let text ← expect ':' text
  let (second, text) ← exactly 2 text
  let (milli, text) ← readFraction text
  let offset ← readOffset text
  let moment : Moment := ⟨⟨year, month, day⟩, hour, minute, second, milli⟩
  if moment.isValid then some (moment.toMillis - offset) else none

/-- A number with blanks in front and at most `width` digits. -/
def looseNumber (width : Nat) (text : List Char) : Option (Int × List Char) :=
  upTo width (Text.trimStart text)

/-- A year: up to four digits, or a sign and any number of digits. -/
def looseYear (text : List Char) : Option (Int × List Char) :=
  match Text.trimStart text with
  | '-' :: rest => (atLeastOne rest).map fun (n, rest) => (-n, rest)
  | '+' :: rest => atLeastOne rest
  | rest => upTo 4 rest

/-- `Y-M-D`, in the years that instants of this form may have. -/
def looseDate (text : List Char) : Option (Date × List Char) := do
  let (year, text) ← looseYear text
  let text ← expect '-' text
  let (month, text) ← looseNumber 2 text
  let text ← expect '-' text
  let (day, text) ← looseNumber 2 text
  if -262143 ≤ year && year ≤ 262142 then some (⟨year, month, day⟩, text) else none

/-- `Y-M-DTH:M:S[.f]`, taken as UTC. -/
def plainForm? (text : List Char) : Option Int := do
  let (date, text) ← looseDate text
  let text ← expect 'T' text
  let (hour, text) ← looseNumber 2 text
  let text ← expect ':' text
  let (minute, text) ← looseNumber 2 text
  let text ← expect ':' text
  let (second, text) ← looseNumber 2 text
  let (milli, text) ← readFraction text
  let moment : Moment := ⟨date, hour, minute, second, milli⟩
  if text.isEmpty && moment.isValid then some moment.toMillis else none

/-- `Y-M-D` at midnight. -/
def dateForm? (text : List Char) : Option Int := do
  let (date, text) ← looseDate text
  if text.isEmpty && date.isValid then some (date.toDays * 86400000) else none

/-- The instant that a text denotes in one of the three forms. -/
def read? (text : List Char) : Option Int :=
  (offsetForm? text).orElse fun _ => (plainForm? text).orElse fun _ => dateForm? text

end DocShell.Calendar
