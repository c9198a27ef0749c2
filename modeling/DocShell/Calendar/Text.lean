import DocShell.Calendar.Basic
import DocShell.Text.Numeral

/-!
# Instants as text

`isoText?` writes an instant in the form `YYYY-MM-DDTHH:MM:SS[.f]Z`, for the
years that four digits can hold.  `spelled` writes an instant the way it is shown
inside messages, for years of up to six digits.  Neither keeps trailing zeros of
the fraction, and an instant outside the years is written by its milliseconds.
-/

namespace DocShell.Calendar

/-- A number without a sign, with zeros in front up to `width` digits. -/
def fixed (width : Nat) (n : Int) : List Char :=
  Text.padded width n.natAbs

/-- The digits of a fraction of a second, without trailing zeros. -/
def fraction (milli : Int) : List Char :=
  Text.trimEndWhile (· == '0') (fixed 3 milli)

namespace Moment

/-- `YYYY-MM-DDTHH:MM:SS[.f]Z`. -/
def iso (m : Moment) : List Char :=
  let point := if m.milli = 0 then [] else '.' :: fraction m.milli
  fixed 4 m.date.year ++ '-' :: fixed 2 m.date.month ++ '-' :: fixed 2 m.date.day ++
    'T' :: fixed 2 m.hour ++ ':' :: fixed 2 m.minute ++ ':' :: fixed 2 m.second ++
    point ++ ['Z']

/-- The year with at least four digits; a sign is written from year 10000 on and
before year 0. -/
def spelledYear (year : Int) : List Char :=
  if year < 0 then '-' :: fixed 4 year
  else if 10000 ≤ year then '+' :: fixed 4 year
  else fixed 4 year

/-- `YYYY-MM-DD H:MM:SS.f +00:00:00`, the fraction `f` digits already chosen. -/
def spelledWith (m : Moment) (digits : List Char) : List Char :=
  spelledYear m.date.year ++ '-' :: fixed 2 m.date.month ++ '-' :: fixed 2 m.date.day ++
    ' ' :: fixed 1 m.hour ++ ':' :: fixed 2 m.minute ++ ':' :: fixed 2 m.second ++
    '.' :: digits ++ " +00:00:00".toList

end Moment

/-- The ISO form of an instant whose year is 0 to 9999. -/
def isoText? (millis : Int) : Option String :=
  let m := Moment.ofMillis millis
  if 0 ≤ m.date.year ∧ m.date.year ≤ 9999 then some (String.ofList m.iso) else none

/-- The ISO form of an instant, or its milliseconds when the year has no four
digits. -/
def isoText (millis : Int) : String :=
  (isoText? millis).getD (String.ofList (Text.intDigits millis))

/-- A year that `spelled` writes: one of at most six digits. -/
def isSpelledYear (year : Int) : Bool :=
  -999999 ≤ year && year ≤ 999999

/-- The instant as messages show it, with at least one digit of the fraction, or its
milliseconds when the year has more than six digits. -/
def spelled (millis : Int) : String :=
  let m := Moment.ofMillis millis
  String.ofList <|
    if isSpelledYear m.date.year then
      m.spelledWith (if m.milli = 0 then ['0'] else fraction m.milli)
    else
      Text.intDigits millis

end DocShell.Calendar
