/-!
# The civil calendar

Instants are milliseconds since the start of 1970, read in the proleptic
Gregorian calendar.  A calendar repeats after 400 years, an era of 146097 days;
inside an era the year is taken to start in March, which puts the leap day at
the end.

`Date.toDays` and `Date.ofDays` convert between dates and days since the start
of 1970, `Moment.toMillis` and `Moment.ofMillis` between dates with a time of
day and instants.
-/

namespace DocShell.Calendar

/-- A date of the civil calendar. -/
structure Date where
  year : Int
  month : Int
  day : Int
  deriving DecidableEq, Repr, Inhabited

/-- A year with a 29th of February. -/
def isLeap (year : Int) : Bool :=
  year % 4 == 0 && (year % 100 != 0 || year % 400 == 0)

/-- The number of days of a month. -/
def monthLength (year month : Int) : Int :=
  if month = 2 then (if isLeap year then 29 else 28)
  else if month = 4 ∨ month = 6 ∨ month = 9 ∨ month = 11 then 30
  else 31

namespace Date

/-- The month exists and has such a day. -/
def isValid (d : Date) : Bool :=
  1 ≤ d.month && d.month ≤ 12 && 1 ≤ d.day && d.day ≤ monthLength d.year d.month

/-- Days since the start of 1970. -/
def toDays (d : Date) : Int :=
  let year := if d.month ≤ 2 then d.year - 1 else d.year
  let era := year / 400
  let yearOfEra := year - era * 400
  let monthFromMarch := (d.month + 9) % 12
  let dayOfYear := (153 * monthFromMarch + 2) / 5 + d.day - 1
  let dayOfEra := yearOfEra * 365 + yearOfEra / 4 - yearOfEra / 100 + dayOfYear
  era * 146097 + dayOfEra - 719468

/-- The date that lies `days` days after the start of 1970. -/
def ofDays (days : Int) : Date :=
  let shifted := days + 719468
  let era := shifted / 146097
  let dayOfEra := shifted - era * 146097
  let yearOfEra := (dayOfEra - dayOfEra / 1460 + dayOfEra / 36524 - dayOfEra / 146096) / 365
  let dayOfYear := dayOfEra - (365 * yearOfEra + yearOfEra / 4 - yearOfEra / 100)
  let monthFromMarch := (5 * dayOfYear + 2) / 153
  let day := dayOfYear - (153 * monthFromMarch + 2) / 5 + 1
  let month := if monthFromMarch < 10 then monthFromMarch + 3 else monthFromMarch - 9
  let year := yearOfEra + era * 400 + (if month ≤ 2 then 1 else 0)
  ⟨year, month, day⟩

end Date

/-- A date with a time of day, to the millisecond. -/
structure Moment where
  date : Date
  hour : Int
  minute : Int
  second : Int
  milli : Int
  deriving DecidableEq, Repr, Inhabited

namespace Moment

/-- The date and the time of day exist.  A second 60 is allowed: it is the first
second of the next minute. -/
def isValid (m : Moment) : Bool :=
  m.date.isValid && 0 ≤ m.hour && m.hour ≤ 23 && 0 ≤ m.minute && m.minute ≤ 59 &&
    0 ≤ m.second && m.second ≤ 60 && 0 ≤ m.milli && m.milli ≤ 999

/-- Milliseconds since the start of 1970. -/
def toMillis (m : Moment) : Int :=
  (((m.date.toDays * 24 + m.hour) * 60 + m.minute) * 60 + m.second) * 1000 + m.milli

/-- The moment that lies `millis` milliseconds after the start of 1970. -/
def ofMillis (millis : Int) : Moment :=
  let ofDay := millis % 86400000
  { date := Date.ofDays (millis / 86400000)
    hour := ofDay / 3600000
    minute := ofDay / 60000 % 60
    second := ofDay / 1000 % 60
    milli := ofDay % 1000 }

end Moment

end DocShell.Calendar
