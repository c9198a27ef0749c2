import DocShell.Calendar.Basic

/-!
# Days and dates

Every day has a date, and it lies as many days after the start of 1970 as the calendar says:
`Date.ofDays` gives a valid date (`isValid_ofDays`) from which `Date.toDays` counts back
(`toDays_ofDays`), and no other valid date counts the same (`ofDays_toDays`).  The dates follow
each other as in the civil calendar (`civil_calendar`).  Hence every instant has a moment
(`Moment.isValid_ofMillis`, `Moment.toMillis_ofMillis`).

## Strategy

Both directions go through the date as it is counted from March: an era, a year of the era, a
month from March on and a day (`ofMarch`).  There every month and every year starts at a fixed
day (`monthStart`, `yearStart`), and the leap day is the last one of its year.

* `yearOfEra` finds the year of an era (`yearOfEra_spec`): a day is split into its century, its
  group of four years, and the rest.  The correction by `dayOfEra / 1460` counts the groups, and
  one more only on days on which this does no harm.
* Inside a year, `monthOf` finds the month (`monthOf_spec`), one month at a time.
* Years do not overlap when they are counted from March (`Date.toDays_bounds`), and neither do
  months (`Date.marchMonth_le`), so the count of the days determines the date
  (`Date.toDays_inj`).
-/

namespace DocShell.Calendar

/-! ## Years of an era -/

/-- The first day of a year of an era. -/
def yearStart (year : Int) : Int :=
  year * 365 + year / 4 - year / 100

/-- The year of an era in which a day of the era lies. -/
def yearOfEra (dayOfEra : Int) : Int :=
  (dayOfEra - dayOfEra / 1460 + dayOfEra / 36524 - dayOfEra / 146096) / 365

/-- A day of an era lies in its year, and it is the 366th one at most if the year ends with a
leap day: the next year, which starts in January, is a leap year. -/
theorem yearOfEra_spec {dayOfEra : Int} (hfirst : 0 ≤ dayOfEra) (hlast : dayOfEra ≤ 146096) :
    let year := yearOfEra dayOfEra
    (0 ≤ year ∧ year ≤ 399) ∧ yearStart year ≤ dayOfEra ∧ dayOfEra ≤ yearStart year + 365 ∧
      (dayOfEra = yearStart year + 365 → isLeap (year + 1) = true) := by
  intro year
  rcases Int.lt_or_eq_of_le hlast with hbefore | rfl
  · have hera : dayOfEra / 146096 = 0 := by omega
    obtain ⟨century, hcentury⟩ : ∃ century, century = dayOfEra / 36524 := ⟨_, rfl⟩
    obtain ⟨group, hgroup⟩ : ∃ group, group = (dayOfEra - 36524 * century) / 1461 := ⟨_, rfl⟩
    obtain ⟨day, hday⟩ : ∃ day, day = dayOfEra - 36524 * century - 1461 * group := ⟨_, rfl⟩
    -- The correction is one too large on the last days of some groups, and always on a leap day.
    obtain ⟨excess, hexcess⟩ : ∃ excess, excess = (24 * century + group + day) / 1460 := ⟨_, rfl⟩
    obtain ⟨inGroup, hinGroup⟩ : ∃ inGroup, inGroup = (day - excess) / 365 := ⟨_, rfl⟩
    have hgroups : dayOfEra / 1460 = 25 * century + group + excess := by omega
    have hyear : year = 4 * (25 * century + group) + inGroup := by
      simp only [year, yearOfEra, hera, hgroups, ← hcentury]
      omega
    have hfour : year / 4 = 25 * century + group := by omega
    have hhundred : year / 100 = century := by omega
    unfold yearStart
    rw [hfour, hhundred]
    refine ⟨by omega, by omega, by omega, fun hleap => ?_⟩
    have hlastOfGroup : inGroup = 3 ∧ group ≤ 23 := by omega
    simp only [isLeap, Bool.and_eq_true, Bool.or_eq_true, beq_iff_eq, bne_iff_ne]
    omega
  · decide

/-! ## Months of a year -/

/-- The first day of a month, both counted from March. -/
def monthStart (month : Int) : Int :=
  (153 * month + 2) / 5

/-- The month from March on in which a day of the year lies. -/
def monthOf (dayOfYear : Int) : Int :=
  (5 * dayOfYear + 2) / 153

/-- The length of a month from March on, of which February is the last and as long as the leap
day makes it. -/
def lengthFromMarch (leap : Bool) (month : Int) : Int :=
  if month = 11 then (if leap then 29 else 28)
  else if month = 1 ∨ month = 3 ∨ month = 6 ∨ month = 8 then 30
  else 31

theorem monthOf_spec {dayOfYear : Int} {leap : Bool} (hfirst : 0 ≤ dayOfYear)
    (hlast : dayOfYear ≤ 365) (hleap : dayOfYear = 365 → leap = true) :
    let month := monthOf dayOfYear
    (0 ≤ month ∧ month ≤ 11) ∧ monthStart month ≤ dayOfYear ∧
      dayOfYear < monthStart month + lengthFromMarch leap month := by
  intro month
  have hmonth : month = (5 * dayOfYear + 2) / 153 := rfl
  have hbounds : 0 ≤ month ∧ month ≤ 11 := by omega
  refine ⟨hbounds, by unfold monthStart; omega, ?_⟩
  unfold monthStart lengthFromMarch
  cases leap <;> simp at hleap ⊢ <;> repeat' split
  all_goals omega

theorem monthStart_succ {month : Int} (hfirst : 0 ≤ month) (hlast : month ≤ 10) (leap : Bool) :
    monthStart (month + 1) = monthStart month + lengthFromMarch leap month := by
  have hmonth : month = 0 ∨ month = 1 ∨ month = 2 ∨ month = 3 ∨ month = 4 ∨ month = 5 ∨
      month = 6 ∨ month = 7 ∨ month = 8 ∨ month = 9 ∨ month = 10 := by omega
  rcases hmonth with rfl | rfl | rfl | rfl | rfl | rfl | rfl | rfl | rfl | rfl | rfl <;> rfl

theorem monthStart_le {first second : Int} (hle : first ≤ second) :
    monthStart first ≤ monthStart second := by
  unfold monthStart
  omega

/-! ## Dates counted from March -/

/-- The days before the March of a year. -/
def daysBefore (year : Int) : Int :=
  year * 365 + year / 4 - year / 100 + year / 400

theorem daysBefore_succ (year : Int) :
    daysBefore (year + 1) = daysBefore year + 365 + if isLeap (year + 1) then 1 else 0 := by
  have hleap : isLeap (year + 1) = true ↔
      (year + 1) % 4 = 0 ∧ ((year + 1) % 100 ≠ 0 ∨ (year + 1) % 400 = 0) := by
    simp only [isLeap, Bool.and_eq_true, Bool.or_eq_true, beq_iff_eq, bne_iff_ne]
  simp only [daysBefore, hleap]
  split <;> omega

theorem daysBefore_le {first second : Int} (hle : first ≤ second) :
    daysBefore first ≤ daysBefore second := by
  unfold daysBefore
  omega

theorem daysBefore_of_era (era : Int) {year : Int} (hyear : 0 ≤ year ∧ year ≤ 399) :
    daysBefore (year + era * 400) = era * 146097 + yearStart year := by
  unfold daysBefore yearStart
  omega

theorem isLeap_of_era (era year : Int) : isLeap (year + era * 400) = isLeap year := by
  have hfour : (year + era * 400) % 4 = year % 4 := by omega
  have hhundred : (year + era * 400) % 100 = year % 100 := by omega
  have hera : (year + era * 400) % 400 = year % 400 := by omega
  rw [isLeap, hfour, hhundred, hera, isLeap]

namespace Date

variable {date : Date}

/-- The year of a date, if years start in March. -/
def marchYear (date : Date) : Int :=
  if date.month ≤ 2 then date.year - 1 else date.year

/-- The month of a date, counted from March. -/
def marchMonth (date : Date) : Int :=
  (date.month + 9) % 12

theorem toDays_eq (date : Date) :
    date.toDays =
      daysBefore date.marchYear + monthStart date.marchMonth + date.day - 1 - 719468 := by
  unfold toDays daysBefore monthStart marchMonth
  rw [← marchYear]
  simp only
  omega

/-- Only February depends on the year, and it lies in the next civil year. -/
theorem monthLength_eq (hmonth : 1 ≤ date.month ∧ date.month ≤ 12) :
    monthLength date.year date.month =
      lengthFromMarch (isLeap (date.marchYear + 1)) date.marchMonth := by
  by_cases hfebruary : date.month = 2
  · simp [monthLength, lengthFromMarch, marchMonth, marchYear, hfebruary]
  · unfold monthLength lengthFromMarch marchMonth
    repeat' split
    all_goals omega

theorem isValid_iff :
    date.isValid = true ↔ (1 ≤ date.month ∧ date.month ≤ 12) ∧ 1 ≤ date.day ∧
      date.day ≤ lengthFromMarch (isLeap (date.marchYear + 1)) date.marchMonth := by
  simp only [isValid, Bool.and_eq_true, decide_eq_true_eq]
  constructor
  · rintro ⟨⟨hmonth, hfirst⟩, hlast⟩
    exact ⟨hmonth, hfirst, monthLength_eq hmonth ▸ hlast⟩
  · rintro ⟨hmonth, hfirst, hlast⟩
    exact ⟨⟨hmonth, hfirst⟩, monthLength_eq hmonth ▸ hlast⟩

end Date

/-- The month of the civil year that a month from March on is. -/
def civilMonth (month : Int) : Int :=
  if month < 10 then month + 3 else month - 9

/-- The date with a day in a month from March on, in a year of an era.  January and February
are those of the next civil year. -/
def ofMarch (era year month day : Int) : Date :=
  ⟨year + era * 400 + (if civilMonth month ≤ 2 then 1 else 0), civilMonth month, day⟩

section OfMarch

variable {year month day : Int}

theorem marchYear_ofMarch (era year month day : Int) :
    (ofMarch era year month day).marchYear = year + era * 400 := by
  simp only [Date.marchYear, ofMarch]
  split <;> omega

theorem marchMonth_ofMarch (era year day : Int) (hmonth : 0 ≤ month ∧ month ≤ 11) :
    (ofMarch era year month day).marchMonth = month := by
  simp only [Date.marchMonth, ofMarch, civilMonth]
  split <;> omega

theorem isValid_ofMarch (era : Int) (hmonth : 0 ≤ month ∧ month ≤ 11) (hfirst : 1 ≤ day)
    (hlast : day ≤ lengthFromMarch (isLeap (year + 1)) month) :
    (ofMarch era year month day).isValid = true := by
  have hcivil : 1 ≤ civilMonth month ∧ civilMonth month ≤ 12 := by
    unfold civilMonth
    split <;> omega
  have hleap : isLeap (year + era * 400 + 1) = isLeap (year + 1) := by
    rw [Int.add_right_comm, isLeap_of_era]
  rw [Date.isValid_iff, marchYear_ofMarch, marchMonth_ofMarch _ _ _ hmonth, hleap]
  exact ⟨hcivil, hfirst, hlast⟩

theorem toDays_ofMarch (era day : Int) (hyear : 0 ≤ year ∧ year ≤ 399)
    (hmonth : 0 ≤ month ∧ month ≤ 11) :
    (ofMarch era year month day).toDays =
      era * 146097 + yearStart year + monthStart month + day - 1 - 719468 := by
  rw [Date.toDays_eq, marchYear_ofMarch, marchMonth_ofMarch _ _ _ hmonth,
    daysBefore_of_era era hyear, ofMarch]

end OfMarch

/-! ## Days and dates -/

/-- The day of its era that a day since the start of 1970 is. -/
def dayOfEra (days : Int) : Int :=
  days + 719468 - (days + 719468) / 146097 * 146097

/-- The day of its year, which starts in March, that a day since the start of 1970 is. -/
def dayOfYear (days : Int) : Int :=
  dayOfEra days - yearStart (yearOfEra (dayOfEra days))

theorem ofDays_eq (days : Int) :
    Date.ofDays days =
      ofMarch ((days + 719468) / 146097) (yearOfEra (dayOfEra days)) (monthOf (dayOfYear days))
        (dayOfYear days - monthStart (monthOf (dayOfYear days)) + 1) := by
  unfold dayOfYear yearStart
  rw [Int.mul_comm _ 365]
  rfl

/-- Where a day lies in its era, year and month. -/
theorem days_spec (days : Int) :
    let year := yearOfEra (dayOfEra days)
    let month := monthOf (dayOfYear days)
    (0 ≤ year ∧ year ≤ 399) ∧ (0 ≤ month ∧ month ≤ 11) ∧ monthStart month ≤ dayOfYear days ∧
      dayOfYear days < monthStart month + lengthFromMarch (isLeap (year + 1)) month := by
  have hera : 0 ≤ dayOfEra days ∧ dayOfEra days ≤ 146096 := by
    unfold dayOfEra
    omega
  obtain ⟨hyear, hfirst, hlast, hleap⟩ := yearOfEra_spec hera.1 hera.2
  have hday : dayOfYear days = dayOfEra days - yearStart (yearOfEra (dayOfEra days)) := rfl
  exact ⟨hyear, monthOf_spec (by omega) (by omega) fun hlate => hleap (by omega)⟩

theorem isValid_ofDays (days : Int) : (Date.ofDays days).isValid = true := by
  obtain ⟨-, hmonth, hfirst, hlast⟩ := days_spec days
  rw [ofDays_eq]
  exact isValid_ofMarch _ hmonth (by omega) (by omega)

theorem toDays_ofDays (days : Int) : (Date.ofDays days).toDays = days := by
  obtain ⟨hyear, hmonth, -, -⟩ := days_spec days
  rw [ofDays_eq, toDays_ofMarch _ _ hyear hmonth, dayOfYear, dayOfEra]
  omega

/-! ## The calendar day by day -/

namespace Date

variable {date other : Date}

/-- The day behind a date in the civil calendar. -/
def next (date : Date) : Date :=
  if date.day < monthLength date.year date.month then ⟨date.year, date.month, date.day + 1⟩
  else if date.month = 12 then ⟨date.year + 1, 1, 1⟩
  else ⟨date.year, date.month + 1, 1⟩

/-- Months from March on lie behind each other. -/
theorem marchMonth_le (hdate : date.isValid = true) (hother : other.isValid = true)
    (hday : monthStart other.marchMonth + other.day ≤ monthStart date.marchMonth + date.day) :
    other.marchMonth ≤ date.marchMonth := by
  obtain ⟨-, -, hlast⟩ := isValid_iff.mp hdate
  obtain ⟨-, hfirst, -⟩ := isValid_iff.mp hother
  refine Int.not_lt.mp fun hlt => ?_
  have hmonth : 0 ≤ date.marchMonth ∧ other.marchMonth ≤ 11 := by
    unfold marchMonth
    omega
  have hnext := monthStart_succ hmonth.1 (by omega) (isLeap (date.marchYear + 1))
  have hle : monthStart (date.marchMonth + 1) ≤ monthStart other.marchMonth :=
    monthStart_le (by omega)
  omega

/-- So do years that start in March. -/
theorem toDays_bounds (hvalid : date.isValid = true) :
    daysBefore date.marchYear ≤ date.toDays + 719468 ∧
      date.toDays + 719468 < daysBefore (date.marchYear + 1) := by
  obtain ⟨-, hfirst, hlast⟩ := isValid_iff.mp hvalid
  have hmonth : 0 ≤ date.marchMonth ∧ date.marchMonth ≤ 11 := by
    unfold marchMonth
    omega
  have hstart : 0 ≤ monthStart date.marchMonth := by
    unfold monthStart
    omega
  have hend : ∀ leap, monthStart date.marchMonth + lengthFromMarch leap date.marchMonth ≤
      365 + if leap then 1 else 0 := by
    intro leap
    unfold monthStart lengthFromMarch
    repeat' split
    all_goals omega
  have hyear := hend (isLeap (date.marchYear + 1))
  rw [toDays_eq, daysBefore_succ]
  omega

theorem marchYear_le (hdate : date.isValid = true) (hother : other.isValid = true)
    (hdays : other.toDays ≤ date.toDays) : other.marchYear ≤ date.marchYear := by
  refine Int.not_lt.mp fun hlt => ?_
  have hle := daysBefore_le (Int.add_one_le_iff.mpr hlt)
  have hdate := (toDays_bounds hdate).2
  have hother := (toDays_bounds hother).1
  omega

theorem toDays_inj (hdate : date.isValid = true) (hother : other.isValid = true)
    (hdays : date.toDays = other.toDays) : date = other := by
  have hyear : date.marchYear = other.marchYear :=
    Int.le_antisymm (marchYear_le hother hdate (by omega)) (marchYear_le hdate hother (by omega))
  -- With the same year the rest of the count is that inside the year, and then inside the month.
  rw [toDays_eq, toDays_eq, hyear] at hdays
  have hmonth : date.marchMonth = other.marchMonth :=
    Int.le_antisymm (marchMonth_le hother hdate (by omega)) (marchMonth_le hdate hother (by omega))
  have hday : date.day = other.day := by
    rw [hmonth] at hdays
    omega
  have hfirst := (isValid_iff.mp hdate).1
  have hsecond := (isValid_iff.mp hother).1
  have hcivil : date.month = other.month := by
    unfold marchMonth at hmonth
    omega
  have hcivilYear : date.year = other.year := by
    unfold marchYear at hyear
    rw [hcivil] at hyear
    split at hyear <;> omega
  cases date
  cases other
  simp_all

theorem isValid_next (hvalid : date.isValid = true) : date.next.isValid = true := by
  have hlength : ∀ year month, 28 ≤ monthLength year month := by
    intro year month
    unfold monthLength
    repeat' split
    all_goals omega
  have hjanuary := hlength (date.year + 1) 1
  have hfollowing := hlength date.year (date.month + 1)
  simp only [isValid, Bool.and_eq_true, decide_eq_true_eq] at hvalid
  unfold next
  repeat' split
  all_goals
    simp only [isValid, Bool.and_eq_true, decide_eq_true_eq]
    omega

/-- Counted from March, the day behind the last one of a month is the first one of the next
month, or of the next year. -/
theorem next_of_last (hmonth : 1 ≤ date.month ∧ date.month ≤ 12)
    (hlast : date.day = monthLength date.year date.month) :
    date.next.day = 1 ∧
      if date.month = 2 then
        date.next.marchYear = date.marchYear + 1 ∧ date.next.marchMonth = 0
      else
        date.next.marchYear = date.marchYear ∧ date.next.marchMonth = date.marchMonth + 1 := by
  rw [next, if_neg (by omega)]
  refine ⟨by split <;> rfl, ?_⟩
  by_cases hdecember : date.month = 12
  · rw [if_pos hdecember, if_neg (by omega)]
    simp only [marchYear, marchMonth, hdecember]
    omega
  · rw [if_neg hdecember]
    simp only [marchYear, marchMonth]
    repeat' split
    all_goals omega

theorem toDays_next (hvalid : date.isValid = true) : date.next.toDays = date.toDays + 1 := by
  by_cases hinside : date.day < monthLength date.year date.month
  · rw [next, if_pos hinside, toDays_eq, toDays_eq]
    simp only [marchYear, marchMonth]
    omega
  · obtain ⟨hmonth, -, hlast⟩ := isValid_iff.mp hvalid
    have hlength := monthLength_eq hmonth
    have hday : date.day = monthLength date.year date.month := by omega
    obtain ⟨hfirst, hnext⟩ := next_of_last hmonth hday
    rw [toDays_eq, toDays_eq, hfirst, hday, hlength]
    split at hnext
    -- Only at the end of February the year counted from March ends, and then its leap day counts.
    · next hfebruary =>
        have hmarch : date.marchMonth = 11 := by
          rw [marchMonth, hfebruary]
          rfl
        rw [hnext.1, hnext.2, daysBefore_succ, hmarch]
        cases isLeap (date.marchYear + 1) <;> simp [monthStart, lengthFromMarch] <;> omega
    · next hother =>
        have hbounds : 0 ≤ date.marchMonth ∧ date.marchMonth ≤ 10 := by
          unfold marchMonth
          omega
        rw [hnext.1, hnext.2,
          monthStart_succ hbounds.1 hbounds.2 (isLeap (date.marchYear + 1))]
        omega

end Date

theorem ofDays_toDays {date : Date} (hvalid : date.isValid = true) :
    Date.ofDays date.toDays = date :=
  Date.toDays_inj (isValid_ofDays _) hvalid (toDays_ofDays _)

/-- **The civil calendar.**  The days are dated from the start of 1970 on, in both directions,
by the rule that leads from a date to the next one. -/
theorem civil_calendar :
    Date.ofDays 0 = ⟨1970, 1, 1⟩ ∧ ∀ days, Date.ofDays (days + 1) = (Date.ofDays days).next := by
  refine ⟨by decide, fun days => ?_⟩
  have hvalid := isValid_ofDays days
  refine Date.toDays_inj (isValid_ofDays _) (Date.isValid_next hvalid) ?_
  rw [toDays_ofDays, Date.toDays_next hvalid, toDays_ofDays]

/-! ## Instants and moments -/

namespace Moment

theorem toMillis_ofMillis (millis : Int) : (ofMillis millis).toMillis = millis := by
  simp only [ofMillis, toMillis, toDays_ofDays]
  omega

theorem isValid_ofMillis (millis : Int) : (ofMillis millis).isValid = true := by
  have hdate : (ofMillis millis).date.isValid = true := isValid_ofDays _
  have htime : (0 ≤ (ofMillis millis).hour ∧ (ofMillis millis).hour ≤ 23) ∧
      (0 ≤ (ofMillis millis).minute ∧ (ofMillis millis).minute ≤ 59) ∧
      (0 ≤ (ofMillis millis).second ∧ (ofMillis millis).second ≤ 59) ∧
      0 ≤ (ofMillis millis).milli ∧ (ofMillis millis).milli ≤ 999 := by
    simp only [ofMillis]
    omega
  simp only [isValid, hdate, Bool.true_and, Bool.and_eq_true, decide_eq_true_eq]
  omega

end Moment

end DocShell.Calendar
