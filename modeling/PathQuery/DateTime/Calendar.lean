/-!
# The Gregorian calendar

Days are numbered from 1 January of year 1, which has number 1 and is a Monday; the calendar extends
backwards without a gap. A `Date` is a day of the years from -262143 to 262142.

* `Date.dayNumber` and `Date.ofDayNumber?` go between dates and day numbers.
* `Date.ofYearDay?`, `Date.ofWeek?` and `Date.ofIsoWeek?` find a day by its number in the year, by a
  week of the year, and by a week of the ISO 8601 calendar.
-/

namespace PathQuery

namespace Calendar

def isLeapYear (year : Int) : Bool :=
  year % 4 = 0 && (year % 100 != 0 || year % 400 = 0)

/-- The lengths of the twelve months. -/
def monthLengths (year : Int) : List Nat :=
  [31, if isLeapYear year then 29 else 28, 31, 30, 31, 30, 31, 31, 30, 31, 30, 31]

/-- The length of a month counted from 1; there are no days outside the twelve months. -/
def daysInMonth (year : Int) (month : Nat) : Nat :=
  if month = 0 then 0 else (monthLengths year).getD (month - 1) 0

/-- The day number of the last day before a year. -/
def daysBeforeYear (year : Int) : Int :=
  let past := year - 1
  365 * past + past / 4 - past / 100 + past / 400

/-- The days of a year before one of its months. -/
def daysBeforeMonth (year : Int) (month : Nat) : Nat :=
  ((monthLengths year).take (month - 1)).foldl (· + ·) 0

/-- The year of a day number with the number of the day in that year, from 1. -/
def yearDay (day : Int) : Int × Nat :=
  let n := day - 1
  let quads := n / 146097
  let inQuad := n % 146097
  let century := min (inQuad / 36524) 3
  let inCentury := inQuad - century * 36524
  let four := inCentury / 1461
  let inFour := inCentury % 1461
  let single := min (inFour / 365) 3
  (400 * quads + 100 * century + 4 * four + single + 1, (inFour - single * 365).toNat + 1)

/-- The day of the week of a day number, from 0 for Monday to 6 for Sunday. -/
def weekday (day : Int) : Nat :=
  ((day - 1) % 7).toNat

/-- The number of weeks in a year of the ISO 8601 calendar. -/
def isoWeeks (year : Int) : Nat :=
  let newYear := weekday (daysBeforeYear year + 1)
  if newYear = 3 || (isLeapYear year && newYear = 2) then 53 else 52

/-- The month and the day of the month for a day counted through months of these lengths. -/
def splitMonths : List Nat → Nat → Option (Nat × Nat)
  | [], _ => none
  | length :: rest, day =>
      if day ≤ length then some (1, day)
      else (splitMonths rest (day - length)).map fun p => (p.1 + 1, p.2)

def firstYear : Int := -262143

def lastYear : Int := 262142

/-- A day that exists, in a year that is covered. -/
def ValidDay (year : Int) (month day : Nat) : Prop :=
  firstYear ≤ year ∧ year ≤ lastYear ∧ 1 ≤ day ∧ day ≤ daysInMonth year month

instance (year : Int) (month day : Nat) : Decidable (ValidDay year month day) :=
  inferInstanceAs (Decidable (_ ∧ _ ∧ _ ∧ _))

end Calendar

/-- A day of the calendar. -/
structure Date where
  year : Int
  month : Nat
  day : Nat
  valid : Calendar.ValidDay year month day
  deriving DecidableEq

namespace Date

open Calendar

def ofYmd? (year : Int) (month day : Nat) : Option Date :=
  if h : ValidDay year month day then some ⟨year, month, day, h⟩ else none

/-- The number of a day in its year, from 1. -/
def ordinal (d : Date) : Nat :=
  daysBeforeMonth d.year d.month + d.day

def dayNumber (d : Date) : Int :=
  daysBeforeYear d.year + d.ordinal

/-- The day of the week, from 0 for Monday to 6 for Sunday. -/
def weekday (d : Date) : Nat :=
  Calendar.weekday d.dayNumber

/-- The quarter of the year, from 1. -/
def quarter (d : Date) : Nat :=
  (d.month - 1) / 3 + 1

/-- How many days after the latest `start` of a week a day is; both count from Monday. -/
def daysSince (weekday start : Nat) : Nat :=
  (weekday + 7 - start) % 7

/-- The week of the year when weeks begin on `start`; days before the first such day are in week 0. -/
def weekFrom (d : Date) (start : Nat) : Nat :=
  (d.ordinal + 6 - daysSince d.weekday start) / 7

/-- The year and the week of the ISO 8601 calendar: those of the Thursday of the same week. -/
def isoWeek (d : Date) : Int × Nat :=
  let (year, day) := yearDay (d.dayNumber - d.weekday + 3)
  (year, (day - 1) / 7 + 1)

/-- The day with a number in a year. -/
def ofYearDay? (year : Int) (day : Nat) : Option Date :=
  (splitMonths (monthLengths year) day).bind fun p => ofYmd? year p.1 p.2

def ofDayNumber? (n : Int) : Option Date :=
  let (year, day) := yearDay n
  ofYearDay? year day

/-- The day of a week of the year when weeks begin on `start`. -/
def ofWeek? (year : Int) (week weekday start : Nat) : Option Date :=
  let newYear := Calendar.weekday (daysBeforeYear year + 1)
  let day : Int := 1 + daysSince start newYear + (week - 1 : Int) * 7 + daysSince weekday start
  if day ≤ 0 then none else ofYearDay? year day.toNat

/-- The day of a week of the ISO 8601 calendar; week 1 is the one with 4 January in it. -/
def ofIsoWeek? (year : Int) (week weekday : Nat) : Option Date :=
  if week = 0 ∨ isoWeeks year < week then none
  else
    let fourth := daysBeforeYear year + 4
    ofDayNumber? (fourth - Calendar.weekday fourth + (week - 1 : Int) * 7 + weekday)

end Date

end PathQuery
