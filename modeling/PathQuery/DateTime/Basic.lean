import PathQuery.DateTime.Calendar

/-!
# Dates, times and timestamps

A `DateTime` is a date, a time of day, a timestamp, or a timestamp with its offset from universal time.
Seconds run to 60, so that a leap second has a place of its own.

* `DateTime.compare?` orders two values of one kind; timestamps with an offset are ordered as instants.
* `DateTime.text` is the ISO 8601 form: a fraction has 3, 6 or 9 digits, or is left out when it is zero.
-/

namespace PathQuery

/-- A time of day; second 60 is a leap second. -/
structure Time where
  hour : Nat
  minute : Nat
  second : Nat
  nanosecond : Nat
  valid : hour < 24 ∧ minute < 60 ∧ second ≤ 60 ∧ nanosecond < 1000000000
  deriving DecidableEq

structure Timestamp where
  date : Date
  time : Time
  deriving DecidableEq

namespace Time

/-- Nanoseconds in a minute that leaves room for a leap second. -/
def minuteSpan : Int := 61 * 1000000000

/-- A number that orders times of day. -/
def key (t : Time) : Int :=
  (t.hour * 60 + t.minute : Nat) * minuteSpan + (t.second * 1000000000 + t.nanosecond : Nat)

end Time

namespace Timestamp

/-- Minutes from the start of day 0 to the minute of a timestamp. -/
def minutes (t : Timestamp) : Int :=
  t.date.dayNumber * 1440 + (t.time.hour * 60 + t.time.minute : Nat)

/-- A number that orders timestamps. -/
def key (t : Timestamp) : Int :=
  t.minutes * Time.minuteSpan + (t.time.second * 1000000000 + t.time.nanosecond : Nat)

/-- The day number of 1 January 1970. -/
def epochDay : Int := 719163

/-- Seconds since the start of 1970; a leap second has the number of the second before it. -/
def unixTime (t : Timestamp) : Int :=
  (t.minutes - epochDay * 1440) * 60 + min t.time.second 59

end Timestamp

/-- The first minute of the days that dates cover. -/
def firstMinute : Int := (Calendar.daysBeforeYear Calendar.firstYear + 1) * 1440

/-- The end of the last day that dates cover. -/
def endMinute : Int := (Calendar.daysBeforeYear (Calendar.lastYear + 1) + 1) * 1440

/-- A local timestamp and its offset from universal time in minutes. The offset is under a day and the
instant is within the days that dates cover. -/
structure ZonedTimestamp where
  clock : Timestamp
  offset : Int
  offset_lt : offset.natAbs < 1440
  covered : firstMinute ≤ clock.minutes - offset ∧ clock.minutes - offset < endMinute
  deriving DecidableEq

namespace ZonedTimestamp

def ofLocal? (clock : Timestamp) (offset : Int) : Option ZonedTimestamp :=
  if h : offset.natAbs < 1440 then
    if hc : firstMinute ≤ clock.minutes - offset ∧ clock.minutes - offset < endMinute then
      some ⟨clock, offset, h, hc⟩
    else none
  else none

/-- A number that orders instants. -/
def key (t : ZonedTimestamp) : Int :=
  t.clock.key - t.offset * Time.minuteSpan

end ZonedTimestamp

/-- A date and time value. -/
inductive DateTime where
  | date (d : Date)
  | time (t : Time)
  | timestamp (t : Timestamp)
  | zoned (t : ZonedTimestamp)
  deriving DecidableEq

namespace DateTime

/-- The order of two values of one kind; other pairs are incomparable. -/
def compare? : DateTime → DateTime → Option Ordering
  | .date a, .date b => some (compare a.dayNumber b.dayNumber)
  | .time a, .time b => some (compare a.key b.key)
  | .timestamp a, .timestamp b => some (compare a.key b.key)
  | .zoned a, .zoned b => some (compare a.key b.key)
  | _, _ => none

end DateTime

/-! ### Text -/

/-- A number with zeros in front up to a width. -/
def zeroPadded (width n : Nat) : String :=
  let ds := Nat.toDigits 10 n
  String.ofList (List.replicate (width - ds.length) '0' ++ ds)

/-- Four digits for the years 0 to 9999, and a sign with at least four digits for all others. -/
def yearText (year : Int) : String :=
  if 0 ≤ year ∧ year ≤ 9999 then zeroPadded 4 year.natAbs
  else (if year < 0 then "-" else "+") ++ zeroPadded 4 year.natAbs

/-- A point and the fewest groups of three digits, or nothing for zero. -/
def fractionText (nanosecond : Nat) : String :=
  if nanosecond = 0 then ""
  else if nanosecond % 1000000 = 0 then "." ++ zeroPadded 3 (nanosecond / 1000000)
  else if nanosecond % 1000 = 0 then "." ++ zeroPadded 6 (nanosecond / 1000)
  else "." ++ zeroPadded 9 nanosecond

def Date.text (d : Date) : String :=
  yearText d.year ++ "-" ++ zeroPadded 2 d.month ++ "-" ++ zeroPadded 2 d.day

def Time.text (t : Time) : String :=
  zeroPadded 2 t.hour ++ ":" ++ zeroPadded 2 t.minute ++ ":" ++ zeroPadded 2 t.second ++
    fractionText t.nanosecond

/-- Date and time with a separator between them. -/
def Timestamp.textWith (separator : String) (t : Timestamp) : String :=
  t.date.text ++ separator ++ t.time.text

/-- An offset as a sign, hours and minutes. -/
def offsetText (minutes : Int) : String :=
  (if minutes < 0 then "-" else "+") ++ zeroPadded 2 (minutes.natAbs / 60) ++ ":" ++
    zeroPadded 2 (minutes.natAbs % 60)

/-- The ISO 8601 form of a value. -/
def DateTime.text : DateTime → String
  | .date d => d.text
  | .time t => t.text
  | .timestamp t => t.textWith "T"
  | .zoned t => t.clock.textWith "T" ++ offsetText t.offset

end PathQuery
