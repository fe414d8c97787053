import PathQuery.DateTime.Basic

/-!
# Dates and times from partial fields

A text names some of the fields of a date and time: a year or its two halves, a month, a week, an hour
on a twelve-hour clock, and so on. `Fields` collects them, and a field named twice must agree with
itself. The fields then determine a date, a time or a timestamp if there are enough of them and if
those that were not needed agree with the result.

* `Fields.put?` adds one field, with the range check of its kind.
* `Fields.date?`, `Fields.time?`, `Fields.timestamp?` and `Fields.zoned?` are the values determined.
-/

namespace PathQuery

/-- The numeric fields that a text can name. -/
inductive Field where
  | year | century | yearOfCentury
  | isoYear | isoCentury | isoYearOfCentury
  | quarter | month | day
  | weekFromSunday | weekFromMonday | isoWeek
  /-- From 0 for Sunday to 6 for Saturday. -/
  | weekdayFromSunday
  /-- From 1 for Monday to 7 for Sunday. -/
  | weekdayFromMonday
  | yearDay | hour | hour12 | minute | second | nanosecond
  /-- Seconds since the start of 1970. -/
  | unixTime
  deriving DecidableEq

/-- The fields named so far. An hour is kept as its half of the day and its place there, and a weekday
counts from 0 for Monday. An offset is in seconds. -/
structure Fields where
  year : Option Int := none
  century : Option Int := none
  yearOfCentury : Option Int := none
  isoYear : Option Int := none
  isoCentury : Option Int := none
  isoYearOfCentury : Option Int := none
  quarter : Option Nat := none
  month : Option Nat := none
  day : Option Nat := none
  weekFromSunday : Option Nat := none
  weekFromMonday : Option Nat := none
  isoWeek : Option Nat := none
  weekday : Option Nat := none
  yearDay : Option Nat := none
  afternoon : Option Bool := none
  hourOfHalf : Option Nat := none
  minute : Option Nat := none
  second : Option Nat := none
  nanosecond : Option Nat := none
  unixTime : Option Int := none
  offset : Option Int := none

namespace Fields

/-! ### Adding a field -/

/-- The value of a field named once more. -/
def agree? {α : Type} [DecidableEq α] (old : Option α) (new : α) : Option (Option α) :=
  match old with
  | none => some (some new)
  | some o => if o = new then some (some o) else none

/-- A natural number within bounds. -/
def within? (low high : Nat) (n : Int) : Option Nat :=
  if low ≤ n ∧ n ≤ high then some n.toNat else none

/-- A year, or the number of a century, of 32 bits. -/
def year32? (n : Int) : Option Int :=
  if -0x80000000 ≤ n ∧ n < 0x80000000 then some n else none

/-- The number of a century, never negative. -/
def century32? (n : Int) : Option Int :=
  if 0 ≤ n ∧ n < 0x80000000 then some n else none

def putHalf? (fs : Fields) (afternoon : Bool) : Option Fields := do
  return { fs with afternoon := ← agree? fs.afternoon afternoon }

def putHourOfHalf? (fs : Fields) (hour : Nat) : Option Fields := do
  return { fs with hourOfHalf := ← agree? fs.hourOfHalf hour }

def putWeekday? (fs : Fields) (weekday : Nat) : Option Fields := do
  return { fs with weekday := ← agree? fs.weekday weekday }

def putOffset? (fs : Fields) (seconds : Int) : Option Fields := do
  return { fs with offset := ← agree? fs.offset seconds }

/-- The fields with one more, if its value is in range and agrees with what is known. -/
def put? (fs : Fields) (field : Field) (n : Int) : Option Fields :=
  match field with
  | .year => do return { fs with year := ← agree? fs.year (← year32? n) }
  | .century => do return { fs with century := ← agree? fs.century (← century32? n) }
  | .yearOfCentury => do
      return { fs with yearOfCentury := ← agree? fs.yearOfCentury (← within? 0 99 n : Nat) }
  | .isoYear => do return { fs with isoYear := ← agree? fs.isoYear (← year32? n) }
  | .isoCentury => do return { fs with isoCentury := ← agree? fs.isoCentury (← century32? n) }
  | .isoYearOfCentury => do
      return { fs with isoYearOfCentury := ← agree? fs.isoYearOfCentury (← within? 0 99 n : Nat) }
  | .quarter => do return { fs with quarter := ← agree? fs.quarter (← within? 1 4 n) }
  | .month => do return { fs with month := ← agree? fs.month (← within? 1 12 n) }
  | .day => do return { fs with day := ← agree? fs.day (← within? 1 31 n) }
  | .weekFromSunday => do
      return { fs with weekFromSunday := ← agree? fs.weekFromSunday (← within? 0 53 n) }
  | .weekFromMonday => do
      return { fs with weekFromMonday := ← agree? fs.weekFromMonday (← within? 0 53 n) }
  | .isoWeek => do return { fs with isoWeek := ← agree? fs.isoWeek (← within? 1 53 n) }
  | .weekdayFromSunday => do fs.putWeekday? (((← within? 0 6 n) + 6) % 7)
  | .weekdayFromMonday => do fs.putWeekday? ((← within? 1 7 n) - 1)
  | .yearDay => do return { fs with yearDay := ← agree? fs.yearDay (← within? 1 366 n) }
  | .hour => do
      let hour ← within? 0 23 n
      (← fs.putHalf? (12 ≤ hour)).putHourOfHalf? (hour % 12)
  | .hour12 => do fs.putHourOfHalf? ((← within? 1 12 n) % 12)
  | .minute => do return { fs with minute := ← agree? fs.minute (← within? 0 59 n) }
  | .second => do return { fs with second := ← agree? fs.second (← within? 0 60 n) }
  | .nanosecond => do
      return { fs with nanosecond := ← agree? fs.nanosecond (← within? 0 999999999 n) }
  | .unixTime => do return { fs with unixTime := ← agree? fs.unixTime n }

/-! ### The values determined -/

/-- Why fields determine no value: too few are named, or those named fit no day or contradict each
other. -/
inductive Fault where
  | incomplete
  | impossible
  deriving DecidableEq

/-- The value that must be there. -/
def orImpossible {α : Type} : Option α → Except Fault α
  | some a => .ok a
  | none => .error .impossible

/-- The full year from a year, its century and its place in the century. The halves belong to years
that are not negative; two digits alone are a year from 1970 to 2069. -/
def fullYear? : Option Int → Option Int → Option Int → Except Fault (Option Int)
  | year, none, none => .ok year
  | some year, century, place =>
      if year < 0 then .error .impossible
      else if century.getD (year / 100) = year / 100 ∧ place.getD (year % 100) = year % 100 then
        .ok (some year)
      else .error .impossible
  | none, some century, some place =>
      let year := century * 100 + place
      if year < 0x80000000 then .ok (some year) else .error .impossible
  | none, none, some place => .ok (some (place + if place < 70 then 2000 else 1900))
  | none, some _, none => .error .incomplete

/-- Whether a field is absent or has a value. -/
def admits {α : Type} [DecidableEq α] (field : Option α) (value : α) : Bool :=
  field.isNone || field = some value

/-- Whether the halves of a year, where named, are those of a year that is not negative. -/
def admitsHalves (century place : Option Int) (year : Int) : Bool :=
  if 0 ≤ year then admits century (year / 100) && admits place (year % 100)
  else century.isNone && place.isNone

def admitsYmd (fs : Fields) (d : Date) : Bool :=
  admits fs.year d.year && admitsHalves fs.century fs.yearOfCentury d.year &&
    admits fs.month d.month && admits fs.day d.day

def admitsIsoWeek (fs : Fields) (d : Date) : Bool :=
  let (year, week) := d.isoWeek
  admits fs.isoYear year && admitsHalves fs.isoCentury fs.isoYearOfCentury year &&
    admits fs.isoWeek week && admits fs.weekday d.weekday

def admitsYearDay (fs : Fields) (d : Date) : Bool :=
  admits fs.yearDay d.ordinal && admits fs.weekFromSunday (d.weekFrom 6) &&
    admits fs.weekFromMonday (d.weekFrom 0)

/-- The day that the fields lead to, by the first way that has all it needs, and whether the fields that
it does not use agree with it. -/
def candidate (fs : Fields) (year isoYear : Option Int) : Except Fault (Date × Bool) :=
  match year, fs.month, fs.day with
  | some y, some m, some n => do
      let d ← orImpossible (Date.ofYmd? y m n)
      return (d, fs.admitsIsoWeek d && fs.admitsYearDay d)
  | _, _, _ =>
  match year, fs.yearDay with
  | some y, some n => do
      let d ← orImpossible (Date.ofYearDay? y n)
      return (d, fs.admitsYmd d && fs.admitsIsoWeek d && fs.admitsYearDay d)
  | _, _ =>
  match year, fs.weekFromSunday, fs.weekday with
  | some y, some w, some n => do
      let d ← orImpossible (Date.ofWeek? y w n 6)
      return (d, fs.admitsYmd d && fs.admitsIsoWeek d && fs.admitsYearDay d)
  | _, _, _ =>
  match year, fs.weekFromMonday, fs.weekday with
  | some y, some w, some n => do
      let d ← orImpossible (Date.ofWeek? y w n 0)
      return (d, fs.admitsYmd d && fs.admitsIsoWeek d && fs.admitsYearDay d)
  | _, _, _ =>
  match isoYear, fs.isoWeek, fs.weekday with
  | some y, some w, some n => do
      let d ← orImpossible (Date.ofIsoWeek? y w n)
      return (d, fs.admitsYmd d && fs.admitsYearDay d)
  | _, _, _ => .error .incomplete

/-- The date that the fields determine. -/
def date? (fs : Fields) : Except Fault Date := do
  let year ← fullYear? fs.year fs.century fs.yearOfCentury
  let isoYear ← fullYear? fs.isoYear fs.isoCentury fs.isoYearOfCentury
  let (d, agreed) ← fs.candidate year isoYear
  if agreed && admits fs.quarter d.quarter then .ok d else .error .impossible

/-- The time of day that the fields determine: hour and minute are needed, and a fraction needs the
second that it belongs to. -/
def time? (fs : Fields) : Except Fault Time :=
  match fs.afternoon, fs.hourOfHalf, fs.minute with
  | some afternoon, some hour, some minute =>
      if fs.nanosecond.isSome && fs.second.isNone then .error .incomplete
      else
        let hour := if afternoon then hour + 12 else hour
        let second := fs.second.getD 0
        let nanosecond := fs.nanosecond.getD 0
        if h : hour < 24 ∧ minute < 60 ∧ second ≤ 60 ∧ nanosecond < 1000000000 then
          .ok ⟨hour, minute, second, nanosecond, h⟩
        else .error .impossible
  | _, _, _ => .error .incomplete

/-- The day of a count of seconds since 1970, if it is covered. -/
def dayOf? (count : Int) : Option Date :=
  Date.ofDayNumber? (count / 86400 + Timestamp.epochDay)

/-- The fields completed from a count of seconds since 1970 on the clock of an offset, which must fall on
a day that is covered. Second 60 belongs to the count of the second before it or of the one after. -/
def completed? (fs : Fields) (unixTime offset : Int) : Option Fields := do
  let given := unixTime + offset
  let _ ← dayOf? given
  let count ←
    if fs.second = some 60 then
      if given % 60 = 59 then some given else if given % 60 = 0 then some (given - 1) else none
    else some given
  let d ← dayOf? count
  let inDay := count % 86400
  let fs ← if fs.second = some 60 then some fs else fs.put? .second (inDay % 60)
  let fs ← fs.put? .year d.year
  let fs ← fs.put? .yearDay d.ordinal
  let fs ← fs.put? .hour (inDay / 3600)
  fs.put? .minute (inDay / 60 % 60)

/-- The timestamp that the fields determine on the clock of an offset in seconds. -/
def timestampAt? (fs : Fields) (offset : Int) : Option Timestamp :=
  match fs.date?, fs.time? with
  | .ok date, .ok time =>
      let t : Timestamp := ⟨date, time⟩
      match fs.unixTime with
      | none => some t
      | some given =>
          let count := t.unixTime - offset
          if given = count ∨ (time.second = 60 ∧ given = count + 1) then some t else none
  | date, time =>
      match fs.unixTime with
      | none => none
      | some given =>
          if date matches .error .impossible || time matches .error .impossible then none
          else do
            let fs ← fs.completed? given offset
            match fs.date?, fs.time? with
            | .ok date, .ok time => some ⟨date, time⟩
            | _, _ => none

/-- The timestamp without an offset that the fields determine. -/
def timestamp? (fs : Fields) : Option Timestamp :=
  fs.timestampAt? 0

/-- The timestamp with an offset that the fields determine; a count of seconds alone has offset zero. -/
def zoned? (fs : Fields) : Option ZonedTimestamp :=
  match fs.offset, fs.unixTime with
  | some offset, _ => (fs.timestampAt? offset).bind fun t => ZonedTimestamp.ofLocal? t (offset / 60)
  | none, some _ => (fs.timestampAt? 0).bind fun t => ZonedTimestamp.ofLocal? t 0
  | none, none => none

end Fields

end PathQuery
