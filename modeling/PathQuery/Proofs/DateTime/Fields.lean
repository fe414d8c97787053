import Mathlib.Data.List.GetD
import PathQuery.DateTime.Fields

/-!
# The fields of dates and times

A value names its fields, and the fields that it names determine it.

* `Fields.withDate`, `Fields.withTime` and `Fields.ofTimestamp` — the fields of a value.
* `Fields.put?_year`, with its siblings — a field that is not known yet is added.
* `Fields.date?_withDate`, `Fields.time?_withTime` and `Fields.zoned?_ofTimestamp` — the fields of a value
  determine it.
-/

namespace PathQuery

namespace Date

theorem year_bounds (d : Date) : -262143 ≤ d.year ∧ d.year ≤ 262142 :=
  ⟨d.valid.1, d.valid.2.1⟩

theorem month_day_bounds (d : Date) : (1 ≤ d.month ∧ d.month ≤ 12) ∧ 1 ≤ d.day ∧ d.day ≤ 31 := by
  obtain ⟨-, -, hleast, hmost⟩ := d.valid
  have hlengths : ∀ n ∈ Calendar.monthLengths d.year, n ≤ 31 := by
    simp only [Calendar.monthLengths]
    split <;> decide
  unfold Calendar.daysInMonth at hmost
  split at hmost
  case isTrue => omega
  case isFalse hmonth =>
    rcases Nat.lt_or_ge (d.month - 1) (Calendar.monthLengths d.year).length with hlt | hge
    · have hday := hlengths _ (List.getElem_mem hlt)
      rw [List.getD_eq_getElem _ _ hlt] at hmost
      have htwelve : d.month - 1 < 12 := hlt
      omega
    · rw [List.getD_eq_default _ _ hge] at hmost
      omega

end Date

namespace Fields

variable {fs : Fields} {n : Nat}

/-! ### Adding a field -/

theorem within?_natCast {low high : Nat} (h : low ≤ n ∧ n ≤ high) : within? low high n = some n := by
  have hbounds : low ≤ (n : Int) ∧ (n : Int) ≤ high := by omega
  rw [within?, if_pos hbounds, Int.toNat_natCast]

theorem put?_year (hyear : fs.year = none) {year : Int} (h : -262143 ≤ year ∧ year ≤ 262142) :
    fs.put? .year year = some { fs with year := some year } := by
  have hbounds : -0x80000000 ≤ year ∧ year < 0x80000000 := by omega
  simp [put?, year32?, hbounds, hyear, agree?]

theorem put?_month (hmonth : fs.month = none) (h : 1 ≤ n ∧ n ≤ 12) :
    fs.put? .month n = some { fs with month := some n } := by
  simp [put?, within?_natCast h, hmonth, agree?]

theorem put?_day (hday : fs.day = none) (h : 1 ≤ n ∧ n ≤ 31) :
    fs.put? .day n = some { fs with day := some n } := by
  simp [put?, within?_natCast h, hday, agree?]

theorem put?_hour (hafternoon : fs.afternoon = none) (hhour : fs.hourOfHalf = none) (h : n ≤ 23) :
    fs.put? .hour n =
      some { fs with afternoon := some (12 ≤ n), hourOfHalf := some (n % 12) } := by
  simp [put?, within?_natCast ⟨Nat.zero_le n, h⟩, putHalf?, putHourOfHalf?, hafternoon, hhour, agree?]

theorem put?_minute (hminute : fs.minute = none) (h : n ≤ 59) :
    fs.put? .minute n = some { fs with minute := some n } := by
  simp [put?, within?_natCast ⟨Nat.zero_le n, h⟩, hminute, agree?]

theorem put?_second (hsecond : fs.second = none) (h : n ≤ 60) :
    fs.put? .second n = some { fs with second := some n } := by
  simp [put?, within?_natCast ⟨Nat.zero_le n, h⟩, hsecond, agree?]

theorem put?_nanosecond (hnanosecond : fs.nanosecond = none) (h : n ≤ 999999999) :
    fs.put? .nanosecond n = some { fs with nanosecond := some n } := by
  simp [put?, within?_natCast ⟨Nat.zero_le n, h⟩, hnanosecond, agree?]

/-! ### The fields of a value -/

/-- The fields with those of a date. -/
def withDate (fs : Fields) (d : Date) : Fields :=
  { fs with year := some d.year, month := some d.month, day := some d.day }

/-- The fields with those of a time of day; a fraction that is zero is not named. -/
def withTime (fs : Fields) (t : Time) : Fields :=
  { fs with
    afternoon := some (12 ≤ t.hour), hourOfHalf := some (t.hour % 12), minute := some t.minute,
    second := some t.second, nanosecond := if t.nanosecond = 0 then none else some t.nanosecond }

/-- The fields of a timestamp. -/
def ofTimestamp (t : Timestamp) : Fields :=
  (withDate {} t.date).withTime t.time

/-- Nothing is known of the time of day. -/
structure Timeless (fs : Fields) : Prop where
  afternoon : fs.afternoon = none
  hourOfHalf : fs.hourOfHalf = none
  minute : fs.minute = none
  second : fs.second = none
  nanosecond : fs.nanosecond = none

theorem timeless_empty : Timeless {} := ⟨rfl, rfl, rfl, rfl, rfl⟩

theorem timeless_withDate (d : Date) : Timeless (withDate {} d) := ⟨rfl, rfl, rfl, rfl, rfl⟩

/-! ### The values determined -/

theorem admitsIsoWeek_withDate (d : Date) : (withDate {} d).admitsIsoWeek d = true := by
  simp [admitsIsoWeek, withDate, admits, admitsHalves]

theorem date?_withDate (d : Date) : (withDate {} d).date? = .ok d := by
  have hday : Date.ofYmd? d.year d.month d.day = some d := dif_pos d.valid
  have hcandidate : (withDate {} d).candidate (some d.year) none =
      .ok (d, (withDate {} d).admitsIsoWeek d && true) := by
    simp only [candidate, withDate, hday]
    rfl
  show ((withDate {} d).candidate (some d.year) none >>= _) = _
  rw [hcandidate, admitsIsoWeek_withDate]
  rfl

theorem time?_withTime (fs : Fields) (t : Time) : (fs.withTime t).time? = .ok t := by
  obtain ⟨hour, minute, second, nanosecond, hvalid⟩ := t
  have hhour : (if 12 ≤ hour then hour % 12 + 12 else hour % 12) = hour := by
    split <;> omega
  have hfraction : (if nanosecond = 0 then none else some nanosecond).getD 0 = nanosecond := by
    split
    case isTrue hzero => exact hzero.symm
    case isFalse => rfl
  simp [time?, withTime, hhour, hfraction, hvalid]

/-- A timestamp is determined by its fields on the clock of every offset. -/
theorem timestampAt?_ofTimestamp (t : Timestamp) (known : Option Int) (offset : Int) :
    timestampAt? { ofTimestamp t with offset := known } offset = some t := by
  have hdate : date? { ofTimestamp t with offset := known } = .ok t.date := date?_withDate t.date
  have htime : time? { ofTimestamp t with offset := known } = .ok t.time :=
    time?_withTime (withDate {} t.date) t.time
  rw [timestampAt?, hdate, htime]
  rfl

theorem timestamp?_ofTimestamp (t : Timestamp) : (ofTimestamp t).timestamp? = some t :=
  timestampAt?_ofTimestamp t none 0

theorem zoned?_ofTimestamp (t : ZonedTimestamp) :
    zoned? { ofTimestamp t.clock with offset := some (t.offset * 60) } = some t := by
  have hminutes : t.offset * 60 / 60 = t.offset := Int.mul_ediv_cancel _ (by decide)
  have hlocal : ZonedTimestamp.ofLocal? t.clock t.offset = some t := by
    rw [ZonedTimestamp.ofLocal?, dif_pos t.offset_lt, dif_pos t.covered]
  show ((timestampAt? _ (t.offset * 60)).bind fun clock =>
    ZonedTimestamp.ofLocal? clock (t.offset * 60 / 60)) = some t
  rw [timestampAt?_ofTimestamp, Option.bind_some, hminutes, hlocal]

end Fields

end PathQuery
