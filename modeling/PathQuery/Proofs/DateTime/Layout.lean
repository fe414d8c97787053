import PathQuery.Proofs.DateTime.Directive
import PathQuery.Proofs.DateTime.Fields

/-!
# What layouts find in texts

A layout takes its directives off the front of a text one after the other. The ISO 8601 layouts find the
fields of a value in its text, and they refuse the texts of the other kinds.

* `Layout.run?` — the fields that a layout finds at the front of a text, and what follows.
* `Layout.run?_dateLayout`, `Layout.run?_timeLayout` and `Layout.run?_timestampLayout_text` — the texts
  that the layouts read.
* `Layout.run?_internetLayout_text` — the internet layout reads only years of four digits.
* `Layout.run?_literal_eq_none`, `Layout.run?_blank_eq_none` and `Layout.run?_dateLayout_time` — the texts
  that they refuse.
-/

namespace PathQuery

theorem Date.toList_text (d : Date) :
    d.text.toList = (yearText d.year).toList ++ '-' :: ((zeroPadded 2 d.month).toList ++
      '-' :: (zeroPadded 2 d.day).toList) := by
  simp [Date.text]

theorem Date.toList_text_append (d : Date) (r : List Char) :
    d.text.toList ++ r = (yearText d.year).toList ++ '-' :: ((zeroPadded 2 d.month).toList ++
      '-' :: ((zeroPadded 2 d.day).toList ++ r)) := by
  simp [Date.toList_text]

theorem Time.toList_text (t : Time) :
    t.text.toList = (zeroPadded 2 t.hour).toList ++ ':' :: ((zeroPadded 2 t.minute).toList ++
      ':' :: ((zeroPadded 2 t.second).toList ++ (fractionText t.nanosecond).toList)) := by
  simp [Time.text]

theorem Time.toList_text_append (t : Time) (r : List Char) :
    t.text.toList ++ r = (zeroPadded 2 t.hour).toList ++ ':' :: ((zeroPadded 2 t.minute).toList ++
      ':' :: ((zeroPadded 2 t.second).toList ++ ((fractionText t.nanosecond).toList ++ r))) := by
  simp [Time.toList_text]

namespace Layout

open DateTime (dateLayout timeLayout timestampLayout zonedLayout internetLayout)

variable {fs : Fields} {r : List Char}

/-! ### Layouts in front of a rest -/

/-- The fields after a layout has been taken off the front of a text, and what follows. -/
def run? (fs : Fields) : Layout → List Char → Option (Fields × List Char)
  | [], cs => some (fs, cs)
  | d :: ds, cs => (d.take? fs cs).bind fun p => run? p.1 ds p.2

theorem run?_singleton (fs : Fields) (d : Directive) (cs : List Char) :
    run? fs [d] cs = d.take? fs cs :=
  Option.bind_fun_some _

theorem run?_cons_eq_none {d : Directive} {cs : List Char} (h : d.take? fs cs = none) (layout : Layout) :
    run? fs (d :: layout) cs = none := by
  rw [run?, h]
  rfl

theorem run?_append (fs : Fields) (first second : Layout) (cs : List Char) :
    run? fs (first ++ second) cs = (run? fs first cs).bind fun p => run? p.1 second p.2 := by
  induction first generalizing fs cs with
  | nil => rfl
  | cons d first ih =>
    rw [List.cons_append, run?, run?, Option.bind_assoc]
    congr 1
    funext p
    exact ih p.1 p.2

theorem fieldsFrom?_eq (fs : Fields) (layout : Layout) (cs : List Char) :
    layout.fieldsFrom? fs cs =
      (run? fs layout cs).bind fun p => if p.2.isEmpty then some p.1 else none := by
  induction layout generalizing fs cs with
  | nil => cases cs <;> rfl
  | cons d layout ih =>
    rw [fieldsFrom?, run?, Option.bind_assoc]
    congr 1
    funext p
    exact ih p.1 p.2

theorem fields?_of_run? {layout : Layout} {text : String}
    (h : run? {} layout text.toList = some (fs, [])) : layout.fields? text = some fs := by
  rw [fields?, fieldsFrom?_eq, h]
  rfl

theorem fields?_eq_none {layout : Layout} {text : String} (h : run? {} layout text.toList = none) :
    layout.fields? text = none := by
  rw [fields?, fieldsFrom?_eq, h]
  rfl

/-! ### Dates and times of day -/

/-- Three fields with a mark between them. -/
def triple (mark : Char) (x y z : Directive) : Layout :=
  [x, .literal [mark], y, .literal [mark], z]

theorem run?_triple_date {y m n : Directive} {d : Date}
    (hy : ∀ r, y.Reads .year d.year (yearText d.year).toList ('-' :: r)) (hm : m.ReadsPairs .month)
    (hn : n.ReadsPairs .day) (r : List Char) :
    run? {} (triple '-' y m n) (d.text.toList ++ r) = some (Fields.withDate {} d, r) := by
  obtain ⟨hmonth, hday⟩ := d.month_day_bounds
  let year : Fields := { year := some d.year }
  let month : Fields := { year with month := some d.month }
  have year_eq : Fields.put? {} .year d.year = some year := Fields.put?_year rfl d.year_bounds
  have month_eq : year.put? .month d.month = some month := Fields.put?_month rfl hmonth
  have day_eq : month.put? .day d.day = some (Fields.withDate {} d) := Fields.put?_day rfl hday
  rw [d.toList_text_append]
  simp only [triple, run?, hy _ _, year_eq, hm d.month _ (by omega) _, month_eq, hn d.day _ (by omega) _,
    day_eq, Directive.take?_literal, Option.map_some, Option.bind_some]

theorem run?_triple_time {h m s : Directive} {t : Time} (hfs : fs.Timeless)
    (hh : h.ReadsPairs .hour) (hm : m.ReadsPairs .minute) (hs : s.ReadsPairs .second)
    (hr : NoFraction r) :
    run? fs (triple ':' h m s ++ [.fraction]) (t.text.toList ++ r) = some (fs.withTime t, r) := by
  obtain ⟨hhour, hminute, hsecond, hnanosecond⟩ := t.valid
  let hours : Fields := { fs with afternoon := some (12 ≤ t.hour), hourOfHalf := some (t.hour % 12) }
  let minutes : Fields := { hours with minute := some t.minute }
  let seconds : Fields := { minutes with second := some t.second }
  have hours_eq : fs.put? .hour t.hour = some hours :=
    Fields.put?_hour hfs.afternoon hfs.hourOfHalf (by omega)
  have minutes_eq : hours.put? .minute t.minute = some minutes :=
    Fields.put?_minute hfs.minute (by omega)
  have seconds_eq : minutes.put? .second t.second = some seconds :=
    Fields.put?_second hfs.second hsecond
  have nanosecond_eq : seconds.put? .nanosecond t.nanosecond =
      some { seconds with nanosecond := some t.nanosecond } :=
    Fields.put?_nanosecond hfs.nanosecond (by omega)
  rw [t.toList_text_append]
  simp only [triple, List.cons_append, List.nil_append, run?, hh t.hour _ (by omega) _, hours_eq,
    hm t.minute _ (by omega) _, minutes_eq, hs t.second _ (by omega) _, seconds_eq,
    Directive.take?_literal, Directive.take?_fraction seconds hnanosecond hr, nanosecond_eq,
    Option.map_some, Option.bind_some]
  split
  case isTrue hzero =>
    rw [Fields.withTime, if_pos hzero, ← hfs.nanosecond]
    rfl
  case isFalse hnonzero =>
    rw [Fields.withTime, if_neg hnonzero]
    rfl

theorem run?_dateLayout (d : Date) (r : List Char) :
    run? {} dateLayout (d.text.toList ++ r) = some (Fields.withDate {} d, r) := by
  have hyear := d.year_bounds
  have hsize : d.year.natAbs < 2 ^ 63 := by omega
  exact run?_triple_date (fun r => Directive.reads_year hsize (Reader.forall_mem_head rfl))
    (Directive.readsPairs_number rfl rfl) (Directive.readsPairs_number rfl rfl) r

theorem run?_timeLayout (t : Time) (hfs : fs.Timeless) (hr : NoFraction r) :
    run? fs timeLayout (t.text.toList ++ r) = some (fs.withTime t, r) :=
  run?_triple_time hfs (Directive.readsPairs_number rfl rfl) (Directive.readsPairs_number rfl rfl)
    (Directive.readsPairs_number rfl rfl) hr

/-! ### The internet layout -/

/-- The date of the internet layout. -/
def internetDate : Layout :=
  triple '-' (.digits .year 4) (.digits .month 2) (.digits .day 2)

/-- The time of day of the internet layout. -/
def internetTime : Layout :=
  triple ':' (.digits .hour 2) (.digits .minute 2) (.digits .second 2) ++ [.fraction]

theorem internetLayout_eq :
    internetLayout = internetDate ++ .separator :: (internetTime ++ [.strictOffset]) := rfl

/-- The internet layout reads only years of four digits. -/
theorem run?_internetDate (d : Date) (r : List Char) :
    run? {} internetDate (d.text.toList ++ r) =
      if 0 ≤ d.year ∧ d.year ≤ 9999 then some (Fields.withDate {} d, r) else none := by
  split
  case isTrue hplain =>
    have hyear (r : List Char) :
        (Directive.digits .year 4).Reads .year d.year (yearText d.year).toList ('-' :: r) := by
      have hreads : (Directive.digits .year 4).Reads .year (d.year.natAbs : Nat)
          (zeroPadded 4 d.year.natAbs).toList ('-' :: r) :=
        Directive.reads_digits (by decide) (by decide) (by omega)
      rw [toList_yearText, if_pos hplain]
      rwa [Int.natAbs_of_nonneg hplain.1] at hreads
    exact run?_triple_date hyear (Directive.readsPairs_digits .month) (Directive.readsPairs_digits .day) r
  case isFalse hsigned =>
    refine run?_cons_eq_none (Directive.take?_digits_eq_none {} .year ?_) _
    rw [d.toList_text_append, toList_yearText, if_neg hsigned, Directive.leadingDigits_eq_nil]
    · decide
    · split <;> exact Reader.forall_mem_head rfl

theorem run?_internetTime (t : Time) (hfs : fs.Timeless) (hr : NoFraction r) :
    run? fs internetTime (t.text.toList ++ r) = some (fs.withTime t, r) :=
  run?_triple_time hfs (Directive.readsPairs_digits .hour) (Directive.readsPairs_digits .minute)
    (Directive.readsPairs_digits .second) hr

/-! ### Timestamps -/

variable {middle : Directive} {mark : Char}

/-- A directive takes a mark off the front of a time of day. -/
def Separates (middle : Directive) (mark : Char) : Prop :=
  ∀ fs (t : Time) r, middle.take? fs (mark :: (t.text.toList ++ r)) = some (fs, t.text.toList ++ r)

theorem separates_literal : Separates (.literal ['T']) 'T' :=
  fun fs _ _ => Directive.take?_literal fs 'T'

theorem separates_blank : Separates .blank ' ' := by
  intro fs t r
  have hblank : Text.isBlank ' ' = true := rfl
  have htrim : Text.trimLeft (t.text.toList ++ r) = t.text.toList ++ r := by
    rw [t.toList_text_append]
    exact trimLeft_zeroPadded 2 t.hour _
  rw [Directive.take?, Text.trimLeft, List.dropWhile_cons_of_pos hblank]
  exact congrArg (fun cs => some (fs, cs)) htrim

theorem separates_separator (h : mark = 'T' ∨ mark = ' ') : Separates .separator mark := by
  intro fs t r
  rcases h with rfl | rfl <;> rfl

theorem run?_timestampLayout (middle : Directive) (d : Date) (r : List Char) :
    run? {} (timestampLayout middle) (d.text.toList ++ r) =
      (middle.take? (Fields.withDate {} d) r).bind fun p => run? p.1 timeLayout p.2 := by
  rw [timestampLayout, run?_append, run?_dateLayout]
  rfl

theorem run?_timestampLayout_text (h : Separates middle mark) (t : Timestamp) (hr : NoFraction r) :
    run? {} (timestampLayout middle) (t.date.text.toList ++ mark :: (t.time.text.toList ++ r)) =
      some (Fields.ofTimestamp t, r) := by
  rw [run?_timestampLayout, h, Option.bind_some, run?_timeLayout t.time (Fields.timeless_withDate _) hr]
  rfl

theorem run?_zonedLayout (middle : Directive) (cs : List Char) :
    run? {} (zonedLayout middle) cs =
      (run? {} (timestampLayout middle) cs).bind fun p => Directive.offset.take? p.1 p.2 := by
  rw [zonedLayout, run?_append]
  congr 1
  funext p
  exact run?_singleton p.1 .offset p.2

theorem run?_internetLayout_text (h : mark = 'T' ∨ mark = ' ') (t : Timestamp) (hr : NoFraction r) :
    run? {} internetLayout (t.date.text.toList ++ mark :: (t.time.text.toList ++ r)) =
      if 0 ≤ t.date.year ∧ t.date.year ≤ 9999 then
        Directive.strictOffset.take? (Fields.ofTimestamp t) r
      else none := by
  have htime := run?_internetTime t.time (Fields.timeless_withDate t.date) hr
  rw [internetLayout_eq, run?_append, run?_internetDate]
  split
  case isTrue =>
    rw [Option.bind_some, run?, separates_separator h, Option.bind_some, run?_append, htime,
      Option.bind_some]
    exact run?_singleton _ .strictOffset r
  case isFalse => rfl

/-! ### Texts that are refused -/

theorem run?_literal_eq_none (d : Date) (hr : r.head? ≠ some 'T') :
    run? {} (timestampLayout (.literal ['T'])) (d.text.toList ++ r) = none := by
  rw [run?_timestampLayout, Directive.take?_literal_eq_none _ hr]
  rfl

theorem run?_blank_eq_none (d : Date) (hr : NoNumber r) :
    run? {} (timestampLayout .blank) (d.text.toList ++ r) = none := by
  rw [run?_timestampLayout, Directive.take?, Text.trimLeft_of_head fun c hc => (hr c hc).2]
  exact run?_cons_eq_none (Directive.take?_number_eq_none _ rfl hr) _

/-- A timestamp has no offset at its end. -/
theorem fields?_zonedLayout_of_run? {text : String}
    (h : run? {} (timestampLayout middle) text.toList = some (fs, [])) :
    (zonedLayout middle).fields? text = none := by
  refine fields?_eq_none ?_
  rw [run?_zonedLayout, h]
  rfl

theorem fields?_zonedLayout_eq_none {text : String}
    (h : run? {} (timestampLayout middle) text.toList = none) :
    (zonedLayout middle).fields? text = none := by
  refine fields?_eq_none ?_
  rw [run?_zonedLayout, h]
  rfl

/-- The digits that a time of day could offer as a year. -/
theorem leadingDigits_time (t : Time) :
    Directive.leadingDigits (some 4) t.text.toList = (zeroPadded 2 t.hour).toList ∧
      (zeroPadded 2 t.hour).toList.length = 2 := by
  have hlength : (zeroPadded 2 t.hour).toList.length = 2 :=
    length_zeroPadded (by decide) (Nat.lt_trans t.valid.1 (by decide))
  refine ⟨?_, hlength⟩
  rw [t.toList_text]
  exact Directive.leadingDigits_append (some 4) (areDigits_zeroPadded 2 t.hour).2
    (fun _ hn => Option.some.inj hn ▸ hlength.trans_le (by decide)) (Reader.forall_mem_head rfl)

theorem run?_internetDate_time (t : Time) : run? {} internetDate t.text.toList = none := by
  obtain ⟨hlead, hlength⟩ := leadingDigits_time t
  refine run?_cons_eq_none (Directive.take?_digits_eq_none {} .year ?_) _
  rw [hlead, hlength]
  decide

/-- The hour is taken for a year, and the mark behind it is another one. -/
theorem run?_dateLayout_time (t : Time) : run? {} dateLayout t.text.toList = none := by
  obtain ⟨hne, hdigits⟩ := areDigits_zeroPadded 2 t.hour
  obtain ⟨hlead, -⟩ := leadingDigits_time t
  obtain ⟨r, hr⟩ : ∃ r, t.text.toList = (zeroPadded 2 t.hour).toList ++ ':' :: r :=
    ⟨_, t.toList_text⟩
  have hvalue : digitsValue (zeroPadded 2 t.hour).toList < 2 ^ 63 := by
    rw [digitsValue_zeroPadded]
    exact Nat.lt_trans t.valid.1 (by norm_num)
  have hyear : Directive.takeField? .year (Text.trimLeft t.text.toList) =
      some ((t.hour : Int), ':' :: r) := by
    rw [hr] at hlead ⊢
    rw [trimLeft_zeroPadded,
      Directive.takeField?_of_digit (head_of_areDigits ⟨hne, hdigits⟩ (fun _ hc => hc) _), Field.width,
      Directive.takeNumber?_of_leadingDigits hlead hne (List.length_pos_of_ne_nil hne) hvalue,
      digitsValue_zeroPadded]
  show ((Directive.number .year).take? {} t.text.toList).bind _ = none
  rw [Directive.take?_number, hyear, Option.bind_some]
  cases Fields.put? {} .year t.hour <;> rfl

end Layout

end PathQuery
