import PathQuery.Proofs.Call.Agreement
import PathQuery.Proofs.DateTime.Layout
import PathQuery.Proofs.Json.Parts

/-!
# Dates and times are read back from their texts

The ISO 8601 layouts are tried in an order, and the first that fits wins. The text of a value fits the
layout of its own kind, and every layout before that one refuses it or finds the same fields.

* `DateTime.ofIso?_text` — every value is read back from its text.
* `DateTime.ofIso?_timestamp_blank` — a timestamp is also read back from its text with a space.
* `DateTime.text_round_trips` — the values that a query gives as JSON are read back by the method
  `datetime`.
-/

namespace PathQuery

namespace DateTime

open Layout

/-- The value of a text by the fields that the layouts find. -/
theorem ofIso?_eq (text : String) : ofIso? text =
    (((internetLayout.fields? text).bind Fields.zoned?).map .zoned).or
    ((((zonedLayout (.literal ['T'])).fields? text).bind Fields.zoned?).map .zoned |>.or
    ((((zonedLayout .blank).fields? text).bind Fields.zoned?).map .zoned |>.or
    ((((timestampLayout (.literal ['T'])).fields? text).bind Fields.timestamp?).map .timestamp |>.or
    ((((timestampLayout .blank).fields? text).bind Fields.timestamp?).map .timestamp |>.or
    (((dateLayout.fields? text).bind fun fs => fs.date?.toOption).map .date |>.or
    (((timeLayout.fields? text).bind fun fs => fs.time?.toOption).map .time)))))) := rfl

/-! ### The four kinds -/

theorem ofIso?_date (d : Date) : ofIso? d.text = some (.date d) := by
  have htext : d.text.toList = d.text.toList ++ [] := (List.append_nil _).symm
  have hdate : dateLayout.fields? d.text = some (Fields.withDate {} d) := by
    refine fields?_of_run? ?_
    rw [htext, run?_dateLayout]
  have hinternet : internetLayout.fields? d.text = none := by
    refine fields?_eq_none ?_
    rw [htext, internetLayout_eq, run?_append, run?_internetDate]
    split <;> rfl
  have hliteral : run? {} (timestampLayout (.literal ['T'])) d.text.toList = none := by
    rw [htext, run?_literal_eq_none d (by simp)]
  have hblank : run? {} (timestampLayout .blank) d.text.toList = none := by
    rw [htext, run?_blank_eq_none d noNumber_nil]
  rw [ofIso?_eq, hinternet, fields?_zonedLayout_eq_none hliteral, fields?_zonedLayout_eq_none hblank,
    fields?_eq_none hliteral, fields?_eq_none hblank, hdate]
  simp [Fields.date?_withDate, Except.toOption]

theorem ofIso?_time (t : Time) : ofIso? t.text = some (.time t) := by
  have htext : t.text.toList = t.text.toList ++ [] := (List.append_nil _).symm
  have htime : timeLayout.fields? t.text = some (Fields.withTime {} t) := by
    refine fields?_of_run? ?_
    rw [htext, run?_timeLayout t Fields.timeless_empty noFraction_nil]
  have hinternet : internetLayout.fields? t.text = none := by
    refine fields?_eq_none ?_
    rw [internetLayout_eq, run?_append, run?_internetDate_time]
    rfl
  have htimestamp (middle : Directive) : run? {} (timestampLayout middle) t.text.toList = none := by
    rw [timestampLayout, run?_append, run?_dateLayout_time]
    rfl
  have hzoned (middle : Directive) : (zonedLayout middle).fields? t.text = none :=
    fields?_zonedLayout_eq_none (htimestamp middle)
  rw [ofIso?_eq, hinternet, hzoned, hzoned, fields?_eq_none (htimestamp _),
    fields?_eq_none (htimestamp _), fields?_eq_none (run?_dateLayout_time t), htime]
  simp [Fields.time?_withTime, Except.toOption]

/-- The internet layout needs an offset. -/
theorem internetLayout_timestamp {mark : Char} {text : String} {t : Timestamp}
    (hmark : mark = 'T' ∨ mark = ' ')
    (htext : text.toList = t.date.text.toList ++ mark :: (t.time.text.toList ++ [])) :
    internetLayout.fields? text = none := by
  refine fields?_eq_none ?_
  rw [htext, run?_internetLayout_text hmark t noFraction_nil]
  split <;> rfl

theorem ofIso?_timestamp (t : Timestamp) : ofIso? (t.textWith "T") = some (.timestamp t) := by
  have htext : (t.textWith "T").toList = t.date.text.toList ++ 'T' :: (t.time.text.toList ++ []) := by
    simp [Timestamp.textWith]
  have hread : run? {} (timestampLayout (.literal ['T'])) (t.textWith "T").toList =
      some (Fields.ofTimestamp t, []) := by
    rw [htext, run?_timestampLayout_text separates_literal t noFraction_nil]
  have hblank : run? {} (timestampLayout .blank) (t.textWith "T").toList = none := by
    rw [htext, run?_blank_eq_none t.date (Reader.forall_mem_head (by decide))]
  rw [ofIso?_eq, internetLayout_timestamp (.inl rfl) htext, fields?_zonedLayout_of_run? hread,
    fields?_zonedLayout_eq_none hblank, fields?_of_run? hread]
  simp [Fields.timestamp?_ofTimestamp]

theorem ofIso?_timestamp_blank (t : Timestamp) : ofIso? (t.textWith " ") = some (.timestamp t) := by
  have htext : (t.textWith " ").toList = t.date.text.toList ++ ' ' :: (t.time.text.toList ++ []) := by
    simp [Timestamp.textWith]
  have hread : run? {} (timestampLayout .blank) (t.textWith " ").toList =
      some (Fields.ofTimestamp t, []) := by
    rw [htext, run?_timestampLayout_text separates_blank t noFraction_nil]
  have hliteral : run? {} (timestampLayout (.literal ['T'])) (t.textWith " ").toList = none := by
    rw [htext, run?_literal_eq_none t.date (by simp)]
  rw [ofIso?_eq, internetLayout_timestamp (.inr rfl) htext, fields?_zonedLayout_eq_none hliteral,
    fields?_zonedLayout_of_run? hread, fields?_eq_none hliteral, fields?_of_run? hread]
  simp [Fields.timestamp?_ofTimestamp]

theorem ofIso?_zoned (t : ZonedTimestamp) :
    ofIso? (t.clock.textWith "T" ++ offsetText t.offset) = some (.zoned t) := by
  obtain ⟨text, htext⟩ : ∃ text, text = t.clock.textWith "T" ++ offsetText t.offset := ⟨_, rfl⟩
  let fs : Fields := { Fields.ofTimestamp t.clock with offset := some (t.offset * 60) }
  have hchars : text.toList = t.clock.date.text.toList ++
      'T' :: (t.clock.time.text.toList ++ ((offsetText t.offset).toList ++ [])) := by
    simp [htext, Timestamp.textWith]
  have hput : (Fields.ofTimestamp t.clock).putOffset? (t.offset * 60) = some fs := rfl
  have hrest := noFraction_offsetText t.offset []
  have hzoned : (zonedLayout (.literal ['T'])).fields? text = some fs := by
    refine fields?_of_run? ?_
    rw [hchars, run?_zonedLayout, run?_timestampLayout_text separates_literal t.clock hrest,
      Option.bind_some, Directive.take?_offset _ t.offset_lt, hput]
    rfl
  -- The internet layout comes first; where it admits the year, it finds the same fields.
  have hinternet : internetLayout.fields? text = some fs ∨ internetLayout.fields? text = none := by
    have hrun := run?_internetLayout_text (.inl rfl) t.clock hrest
    rw [← hchars, Directive.take?_strictOffset _ t.offset_lt, hput] at hrun
    split at hrun
    case isTrue => exact .inl (fields?_of_run? hrun)
    case isFalse => exact .inr (fields?_eq_none hrun)
  have hvalue : fs.zoned? = some t := Fields.zoned?_ofTimestamp t
  rw [← htext, ofIso?_eq, hzoned]
  rcases hinternet with hfound | hrefused
  · simp [hfound, hvalue]
  · simp [hrefused, hvalue]

/-- Every value is read back from its text. -/
theorem ofIso?_text (d : DateTime) : ofIso? d.text = some d := by
  cases d with
  | date d => exact ofIso?_date d
  | time t => exact ofIso?_time t
  | timestamp t => exact ofIso?_timestamp t
  | zoned t => exact ofIso?_zoned t

/-! ### Values that a query gives -/

/-- The path that reads its input as a date or a time, and in lax mode an array of them. -/
def reader : Node :=
  Node.context.method (.datetime none)

theorem evaluate_reader (mode : Mode) (v : Json) :
    reader.evaluate mode (Item.ofJson v) .empty =
      (Sequence.unwrap mode [Item.ofJson v]).collect (Item.readDatetime none) := by
  have hclean := (Item.clean_iff _).mp (Item.clean_ofJson v)
  rw [Node.evaluate, failedConversion?, hclean]
  rfl

theorem readDatetime_of_ofIso? {s : String} {d : DateTime} (h : ofIso? s = some d) :
    Item.readDatetime none (.string s) = .ok [.datetime d] := by
  -- Its equations are costly for Lean to state, so the definition is opened as it is.
  delta Item.readDatetime
  dsimp only
  rw [h]

theorem collect_readDatetime (ds : List DateTime) :
    Sequence.collect (Item.readDatetime none) (ds.map fun d => .string d.text) =
      .ok (ds.map .datetime) := by
  induction ds with
  | nil => rfl
  | cons d ds ih =>
    rw [List.map_cons, Sequence.collect, readDatetime_of_ofIso? (ofIso?_text d)]
    dsimp only
    rw [ih]
    rfl

/-- **Dates and times round-trip through their texts.** Every value is read back from its text as the same
value, so that a value that a query gives as JSON is the same value again when the method `datetime` reads
it: alone, and with others in an array. -/
theorem text_round_trips :
    (∀ d : DateTime, ofIso? d.text = some d) ∧
    (∀ (p : Path) (input : Item) (row : ParameterRow) (d : DateTime) (onEmpty onError : QueryBehavior)
      (mode : Mode), p.sequence .query input row = .ok [.datetime d] →
      ∃ rendered, p.query? input row ⟨.without, onEmpty, onError⟩ = .ok (some rendered) ∧
        reader.evaluate mode (Item.ofJson rendered) .empty = .ok [.datetime d]) ∧
    (∀ (p : Path) (input : Item) (row : ParameterRow) (ds : List DateTime)
      (onEmpty onError : QueryBehavior), ds ≠ [] →
      p.sequence .query input row = .ok (ds.map .datetime) →
      ∃ rendered, p.query? input row ⟨.unconditional, onEmpty, onError⟩ = .ok (some rendered) ∧
        reader.evaluate .lax (Item.ofJson rendered) .empty = .ok (ds.map .datetime)) := by
  refine ⟨ofIso?_text, ?_, ?_⟩
  · intro p input row d onEmpty onError mode hsequence
    refine ⟨.string d.text, ?_, ?_⟩
    · rw [p.query?_of_ne_nil hsequence (List.cons_ne_nil _ _)]
      rfl
    · have hsingle : Sequence.unwrap mode [Item.ofJson (.string d.text)] = [.string d.text] :=
        Sequence.unwrap_eq_self (List.forall_mem_singleton.mpr rfl)
      rw [evaluate_reader, hsingle]
      exact collect_readDatetime [d]
  · intro p input row ds onEmpty onError hne hsequence
    have hitems : ds.map Item.datetime ≠ [] := fun h => hne (List.map_eq_nil_iff.mp h)
    refine ⟨.array (ds.map fun d => .string d.text), ?_, ?_⟩
    · rw [p.query?_of_ne_nil hsequence hitems, Wrapper.wrap_unconditional, List.map_map]
      rfl
    · have hspread : Sequence.unwrap .lax [Item.ofJson (.array (ds.map fun d => .string d.text))] =
          ds.map fun d => .string d.text := by
        rw [Item.ofJson, Item.ofJsonElements_eq_map, List.map_map]
        exact List.append_nil _
      rw [evaluate_reader, hspread]
      exact collect_readDatetime ds

/-- A leap second with a fraction, west of Greenwich, alone and twice in an array. -/
theorem text_round_trips_of_leap_second :
    let d : DateTime := .zoned ⟨⟨⟨2024, 2, 29, by decide⟩, ⟨23, 59, 60, 500000000, by decide⟩⟩, -330,
      by decide, by decide⟩
    let p : Path := ⟨.lax, reader, rfl⟩
    let written := Item.string "2024-02-29T23:59:60.5-05:30"
    (d.text = "2024-02-29T23:59:60.500-05:30" ∧ ofIso? d.text = some d) ∧
    (p.sequence .query written [] = .ok [.datetime d] ∧
      ∃ rendered, p.query? written [] ⟨.without, .null, .error⟩ = .ok (some rendered) ∧
        reader.evaluate .strict (Item.ofJson rendered) .empty = .ok [.datetime d]) ∧
    p.sequence .query (.array [written, written]) [] = .ok [.datetime d, .datetime d] ∧
      ∃ rendered,
        p.query? (.array [written, written]) [] ⟨.unconditional, .null, .error⟩ = .ok (some rendered) ∧
        reader.evaluate .lax (Item.ofJson rendered) .empty = .ok [.datetime d, .datetime d] := by
  intro d p written
  have hread : ofIso? "2024-02-29T23:59:60.5-05:30" = some d := by decide +kernel
  have hitem : Item.readDatetime none written = .ok [.datetime d] := readDatetime_of_ofIso? hread
  have hone : p.sequence .query written [] = .ok [.datetime d] := by
    show ((Sequence.collect (Item.readDatetime none) [written]).mapError CallError.evaluation) = _
    rw [Sequence.collect, hitem]
    rfl
  have htwo : p.sequence .query (.array [written, written]) [] = .ok [.datetime d, .datetime d] := by
    show ((Sequence.collect (Item.readDatetime none) [written, written]).mapError CallError.evaluation) = _
    rw [Sequence.collect, Sequence.collect, hitem]
    rfl
  obtain ⟨htext, hquery, hqueries⟩ := text_round_trips
  exact ⟨⟨by decide +kernel, htext d⟩, ⟨hone, hquery p written [] d .null .error .strict hone⟩, htwo,
    hqueries p (.array [written, written]) [] [d, d] .null .error (List.cons_ne_nil _ _) htwo⟩

end DateTime

end PathQuery
