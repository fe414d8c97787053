import Mathlib.Data.List.Induction
import PathQuery.Bindings
import PathQuery.Proofs.Item.Parts

/-!
# Parameters as an ordered map

Parameters are looked up by name and by position. However they come about, from a row or by setting one
after another, both views show the same table.

* `Bindings.ofRow_eq_error_iff` — a row is refused for the first of its names that an earlier entry has;
  `Bindings.lists_of_ofRow` says what the bindings of any other row are.
* `Bindings.getIndex_of_names` — the value at a position is that of the name there.
* `Bindings.sets_insert` — what setting one parameter does, and what it leaves as it is.
* `Bindings.names_insertAll` and `Bindings.get_insertAll` — the names and the values after any number of
  settings.
* `Bindings.firstFailure?_eq_some_iff` — which failed conversion is reported.
* `Bindings.ordered_map` — all of this about every row and all settings that follow.
-/

namespace PathQuery

/-! ### Names without repetitions -/

theorem eraseDups_of_nodup {names : List String} (h : names.Nodup) : names.eraseDups = names := by
  induction names with
  | nil => rfl
  | cons name names ih =>
    obtain ⟨hname, hnames⟩ := List.nodup_cons.mp h
    have hkept : names.filter (fun other => !other == name) = names := by
      rw [List.filter_eq_self]
      intro other hother
      simpa using ne_of_mem_of_not_mem hother hname
    rw [List.eraseDups_cons, hkept, ih hnames]

theorem eraseDups_append_cons_of_mem {name : String} {names : List String} (h : name ∈ names)
    (more : List String) : (names ++ name :: more).eraseDups = (names ++ more).eraseDups := by
  rw [List.eraseDups_append, List.eraseDups_append]
  simp [List.removeAll, h]

namespace Bindings

variable {b : Bindings} {name : String} {value : Item} {position : Nat}

/-! ### Rows -/

section Rows

variable {seen : List String} {row : List (String × Item)}

theorem firstRepeat?_cons_eq_none_iff {p : String × Item} :
    firstRepeat? seen (p :: row) = none ↔ p.1 ∉ seen ∧ firstRepeat? (p.1 :: seen) row = none := by
  obtain ⟨first, x⟩ := p
  rw [firstRepeat?]
  split
  case isTrue hseen => simp [hseen]
  case isFalse hseen => simp [hseen]

theorem firstRepeat?_eq_none_iff :
    firstRepeat? seen row = none ↔
      (Entries.keys row).Nodup ∧ ∀ other ∈ seen, other ∉ Entries.keys row := by
  refine ⟨nodup_of_firstRepeat?, ?_⟩
  rintro ⟨hnodup, hseen⟩
  induction row generalizing seen with
  | nil => rfl
  | cons p row ih =>
    obtain ⟨hfirst, hnodup⟩ := List.nodup_cons.mp hnodup
    have hnot : p.1 ∉ seen := fun hmem => hseen p.1 hmem List.mem_cons_self
    have hrow : ∀ other ∈ p.1 :: seen, other ∉ Entries.keys row :=
      List.forall_mem_cons.mpr ⟨hfirst, fun other hother hmem =>
        hseen other hother (List.mem_cons_of_mem p.1 hmem)⟩
    exact firstRepeat?_cons_eq_none_iff.mpr ⟨hnot, ih hnodup hrow⟩

/-- The entries before the one that is reported repeat nothing. -/
theorem firstRepeat?_eq_some_iff :
    firstRepeat? seen row = some name ↔ ∃ before value after, row = before ++ (name, value) :: after ∧
      firstRepeat? seen before = none ∧ (name ∈ seen ∨ name ∈ Entries.keys before) := by
  induction row generalizing seen with
  | nil => simp [firstRepeat?]
  | cons p row ih =>
    obtain ⟨first, x⟩ := p
    have hmoved {before : List (String × Item)} :
        (name ∈ first :: seen ∨ name ∈ Entries.keys before) ↔
          (name ∈ seen ∨ name ∈ Entries.keys ((first, x) :: before)) := by
      simp only [Entries.keys, List.map_cons, List.mem_cons]
      rw [or_assoc, or_left_comm]
    rw [firstRepeat?]
    split
    case isTrue hseen =>
      -- A name that was seen is the reported one, and nothing stands before it.
      constructor
      · intro h
        cases h
        exact ⟨[], x, row, rfl, rfl, .inl hseen⟩
      · rintro ⟨before, value, after, hrow, hnone, -⟩
        cases before with
        | nil =>
          cases hrow
          rfl
        | cons q before =>
          cases hrow
          exact absurd hseen (firstRepeat?_cons_eq_none_iff.mp hnone).1
    case isFalse hseen =>
      rw [ih]
      constructor
      · rintro ⟨before, value, after, rfl, hnone, hname⟩
        exact ⟨(first, x) :: before, value, after, rfl,
          firstRepeat?_cons_eq_none_iff.mpr ⟨hseen, hnone⟩, hmoved.mp hname⟩
      · rintro ⟨before, value, after, hrow, hnone, hname⟩
        cases before with
        | nil =>
          cases hrow
          exact absurd (hname.resolve_right List.not_mem_nil) hseen
        | cons q before =>
          cases hrow
          exact ⟨before, value, after, rfl, (firstRepeat?_cons_eq_none_iff.mp hnone).2,
            hmoved.mpr hname⟩

/-- A name of a row is that of an earlier entry, and the names before it are distinct. -/
def FirstRepeat (row : List (String × Item)) (name : String) : Prop :=
  ∃ before value after, row = before ++ (name, value) :: after ∧ (Entries.keys before).Nodup ∧
    name ∈ Entries.keys before

theorem ofRow_eq_error_iff {e : BindingError} :
    ofRow row = .error e ↔ ∃ name, FirstRepeat row name ∧ e = .duplicate name := by
  have hrepeat {name : String} : firstRepeat? [] row = some name ↔ FirstRepeat row name := by
    simp [firstRepeat?_eq_some_iff, firstRepeat?_eq_none_iff, FirstRepeat]
  unfold ofRow
  split
  case h_1 name h =>
    have hfirst : ∀ other, FirstRepeat row other ↔ name = other := by
      intro other
      rw [← hrepeat, h, Option.some.injEq]
    simp [hfirst, eq_comm]
  case h_2 h =>
    have hnone : ∀ other, ¬ FirstRepeat row other := by
      intro other hother
      cases h.symm.trans (hrepeat.mpr hother)
    simp [hnone]

theorem exists_ofRow_eq_error_iff : (∃ e, ofRow row = .error e) ↔ ¬ (Entries.keys row).Nodup := by
  have hnone : firstRepeat? [] row = none ↔ (Entries.keys row).Nodup := by
    simp [firstRepeat?_eq_none_iff]
  rw [← hnone]
  unfold ofRow
  split
  case h_1 name h => simp [h]
  case h_2 h => simp [h]

theorem entries_of_ofRow (h : ofRow row = .ok b) : b.entries = row := by
  unfold ofRow at h
  split at h
  · cases h
  · cases h
    rfl

end Rows

/-! ### Names and positions -/

/-- The names in the order of their positions. -/
def names (b : Bindings) : List String :=
  Entries.keys b.entries

theorem names_nodup (b : Bindings) : b.names.Nodup :=
  b.distinct

theorem names_eq_some_iff :
    b.names[position]? = some name ↔ ∃ x, b.entries[position]? = some (name, x) := by
  rw [names, Entries.keys, List.getElem?_map, Option.map_eq_some_iff]
  constructor
  · rintro ⟨⟨_, x⟩, hentry, rfl⟩
    exact ⟨x, hentry⟩
  · rintro ⟨x, hentry⟩
    exact ⟨(name, x), hentry, rfl⟩

theorem getIndex_eq_ok_iff :
    b.getIndex position = .ok value ↔ ∃ name, b.entries[position]? = some (name, value) := by
  unfold getIndex
  cases b.entries[position]? with
  | none => simp
  | some p => simp [Prod.ext_iff]

theorem get_of_getElem? (h : b.entries[position]? = some (name, value)) : b.get name = .ok value := by
  rw [get, (Entries.get?_eq_some_iff b.distinct).mpr (List.mem_of_getElem? h)]

/-- **Both views show one value.** -/
theorem getIndex_of_names (h : b.names[position]? = some name) :
    b.getIndex position = b.get name := by
  obtain ⟨x, hentry⟩ := names_eq_some_iff.mp h
  rw [get_of_getElem? hentry, getIndex_eq_ok_iff]
  exact ⟨name, hentry⟩

/-- The bindings have the entries of a row, by position and by name, and no others. -/
structure Lists (b : Bindings) (row : List (String × Item)) : Prop where
  size_eq : b.size = row.length
  names_eq : b.names = Entries.keys row
  entry : ∀ position name value, row[position]? = some (name, value) →
    b.getIndex position = .ok value ∧ b.get name = .ok value
  beyond : ∀ position, row.length ≤ position →
    b.getIndex position = .error (.unboundPosition position)
  unnamed : ∀ name, name ∉ Entries.keys row → b.get name = .error (.unbound name)

theorem lists_of_ofRow {row : List (String × Item)} (h : ofRow row = .ok b) : b.Lists row := by
  cases entries_of_ofRow h
  exact {
    size_eq := rfl
    names_eq := rfl
    entry := fun _ name _ hentry =>
      ⟨getIndex_eq_ok_iff.mpr ⟨name, hentry⟩, get_of_getElem? hentry⟩
    beyond := fun position hlength => (b.getIndex_eq_error_iff position _).mpr ⟨rfl, hlength⟩
    unnamed := fun name hname => (b.get_eq_error_iff name _).mpr ⟨rfl, hname⟩ }

/-! ### Setting parameters -/

theorem names_insert (b : Bindings) (name : String) (value : Item) :
    (b.insert name value).names = if name ∈ b.names then b.names else b.names ++ [name] :=
  Entries.keys_put name value b.entries

/-- What becomes of bindings when a parameter is set: a name keeps its position and a new one comes behind
all others, the value is the new one, and no other parameter changes. -/
structure Sets (before : Bindings) (name : String) (value : Item) (after : Bindings) : Prop where
  names_eq : after.names = if name ∈ before.names then before.names else before.names ++ [name]
  get_eq : after.get name = .ok value
  getIndex_eq : ∀ position, after.names[position]? = some name → after.getIndex position = .ok value
  get_other : ∀ other, other ≠ name → after.get other = before.get other
  getIndex_other : ∀ position other, before.names[position]? = some other → other ≠ name →
    after.getIndex position = before.getIndex position

theorem sets_insert (b : Bindings) (name : String) (value : Item) :
    Sets b name value (b.insert name value) where
  names_eq := b.names_insert name value
  get_eq := b.get_insert_self name value
  getIndex_eq _ hposition := (getIndex_of_names hposition).trans (b.get_insert_self name value)
  get_other _ hother := b.get_insert_of_ne hother value
  getIndex_other position other hposition hother := by
    have hkept : (b.insert name value).names[position]? = some other := by
      rw [names_insert]
      split
      · exact hposition
      · obtain ⟨hlength, -⟩ := List.getElem?_eq_some_iff.mp hposition
        rw [List.getElem?_append_left hlength, hposition]
    rw [getIndex_of_names hkept, getIndex_of_names hposition, b.get_insert_of_ne hother value]

/-- The bindings after parameters are set one after another. -/
def insertAll (b : Bindings) (settings : List (String × Item)) : Bindings :=
  settings.foldl (fun b p => b.insert p.1 p.2) b

theorem insertAll_concat (b : Bindings) (settings : List (String × Item)) (name : String)
    (value : Item) :
    b.insertAll (settings ++ [(name, value)]) = (b.insertAll settings).insert name value := by
  rw [insertAll, List.foldl_append]
  rfl

/-- After any settings the old names are followed by the new ones, in the order of their first
occurrences. -/
theorem names_insertAll (b : Bindings) (settings : List (String × Item)) :
    (b.insertAll settings).names = (b.names ++ Entries.keys settings).eraseDups := by
  induction settings generalizing b with
  | nil =>
    rw [Entries.keys, List.map_nil, List.append_nil, eraseDups_of_nodup b.names_nodup]
    rfl
  | cons p settings ih =>
    show ((b.insert p.1 p.2).insertAll settings).names =
      (b.names ++ p.1 :: Entries.keys settings).eraseDups
    rw [ih, names_insert]
    split
    case isTrue hmem => rw [eraseDups_append_cons_of_mem hmem]
    case isFalse => rw [List.append_assoc, List.singleton_append]

/-- Settings leave the names at their positions. -/
theorem prefix_names_insertAll (b : Bindings) (settings : List (String × Item)) :
    b.names <+: (b.insertAll settings).names := by
  rw [names_insertAll, List.eraseDups_append, eraseDups_of_nodup b.names_nodup]
  exact List.prefix_append _ _

/-- After any settings a parameter has the value that it was set to last. -/
theorem get_insertAll (b : Bindings) (settings : List (String × Item)) (name : String) :
    (b.insertAll settings).get name =
      match Entries.get? name settings.reverse with
      | some value => .ok value
      | none => b.get name := by
  induction settings using List.reverseRecOn with
  | nil => rfl
  | append_singleton settings p ih =>
    rw [insertAll_concat, List.reverse_concat, Entries.get?]
    by_cases hname : p.1 = name
    · rw [if_pos hname, ← hname, get_insert_self]
    · rw [if_neg hname, get_insert_of_ne _ (Ne.symm hname), ih]

/-! ### Failed conversions -/

/-- The parameter at a position is the first with a failed conversion in it. -/
structure FailsFirst (b : Bindings) (position : Nat) (name : String) : Prop where
  name_eq : b.names[position]? = some name
  fails : ∃ x, b.getIndex position = .ok x ∧ ¬ x.Clean
  clean : ∀ earlier < position, ∀ x, b.getIndex earlier = .ok x → x.Clean

theorem clean_getIndex_iff :
    (∀ x, b.getIndex position = .ok x → x.Clean) ↔
      ∀ p, b.entries[position]? = some p → p.2.hasFailure = false := by
  simp only [getIndex_eq_ok_iff, Item.clean_iff]
  constructor
  · rintro h ⟨name, x⟩ hentry
    exact h x ⟨name, hentry⟩
  · rintro h x ⟨name, hentry⟩
    exact h (name, x) hentry

theorem firstFailure?_eq_some_iff :
    b.firstFailure? = some name ↔ ∃ position, b.FailsFirst position name := by
  rw [firstFailure?, Option.map_eq_some_iff]
  constructor
  · rintro ⟨⟨_, x⟩, hfind, rfl⟩
    obtain ⟨hfails, position, hlength, hentry, hbefore⟩ := List.find?_eq_some_iff_getElem.mp hfind
    have hentry := List.getElem?_eq_some_iff.mpr ⟨hlength, hentry⟩
    refine ⟨position, names_eq_some_iff.mpr ⟨x, hentry⟩, ⟨x, getIndex_eq_ok_iff.mpr ⟨_, hentry⟩, ?_⟩, ?_⟩
    · rw [Item.clean_iff, Bool.not_eq_false]
      exact hfails
    · intro earlier hearlier
      rw [clean_getIndex_iff]
      intro p hp
      obtain ⟨hbound, rfl⟩ := List.getElem?_eq_some_iff.mp hp
      simpa using hbefore earlier hearlier
  · rintro ⟨position, hname, ⟨x, hx, hfails⟩, hclean⟩
    obtain ⟨y, hentry⟩ := names_eq_some_iff.mp hname
    have hvalue : b.getIndex position = .ok y := getIndex_eq_ok_iff.mpr ⟨name, hentry⟩
    cases hx.symm.trans hvalue
    rw [Item.clean_iff, Bool.not_eq_false] at hfails
    obtain ⟨hlength, hentry⟩ := List.getElem?_eq_some_iff.mp hentry
    refine ⟨(name, x), List.find?_eq_some_iff_getElem.mpr ⟨hfails, position, hlength, hentry, ?_⟩, rfl⟩
    intro earlier hearlier
    have hbound : earlier < b.entries.length := Nat.lt_trans hearlier hlength
    have hfound := clean_getIndex_iff.mp (hclean earlier hearlier) _ (List.getElem?_eq_getElem hbound)
    rw [hfound, Bool.not_false]

theorem firstFailure?_eq_none_iff :
    b.firstFailure? = none ↔ ∀ position x, b.getIndex position = .ok x → x.Clean := by
  rw [firstFailure?, Option.map_eq_none_iff, List.find?_eq_none]
  constructor
  · intro h position
    rw [clean_getIndex_iff]
    intro p hp
    exact Bool.eq_false_iff.mpr (h p (List.mem_of_getElem? hp))
  · intro h p hp
    obtain ⟨position, hposition⟩ := List.mem_iff_getElem?.mp hp
    exact Bool.eq_false_iff.mp (clean_getIndex_iff.mp (h position) p hposition)

/-! ### The whole table -/

/-- **Parameters are an ordered map.** A row is refused exactly if a name occurs twice in it, and then for
the first name that an earlier entry has; otherwise the bindings have the entries of the row, by position
and by name. Each setting that follows keeps the position of a name or adds it at the end, gives it its value
and changes no other parameter, so that names stay in the order of their first occurrences and have the
values that they were set to last. In all bindings names are distinct, both views show the same values, and
the failed conversion that is reported is the first one. -/
theorem ordered_map :
    (∀ row : List (String × Item),
      ((∃ e, ofRow row = .error e) ↔ ¬ (Entries.keys row).Nodup) ∧
      (∀ e, ofRow row = .error e ↔ ∃ name, FirstRepeat row name ∧ e = .duplicate name) ∧
      ∀ b, ofRow row = .ok b → b.Lists row) ∧
    (∀ (b : Bindings) (settings : List (String × Item)) (name : String) (value : Item),
      Sets (b.insertAll settings) name value (b.insertAll (settings ++ [(name, value)]))) ∧
    (∀ (b : Bindings) (settings : List (String × Item)),
      b.names <+: (b.insertAll settings).names ∧
      (b.insertAll settings).names = (b.names ++ Entries.keys settings).eraseDups ∧
      ∀ name, (b.insertAll settings).get name =
        match Entries.get? name settings.reverse with
        | some value => .ok value
        | none => b.get name) ∧
    ∀ b : Bindings, b.names.Nodup ∧
      (∀ position name, b.names[position]? = some name → b.getIndex position = b.get name) ∧
      (∀ name, b.firstFailure? = some name ↔ ∃ position, b.FailsFirst position name) ∧
      (b.firstFailure? = none ↔ ∀ position x, b.getIndex position = .ok x → x.Clean) := by
  refine ⟨fun row => ?_, fun b settings name value => ?_, fun b settings => ?_, fun b => ?_⟩
  · exact ⟨exists_ofRow_eq_error_iff, fun _ => ofRow_eq_error_iff, fun _ => lists_of_ofRow⟩
  · rw [insertAll_concat]
    exact sets_insert (b.insertAll settings) name value
  · exact ⟨b.prefix_names_insertAll settings, b.names_insertAll settings, b.get_insertAll settings⟩
  · exact ⟨b.names_nodup, fun _ _ => getIndex_of_names, fun _ => firstFailure?_eq_some_iff,
      firstFailure?_eq_none_iff⟩

/-- A row of two parameters, of which the second is replaced by a failed conversion after a third has come
behind them; and the same row with two names repeated. -/
theorem ordered_map_of_failed_replacement :
    let row : List (String × Item) := [("lo", .int 1), ("hi", .int 9)]
    let b : Bindings := ⟨row, by decide⟩
    let after := b.insertAll [("mid", .failure), ("hi", .array [.failure])]
    ofRow row = .ok b ∧ b.size = 2 ∧ b.getIndex 1 = .ok (.int 9) ∧ b.get "hi" = .ok (.int 9) ∧
    after.names = ["lo", "hi", "mid"] ∧ after.getIndex 1 = .ok (.array [.failure]) ∧
    after.getIndex 2 = after.get "mid" ∧ after.firstFailure? = some "hi" ∧
    ofRow (row ++ [("mid", .null), ("hi", .null), ("lo", .null)]) = .error (.duplicate "hi") := by
  intro row b after
  obtain ⟨hrows, hsets, hruns, hall⟩ := ordered_map
  have hrow : ofRow row = .ok b := rfl
  have hlists : b.Lists row := (hrows row).2.2 b hrow
  obtain ⟨hindex, hget⟩ := hlists.entry 1 "hi" (.int 9) rfl
  have hset : Sets (b.insertAll [("mid", .failure)]) "hi" (.array [.failure]) after :=
    hsets b [("mid", .failure)] "hi" (.array [.failure])
  have hnames : after.names = ["lo", "hi", "mid"] := (hruns b _).2.1.trans (by decide)
  have hvalue : after.getIndex 1 = .ok (.array [.failure]) := hset.getIndex_eq 1 (by rw [hnames]; rfl)
  obtain ⟨-, hviews, hfailure, -⟩ := hall after
  have hfirst : after.FailsFirst 1 "hi" := {
    name_eq := by rw [hnames]; rfl
    fails := ⟨_, hvalue, fun hclean => hclean (.element List.mem_cons_self .self)⟩
    clean := by
      intro earlier hearlier x hx
      obtain rfl : earlier = 0 := by omega
      cases hx
      exact (Item.clean_iff _).mpr rfl }
  have hrepeat : FirstRepeat (row ++ [("mid", .null), ("hi", .null), ("lo", .null)]) "hi" :=
    ⟨row ++ [("mid", .null)], .null, [("lo", .null)], rfl, by decide, by decide⟩
  exact ⟨hrow, hlists.size_eq, hindex, hget, hnames, hvalue, hviews 2 "mid" (by rw [hnames]; rfl),
    (hfailure "hi").mpr ⟨1, hfirst⟩, ((hrows _).2.1 _).mpr ⟨"hi", hrepeat, rfl⟩⟩

end Bindings

end PathQuery
