import PathQuery.Proofs.Call.Agreement
import PathQuery.Proofs.Json.Parts

/-!
# Documents as items

A document becomes an item when a path looks at it and an item becomes a document when a query gives it
back. Nothing is lost either way: an integer comes back as an integer, a whole double as a double, and the
members of an object in their order.

* `Json.Exact` and `Item.Plain` — the values and the items that are each other's counterparts.
* `Item.toJson_ofJson` and `Item.ofJson_toJson` — on them the conversions undo each other.
* `Path.query?_of_context` — a query of `$` gives the JSON value of its input.
* `Item.conversions_lossless` — so it gives back every document as it is.
-/

namespace PathQuery

namespace Json

/-- Every integer of a value has 64 bits with its sign, and every double is finite. -/
structure Exact (v : Json) : Prop where
  int : ∀ n, PartOf (.int n) v → -0x8000000000000000 ≤ n ∧ n < 0x8000000000000000
  float : ∀ x, PartOf (.float x) v → x.isFinite = true

theorem Exact.of_partOf {v w : Json} (h : w.Exact) (hv : PartOf v w) : v.Exact :=
  ⟨fun n hn => h.int n (hn.trans hv), fun x hx => h.float x (hx.trans hv)⟩

theorem Exact.inRange {v : Json} (h : v.Exact) : v.InRange := by
  refine ⟨fun n hn => ?_, h.float⟩
  have hn := h.int n hn
  omega

end Json

namespace Item

/-- An item of which JSON has every part: no date or time, no failed conversion and no double that is not
finite. -/
structure Plain (x : Item) : Prop where
  clean : x.Clean
  finite : x.Finite
  not_datetime : ∀ d, ¬ PartOf (.datetime d) x

theorem Plain.of_partOf {x y : Item} (h : y.Plain) (hx : PartOf x y) : x.Plain :=
  ⟨fun hfailure => h.clean (hfailure.trans hx), fun d hd => h.finite d (hd.trans hx),
    fun d hd => h.not_datetime d (hd.trans hx)⟩

/-- Every document is a plain item. -/
theorem plain_ofJson {v : Json} (h : v.Exact) : (ofJson v).Plain := by
  have hvalue : ∀ w : Json, ofJson w ≠ .failure ∧ ∀ d, ofJson w ≠ .datetime d := by
    intro w
    cases w with
    | int n => rw [ofJson, ofInt]; split <;> simp [Item.int, Item.float]
    | _ => simp [ofJson, Item.float]
  refine ⟨fun hfailure => ?_, finite_ofJson h.inRange, fun d hd => ?_⟩
  · obtain ⟨w, -, hw⟩ := exists_part_of_ofJson hfailure
    exact (hvalue w).1 hw.symm
  · obtain ⟨w, -, hw⟩ := exists_part_of_ofJson hd
    exact (hvalue w).2 d hw.symm

/-! ### There and back -/

theorem ofInt_of_inRange {n : Int} (h : -0x8000000000000000 ≤ n ∧ n < 0x8000000000000000) :
    ofInt n = .int (Int64.ofInt n) := by
  rw [ofInt, int64?, if_pos h]

/-- **A document comes back from its item.** -/
theorem toJson_ofJson {v : Json} (h : v.Exact) : (ofJson v).toJson = v := by
  induction v with
  | null | bool | string => rfl
  | int n =>
    have hn := h.int n .self
    rw [ofJson, ofInt_of_inRange hn]
    exact congrArg Json.int (Int64.toInt_ofInt_of_le hn.1 hn.2)
  | float x =>
    have hx : x.isFinite = true := h.float x .self
    exact if_pos hx
  | array elements ih =>
    have helements : ∀ v ∈ elements, (toJson ∘ ofJson) v = id v :=
      fun v hv => ih v hv (h.of_partOf (.element hv .self))
    rw [ofJson, ofJsonElements_eq_map, toJson, toJsonElements_eq_map, List.map_map,
      List.map_congr_left helements, List.map_id]
  | object members ih =>
    have hmembers : ∀ m ∈ members,
        ((fun m => (m.1, m.2.toJson)) ∘ fun m => (m.1, ofJson m.2)) m = id m :=
      fun m hm => congrArg (Prod.mk m.1) (ih m hm (h.of_partOf (.member hm .self)))
    rw [ofJson, ofJsonMembers_eq_map, toJson, toJsonMembers_eq_map, List.map_map,
      List.map_congr_left hmembers, List.map_id]

/-- **A plain item comes back from its JSON value.** -/
theorem ofJson_toJson {x : Item} (h : x.Plain) : ofJson x.toJson = x := by
  induction x with
  | null | boolean | string => rfl
  | failure => exact absurd .self h.clean
  | datetime d => exact absurd .self (h.not_datetime d)
  | number n =>
    cases n with
    | int i =>
      show ofInt i.toInt = .number (.int i)
      rw [ofInt, int64?_toInt]
      rfl
    | float x =>
      have hx : x.isFinite = true := h.finite x .self
      show ofJson (if x.isFinite then .float x else .null) = _
      rw [if_pos hx]
      rfl
  | array elements ih =>
    have helements : ∀ x ∈ elements, (ofJson ∘ toJson) x = id x :=
      fun x hx => ih x hx (h.of_partOf (.element hx .self))
    rw [toJson, toJsonElements_eq_map, ofJson, ofJsonElements_eq_map, List.map_map,
      List.map_congr_left helements, List.map_id]
  | object members ih =>
    have hmembers : ∀ m ∈ members,
        ((fun m => (m.1, ofJson m.2)) ∘ fun m => (m.1, m.2.toJson)) m = id m :=
      fun m hm => congrArg (Prod.mk m.1) (ih m hm (h.of_partOf (.member hm .self)))
    rw [toJson, toJsonMembers_eq_map, ofJson, ofJsonMembers_eq_map, List.map_map,
      List.map_congr_left hmembers, List.map_id]

end Item

/-! ### Queries -/

theorem Node.eval_of_context {n : Node} (h : n.form = .context) (scope : Scope) :
    n.eval scope = .ok [scope.root] := by
  obtain ⟨form, declared⟩ := n
  obtain rfl : form = .context := h
  rfl

namespace Path

variable {p : Path} {input : Item} {row : ParameterRow}

/-- The sequence of `$` is the input. -/
theorem sequence_of_context (hp : p.root.form = .context) (hinput : input.Clean)
    (hrow : ∀ entry ∈ row, entry.2.Clean) {bindings : Bindings}
    (hbindings : Bindings.ofRow row = .ok bindings) (function : SqlFunction) :
    p.sequence function input row = .ok [input] := by
  have hclean : failedConversion? input bindings = none := by
    rw [failedConversion?_eq_none_iff, Bindings.entries_of_ofRow hbindings]
    exact ⟨(input.clean_iff).mp hinput, fun entry h => (entry.2.clean_iff).mp (hrow entry h)⟩
  rw [sequence_eq_ok_iff hinput hrow, evaluateRow, hbindings]
  exact (Node.evaluate_of_clean hclean p.mode p.root).trans (Node.eval_of_context hp _)

theorem query?_of_context (hp : p.root.form = .context) (hinput : input.Clean)
    (hrow : ∀ entry ∈ row, entry.2.Clean) {bindings : Bindings}
    (hbindings : Bindings.ofRow row = .ok bindings) {options : QueryOptions}
    (hwrapper : options.wrapper = .without) :
    p.query? input row options = .ok (some input.toJson) := by
  have hseq := sequence_of_context hp hinput hrow hbindings .query
  rw [query?_of_ne_nil hseq (List.cons_ne_nil _ _), hwrapper]
  rfl

end Path

/-- **No conversion loses anything.** Documents come back from their items and plain items from their JSON
values. So a query of `$` without an array around it gives every document back as it is, in both modes,
under all behaviors and with any parameters that can be passed at all. -/
theorem Item.conversions_lossless :
    (∀ v : Json, v.Exact → (ofJson v).toJson = v) ∧
    (∀ x : Item, x.Plain → ofJson x.toJson = x) ∧
    ∀ v : Json, v.Exact → ∀ p : Path, p.root.form = .context →
      ∀ (row : ParameterRow) (bindings : Bindings), (∀ entry ∈ row, entry.2.Clean) →
        Bindings.ofRow row = .ok bindings →
        ∀ options : QueryOptions, options.wrapper = .without →
          p.query? (ofJson v) row options = .ok (some v) := by
  refine ⟨fun v h => toJson_ofJson h, fun x h => ofJson_toJson h, ?_⟩
  intro v hv p hp row bindings hrow hbindings options hwrapper
  rw [Path.query?_of_context hp (plain_ofJson hv).clean hrow hbindings hwrapper, toJson_ofJson hv]

/-- The least integer, a whole double and a zero with its sign, in an object whose members are not in
alphabetical order. -/
theorem Item.conversions_lossless_of_signed_zero :
    let three := Double.finite false 0x18000000000000 (-51) (by decide)
    let v := Json.object
      [("z", .array [.int (-0x8000000000000000), .float three, .float (.zero true)]), ("a", .object [])]
    let x := Item.array [.float (.zero true), .object [("z", .int 3), ("a", .float three)]]
    let row := [("p", Item.boolean true)]
    v.Exact ∧ x.Plain ∧ (ofJson v).toJson = v ∧ ofJson x.toJson = x ∧
      (Path.mk .lax Node.context rfl).query? (ofJson v) row ⟨.without, .error, .error⟩ =
        .ok (some v) ∧
      (Path.mk .strict Node.context rfl).query? (ofJson v) row ⟨.without, .error, .error⟩ =
        .ok (some v) := by
  intro three v x row
  have hv : v.Exact := by
    constructor
    · intro n hn
      have hleast : n = -0x8000000000000000 := by
        simpa [v, Json.partOf_array_iff, Json.partOf_object_iff, Json.partOf_scalar_iff] using hn
      omega
    · intro y hy
      have hdoubles : y = three ∨ y = .zero true := by
        simpa [v, Json.partOf_array_iff, Json.partOf_object_iff, Json.partOf_scalar_iff] using hy
      rcases hdoubles with rfl | rfl <;> rfl
  have hx : x.Plain := by
    constructor
    · exact x.clean_iff.mpr rfl
    · intro y hy
      have hdoubles : y = .zero true ∨ y = three := by
        simpa [x, Item.partOf_array_iff, Item.partOf_object_iff, Item.partOf_scalar_iff, Item.int,
          Item.float] using hy
      rcases hdoubles with rfl | rfl <;> rfl
    · simp [x, Item.partOf_array_iff, Item.partOf_object_iff, Item.partOf_scalar_iff, Item.int,
        Item.float]
  have hrow : ∀ entry ∈ row, entry.2.Clean :=
    List.forall_mem_singleton.mpr ((Item.clean_iff _).mpr rfl)
  obtain ⟨hdocument, hitem, hquery⟩ := Item.conversions_lossless
  exact ⟨hv, hx, hdocument v hv, hitem x hx, hquery v hv _ rfl row _ hrow rfl _ rfl,
    hquery v hv _ rfl row _ hrow rfl _ rfl⟩

end PathQuery
