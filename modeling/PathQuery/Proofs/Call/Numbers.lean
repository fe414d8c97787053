import PathQuery.Proofs.Call.Agreement
import PathQuery.Proofs.Json.Reading

/-!
# Finite numbers

JSON has no infinities and no not-a-number, so a number of a result that is one of them would be lost as
null. None is: arithmetic and `double` refuse such a result, and the other steps make none of finite
numbers.

* `Item.finite_kept` — every step keeps numbers finite.
* `Path.exists_evaluate_of_sequence` — the sequence of a call is one of the evaluator.
* `Node.evaluate_finite` — results have finite numbers only, all of which are seen in the JSON value.
-/

namespace PathQuery

/-! ### Finite items -/

theorem Item.finite_float_iff {x : Double} :
    Item.Finite (.number (.float x)) ↔ x.isFinite = true := by
  refine ⟨fun h => h x .self, fun h d hd => ?_⟩
  cases hd
  exact h

/-- **Every step keeps numbers finite.** -/
theorem Item.finite_kept : Item.Kept Item.Finite where
  element hfinite _ hx d hd := hfinite d (.element hx hd)
  member hfinite _ hm d hd := hfinite d (.member hm hd)
  null d hd := nomatch hd
  boolean _ d hd := nomatch hd
  string _ d hd := nomatch hd
  datetime _ d hd := nomatch hd
  int _ d hd := nomatch hd
  float _ hx := finite_float_iff.mpr hx
  neg hx := finite_float_iff.mpr ((Double.isFinite_neg _).trans (finite_float_iff.mp hx))
  ceil hx := finite_float_iff.mpr ((Double.isFinite_ceil _).trans (finite_float_iff.mp hx))
  floor hx := finite_float_iff.mpr ((Double.isFinite_floor _).trans (finite_float_iff.mp hx))
  abs hx := finite_float_iff.mpr ((Double.isFinite_abs _).trans (finite_float_iff.mp hx))
  entry key id hfinite d hd := by
    rcases hd.of_entry with h | h | h | h
    · cases h
    · cases h
    · cases h
    · exact hfinite d h

theorem Literal.item_finite {value : Literal} (h : ∀ x, value = .float x → x.isFinite = true) :
    value.item.Finite := by
  cases value with
  | float x => exact Item.finite_float_iff.mpr (h x rfl)
  | _ => exact fun d hd => nomatch hd

/-- A tree whose own doubles are finite makes finite items of finite ones. -/
theorem Node.finite_of_evaluate {n : Node}
    (hn : ∀ x, .literal (.float x) ∈ n.forms → x.isFinite = true) (mode : Mode) {input : Item}
    (hinput : input.Finite) {bindings : Bindings} (hbindings : ∀ b ∈ bindings.entries, b.2.Finite) :
    ∀ s, n.evaluate mode input bindings = .ok s → ∀ x ∈ s, x.Finite := by
  refine Node.evaluate_each Item.finite_kept mode n (fun f hf value hvalue => ?_) hinput hbindings
  refine Literal.item_finite fun x hx => hn x ?_
  rwa [hvalue, hx] at hf

/-! ### Items as JSON -/

theorem Number.toJson_ne_null {n : Number} (h : ∀ x, n = .float x → x.isFinite = true) :
    n.toJson ≠ .null := by
  cases n with
  | int n => simp [toJson]
  | float x => simp [toJson, h x rfl]

/-- The value of a query has a part for each of its items. -/
theorem Wrapper.partOf_of_wrap {wrapper : Wrapper} {s : Sequence} {json : Json}
    (h : wrapper.wrap s = .ok json) {x : Item} (hx : x ∈ s) : Json.PartOf x.toJson json := by
  unfold wrap at h
  split at h
  · next y =>
    cases h
    rw [List.mem_singleton.mp hx]
    exact .self
  · cases h
  · next y =>
    rw [List.mem_singleton.mp hx]
    cases h
    split
    · exact .self
    · exact .element (List.mem_singleton.mpr rfl) .self
  · cases h
    exact Item.PartOf.toJson (.element hx .self)

/-- Every number of the items is in a JSON value as a number. -/
def Sequence.NumbersIn (s : Sequence) (json : Json) : Prop :=
  ∀ x ∈ s, ∀ n : Number, Item.PartOf (.number n) x → n.toJson ≠ .null ∧ Json.PartOf n.toJson json

theorem Sequence.numbersIn_of_wrap {s : Sequence} (hs : ∀ x ∈ s, x.Finite) {wrapper : Wrapper}
    {json : Json} (h : wrapper.wrap s = .ok json) : s.NumbersIn json := by
  intro x hx n hn
  constructor
  · refine Number.toJson_ne_null fun d hd => hs x hx d ?_
    rwa [hd] at hn
  · exact hn.toJson.trans (Wrapper.partOf_of_wrap h hx)

/-! ### Queries -/

namespace Path

variable {p : Path} {input : Item} {row : ParameterRow}

/-- A call that comes to a sequence has got it from the evaluator. -/
theorem exists_evaluate_of_sequence {function : SqlFunction} {s : Sequence}
    (h : p.sequence function input row = .ok s) :
    ∃ bindings : Bindings, bindings.entries = row ∧ p.evaluate input bindings = .ok s := by
  have hclean : input.Clean ∧ ∀ entry ∈ row, entry.2.Clean := by
    unfold sequence at h
    split at h
    · cases h
    · next hinput =>
      split at h
      · cases h
      · next hrow =>
        simp only [Item.clean_iff]
        simpa using And.intro hinput hrow
  rw [sequence_eq_ok_iff hclean.1 hclean.2, evaluateRow] at h
  cases hbind : Bindings.ofRow row with
  | error e =>
    rw [hbind] at h
    cases h
  | ok bindings =>
    rw [hbind] at h
    exact ⟨bindings, Bindings.entries_of_ofRow hbind, h⟩

end Path

/-- **No number is lost.** A tree whose own doubles are finite makes only items with finite numbers of an
input and parameters with finite numbers. So the JSON value of a query, unless it is one of its
behaviors, has every number of the items in it; and all numbers of JSON values are finite as items. -/
theorem Node.evaluate_finite {n : Node}
    (hn : ∀ x, .literal (.float x) ∈ n.forms → x.isFinite = true) (mode : Mode) {input : Item}
    (hinput : input.Finite) :
    (∀ bindings : Bindings, (∀ b ∈ bindings.entries, b.2.Finite) →
      ∀ s, n.evaluate mode input bindings = .ok s → ∀ x ∈ s, x.Finite) ∧
    (∀ valid (row : ParameterRow), (∀ entry ∈ row, entry.2.Finite) → ∀ options json,
      let p := Path.mk mode n valid
      p.query? input row options = .ok (some json) →
        (p.sequence .query input row = .ok [] ∧ options.onEmpty.behavior = .value json) ∨
        ((∃ e, p.QueryFails input row options.wrapper e) ∧ options.onError.behavior = .value json) ∨
        ∃ s, p.sequence .query input row = .ok s ∧ options.wrapper.wrap s = .ok json ∧
          s.NumbersIn json) ∧
    (∀ v : Json, v.InRange → (Item.ofJson v).Finite) ∧
    ∀ text v, Json.read? text = some v → (Item.ofJson v).Finite := by
  refine ⟨fun bindings hbindings => Node.finite_of_evaluate hn mode hinput hbindings, ?_,
    fun v hv => Item.finite_ofJson hv,
    fun text v hv => Item.finite_ofJson (Json.inRange_of_read? hv)⟩
  intro valid row hrow options json p hquery
  rcases (p.query?_eq_some_iff input row).mp hquery with hempty | herror | ⟨s, hseq, -, hwrap⟩
  · exact Or.inl hempty
  · exact Or.inr (Or.inl herror)
  · obtain ⟨bindings, rfl, heval⟩ := Path.exists_evaluate_of_sequence hseq
    have hs : ∀ x ∈ s, x.Finite := Node.finite_of_evaluate hn mode hinput hrow s heval
    exact Or.inr (Or.inr ⟨s, hseq, hwrap, Sequence.numbersIn_of_wrap hs hwrap⟩)

/-- The largest double, negated, out of an array with an integer that becomes a double. -/
theorem Node.evaluate_finite_of_largest_double :
    let largest := Double.finite false 0x1fffffffffffff 971 (by decide)
    let tree := signed .minus (subscripted [.index (named "i")] (member "a" context))
    let document := Json.object [("a", .array [.float largest, .int 0xffffffffffffffff])]
    let row := [("i", Item.int 0)]
    let result := Json.array [.float largest.neg]
    document.InRange ∧ (Item.ofJson document).Finite ∧
      (Path.mk .lax tree rfl).query? (Item.ofJson document) row ⟨.unconditional, .null, .null⟩ =
        .ok (some result) ∧
      ∃ s, (Path.mk .lax tree rfl).sequence .query (Item.ofJson document) row = .ok s ∧
        s.NumbersIn result := by
  intro largest tree document row result
  have hliterals : ∀ x, .literal (.float x) ∈ tree.forms → x.isFinite = true := by
    simp [tree, Node.forms, Form.inner, Subscript.innerAll, Subscript.inner, signed, subscripted,
      named, member, context, ofForm]
  have hdocument : document.InRange := by
    rw [Json.inRange_object_iff]
    refine List.forall_mem_singleton.mpr (Json.inRange_array_iff.mpr ?_)
    refine List.forall_mem_cons.mpr ⟨Json.inRange_float_iff.mpr rfl, ?_⟩
    exact List.forall_mem_singleton.mpr (Json.inRange_int_iff.mpr (by decide))
  have hfinite : (Item.ofJson document).Finite := Item.finite_ofJson hdocument
  have hrow : ∀ entry ∈ row, entry.2.Finite := by
    refine List.forall_mem_singleton.mpr (fun d hd => ?_)
    cases hd
  have hquery : (Path.mk .lax tree rfl).query? (Item.ofJson document) row
      ⟨.unconditional, .null, .null⟩ = .ok (some result) := by rfl
  refine ⟨hdocument, hfinite, hquery, ?_⟩
  rcases (Node.evaluate_finite hliterals .lax hfinite).2.1 rfl row hrow _ _ hquery with
    ⟨-, hempty⟩ | ⟨-, herror⟩ | ⟨s, hseq, -, hnumbers⟩
  · cases hempty
  · cases herror
  · exact ⟨s, hseq, hnumbers⟩

end PathQuery
