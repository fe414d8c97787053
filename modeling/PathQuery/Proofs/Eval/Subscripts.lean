import Mathlib.Logic.Function.Iterate
import PathQuery.Proofs.Double.Decimal
import PathQuery.Proofs.Eval.LastElement

/-!
# What subscripts select

An array accessor goes through the items of a sequence, and through its subscripts for each of them. Where
the expressions of the subscripts have natural numbers as values, the elements that it selects can be said
without evaluating anything: they stand at the positions of the subscripts that exist. Lax mode passes over
positions that do not exist; strict mode fails if a subscript is out of bounds.

* `Selector` — a subscript with positions in the place of expressions; `Subscript.ReadAs` says when it is
  what a subscript comes to.
* `Settles` — a result that is known, if it is one, and a structural error otherwise.
* `Selector.take_settles`, `Subscript.chooseAll_settles` and `Sequence.collect_settles` — one subscript, all
  subscripts of one array, and all arrays.
* `RangeWalk` — the elements of a range taken one by one with a 64-bit index; `RangeWalk.exists_ended` says
  that every element is there and that the walk ends.
* `Step.elements_select` — what an array accessor selects.
-/

namespace PathQuery

/-! ### Positions -/

/-- The greatest position; greater numbers denote it too. -/
def greatestPosition : Nat := 0x7fffffffffffffff

/-- A number that is a natural number, as an integer or as a double. -/
def Number.IsNatural (k : Nat) : Number → Prop
  | .int n => n.toInt = k
  | .float x => x.isFinite = true ∧ x.units = k * Double.unitsPerOne

/-- A whole double has the integer as its value that its units amount to. -/
theorem Double.toInt?_of_units {x : Double} {k : Nat} (hfinite : x.isFinite = true)
    (hunits : x.units = k * unitsPerOne) : x.isWhole = true ∧ x.toInt? = some (k : Int) := by
  have hsize : x.units.natAbs = k * unitsPerOne := by
    rw [hunits, ← Int.natCast_mul, Int.natAbs_natCast]
  have hwhole : x.isWhole = true := by
    rw [isWhole, hfinite, hsize, Nat.mul_mod_left]
    rfl
  have hpos : (unitsPerOne : Int) ≠ 0 := Int.natCast_ne_zero.mpr (Nat.ne_of_gt unitsPerOne_pos)
  exact ⟨hwhole, by rw [toInt?, if_pos hwhole, hunits, Int.mul_ediv_cancel _ hpos]⟩

/-- A double with a positive value is not negative. -/
theorem Double.isNegative_of_units_pos {x : Double} (h : 0 < x.units) : x.isNegative = false := by
  cases x with
  | nan => rfl
  | infinite negative => cases h
  | finite negative significand exponent =>
    cases negative with
    | false => rfl
    | true =>
      simp only [units, if_true, Int.neg_pos] at h
      exact absurd h (Int.not_lt.mpr (Int.mul_nonneg (Int.natCast_nonneg _) (Int.natCast_nonneg _)))

theorem int64?_of_le {k : Nat} (h : k ≤ greatestPosition) : ∃ i, int64? (k : Int) = some i := by
  rw [greatestPosition] at h
  exact ⟨_, if_pos (by omega)⟩

theorem int64?_of_lt {k : Nat} (h : greatestPosition < k) : int64? (k : Int) = none := by
  rw [greatestPosition] at h
  exact if_neg (by omega)

namespace Number

theorem toInt?_float {x : Double} {k : Nat} (h : x.toInt? = some (k : Int)) :
    (float x).toInt? = int64? (k : Int) := by
  rw [toInt?, h, Option.bind_some]

theorem position_of_toInt? {n : Number} {i : Int64} {k : Nat} (h : n.toInt? = some i)
    (hi : i.toInt = k) : n.position = .ok k := by
  simp only [position, h, hi, if_pos (Int.natCast_nonneg k), Int.toNat_natCast]

theorem position_of_beyond {n : Number} (h : n.toInt? = none) (hwhole : n.toDouble.isWhole = true)
    (hsign : n.toDouble.isNegative = false) : n.position = .ok greatestPosition := by
  simp only [position, h, hwhole, hsign]
  rfl

/-- A natural number is its own position, up to the greatest one. -/
theorem position_of_isNatural {n : Number} {k : Nat} (h : n.IsNatural k) :
    n.position = .ok (min k greatestPosition) := by
  cases n with
  | int i =>
    have hi : i.toInt = k := h
    have hlt := i.toInt_lt
    have hle : k ≤ greatestPosition := by
      rw [greatestPosition]
      omega
    rw [Nat.min_eq_left hle]
    exact position_of_toInt? rfl hi
  | float x =>
    obtain ⟨hfinite, hunits⟩ := h
    obtain ⟨hwhole, hvalue⟩ := Double.toInt?_of_units hfinite hunits
    by_cases hle : k ≤ greatestPosition
    · obtain ⟨i, hi⟩ := int64?_of_le hle
      rw [Nat.min_eq_left hle]
      exact position_of_toInt? ((toInt?_float hvalue).trans hi) (int64?_eq_some hi)
    · have hlt := Nat.lt_of_not_le hle
      have hpos : 0 < x.units := by
        rw [hunits]
        exact Int.mul_pos (Int.natCast_pos.mpr (Nat.zero_lt_of_lt hlt))
          (Int.natCast_pos.mpr Double.unitsPerOne_pos)
      rw [Nat.min_eq_right (Nat.le_of_lt hlt)]
      exact position_of_beyond ((toInt?_float hvalue).trans (int64?_of_lt hlt)) hwhole
        (Double.isNegative_of_units_pos hpos)

end Number

/-- The value of a node is a natural number, alone in its sequence as the mode unwraps it. The node then
denotes the position that is this number, or the greatest one for greater numbers. -/
def Node.Denotes (scope : Scope) (n : Node) (position : Nat) : Prop :=
  ∃ (s : Sequence) (number : Number) (k : Nat), n.eval scope = .ok s ∧
    s.unwrap scope.mode = [.number number] ∧ number.IsNatural k ∧ position = min k greatestPosition

/-- A node whose only item is a natural number, which no mode unwraps. -/
theorem Node.denotes_of_eval {scope : Scope} {n : Node} {number : Number} {k : Nat}
    (heval : n.eval scope = .ok [.number number]) (hk : number.IsNatural k) :
    n.Denotes scope (min k greatestPosition) :=
  ⟨_, number, k, heval, Sequence.unwrap_eq_self (List.forall_mem_singleton.mpr rfl), hk, rfl⟩

theorem Node.Denotes.position_eq {scope : Scope} {n : Node} {position : Nat}
    (h : n.Denotes scope position) :
    (n.eval scope >>= fun s => s.position scope.mode) = .ok position := by
  obtain ⟨s, number, k, heval, hunwrap, hk, rfl⟩ := h
  rw [heval]
  show (Sequence.number scope.mode .subscript s >>= Number.position) = _
  rw [Sequence.number, hunwrap]
  exact Number.position_of_isNatural hk

/-! ### Selectors -/

/-- A subscript with positions in the place of expressions. -/
inductive Selector where
  | index (position : Nat)
  | range (first final : Nat)
  | last
  | wildcard

/-- What a subscript comes to in a scope. -/
inductive Subscript.ReadAs (scope : Scope) : Subscript → Selector → Prop
  | index {position : Node} {i : Nat} :
      position.Denotes scope i → ReadAs scope (.index position) (.index i)
  | range {first final : Node} {i j : Nat} :
      first.Denotes scope i → final.Denotes scope j → ReadAs scope (.range first final) (.range i j)
  | last : ReadAs scope .last .last
  | wildcard : ReadAs scope .wildcard .wildcard

namespace Selector

/-- The positions in an array of some length that a selector asks for, in order. -/
def places (length : Nat) : Selector → List Nat
  | .index i => if i < length then [i] else []
  | .range i j => List.range' i (min (j + 1) length - i)
  | .last => if length = 0 then [] else [length - 1]
  | .wildcard => List.range length

/-- No position lies outside the array. -/
theorem lt_of_mem_places {length i : Nat} {selector : Selector} (h : i ∈ selector.places length) :
    i < length := by
  cases selector with
  | index j =>
    by_cases hj : j < length
    · rw [places, if_pos hj] at h
      exact List.mem_singleton.mp h ▸ hj
    · rw [places, if_neg hj] at h
      cases h
  | range j k =>
    have hbounds := List.mem_range'_1.mp h
    omega
  | last =>
    by_cases hlength : length = 0
    · rw [places, if_pos hlength] at h
      cases h
    · rw [places, if_neg hlength] at h
      have hi := List.mem_singleton.mp h
      omega
  | wildcard => exact List.mem_range.mp h

/-- The elements at the positions that a selector asks for. -/
def choose (elements : List Item) (selector : Selector) : List Item :=
  (selector.places elements.length).filterMap (elements[·]?)

/-- Whether strict mode allows what a selector asks for in an array of some length. -/
def InBounds (length : Nat) : Selector → Prop
  | .index i => i < length
  | .range i j => i ≤ j ∧ j < length
  | .last => 0 < length
  | .wildcard => True

/-- What a subscript does with its positions. -/
def take (mode : Mode) (elements : List Item) : Selector → Except EvalError Sequence
  | .index i => Item.element mode elements i
  | .range i j => Item.elementRange mode elements i j
  | .last => Item.lastElement mode elements
  | .wildcard => .ok elements

end Selector

theorem Subscript.choose_eq_take {scope : Scope} {subscript : Subscript} {selector : Selector}
    (h : subscript.ReadAs scope selector) (elements : List Item) :
    subscript.choose scope elements = selector.take scope.mode elements := by
  cases h with
  | @index position i hi =>
    show (position.eval scope >>= fun s => s.position scope.mode >>= Item.element scope.mode elements) = _
    rw [← bind_assoc, hi.position_eq]
    rfl
  | @range first final i j hi hj =>
    show (first.eval scope >>= fun s => s.position scope.mode >>= fun a =>
      final.eval scope >>= fun s => s.position scope.mode >>= Item.elementRange scope.mode elements a) = _
    rw [← bind_assoc, hi.position_eq]
    show (final.eval scope >>= fun s => s.position scope.mode >>=
      Item.elementRange scope.mode elements i) = _
    rw [← bind_assoc, hj.position_eq]
    rfl
  | last => rfl
  | wildcard => rfl

/-! ### Results that are known -/

/-- A result is known: it has these items where all is well, and otherwise it is a structural error. -/
structure Settles (well : Prop) (xs : Sequence) (r : Except EvalError Sequence) : Prop where
  ok : well → r = .ok xs
  error : ¬ well → ∃ e, r = .error e ∧ e.kind = .structural

namespace Settles

variable {well well' : Prop} {xs ys : Sequence} {r r' : Except EvalError Sequence}

theorem of_ok (h : well) (hr : r = .ok xs) : Settles well xs r where
  ok _ := hr
  error hnot := absurd h hnot

theorem congr (h : Settles well xs r) (hwell : well ↔ well') : Settles well' xs r where
  ok h' := h.ok (hwell.mpr h')
  error h' := h.error fun hw => h' (hwell.mp hw)

theorem error_iff (h : Settles well xs r) :
    (∃ e, r = .error e ∧ e.kind = .structural) ↔ ¬ well := by
  refine ⟨?_, h.error⟩
  rintro ⟨e, he, -⟩ hwell
  rw [h.ok hwell] at he
  cases he

/-- Two known results in turn: the first that is not well ends them. -/
theorem joined (h : Settles well xs r) (h' : Settles well' ys r') :
    Settles (well ∧ well') (xs ++ ys) (Sequence.joined r r') where
  ok hw := by
    rw [h.ok hw.1, h'.ok hw.2]
    rfl
  error hw := by
    by_cases hfirst : well
    · obtain ⟨e, he, hkind⟩ := h'.error fun hsecond => hw ⟨hfirst, hsecond⟩
      exact ⟨e, by rw [h.ok hfirst, he]; rfl, hkind⟩
    · obtain ⟨e, he, hkind⟩ := h.error hfirst
      exact ⟨e, by rw [he]; rfl, hkind⟩

end Settles

theorem Mode.eq_strict_of_ne_lax {mode : Mode} (h : mode ≠ .lax) : mode = .strict := by
  cases mode with
  | lax => exact absurd rfl h
  | strict => rfl

theorem Mode.orError_settles (mode : Mode) {e : EvalError} (he : e.kind = .structural) :
    Settles (mode = .lax) [] (mode.orError e) where
  ok h := by rw [h]; rfl
  error h := ⟨e, by rw [eq_strict_of_ne_lax h]; rfl, he⟩

/-- A known result for each item is a known result for a sequence of them. -/
theorem Sequence.collect_settles {well : Item → Prop} {items : Item → Sequence}
    {step : Item → Except EvalError Sequence} {s : Sequence}
    (h : ∀ x ∈ s, Settles (well x) (items x) (step x)) :
    Settles (∀ x ∈ s, well x) (s.flatMap items) (s.collect step) := by
  induction s with
  | nil => exact .of_ok (List.forall_mem_nil _) rfl
  | cons x s ih =>
    obtain ⟨hx, hs⟩ := List.forall_mem_cons.mp h
    rw [collect_cons_joined, List.flatMap_cons]
    exact (hx.joined (ih hs)).congr List.forall_mem_cons.symm

/-! ### One array -/

/-- Positions from one on, as long as there are elements. -/
theorem filterMap_range' (elements : List Item) (i count : Nat) :
    (List.range' i count).filterMap (elements[·]?) = (elements.drop i).take count := by
  induction count generalizing i with
  | zero => rfl
  | succ count ih =>
    rw [List.range'_succ, List.filterMap_cons, ih]
    by_cases hi : i < elements.length
    · rw [List.getElem?_eq_getElem hi, List.drop_eq_getElem_cons hi, List.take_succ_cons]
    · have hle := Nat.le_of_not_lt hi
      rw [List.getElem?_eq_none hle, List.drop_eq_nil_of_le hle,
        List.drop_eq_nil_of_le (Nat.le_succ_of_le hle), List.take_nil, List.take_nil]

namespace Selector

variable (elements : List Item)

theorem choose_range (i j : Nat) :
    (range i j).choose elements = (elements.take (j + 1)).drop i := by
  have hlength : (elements.drop i).length = elements.length - i := List.length_drop
  rw [choose, places, filterMap_range', List.drop_take, List.take_eq_take_iff, hlength]
  omega

theorem choose_wildcard : wildcard.choose elements = elements := by
  rw [choose, places, List.range_eq_range', filterMap_range', List.drop_zero, List.take_length]

/-- What one subscript takes from an array. -/
theorem take_settles (mode : Mode) (selector : Selector) :
    Settles (mode = .lax ∨ selector.InBounds elements.length) (selector.choose elements)
      (selector.take mode elements) := by
  cases selector with
  | index i =>
    by_cases hi : i < elements.length
    · refine .of_ok (Or.inr hi) ?_
      rw [take, Item.element, choose, places, if_pos hi, List.filterMap_cons,
        List.getElem?_eq_getElem hi]
      rfl
    · rw [take, Item.element, choose, places, if_neg hi, List.getElem?_eq_none (Nat.le_of_not_lt hi)]
      exact (mode.orError_settles rfl).congr (or_iff_left hi).symm
  | range i j =>
    rw [take, Item.elementRange, choose_range]
    refine ⟨fun hwell => if_neg ?_, fun hwell => ⟨_, if_pos ?_, rfl⟩⟩
    · rintro ⟨hstrict, hbounds⟩
      rcases hwell with hlax | ⟨hi, hj⟩
      · rw [hlax] at hstrict
        cases hstrict
      · omega
    · obtain ⟨hlax, hbounds⟩ := not_or.mp hwell
      refine ⟨Mode.eq_strict_of_ne_lax hlax, ?_⟩
      by_cases hij : i ≤ j
      · exact Or.inr (Nat.le_of_not_lt fun hj => hbounds ⟨hij, hj⟩)
      · exact Or.inl (Nat.lt_of_not_le hij)
  | last =>
    by_cases hnil : elements = []
    · rw [hnil]
      exact (mode.orError_settles rfl).congr (or_iff_left (Nat.lt_irrefl 0)).symm
    · have hpos : 0 < elements.length := List.length_pos_iff.mpr hnil
      refine .of_ok (Or.inr hpos) ?_
      rw [take, Item.lastElement, choose, places, if_neg (Nat.ne_of_gt hpos), List.filterMap_cons,
        ← List.getLast?_eq_getElem?, List.getLast?_eq_some_getLast hnil]
      rfl
  | wildcard =>
    rw [choose_wildcard]
    exact .of_ok (Or.inr trivial) rfl

end Selector

/-- What all subscripts take from an array. -/
theorem Subscript.chooseAll_settles {scope : Scope} (elements : List Item) {subscripts : List Subscript}
    {selectors : List Selector} (h : List.Forall₂ (Subscript.ReadAs scope) subscripts selectors) :
    Settles (∀ selector ∈ selectors, scope.mode = .lax ∨ selector.InBounds elements.length)
      (selectors.flatMap (·.choose elements)) (Subscript.chooseAll scope elements subscripts) := by
  induction h with
  | nil => exact .of_ok (List.forall_mem_nil _) (by rw [chooseAll]; rfl)
  | @cons subscript selector subscripts selectors hfirst _ ih =>
    have hselector := selector.take_settles elements scope.mode
    rw [← Subscript.choose_eq_take hfirst] at hselector
    rw [chooseAll, List.flatMap_cons]
    exact (hselector.joined ih).congr (by rw [List.forall_mem_cons])

/-! ### All items -/

/-- The items that selectors choose from each item, viewed as an array, in order. -/
def Sequence.selection (selectors : List Item → List Selector) (s : Sequence) : Sequence :=
  s.flatMap fun x => (selectors x.spread).flatMap (·.choose x.spread)

/-- Whether strict mode allows what selectors ask for in an item. -/
def Item.Allows (selectors : List Item → List Selector) (x : Item) : Prop :=
  x.isArray = true ∧ ∀ selector ∈ selectors x.spread, selector.InBounds x.spread.length

theorem Item.not_allows_iff {selectors : List Item → List Selector} {x : Item} :
    ¬ x.Allows selectors ↔ x.isArray = false ∨
      ∃ selector ∈ selectors x.spread, ¬ selector.InBounds x.spread.length := by
  simp only [Allows, not_and_or, not_forall, exists_prop, Bool.not_eq_true]

/-- An item is viewed as an array in lax mode, and in strict mode if it is one. -/
theorem Item.elements?_eq_some {mode : Mode} {x : Item} (h : mode = .lax ∨ x.isArray = true) :
    x.elements? mode = some x.spread := by
  cases x with
  | array elements => rfl
  | _ =>
    rcases h with rfl | h
    · rfl
    · cases h

theorem Item.elements?_eq_none {mode : Mode} {x : Item} (h : ¬ (mode = .lax ∨ x.isArray = true)) :
    x.elements? mode = none := by
  obtain ⟨hlax, hx⟩ := not_or.mp h
  rw [Mode.eq_strict_of_ne_lax hlax]
  cases x with
  | array elements => exact absurd rfl hx
  | _ => rfl

/-- The subscripts come to the selectors for each item that is viewed as an array. -/
def Sequence.Reads (scope : Scope) (subscripts : List Subscript)
    (selectors : List Item → List Selector) (s : Sequence) : Prop :=
  ∀ x ∈ s, ∀ elements, x.elements? scope.mode = some elements →
    List.Forall₂ (Subscript.ReadAs { scope with last := some (lastIndex elements) }) subscripts
      (selectors elements)

/-- What an array accessor takes from a sequence. -/
theorem Step.elements_settles {scope : Scope} {subscripts : List Subscript}
    {selectors : List Item → List Selector} {s : Sequence} (h : s.Reads scope subscripts selectors) :
    Settles (∀ x ∈ s, scope.mode = .lax ∨ x.Allows selectors) (s.selection selectors)
      ((Step.elements subscripts).apply scope s) := by
  refine Sequence.collect_settles fun x hx => ?_
  by_cases hview : scope.mode = .lax ∨ x.isArray = true
  · have helements := Item.elements?_eq_some hview
    rw [helements]
    refine (Subscript.chooseAll_settles x.spread (h x hx _ helements)).congr ⟨fun hall => ?_, ?_⟩
    · by_cases hlax : scope.mode = .lax
      · exact Or.inl hlax
      · exact Or.inr ⟨hview.resolve_left hlax, fun selector hmem => (hall selector hmem).resolve_left hlax⟩
    · rintro (hlax | ⟨-, hall⟩) selector hmem
      · exact Or.inl hlax
      · exact Or.inr (hall selector hmem)
  · rw [Item.elements?_eq_none hview]
    exact ⟨fun hwell => absurd (hwell.imp_right And.left) hview, fun _ => ⟨_, rfl, rfl⟩⟩

/-! ### Element by element -/

/-- A walk along the elements of a range by an index of 64 bits. It is under way, with what it has taken so
far, or at its end, or it is stuck for want of an element or of a following index. -/
inductive RangeWalk where
  | walking (index : Int64) (taken : List Item)
  | ended (taken : List Item)
  | noElement (index : Int64)
  | noFollowing (index : Int64)

namespace RangeWalk

/-- One turn. While the index is not beyond the final one, the element at the index, read without its sign,
is taken, and the index goes up by one. What has ended or is stuck stays so. -/
def next (elements : List Item) (final : Int64) : RangeWalk → RangeWalk
  | .walking index taken =>
      if index ≤ final then
        match elements[index.toUInt64.toNat]? with
        | none => .noElement index
        | some x =>
            match int64? (index.toInt + 1) with
            | none => .noFollowing index
            | some following => .walking following (taken ++ [x])
      else .ended taken
  | w => w

variable {elements : List Item} {final : Int64}

theorem next_of_lt {index : Int64} (h : final.toInt < index.toInt) (taken : List Item) :
    next elements final (.walking index taken) = .ended taken :=
  if_neg (by rw [Int64.le_iff_toInt_le]; omega)

/-- A turn inside the array takes an element and goes on to the following index. -/
theorem next_of_le (hlength : elements.length < 0x8000000000000000)
    (hfinal : final.toInt < elements.length) {index : Int64} (hindex : 0 ≤ index.toInt)
    (hle : index.toInt ≤ final.toInt) (taken : List Item) :
    ∃ x following, elements[index.toInt.toNat]? = some x ∧ following.toInt = index.toInt + 1 ∧
      next elements final (.walking index taken) = .walking following (taken ++ [x]) := by
  have hplace : index.toUInt64.toNat = index.toInt.toNat :=
    Int64.toNat_toUInt64_of_le (Int64.le_iff_toInt_le.mpr hindex)
  have hlt : index.toInt.toNat < elements.length := by omega
  have hfollowing : int64? (index.toInt + 1) = some (Int64.ofInt (index.toInt + 1)) :=
    if_pos (by omega)
  refine ⟨elements[index.toInt.toNat], _, List.getElem?_eq_getElem hlt, int64?_eq_some hfollowing, ?_⟩
  simp only [next, if_pos (Int64.le_iff_toInt_le.mpr hle), hplace, List.getElem?_eq_getElem hlt,
    hfollowing]

/-- The walk from an index on, when some number of elements is left up to the final index. -/
theorem iterate_next (hlength : elements.length < 0x8000000000000000)
    (hfinal : final.toInt < elements.length) (count : Nat) {index : Int64}
    (hindex : 0 ≤ index.toInt) (hcount : (final.toInt + 1 - index.toInt).toNat = count)
    (taken : List Item) :
    (next elements final)^[count + 1] (.walking index taken) =
      .ended (taken ++ (List.range' index.toInt.toNat count).filterMap (elements[·]?)) := by
  induction count generalizing index taken with
  | zero =>
    rw [List.range'_zero, List.filterMap_nil, List.append_nil]
    exact next_of_lt (by omega) taken
  | succ count ih =>
    obtain ⟨x, following, hx, hfollowing, hnext⟩ :=
      next_of_le hlength hfinal hindex (by omega) taken
    have hplace : following.toInt.toNat = index.toInt.toNat + 1 := by omega
    rw [Function.iterate_succ_apply, hnext, ih (by omega) (by omega), hplace, List.range'_succ,
      List.filterMap_cons, hx, List.append_assoc]
    rfl

/-- The index up to which a range goes in an array: the last one, where that is before the final one. -/
def bound (elements : List Item) (final : Int64) : Int64 :=
  if final ≤ lastIndex elements then final else lastIndex elements

theorem toInt_bound (hlength : elements.length < 0x8000000000000000) (final : Int64) :
    (bound elements final).toInt = min final.toInt (elements.length - 1) := by
  have hlast := toInt_lastIndex (Nat.le_of_lt hlength)
  unfold bound
  split
  · next h => rw [Int64.le_iff_toInt_le] at h; omega
  · next h => rw [Int64.le_iff_toInt_le] at h; omega

/-- **The walk ends.** From one position up to another, or up to the last index where that is before it, a
walk takes the elements of the range, whatever the positions are. It is stuck nowhere. -/
theorem exists_ended (hlength : elements.length < 0x8000000000000000) {first : Int64}
    (hfirst : 0 ≤ first.toInt) (hfinal : 0 ≤ final.toInt) :
    ∃ turns, (next elements (bound elements final))^[turns] (.walking first []) =
      .ended ((Selector.range first.toInt.toNat final.toInt.toNat).choose elements) := by
  have hbound := toInt_bound hlength final
  have hcount : ((bound elements final).toInt + 1 - first.toInt).toNat =
      min (final.toInt.toNat + 1) elements.length - first.toInt.toNat := by omega
  exact ⟨_, iterate_next hlength (by omega) _ hfirst hcount []⟩

end RangeWalk

/-! ### Array accessors -/

/-- **What an array accessor selects.** Where the expressions of all subscripts have natural numbers as
values, lax mode gives the elements at the positions of the subscripts that exist, item by item and subscript
by subscript. Strict mode gives the same if every item is an array and every subscript in bounds, and
otherwise fails with a structural error. No position lies outside its array, and a walk along a range of an
array in memory takes its elements and ends, from whatever position and to whatever position. -/
theorem Step.elements_select {scope : Scope} {subscripts : List Subscript}
    {selectors : List Item → List Selector} {s : Sequence} (h : s.Reads scope subscripts selectors) :
    let result := (Step.elements subscripts).apply scope s
    (scope.mode = .lax → result = .ok (s.selection selectors)) ∧
    (scope.mode = .strict →
      ((∀ x ∈ s, x.Allows selectors) → result = .ok (s.selection selectors)) ∧
      ((∃ e, result = .error e ∧ e.kind = .structural) ↔
        ∃ x ∈ s, x.isArray = false ∨
          ∃ selector ∈ selectors x.spread, ¬ selector.InBounds x.spread.length)) ∧
    (∀ (length : Nat) (selector : Selector), ∀ i ∈ selector.places length, i < length) ∧
    ∀ (elements : List Item) (first final : Int64), elements.length < 0x8000000000000000 →
      0 ≤ first.toInt → 0 ≤ final.toInt →
      ∃ turns, (RangeWalk.next elements (RangeWalk.bound elements final))^[turns] (.walking first []) =
        .ended ((Selector.range first.toInt.toNat final.toInt.toNat).choose elements) := by
  intro result
  have hsettles := Step.elements_settles h
  refine ⟨fun hlax => hsettles.ok fun _ _ => Or.inl hlax, fun hstrict => ?_,
    fun _ _ _ hi => Selector.lt_of_mem_places hi,
    fun _ _ _ hlength hfirst hfinal => RangeWalk.exists_ended hlength hfirst hfinal⟩
  -- No item is passed over in strict mode.
  have hnotlax : scope.mode ≠ .lax := by rw [hstrict]; decide
  have hallows := hsettles.congr (forall₂_congr fun _ _ => or_iff_right hnotlax)
  refine ⟨hallows.ok, hallows.error_iff.trans ?_⟩
  simp only [not_forall, exists_prop, Item.not_allows_iff]

/-- A float as an index, a range whose final expression is beyond every position, and the last element: of
an array and a number in lax mode, and of an array in strict mode, which the range fails. -/
theorem Step.elements_select_of_great_range :
    let one : Double := .finite false 0x10000000000000 (-52) (by decide)
    let great : Double := .finite false 0x10000000000000 11 (by decide)
    let subscripts : List Subscript := [.index (Node.literal (.float one)),
      .range (Node.literal (.int 1)) (Node.literal (.float great)), .last]
    let selectors := fun _ => [Selector.index 1, Selector.range 1 greatestPosition, Selector.last]
    let lax := Scope.initial .lax .null .empty
    let strict := Scope.initial .strict .null .empty
    let elements : List Item := [.int 10, .int 20, .int 30]
    let final : Int64 := 0x7fffffffffffffff
    Sequence.Reads lax subscripts selectors [.array elements, .int 7] ∧
      (Step.elements subscripts).apply lax [.array elements, .int 7] =
        .ok [.int 20, .int 20, .int 30, .int 30, .int 7] ∧
      Sequence.Reads strict subscripts selectors [.array elements] ∧
      (∃ e, (Step.elements subscripts).apply strict [.array elements] = .error e ∧
        e.kind = .structural) ∧
      elements.length < 0x8000000000000000 ∧ 0 ≤ (1 : Int64).toInt ∧ 0 ≤ final.toInt ∧
      ∃ turns, (RangeWalk.next elements (RangeWalk.bound elements final))^[turns] (.walking 1 []) =
        .ended [.int 20, .int 30] := by
  intro one great subscripts selectors lax strict elements final
  have hreads (scope : Scope) (s : Sequence) : s.Reads scope subscripts selectors := by
    intro x _ elements _
    have hone (scope : Scope) : (Node.literal (.float one)).Denotes scope 1 :=
      Node.denotes_of_eval (k := 1) rfl ⟨rfl, by decide +kernel⟩
    have hint (scope : Scope) : (Node.literal (.int 1)).Denotes scope 1 :=
      Node.denotes_of_eval (k := 1) rfl (rfl : (1 : Int64).toInt = 1)
    have hgreat (scope : Scope) : (Node.literal (.float great)).Denotes scope greatestPosition :=
      Node.denotes_of_eval (k := 0x8000000000000000) rfl ⟨rfl, by decide +kernel⟩
    exact .cons (.index (hone _)) (.cons (.range (hint _) (hgreat _)) (.cons .last .nil))
  obtain ⟨hlax, -, -, hwalk⟩ := Step.elements_select (hreads lax [.array elements, .int 7])
  obtain ⟨-, hstrict, -, -⟩ := Step.elements_select (hreads strict [.array elements])
  have hrange : ¬ (Selector.range 1 greatestPosition).InBounds elements.length := by
    rintro ⟨-, hfinal⟩
    exact absurd hfinal (by decide)
  refine ⟨hreads _ _, ?_, hreads _ _, ?_, by decide, by decide, by decide, ?_⟩
  · rw [hlax rfl]
    rfl
  · exact (hstrict rfl).2.mpr ⟨_, List.mem_singleton.mpr rfl,
      Or.inr ⟨_, List.mem_cons_of_mem _ List.mem_cons_self, hrange⟩⟩
  · obtain ⟨turns, hturns⟩ := hwalk elements 1 final (by decide) (by decide) (by decide)
    exact ⟨turns, hturns⟩

end PathQuery
