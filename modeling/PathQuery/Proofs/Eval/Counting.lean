import PathQuery.Proofs.Eval.Subscripts

/-!
# Sizes and elements

`size` says of an item how many elements the wildcard subscript takes from it. Both view an item that is no
array as an array of its own in lax mode, and refuse it in strict mode.

* `Item.viewed_settles` — a step that only looks at the elements that an item is viewed as.
* `Sequence.size_settles` and `Sequence.allElements_settles` — `size` and the wildcard subscript are such
  steps, so that they fail for the same sequences.
* `Sequence.sum_sizes` — the sizes add up to the number of all elements.
* `Node.size_counts_elements` — what follows for the two nodes over one target.
-/

namespace PathQuery

namespace Settles

variable {well : Prop} {xs : Sequence} {r : Except EvalError Sequence}

theorem fails_iff (h : Settles well xs r) : (∃ e, r = .error e) ↔ ¬ well := by
  constructor
  · rintro ⟨e, he⟩ hwell
    rw [h.ok hwell] at he
    cases he
  · intro hwell
    obtain ⟨e, he, -⟩ := h.error hwell
    exact ⟨e, he⟩

theorem kind_of_error (h : Settles well xs r) {e : EvalError} (he : r = .error e) :
    e.kind = .structural := by
  obtain ⟨e', he', hkind⟩ := h.error (h.fails_iff.mp ⟨e, he⟩)
  rw [he] at he'
  cases he'
  exact hkind

end Settles

/-! ### Steps on viewed items -/

/-- Every item has elements as the mode views it. -/
def Sequence.AllViewed (mode : Mode) (s : Sequence) : Prop :=
  ∀ x ∈ s, mode = .lax ∨ x.isArray = true

theorem Sequence.not_allViewed_iff {mode : Mode} {s : Sequence} :
    ¬ s.AllViewed mode ↔ mode = .strict ∧ ∃ x ∈ s, x.isArray = false := by
  simp only [AllViewed, not_forall, not_or, exists_prop, Bool.not_eq_true]
  constructor
  · rintro ⟨x, hx, hlax, harray⟩
    exact ⟨Mode.eq_strict_of_ne_lax hlax, x, hx, harray⟩
  · rintro ⟨rfl, x, hx, harray⟩
    exact ⟨x, hx, by decide, harray⟩

/-- A step that looks at the elements that an item is viewed as, and fails where it is viewed as none. -/
theorem Item.viewed_settles {mode : Mode} {x : Item} {step : Except EvalError Sequence}
    {f : List Item → Sequence} (hsome : ∀ elements, x.elements? mode = some elements →
      step = .ok (f elements))
    (hnone : x.elements? mode = none → ∃ e, step = .error e ∧ e.kind = .structural) :
    Settles (mode = .lax ∨ x.isArray = true) (f x.spread) step where
  ok hview := hsome _ (Item.elements?_eq_some hview)
  error hview := hnone (Item.elements?_eq_none hview)

theorem Item.size_settles (mode : Mode) (x : Item) :
    Settles (mode = .lax ∨ x.isArray = true) [.int (.ofNat x.spread.length)] (x.size mode) := by
  refine Item.viewed_settles (f := fun elements => [.int (.ofNat elements.length)]) ?_ ?_
  · intro elements helements
    cases x with
    | array inner =>
      cases helements
      rfl
    | _ =>
      cases mode with
      | lax =>
        cases helements
        rfl
      | strict => cases helements
  · intro hnone
    cases x with
    | array inner => cases hnone
    | _ =>
      cases mode with
      | lax => cases hnone
      | strict => exact ⟨_, rfl, rfl⟩

/-- `size` gives one number for each item. -/
theorem Sequence.size_settles (mode : Mode) (s : Sequence) :
    Settles (s.AllViewed mode) (s.map fun x => .int (.ofNat x.spread.length)) (s.method mode .size) := by
  rw [List.map_eq_flatMap]
  exact Sequence.collect_settles fun x _ => x.size_settles mode

/-- The wildcard subscript gives all elements of each item. -/
theorem Sequence.allElements_settles (scope : Scope) (s : Sequence) :
    Settles (s.AllViewed scope.mode) (s.flatMap Item.spread)
      ((Step.elements [.wildcard]).apply scope s) := by
  rw [Step.apply_elements_singleton]
  refine Sequence.collect_settles fun x _ => Item.viewed_settles (f := id) ?_ ?_
  · intro elements helements
    rw [helements]
    rfl
  · intro hnone
    rw [hnone]
    exact ⟨_, rfl, rfl⟩

/-! ### Sums -/

/-- Arrays whose number of elements is an integer of 64 bits, as that of every array in memory is. -/
def Sequence.Countable (s : Sequence) : Prop :=
  ∀ elements, Item.array elements ∈ s → elements.length < 0x8000000000000000

theorem Sequence.Countable.toInt_size {s : Sequence} (hs : s.Countable) {x : Item} (hx : x ∈ s) :
    (Int64.ofNat x.spread.length).toInt = x.spread.length := by
  cases x with
  | array elements => exact Int64.toInt_ofNat_of_lt (hs elements hx)
  | _ => rfl

/-- The sizes of all items add up to the number of all their elements. -/
theorem Sequence.sum_sizes {s : Sequence} (hs : s.Countable) :
    (s.map fun x => (Int64.ofNat x.spread.length).toInt).sum = (s.flatMap Item.spread).length := by
  induction s with
  | nil => rfl
  | cons x s ih =>
    have hrest : Countable s := fun elements hmem => hs elements (List.mem_cons_of_mem x hmem)
    rw [List.map_cons, List.sum_cons, ih hrest, hs.toInt_size List.mem_cons_self, List.flatMap_cons,
      List.length_append, Int.natCast_add]

/-! ### Nodes -/

/-- **`size` counts what the wildcard subscript yields.** Over a target that has a sequence, both fail if one
of them does, which is in strict mode and for an item that is no array, and then with structural errors.
Otherwise `size` has one integer for each item of the target, and these add up to the number of items that
the wildcard subscript has. -/
theorem Node.size_counts_elements {target : Node} {scope : Scope} {s : Sequence}
    (htarget : target.eval scope = .ok s) (hs : s.Countable) :
    let sizes := (method .size target).eval scope
    let elements := (allElements target).eval scope
    ((∃ e, sizes = .error e) ↔ ∃ e, elements = .error e) ∧
    ((∃ e, elements = .error e) ↔ scope.mode = .strict ∧ ∃ x ∈ s, x.isArray = false) ∧
    (∀ e, sizes = .error e ∨ elements = .error e → e.kind = .structural) ∧
    ∀ xs, sizes = .ok xs → ∃ (counts : List Int64) (ys : Sequence), xs = counts.map Item.int ∧
      counts.length = s.length ∧ elements = .ok ys ∧ (counts.map Int64.toInt).sum = ys.length := by
  intro sizes elements
  have hsizes : Settles (s.AllViewed scope.mode)
      (s.map fun x => Item.int (.ofNat x.spread.length)) sizes := by
    have hnode : sizes = (Step.method .size).apply scope s :=
      (Step.method .size).eval_form_of_ok htarget none
    rw [hnode]
    exact s.size_settles scope.mode
  have helements : Settles (s.AllViewed scope.mode) (s.flatMap Item.spread) elements := by
    have hnode : elements = (Step.elements [.wildcard]).apply scope s :=
      (Step.elements [.wildcard]).eval_form_of_ok htarget none
    rw [hnode]
    exact s.allElements_settles scope
  refine ⟨hsizes.fails_iff.trans helements.fails_iff.symm,
    helements.fails_iff.trans Sequence.not_allViewed_iff, ?_, fun xs hxs => ?_⟩
  · rintro e (he | he)
    · exact hsizes.kind_of_error he
    · exact helements.kind_of_error he
  · have hviewed : s.AllViewed scope.mode := by
      by_contra hnot
      obtain ⟨e, he⟩ := hsizes.fails_iff.mpr hnot
      rw [hxs] at he
      cases he
    have hsum := Sequence.sum_sizes hs
    rw [hsizes.ok hviewed] at hxs
    cases hxs
    refine ⟨s.map fun x => .ofNat x.spread.length, _, ?_, List.length_map _, helements.ok hviewed, ?_⟩
    · rw [List.map_map]
      rfl
    · rw [← hsum, List.map_map]
      rfl

/-- An empty array, a number and an array with an array in it, in both modes. -/
theorem Node.size_counts_elements_of_nested_arrays :
    let xs := [Item.array [], .int 7, .array [.array [.null, .null], .int 2]]
    let items := allElements (named "x")
    let scope := fun mode => Scope.initial mode .null (Bindings.empty.insert "x" (.array xs))
    Sequence.Countable xs ∧
      (∃ (counts : List Int64) (ys : Sequence),
        (method .size items).eval (scope .lax) = .ok (counts.map Item.int) ∧
        (allElements items).eval (scope .lax) = .ok ys ∧
        counts.length = 3 ∧ (counts.map Int64.toInt).sum = ys.length) ∧
      ∃ e, (allElements items).eval (scope .strict) = .error e ∧ e.kind = .structural := by
  intro xs items scope
  have hxs : Sequence.Countable xs := by
    intro elements hmem
    have helements : elements = [] ∨ elements = [.array [.null, .null], .int 2] := by
      simpa [xs, Item.int] using hmem
    rcases helements with rfl | rfl <;> decide
  have hitems : items.eval (scope .lax) = .ok xs := rfl
  have hitems' : items.eval (scope .strict) = .ok xs := rfl
  have hlax := Node.size_counts_elements hitems hxs
  have hstrict := Node.size_counts_elements hitems' hxs
  refine ⟨hxs, ?_, ?_⟩
  · obtain ⟨counts, ys, hcounts, hlength, hys, hsum⟩ := hlax.2.2.2 _ rfl
    exact ⟨counts, ys, congrArg Except.ok hcounts, hys, hlength, hsum⟩
  · obtain ⟨e, he⟩ := hstrict.2.1.mpr ⟨rfl, .int 7, by simp [xs], rfl⟩
    exact ⟨e, he, hstrict.2.2.1 e (Or.inr he)⟩

end PathQuery
