import PathQuery.Proofs.Eval.Distribution
import PathQuery.Proofs.Eval.Navigation

/-!
# Two spellings of the last element

The last element of an array is chosen by a subscript of its own, or by an index that asks for the last
index; and all elements by a wildcard, or by the range up to the last index. Where there is an element the
spellings agree. An empty array has the last index -1, which no subscript may denote: there an index and a
range fail with a type error in both modes, while the last element is only out of bounds.

* `Subscript.choose_atLastIndex` and `Subscript.choose_toLastIndex` — the spellings agree on an array that
  has elements.
* `Subscript.choose_atLastIndex_nil` and `Subscript.choose_toLastIndex_nil` — they fail on an empty array.
* `Step.spellings_of_last` — what follows for sequences of items.
* `Step.spellings_of_last_differ` — the spellings do not agree on every array.
-/

namespace PathQuery

/-! ### Steps item by item -/

section Collect

variable {ε : Type} {step step' : Item → Except ε Sequence} {s : Sequence}

theorem Sequence.collect_congr (h : ∀ x ∈ s, step x = step' x) : s.collect step = s.collect step' := by
  induction s with
  | nil => rfl
  | cons x s ih =>
    obtain ⟨hx, hs⟩ := List.forall_mem_cons.mp h
    simp only [Sequence.collect, hx, ih hs]

/-- A step whose errors are those of another, renamed. -/
theorem Sequence.collect_mapError {rename : ε → ε} (h : ∀ x ∈ s, step x = (step' x).mapError rename) :
    s.collect step = (s.collect step').mapError rename := by
  induction s with
  | nil => rfl
  | cons x s ih =>
    obtain ⟨hx, hs⟩ := List.forall_mem_cons.mp h
    simp only [Sequence.collect, hx, ih hs]
    cases step' x with
    | error e => rfl
    | ok ys => cases Sequence.collect step' s <;> rfl

/-- A step that fails in one way only, and does so for some item. -/
theorem Sequence.collect_eq_error {e : ε} (h : ∀ x ∈ s, FailsOnly (· = e) (step x)) {x : Item}
    (hx : x ∈ s) (herror : step x = .error e) : s.collect step = .error e := by
  induction s with
  | nil => cases hx
  | cons y s ih =>
    obtain ⟨hy, hs⟩ := List.forall_mem_cons.mp h
    simp only [Sequence.collect]
    cases hstep : step y with
    | error e' => rw [hy e' hstep]
    | ok ys =>
      have hrest : x ∈ s := by
        rcases List.mem_cons.mp hx with rfl | hmem
        · rw [herror] at hstep
          cases hstep
        · exact hmem
      rw [ih hs hrest]
      rfl

end Collect

/-! ### One array -/

/-- Arrays whose last index is an integer of 64 bits, as that of every array in memory is. -/
def Sequence.Indexable (s : Sequence) : Prop :=
  ∀ elements, Item.array elements ∈ s → elements.length ≤ 0x8000000000000000

theorem toInt_lastIndex {elements : List Item} (h : elements.length ≤ 0x8000000000000000) :
    (lastIndex elements).toInt = elements.length - 1 :=
  Int64.toInt_ofInt_of_le (by omega) (by omega)

/-- The position that the last index denotes. -/
theorem Sequence.position_lastIndex {elements : List Item} (h : elements ≠ [])
    (hlength : elements.length ≤ 0x8000000000000000) (mode : Mode) :
    Sequence.position mode [.int (lastIndex elements)] = .ok (elements.length - 1) := by
  have hpos : 0 < elements.length := List.length_pos_iff.mpr h
  have hvalue := toInt_lastIndex hlength
  have hnonneg : 0 ≤ lastIndex elements := by
    rw [Int64.le_iff_toInt_le, hvalue]
    show (0 : Int) ≤ _
    omega
  have hnat : ((elements.length : Int) - 1).toNat = elements.length - 1 := by omega
  rw [Sequence.position_of_nonneg hnonneg, hvalue, hnat]

theorem Sequence.position_lastIndex_nil (mode : Mode) :
    Sequence.position mode [.int (lastIndex [])] = .error (.badSubscript (.int (-1))) := by
  cases mode <;> rfl

namespace Subscript

/-- The index that asks for the last index. -/
def atLastIndex (declared : Option SqlType) : Subscript :=
  .index (.mk .last declared)

/-- The range from zero to the last index. -/
def toLastIndex (declared declared' : Option SqlType) : Subscript :=
  .range (.mk (.literal (.int 0)) declared) (.mk .last declared')

section Choose

variable {scope : Scope} {elements : List Item} (declared declared' : Option SqlType)

theorem chooseAll_singleton (s : Subscript) :
    chooseAll scope elements [s] = s.choose scope elements := by
  simp only [chooseAll]
  cases s.choose scope elements with
  | error e => rfl
  | ok xs => exact congrArg Except.ok (List.append_nil xs)

variable (hlast : scope.last = some (lastIndex elements))

include hlast

theorem choose_atLastIndex_eq :
    (atLastIndex declared).choose scope elements =
      Sequence.position scope.mode [.int (lastIndex elements)] >>=
        Item.element scope.mode elements := by
  simp only [atLastIndex, choose, Node.eval, Form.eval, hlast]
  rfl

theorem choose_toLastIndex_eq :
    (toLastIndex declared declared').choose scope elements =
      Sequence.position scope.mode [.int (lastIndex elements)] >>=
        Item.elementRange scope.mode elements 0 := by
  have hzero : Sequence.position scope.mode [.int 0] = .ok 0 := Sequence.position_of_nonneg (by decide) _
  simp only [toLastIndex, choose, Node.eval, Form.eval, Literal.item, hlast]
  show (Sequence.position scope.mode [.int 0] >>= fun a => _) = _
  rw [hzero]
  rfl

/-- The last index chooses the last element. -/
theorem choose_atLastIndex (h : elements ≠ []) (hlength : elements.length ≤ 0x8000000000000000) :
    (atLastIndex declared).choose scope elements = last.choose scope elements := by
  rw [choose_atLastIndex_eq declared hlast, Sequence.position_lastIndex h hlength]
  show Item.element scope.mode elements (elements.length - 1) = Item.lastElement scope.mode elements
  rw [Item.element, Item.lastElement, ← List.getLast?_eq_getElem?, List.getLast?_eq_some_getLast h]

theorem choose_atLastIndex_nil (h : elements = []) :
    (atLastIndex declared).choose scope elements = .error (.badSubscript (.int (-1))) := by
  subst h
  rw [choose_atLastIndex_eq declared hlast, Sequence.position_lastIndex_nil]
  rfl

/-- In lax mode the range up to the last index chooses all elements. -/
theorem choose_toLastIndex (hlax : scope.mode = .lax) (h : elements ≠ [])
    (hlength : elements.length ≤ 0x8000000000000000) :
    (toLastIndex declared declared').choose scope elements = wildcard.choose scope elements := by
  have hpos : 0 < elements.length := List.length_pos_iff.mpr h
  have hall : elements.length - 1 + 1 = elements.length := by omega
  rw [choose_toLastIndex_eq declared declared' hlast, Sequence.position_lastIndex h hlength, hlax]
  show Item.elementRange .lax elements 0 (elements.length - 1) = .ok elements
  rw [Item.elementRange, if_neg (by simp), hall, List.take_length, List.drop_zero]

theorem choose_toLastIndex_nil (h : elements = []) :
    (toLastIndex declared declared').choose scope elements = .error (.badSubscript (.int (-1))) := by
  subst h
  rw [choose_toLastIndex_eq declared declared' hlast, Sequence.position_lastIndex_nil]
  rfl

/-- In lax mode the last index fails on the empty array only. -/
theorem choose_atLastIndex_lax (hlax : scope.mode = .lax)
    (hlength : elements.length ≤ 0x8000000000000000) :
    FailsOnly (· = .badSubscript (.int (-1))) ((atLastIndex declared).choose scope elements) := by
  by_cases h : elements = []
  · rw [choose_atLastIndex_nil declared hlast h]
    exact FailsOnly.error rfl
  · rw [choose_atLastIndex declared hlast h hlength]
    exact (choose_lax hlax elements (List.forall_mem_nil _)).mono fun _ h => h.elim

theorem choose_toLastIndex_lax (hlax : scope.mode = .lax)
    (hlength : elements.length ≤ 0x8000000000000000) :
    FailsOnly (· = .badSubscript (.int (-1)))
      ((toLastIndex declared declared').choose scope elements) := by
  by_cases h : elements = []
  · rw [choose_toLastIndex_nil declared declared' hlast h]
    exact FailsOnly.error rfl
  · rw [choose_toLastIndex declared declared' hlast hlax h hlength]
    exact FailsOnly.ok _

end Choose

end Subscript

/-! ### Sequences of arrays -/

theorem Item.ne_nil_of_elements? {mode : Mode} {x : Item} {elements : List Item}
    (h : x.elements? mode = some elements) (hx : x ≠ .array []) : elements ≠ [] := by
  rintro rfl
  cases x with
  | array elements =>
    cases h
    exact hx rfl
  | _ => cases mode <;> cases h

theorem Sequence.Indexable.length_le {s : Sequence} (hs : s.Indexable) {x : Item} (hx : x ∈ s)
    {mode : Mode} {elements : List Item} (h : x.elements? mode = some elements) :
    elements.length ≤ 0x8000000000000000 := by
  cases x with
  | array elements =>
    cases h
    exact hs _ hx
  | _ =>
    cases mode with
    | lax =>
      cases h
      exact (by decide : 1 ≤ 0x8000000000000000)
    | strict => cases h

/-- The error of a subscript that denotes -1, in the place of that of a last element which is not there. -/
def EvalError.ofNegative : EvalError → EvalError
  | .lastOutOfBounds 0 => .badSubscript (.int (-1))
  | e => e

namespace Step

variable {scope : Scope} {s : Sequence} (declared declared' : Option SqlType)

/-- What one subscript chooses from the items of a sequence. -/
theorem apply_elements_singleton (subscript : Subscript) :
    (Step.elements [subscript]).apply scope s = s.elements scope.mode fun elements =>
      subscript.choose { scope with last := some (lastIndex elements) } elements := by
  simp only [apply, Subscript.chooseAll_singleton]

/-- Where every array has elements, the last index chooses the last elements. -/
theorem apply_atLastIndex (hs : s.Indexable) (hempty : Item.array [] ∉ s) :
    (Step.elements [.atLastIndex declared]).apply scope s = (Step.elements [.last]).apply scope s := by
  rw [apply_elements_singleton, apply_elements_singleton]
  refine Sequence.collect_congr fun x hx => ?_
  have hne : x ≠ .array [] := fun h => hempty (h ▸ hx)
  cases helements : x.elements? scope.mode with
  | none => rfl
  | some elements =>
    exact Subscript.choose_atLastIndex declared rfl (Item.ne_nil_of_elements? helements hne)
      (hs.length_le hx helements)

theorem apply_toLastIndex (hlax : scope.mode = .lax) (hs : s.Indexable) (hempty : Item.array [] ∉ s) :
    (Step.elements [.toLastIndex declared declared']).apply scope s =
      (Step.elements [.wildcard]).apply scope s := by
  rw [apply_elements_singleton, apply_elements_singleton]
  refine Sequence.collect_congr fun x hx => ?_
  have hne : x ≠ .array [] := fun h => hempty (h ▸ hx)
  cases helements : x.elements? scope.mode with
  | none => rfl
  | some elements =>
    exact Subscript.choose_toLastIndex declared declared' rfl hlax
      (Item.ne_nil_of_elements? helements hne) (hs.length_le hx helements)

/-- In lax mode a subscript that fails on the empty array only, fails wherever there is one. -/
theorem apply_of_empty {subscript : Subscript} {e : EvalError} (hlax : scope.mode = .lax)
    (hs : s.Indexable)
    (hfails : ∀ elements, elements.length ≤ 0x8000000000000000 → FailsOnly (· = e)
      (subscript.choose { scope with last := some (lastIndex elements) } elements))
    (hnil : subscript.choose { scope with last := some (lastIndex []) } [] = .error e)
    (hempty : Item.array [] ∈ s) : (Step.elements [subscript]).apply scope s = .error e := by
  rw [apply_elements_singleton]
  refine Sequence.collect_eq_error (fun x hx => ?_) hempty hnil
  cases helements : x.elements? scope.mode with
  | none => cases x <;> rw [hlax] at helements <;> cases helements
  | some elements => exact hfails elements (hs.length_le hx helements)

theorem apply_lax_neverFails {subscript : Subscript} (hlax : scope.mode = .lax)
    (h : subscript.positions = []) : NeverFails ((Step.elements [subscript]).apply scope s) := by
  rw [apply_elements_singleton, hlax]
  refine s.elements_lax fun elements => Subscript.choose_lax rfl elements ?_
  rw [h]
  exact List.forall_mem_nil _

/-- In strict mode the last index fails where the last element does, and otherwise chooses it. -/
theorem apply_atLastIndex_strict (hstrict : scope.mode = .strict) (hs : s.Indexable) :
    (Step.elements [.atLastIndex declared]).apply scope s =
      ((Step.elements [.last]).apply scope s).mapError EvalError.ofNegative := by
  rw [apply_elements_singleton, apply_elements_singleton]
  refine Sequence.collect_mapError fun x hx => ?_
  cases helements : x.elements? scope.mode with
  | none => rfl
  | some elements =>
    show Subscript.choose _ _ _ = (Subscript.choose _ _ _).mapError _
    by_cases hne : elements = []
    · rw [Subscript.choose_atLastIndex_nil declared rfl hne, hne]
      simp only [Subscript.choose, hstrict]
      rfl
    · rw [Subscript.choose_atLastIndex declared rfl hne (hs.length_le hx helements)]
      simp only [Subscript.choose, Item.lastElement, List.getLast?_eq_some_getLast hne]
      rfl

/-- In strict mode the last element fails with a structural error, and does so at an empty array. -/
theorem apply_last_strict (hstrict : scope.mode = .strict) :
    FailsOnly (fun e => e.kind = .structural) ((Step.elements [.last]).apply scope s) := by
  rw [apply_elements_singleton]
  refine FailsOnly.collect (fun x => ?_) s
  cases helements : x.elements? scope.mode with
  | none => exact FailsOnly.error rfl
  | some elements =>
    show FailsOnly _ (Subscript.choose _ _ _)
    simp only [Subscript.choose, Item.lastElement, hstrict]
    cases elements.getLast? with
    | some x => exact FailsOnly.ok _
    | none => exact FailsOnly.error rfl

/-- **The spellings of the last element.** Where no array of a sequence is empty, the last index chooses the
last elements, with the same error if there is one, and in lax mode the range from zero to the last index
chooses all elements. An empty array makes both fail with a type error in lax mode, which takes nothing from
it otherwise. In strict mode the last index succeeds where the last element does and with the same items, and
fails where it fails; that error is structural, and for the last index it is a type error where the array
is empty. -/
theorem spellings_of_last (scope : Scope) {s : Sequence} (hs : s.Indexable)
    (declared declared' : Option SqlType) :
    let choice := fun subscript => (Step.elements [subscript]).apply scope s
    (Item.array [] ∉ s → choice (.atLastIndex declared) = choice .last ∧
      (scope.mode = .lax → choice (.toLastIndex declared declared') = choice .wildcard)) ∧
    (scope.mode = .lax → (∃ xs, choice .last = .ok xs) ∧ (∃ xs, choice .wildcard = .ok xs) ∧
      (Item.array [] ∈ s → choice (.atLastIndex declared) = .error (.badSubscript (.int (-1))) ∧
        choice (.toLastIndex declared declared') = .error (.badSubscript (.int (-1))))) ∧
    (scope.mode = .strict →
      choice (.atLastIndex declared) = (choice .last).mapError EvalError.ofNegative ∧
      ∀ e, choice .last = .error e → e.kind = .structural) := by
  refine ⟨fun hempty => ?_, fun hlax => ⟨?_, ?_, fun hempty => ?_⟩, fun hstrict => ?_⟩
  · exact ⟨apply_atLastIndex declared hs hempty,
      fun hlax => apply_toLastIndex declared declared' hlax hs hempty⟩
  · exact (apply_lax_neverFails hlax rfl).exists_ok
  · exact (apply_lax_neverFails hlax rfl).exists_ok
  · exact ⟨apply_of_empty hlax hs
        (fun _ => Subscript.choose_atLastIndex_lax declared rfl hlax)
        (Subscript.choose_atLastIndex_nil declared rfl rfl) hempty,
      apply_of_empty hlax hs
        (fun _ => Subscript.choose_toLastIndex_lax declared declared' rfl hlax)
        (Subscript.choose_toLastIndex_nil declared declared' rfl rfl) hempty⟩
  · exact ⟨apply_atLastIndex_strict declared hstrict hs, apply_last_strict hstrict⟩

/-- An array of two elements and an item that lax mode views as an array. -/
theorem spellings_of_last_of_array_and_number :
    let scope : Scope := .initial .lax .null .empty
    let s : Sequence := [.array [.null, .int 7], .int 8]
    s.Indexable ∧ Item.array [] ∉ s ∧
      (Step.elements [.atLastIndex none]).apply scope s = .ok [.int 7, .int 8] ∧
      (Step.elements [.toLastIndex none none]).apply scope s = .ok [.null, .int 7, .int 8] := by
  intro scope s
  have hs : s.Indexable := by
    intro elements hmem
    have helements : elements = [.null, .int 7] := by simpa [s, Item.int] using hmem
    rw [helements]
    decide
  have hempty : Item.array [] ∉ s := by simp [s, Item.int]
  obtain ⟨hindex, hrange⟩ := (spellings_of_last scope hs none none).1 hempty
  exact ⟨hs, hempty, hindex, hrange rfl⟩

/-- The empty array has no last element, and lax mode takes none of it, but the last index of the empty
array fails, with an error that is not structural in strict mode either. -/
theorem spellings_of_last_differ :
    (Node.subscripted [.last] .context).evaluate .lax (.array []) .empty = .ok [] ∧
      (Node.subscripted [.atLastIndex none] .context).evaluate .lax (.array []) .empty =
        .error (.badSubscript (.int (-1))) ∧
      ¬ ∀ (scope : Scope) (s : Sequence), s.Indexable →
        let choice := fun subscript => (Step.elements [subscript]).apply scope s
        (scope.mode = .lax → choice .last = choice (.atLastIndex none) ∧
          choice .wildcard = choice (.toLastIndex none none)) ∧
        (scope.mode = .strict → choice .last = choice (.atLastIndex none) ∨
          ∃ e e', choice .last = .error e ∧ choice (.atLastIndex none) = .error e' ∧
            e.kind = .structural ∧ e'.kind = .structural) := by
  refine ⟨rfl, rfl, fun hall => ?_⟩
  have hs : Sequence.Indexable [.array []] := by
    intro elements hmem
    have helements : elements = [] := by simpa using hmem
    rw [helements]
    decide
  have hsame := ((hall (.initial .lax .null .empty) [.array []] hs).1 rfl).1
  cases hsame

end Step

end PathQuery
