import PathQuery.Item.Basic
import PathQuery.Mode

/-!
# Sequences

Evaluation works on sequences: lists of items in which order counts and duplicates stay.

* `Sequence.unwrap` replaces arrays by their elements, one level deep, in lax mode.
* `Item.elements?` views an item as the elements of an array; in lax mode an item that is no array is
  its own only element.
* `Sequence.collect` applies a step to each item and joins the results in order; the first failure ends
  it. `Sequence.collect_append` says that it distributes over joining sequences.
-/

namespace PathQuery

abbrev Sequence := List Item

/-- The items that stand in for an item when arrays are unwrapped. -/
def Item.spread : Item → List Item
  | .array elements => elements
  | x => [x]

theorem Item.spread_of_not_isArray {x : Item} (h : x.isArray = false) : x.spread = [x] := by
  cases x with
  | array elements => exact absurd h (by simp [Item.isArray])
  | _ => rfl

/-- An item as the elements of an array. -/
def Item.elements? (mode : Mode) : Item → Option (List Item)
  | .array elements => some elements
  | x => match mode with
    | .lax => some [x]
    | .strict => none

namespace Sequence

/-- The sequence with its arrays unwrapped as the mode asks. -/
def unwrap (mode : Mode) (s : Sequence) : Sequence :=
  match mode.unwrapping with
  | .never => s
  | .oneLevelEachStep => s.flatMap Item.spread

/-- The only item of a sequence. -/
def single? : Sequence → Option Item
  | [x] => some x
  | _ => none

/-- Apply a step to each item in order and join the results. -/
def collect {ε : Type} (step : Item → Except ε Sequence) : Sequence → Except ε Sequence
  | [] => .ok []
  | x :: xs =>
      match step x with
      | .error e => .error e
      | .ok ys => (collect step xs).map (ys ++ ·)

@[simp] theorem unwrap_strict (s : Sequence) : unwrap .strict s = s := rfl

theorem unwrap_lax (s : Sequence) : unwrap .lax s = s.flatMap Item.spread := rfl

@[simp] theorem unwrap_nil (mode : Mode) : unwrap mode [] = [] := by
  cases mode <;> rfl

theorem unwrap_append (mode : Mode) (s t : Sequence) :
    unwrap mode (s ++ t) = unwrap mode s ++ unwrap mode t := by
  cases mode <;> simp [unwrap, Mode.unwrapping]

/-- Without arrays there is nothing to unwrap. -/
theorem unwrap_eq_self {mode : Mode} {s : Sequence} (h : ∀ x ∈ s, x.isArray = false) :
    unwrap mode s = s := by
  cases mode with
  | strict => rfl
  | lax =>
    induction s with
    | nil => rfl
    | cons x s ih =>
      obtain ⟨hx, hs⟩ := List.forall_mem_cons.mp h
      rw [unwrap_lax, List.flatMap_cons, ← unwrap_lax, ih hs, Item.spread_of_not_isArray hx]
      rfl

theorem collect_append {ε : Type} (step : Item → Except ε Sequence) (s t : Sequence) :
    collect step (s ++ t) =
      match collect step s with
      | .error e => .error e
      | .ok xs => (collect step t).map (xs ++ ·) := by
  induction s with
  | nil => simp only [List.nil_append, collect]; cases collect step t <;> rfl
  | cons x s ih =>
    simp only [List.cons_append, collect, ih]
    cases step x with
    | error e => rfl
    | ok ys =>
      cases collect step s with
      | error e => rfl
      | ok zs =>
        cases collect step t with
        | error e => rfl
        | ok ws => simp [Except.map, List.append_assoc]

end Sequence

end PathQuery
