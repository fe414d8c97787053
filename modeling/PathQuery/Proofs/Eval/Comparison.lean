import PathQuery.Proofs.Eval.Connectives
import PathQuery.Proofs.Eval.Propagation

/-!
# Comparisons turned around

A comparison has two other forms: with its operands exchanged and the operator mirrored, and with the
operator that asks for the opposite. The first has the same result where both operands can only fail for
the data, since then it does not matter which operand is evaluated first. The second is the negation, but
for an empty operand, which makes every comparison false.

* `ComparisonOp.mirrored` and `ComparisonOp.complement` — the other operators.
* `Item.compareBy_mirrored` and `Item.compareBy_complement` — two items, of whatever types.
* `Truth.compare_mirrored` and `Truth.compare_complement` — two results, failures included.
* `Node.comparisons_mirror_and_complement` — the comparisons of a path.
-/

namespace PathQuery

/-! ### Operators -/

namespace ComparisonOp

/-- The operator for exchanged operands. -/
def mirrored : ComparisonOp → ComparisonOp
  | .equal => .equal
  | .notEqual => .notEqual
  | .less => .greater
  | .lessOrEqual => .greaterOrEqual
  | .greater => .less
  | .greaterOrEqual => .lessOrEqual

/-- The operator that is satisfied where another one is not. -/
def complement : ComparisonOp → ComparisonOp
  | .equal => .notEqual
  | .notEqual => .equal
  | .less => .greaterOrEqual
  | .lessOrEqual => .greater
  | .greater => .lessOrEqual
  | .greaterOrEqual => .less

variable (op : ComparisonOp)

theorem admits_mirrored (o : Ordering) : op.mirrored.admits o = op.admits o.swap := by
  cases op <;> cases o <;> rfl

theorem admits_complement (o : Ordering) : op.complement.admits o = !op.admits o := by
  cases op <;> cases o <;> rfl

theorem isEquality_mirrored : op.mirrored.isEquality = op.isEquality := by
  cases op <;> rfl

theorem isEquality_complement : op.complement.isEquality = op.isEquality := by
  cases op <;> rfl

end ComparisonOp

/-! ### Orders -/

theorem Double.compare?_swap (x y : Double) : x.compare? y = (y.compare? x).map Ordering.swap := by
  unfold Double.compare?
  cases x.rank with
  | none => cases y.rank <;> rfl
  | some a =>
    cases y.rank with
    | none => rfl
    | some b => exact congrArg some Std.OrientedCmp.eq_swap

theorem Number.compare?_swap (a b : Number) : a.compare? b = (b.compare? a).map Ordering.swap := by
  cases a with
  | int m =>
    cases b with
    | int n => exact congrArg some Std.OrientedCmp.eq_swap
    | float y => exact Double.compare?_swap _ _
  | float x => cases b <;> exact Double.compare?_swap _ _

theorem DateTime.compare?_swap (a b : DateTime) : a.compare? b = (b.compare? a).map Ordering.swap := by
  cases a with
  | date d =>
    cases b with
    | date e => exact congrArg some Std.OrientedCmp.eq_swap
    | _ => rfl
  | time t =>
    cases b with
    | time u => exact congrArg some Std.OrientedCmp.eq_swap
    | _ => rfl
  | timestamp t =>
    cases b with
    | timestamp u => exact congrArg some Std.OrientedCmp.eq_swap
    | _ => rfl
  | zoned t =>
    cases b with
    | zoned u => exact congrArg some Std.OrientedCmp.eq_swap
    | _ => rfl

theorem compareText_swap (s t : String) : compareOfLessAndEq s t = (compareOfLessAndEq t s).swap := by
  show compare s t = (compare t s).swap
  exact Std.OrientedCmp.eq_swap

theorem compareBool_swap (a b : Bool) : compareBool a b = (compareBool b a).swap := by
  cases a <;> cases b <;> rfl

/-! ### Items -/

namespace Item

variable (op : ComparisonOp) (a b : Item)

theorem order?_mirrored : a.order? op b = (b.order? op.mirrored a).map Ordering.swap := by
  cases a with
  | number m =>
    cases b with
    | number n => exact Number.compare?_swap m n
    | _ => rfl
  | string s =>
    cases b with
    | string t => exact congrArg some (compareText_swap s t)
    | _ => rfl
  | boolean p =>
    cases b with
    | boolean q =>
      simp only [order?, ComparisonOp.isEquality_mirrored]
      cases op.isEquality with
      | true => exact congrArg some (compareBool_swap p q)
      | false => rfl
    | _ => rfl
  | datetime d =>
    cases b with
    | datetime e => exact DateTime.compare?_swap d e
    | _ => rfl
  | null | array | object | failure => cases b <;> rfl

/-- Only booleans look at the operator, and they only ask whether it is one of equality. -/
theorem order?_complement : a.order? op.complement b = a.order? op b := by
  cases a with
  | boolean p =>
    cases b with
    | boolean q => simp only [order?, ComparisonOp.isEquality_complement]
    | _ => rfl
  | _ => cases b <;> rfl

theorem compareBy_mirrored : a.compareBy op b = b.compareBy op.mirrored a := by
  unfold compareBy
  rw [order?_mirrored op a b]
  cases b.order? op.mirrored a with
  | none => rfl
  | some o => exact congrArg Truth.ofBool (op.admits_mirrored o).symm

theorem compareBy_complement : (a.compareBy op b).not = a.compareBy op.complement b := by
  unfold compareBy
  rw [order?_complement]
  cases a.order? op b with
  | none => rfl
  | some o =>
    simp only [ComparisonOp.admits_complement]
    cases op.admits o <;> rfl

end Item

/-! ### Operands -/

namespace Truth

section Operands

variable (op : ComparisonOp) (l r : Sequence)

/-- An empty operand makes every comparison false. -/
theorem ofOperands_of_nil {l r : Sequence} (h : l = [] ∨ r = []) : ofOperands op l r = .false := by
  rcases h with rfl | rfl
  · rfl
  · cases l <;> rfl

theorem ofOperands_mirrored : ofOperands op l r = ofOperands op.mirrored r l := by
  cases l with
  | nil => rw [ofOperands_of_nil op (Or.inl rfl), ofOperands_of_nil op.mirrored (Or.inr rfl)]
  | cons a l =>
    cases r with
    | nil => rfl
    | cons b r =>
      cases l with
      | nil =>
        cases r with
        | nil => exact Item.compareBy_mirrored op a b
        | cons => rfl
      | cons => cases r <;> rfl

theorem ofOperands_complement {l r : Sequence} (hl : l ≠ []) (hr : r ≠ []) :
    (ofOperands op l r).not = ofOperands op.complement l r := by
  cases l with
  | nil => exact absurd rfl hl
  | cons a l =>
    cases r with
    | nil => exact absurd rfl hr
    | cons b r =>
      cases l with
      | nil =>
        cases r with
        | nil => exact Item.compareBy_complement op a b
        | cons => rfl
      | cons => cases r <;> rfl

end Operands

section Results

variable {mode : Mode} {op : ComparisonOp} {left right : Except EvalError Sequence}

theorem compare_of_ok (l r : Sequence) :
    compare mode op (.ok l) (fun _ => .ok r) = .ok (ofOperands op (l.unwrap mode) (r.unwrap mode)) := rfl

theorem compare_of_data_right {e : EvalError} (h : e.OfData) (l : Sequence) :
    compare mode op (.ok l) (fun _ => .error e) = .ok .unknown := by
  show (tolerate (.error e) >>= _) = _
  rw [tolerate_of_data h]
  rfl

/-- Where operands fail for the data only, it does not matter which one is evaluated first. -/
theorem compare_mirrored (hleft : FailsOnly EvalError.OfData left)
    (hright : FailsOnly EvalError.OfData right) :
    compare mode op left (fun _ => right) = compare mode op.mirrored right fun _ => left := by
  cases left with
  | error e =>
    have he := hleft e rfl
    rw [compare_of_data he]
    cases right with
    | error e' => rw [compare_of_data (hright e' rfl)]
    | ok r => rw [compare_of_data_right he]
  | ok l =>
    cases right with
    | error e => rw [compare_of_data_right (hright e rfl), compare_of_data (hright e rfl)]
    | ok r => rw [compare_of_ok, compare_of_ok, ofOperands_mirrored]

/-- What does not come from the operands' values is the same for all operators, and negation does not
change it. -/
theorem compare_complement
    (h : ∀ l r, left = .ok l → right = .ok r → l.unwrap mode ≠ [] ∧ r.unwrap mode ≠ []) :
    (compare mode op left fun _ => right).map not = compare mode op.complement left fun _ => right := by
  unfold compare
  cases hleft : tolerate left with
  | error e => rfl
  | ok l =>
    cases l with
    | none => rfl
    | some l =>
      show ((tolerate right >>= _) : Except EvalError Truth).map not = (tolerate right >>= _)
      cases hright : tolerate right with
      | error e => rfl
      | ok r =>
        cases r with
        | none => rfl
        | some r =>
          obtain ⟨hl, hr⟩ := h l r (tolerate_eq_some_iff.mp hleft) (tolerate_eq_some_iff.mp hright)
          exact congrArg Except.ok (ofOperands_complement op hl hr)

end Results

end Truth

/-! ### Comparisons of a path -/

namespace Node

/-- Both operands of a comparison have a result, and there is nothing in one of them. -/
def LacksOperand (scope : Scope) (left right : Node) : Prop :=
  ∃ l r, left.eval scope = .ok l ∧ right.eval scope = .ok r ∧
    (l.unwrap scope.mode = [] ∨ r.unwrap scope.mode = [])

/-- A tree whose variables are all bound fails for the data only. -/
theorem failsOnly_ofData_of_boundIn {n : Node} {scope : Scope} (h : n.BoundIn scope.bindings) :
    FailsOnly EvalError.OfData (n.eval scope) :=
  (Node.failsOnly (fun _ he => he) n).1 (fun f hf => Form.lookupFailsOnly_of_isUnbound (h f hf))
    scope rfl

theorem truth_compared (op : ComparisonOp) (left right : Node) (scope : Scope) :
    (compared op left right).truth scope =
      Truth.compare scope.mode op (left.eval scope) fun _ => right.eval scope := rfl

/-- **Comparisons turned around.** Where all variables of the operands are bound, a comparison is the
mirrored one of the exchanged operands. Its negation is the comparison by the complementary operator, with
the same error where there is one, unless both operands have a result of which one is empty; then both
comparisons are false. -/
theorem comparisons_mirror_and_complement (op : ComparisonOp) (left right : Node) (scope : Scope) :
    (left.BoundIn scope.bindings → right.BoundIn scope.bindings →
      SameIn scope (compared op left right) (compared op.mirrored right left)) ∧
    (¬ LacksOperand scope left right →
      SameIn scope (negated (compared op left right)) (compared op.complement left right)) ∧
    (LacksOperand scope left right →
      (compared op left right).truth scope = .ok .false ∧
        (compared op.complement left right).truth scope = .ok .false) := by
  refine ⟨fun hleft hright => .of_truth rfl rfl ?_, fun hlacks => .of_truth rfl rfl ?_, ?_⟩
  · simp only [truth_compared]
    exact Truth.compare_mirrored (failsOnly_ofData_of_boundIn hleft) (failsOnly_ofData_of_boundIn hright)
  · simp only [truth_negated, truth_compared]
    exact Truth.compare_complement fun l r hl hr =>
      not_or.mp fun hempty => hlacks ⟨l, r, hl, hr, hempty⟩
  · rintro ⟨l, r, hl, hr, hempty⟩
    simp only [truth_compared, hl, hr, Truth.compare_of_ok, Truth.ofOperands_of_nil _ hempty, and_self]

/-- A member that strict mode does not find, on one side and on the other; a float that is no number, which
neither is less nor is not; and a member that is nowhere at any depth. -/
theorem comparisons_mirror_and_complement_of_missing_member :
    let x := named "x"
    let missing := member "b" context
    let nowhere := descendant "b" context
    let scope := Scope.initial .strict (.object []) (Bindings.empty.insert "x" (.float .nan))
    missing.BoundIn scope.bindings ∧ x.BoundIn scope.bindings ∧
      SameIn scope (compared .less missing x) (compared .greater x missing) ∧
      ¬ LacksOperand scope x x ∧
      SameIn scope (negated (compared .less x x)) (compared .greaterOrEqual x x) ∧
      (compared .greaterOrEqual x x).truth scope = .ok .unknown ∧
      LacksOperand scope x nowhere ∧
      (compared .less x nowhere).truth scope = .ok .false ∧
      (compared .greaterOrEqual x nowhere).truth scope = .ok .false := by
  intro x missing nowhere scope
  have hmissing : missing.BoundIn scope.bindings := by decide
  have hx : x.BoundIn scope.bindings := by decide
  have hnan : x.eval scope = .ok [.float .nan] := rfl
  have hpresent : ¬ LacksOperand scope x x := by
    rintro ⟨l, r, hl, hr, hempty⟩
    rw [hnan] at hl hr
    cases hl
    cases hr
    rcases hempty with h | h <;> cases h
  have hlacks : LacksOperand scope x nowhere := ⟨_, [], hnan, rfl, Or.inr rfl⟩
  obtain ⟨hmirrored, -, -⟩ := comparisons_mirror_and_complement .less missing x scope
  obtain ⟨-, hcomplement, -⟩ := comparisons_mirror_and_complement .less x x scope
  obtain ⟨-, -, hfalse⟩ := comparisons_mirror_and_complement .less x nowhere scope
  exact ⟨hmissing, hx, hmirrored hmissing hx, hpresent, hcomplement hpresent, rfl, hlacks,
    hfalse hlacks⟩

end Node

end PathQuery
