import PathQuery.Eval.Arithmetic
import PathQuery.Eval.Step
import PathQuery.Eval.Truth
import PathQuery.Path.Validity

/-!
# Evaluation

`Node.eval` gives the sequence of a node in a scope and `Node.truth` the truth value of a predicate.
Both go down the tree, so evaluation always ends.

* Data errors in the operands of a predicate make it unknown; `tolerate` is where that happens. Binding
  errors pass through.
* A predicate in the place of a sequence is the one item of its truth value.
* `Node.evaluate` first refuses failed conversions in the input and in the parameters.
-/

namespace PathQuery

/-- What a node is evaluated against. -/
structure Scope where
  /-- The input item. -/
  root : Item
  /-- The item that the innermost filter is looking at. -/
  current : Option Item
  /-- The last index of the array that the innermost subscript belongs to. -/
  last : Option Int64
  bindings : Bindings
  mode : Mode

/-- A value of the parameters as a sequence. -/
def ofBinding : Except BindingError Item → Except EvalError Sequence
  | .ok x => .ok [x]
  | .error e => .error (.binding e)

/-- A result in which a data error counts as no result. -/
def tolerate {α : Type} : Except EvalError α → Except EvalError (Option α)
  | .ok a => .ok (some a)
  | .error e => if e.isDataError then .ok none else .error e

/-! ### Predicates on the results of their operands -/

namespace Truth

/-- The truth of a comparison between two unwrapped operands: false if one is empty, and unknown if one
has several items. -/
def ofOperands (op : ComparisonOp) : Sequence → Sequence → Truth
  | [], _ | _, [] => .false
  | [a], [b] => a.compareBy op b
  | _, _ => .unknown

/-- A comparison; the right operand is evaluated only if the left one has a result. -/
def compare (mode : Mode) (op : ComparisonOp) (left : Except EvalError Sequence)
    (right : Unit → Except EvalError Sequence) : Except EvalError Truth := do
  match ← tolerate left with
  | none => return .unknown
  | some l =>
      match ← tolerate (right ()) with
      | none => return .unknown
      | some r => return ofOperands op (l.unwrap mode) (r.unwrap mode)

/-- A conjunction; the right operand is evaluated only if the left one is not false. -/
def andThen (left : Except EvalError Truth) (right : Unit → Except EvalError Truth) :
    Except EvalError Truth := do
  let l ← left
  if l = .false then return .false else return l.and (← right ())

/-- A disjunction; the right operand is evaluated only if the left one is not true. -/
def orElse (left : Except EvalError Truth) (right : Unit → Except EvalError Truth) :
    Except EvalError Truth := do
  let l ← left
  if l = .true then return .true else return l.or (← right ())

/-- Whether a path has any item; arrays are not unwrapped. -/
def ofExistence (operand : Except EvalError Sequence) : Except EvalError Truth := do
  match ← tolerate operand with
  | none => return .unknown
  | some s => return ofBool !s.isEmpty

/-- Whether a text begins with another; the beginning is evaluated first and must be one text. -/
def startsWith (mode : Mode) (initial : Except EvalError Sequence)
    (whole : Unit → Except EvalError Sequence) : Except EvalError Truth := do
  match ← tolerate initial with
  | none => return .unknown
  | some i =>
      match i.unwrap mode with
      | [.string text] =>
          match ← tolerate (whole ()) with
          | none => return .unknown
          | some w => return ofPrefixes mode text (w.unwrap mode)
      | _ => return .unknown

/-- A truth value as a sequence. -/
def sequence (t : Truth) : Sequence := [t.item]

end Truth

/-! ### Steps that look at nodes -/

/-- The candidates for which a predicate is true. -/
def Sequence.select (predicate : Item → Except EvalError Truth) (candidates : Sequence) :
    Except EvalError Sequence :=
  candidates.collect fun x =>
    match predicate x with
    | .ok .true => .ok [x]
    | .ok _ => .ok []
    | .error e => .error e

/-- The elements that subscripts choose from each array; an item that is no array counts as one in lax
mode. -/
def Sequence.elements (mode : Mode) (choose : List Item → Except EvalError Sequence)
    (s : Sequence) : Except EvalError Sequence :=
  s.collect fun x =>
    match x.elements? mode with
    | some elements => choose elements
    | none => .error (.elementsOfNonArray x.type)

/-- The position that the result of a subscript denotes. -/
def Sequence.position (mode : Mode) (s : Sequence) : Except EvalError Nat := do
  (← s.number mode .subscript).position

/-- The last index of an array; -1 if it is empty. -/
def lastIndex (elements : List Item) : Int64 :=
  Int64.ofInt (elements.length - 1)

mutual

/-- The sequence of a node. -/
def Node.eval (scope : Scope) : Node → Except EvalError Sequence
  | .mk form _ => form.eval scope

def Form.eval (scope : Scope) : Form → Except EvalError Sequence
  | .literal value => .ok [value.item]
  | .context => .ok [scope.root]
  | .named name => ofBinding (scope.bindings.get name)
  | .positional position => ofBinding (scope.bindings.getIndex position)
  | .current =>
      match scope.current with
      | some x => .ok [x]
      | none => .error .currentOutsideFilter
  | .last =>
      match scope.last with
      | some n => .ok [.int n]
      | none => .error .lastOutsideSubscript
  | .member target name => do (← target.eval scope).member scope.mode name
  | .wildcardMember target => do (← target.eval scope).wildcardMember scope.mode
  | .descendant target name => do return (← target.eval scope).descendants name
  | .elements target subscripts => do
      let s ← target.eval scope
      s.elements scope.mode fun elements =>
        Subscript.chooseAll { scope with last := some (lastIndex elements) } elements subscripts
  | .filter target predicate => do
      let s ← target.eval scope
      (s.unwrap scope.mode).select fun x => predicate.truth { scope with current := some x }
  | .unary sign operand => do
      let n ← (← operand.eval scope).number scope.mode .unaryOperand
      return [.number (← n.signed sign)]
  | .binary op left right => do
      let a ← (← left.eval scope).number scope.mode .leftOperand
      let b ← (← right.eval scope).number scope.mode .rightOperand
      return [.number (← a.arithmetic op b)]
  | .method target m => do (← target.eval scope).method scope.mode m
  | .comparison op left right =>
      (Truth.compare scope.mode op (left.eval scope) fun _ => right.eval scope).map Truth.sequence
  | .conjunction left right =>
      (Truth.andThen (left.truth scope) fun _ => right.truth scope).map Truth.sequence
  | .disjunction left right =>
      (Truth.orElse (left.truth scope) fun _ => right.truth scope).map Truth.sequence
  | .negation operand => (operand.truth scope).map fun t => t.not.sequence
  | .existence operand => (Truth.ofExistence (operand.eval scope)).map Truth.sequence
  | .isUnknown operand =>
      (operand.truth scope).map fun t => (Truth.ofBool (t = .unknown)).sequence
  | .startsWith whole initial =>
      (Truth.startsWith scope.mode (initial.eval scope) fun _ => whole.eval scope).map
        Truth.sequence

/-- The truth value of a predicate; other nodes have none. -/
def Node.truth (scope : Scope) : Node → Except EvalError Truth
  | .mk form _ => form.truth scope

def Form.truth (scope : Scope) : Form → Except EvalError Truth
  | .comparison op left right =>
      Truth.compare scope.mode op (left.eval scope) fun _ => right.eval scope
  | .conjunction left right => Truth.andThen (left.truth scope) fun _ => right.truth scope
  | .disjunction left right => Truth.orElse (left.truth scope) fun _ => right.truth scope
  | .negation operand => (operand.truth scope).map Truth.not
  | .existence operand => Truth.ofExistence (operand.eval scope)
  | .isUnknown operand => (operand.truth scope).map fun t => Truth.ofBool (t = .unknown)
  | .startsWith whole initial =>
      Truth.startsWith scope.mode (initial.eval scope) fun _ => whole.eval scope
  | form => .error (.notPredicate form.text)

/-- The elements of an array that a subscript chooses. -/
def Subscript.choose (scope : Scope) (elements : List Item) :
    Subscript → Except EvalError Sequence
  | .index position => do
      Item.element scope.mode elements (← (← position.eval scope).position scope.mode)
  | .range first final => do
      let a ← (← first.eval scope).position scope.mode
      let b ← (← final.eval scope).position scope.mode
      Item.elementRange scope.mode elements a b
  | .last => Item.lastElement scope.mode elements
  | .wildcard => .ok elements

/-- The elements that several subscripts choose, in the order of the subscripts. -/
def Subscript.chooseAll (scope : Scope) (elements : List Item) :
    List Subscript → Except EvalError Sequence
  | [] => .ok []
  | s :: ss => do
      let xs ← s.choose scope elements
      let ys ← Subscript.chooseAll scope elements ss
      return xs ++ ys

end

/-- A predicate in the place of a sequence is the item of its truth value. -/
theorem Node.eval_of_isPredicate {n : Node} (h : n.isPredicate = true) (scope : Scope) :
    n.eval scope = (n.truth scope).map Truth.sequence := by
  obtain ⟨form, declared⟩ := n
  cases form with
  | negation operand =>
    simp only [Node.eval, Form.eval, Node.truth, Form.truth]
    cases operand.truth scope <;> rfl
  | isUnknown operand =>
    simp only [Node.eval, Form.eval, Node.truth, Form.truth]
    cases operand.truth scope <;> rfl
  | comparison | conjunction | disjunction | existence | startsWith => rfl
  | _ => exact absurd h (by simp [Node.isPredicate, Node.form, Form.isPredicate])

/-- A node that is no predicate has no truth value. -/
theorem Node.truth_of_not_isPredicate {n : Node} (h : n.isPredicate = false) (scope : Scope) :
    n.truth scope = .error (.notPredicate n.text) := by
  obtain ⟨form, declared⟩ := n
  cases form with
  | comparison | conjunction | disjunction | negation | existence | isUnknown | startsWith =>
    exact absurd h (by simp [Node.isPredicate, Node.form, Form.isPredicate])
  | _ => simp only [Node.truth, Form.truth, Node.text]

/-! ### Whole paths -/

/-- The failed conversion that a call was given, in the input or else in a parameter. -/
def failedConversion? (input : Item) (bindings : Bindings) : Option EvalError :=
  if input.hasFailure then some .failedInput
  else bindings.firstFailure?.map EvalError.failedParameter

/-- The scope of a whole path. -/
def Scope.initial (mode : Mode) (input : Item) (bindings : Bindings) : Scope :=
  ⟨input, none, none, bindings, mode⟩

/-- The sequence of a tree for an input and parameters. -/
def Node.evaluate (mode : Mode) (root : Node) (input : Item) (bindings : Bindings) :
    Except EvalError Sequence :=
  match failedConversion? input bindings with
  | some e => .error e
  | none => root.eval (Scope.initial mode input bindings)

/-- The sequence of a path for an input and parameters. -/
def Path.evaluate (p : Path) (input : Item) (bindings : Bindings) : Except EvalError Sequence :=
  p.root.evaluate p.mode input bindings

end PathQuery
