import PathQuery.Path.Text

/-!
# Valid paths

A tree is checked once, before it is evaluated: `@` needs a filter around it and `last` a subscript, a
filter needs a predicate, a predicate cannot stand where a sequence is needed, and a `datetime` template
cannot be empty. `Node.check` reports the first fault in the order of evaluation, and a `Path` is a mode
with a tree that has none.
-/

namespace PathQuery

inductive PathFault where
  | currentOutsideFilter
  | lastOutsideSubscript
  /-- A filter whose predicate, written out, is none. -/
  | filterNotPredicate (text : String)
  /-- A predicate, written out, where a sequence is needed. -/
  | predicateAsValue (text : String)
  | emptyTemplate
  deriving DecidableEq

def PathFault.message : PathFault → String
  | .currentOutsideFilter => "@ used outside of a filter: @"
  | .lastOutsideSubscript => "last used outside of an array subscript: last"
  | .filterNotPredicate text => "filter expects a predicate, found " ++ text
  | .predicateAsValue text => "predicate cannot be used as a value here: " ++ text
  | .emptyTemplate => "datetime() template is empty"

/-- What is around a node. -/
structure Surroundings where
  filter : Bool
  subscript : Bool
  deriving DecidableEq

/-- A node that must have a sequence. -/
def Node.checkValue (n : Node) : Except PathFault Unit :=
  if n.isPredicate then .error (.predicateAsValue n.text) else .ok ()

def Method.check : Method → Except PathFault Unit
  | .datetime (some "") => .error .emptyTemplate
  | _ => .ok ()

mutual

/-- The first fault of a tree within its surroundings. -/
def Node.checkIn (around : Surroundings) : Node → Except PathFault Unit
  | .mk form _ => form.checkIn around

def Form.checkIn (around : Surroundings) : Form → Except PathFault Unit
  | .literal _ | .context | .named _ | .positional _ => .ok ()
  | .current => if around.filter then .ok () else .error .currentOutsideFilter
  | .last => if around.subscript then .ok () else .error .lastOutsideSubscript
  | .member target _ | .wildcardMember target | .descendant target _ => do
      target.checkValue
      target.checkIn around
  | .method target m => do
      m.check
      target.checkValue
      target.checkIn around
  | .elements target subscripts => do
      target.checkValue
      target.checkIn around
      Subscript.checkAll { around with subscript := true } subscripts
  | .filter target predicate => do
      target.checkValue
      target.checkIn around
      if predicate.isPredicate then predicate.checkIn { around with filter := true }
      else .error (.filterNotPredicate predicate.text)
  | .unary _ operand => do
      operand.checkValue
      operand.checkIn around
  | .binary _ left right => do
      left.checkValue
      left.checkIn around
      right.checkValue
      right.checkIn around
  | .comparison _ left right | .conjunction left right | .disjunction left right
  | .startsWith left right => do
      left.checkIn around
      right.checkIn around
  | .negation operand | .existence operand | .isUnknown operand => operand.checkIn around

def Subscript.checkIn (around : Surroundings) : Subscript → Except PathFault Unit
  | .index position => do
      position.checkValue
      position.checkIn around
  | .range first final => do
      first.checkValue
      first.checkIn around
      final.checkValue
      final.checkIn around
  | .last | .wildcard => .ok ()

def Subscript.checkAll (around : Surroundings) : List Subscript → Except PathFault Unit
  | [] => .ok ()
  | s :: ss => do
      s.checkIn around
      Subscript.checkAll around ss

end

/-- Two checks in turn find no fault if neither of them does. -/
theorem check_bind_eq_ok {first second : Except PathFault Unit} :
    (first >>= fun _ => second) = .ok () ↔ first = .ok () ∧ second = .ok () := by
  cases first with
  | error e => simp [bind, Except.bind]
  | ok a => simp [bind, Except.bind]

/-- The first fault of a whole tree. -/
def Node.check (n : Node) : Except PathFault Unit :=
  n.checkIn ⟨false, false⟩

/-- A mode and a tree without faults. -/
structure Path where
  mode : Mode
  root : Node
  valid : root.check = .ok ()

namespace Path

/-- The path of a tree, or the tree's first fault. -/
def ofNode (mode : Mode) (root : Node) : Except PathFault Path :=
  match h : root.check with
  | .ok () => .ok ⟨mode, root, h⟩
  | .error e => .error e

def text (p : Path) : String :=
  p.mode.name ++ " " ++ p.root.text

end Path

end PathQuery
