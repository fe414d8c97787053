import PathQuery.Path.Validity
import PathQuery.Proofs.Path.Tree

/-!
# Trees without declared types

Every node of a tree may declare an SQL type. Two trees are the same but for these declarations if nothing
is left to tell them apart once all declarations are dropped, at every depth.

* `Node.bare` — a tree without its declared types.
* `Node.text_bare` — declared types are not written.
* `Node.check_bare` — nor are they checked, and the fault that is found does not depend on them.
-/

namespace PathQuery

mutual

/-- The tree with no declared type at any node. -/
def Node.bare : Node → Node
  | .mk form _ => .mk form.bare none

def Form.bare : Form → Form
  | .literal value => .literal value
  | .context => .context
  | .current => .current
  | .last => .last
  | .named name => .named name
  | .positional position => .positional position
  | .member target name => .member target.bare name
  | .wildcardMember target => .wildcardMember target.bare
  | .descendant target name => .descendant target.bare name
  | .elements target subscripts => .elements target.bare (Subscript.bareAll subscripts)
  | .filter target predicate => .filter target.bare predicate.bare
  | .unary sign operand => .unary sign operand.bare
  | .binary op left right => .binary op left.bare right.bare
  | .method target m => .method target.bare m
  | .comparison op left right => .comparison op left.bare right.bare
  | .conjunction left right => .conjunction left.bare right.bare
  | .disjunction left right => .disjunction left.bare right.bare
  | .negation operand => .negation operand.bare
  | .existence operand => .existence operand.bare
  | .isUnknown operand => .isUnknown operand.bare
  | .startsWith whole initial => .startsWith whole.bare initial.bare

def Subscript.bare : Subscript → Subscript
  | .index position => .index position.bare
  | .range first final => .range first.bare final.bare
  | .last => .last
  | .wildcard => .wildcard

def Subscript.bareAll : List Subscript → List Subscript
  | [] => []
  | s :: ss => s.bare :: Subscript.bareAll ss

end

/-! ### Kinds of nodes -/

@[simp] theorem Node.form_bare (n : Node) : n.bare.form = n.form.bare := by
  cases n
  rfl

@[simp] theorem Form.isPredicate_bare (f : Form) : f.bare.isPredicate = f.isPredicate := by
  cases f <;> rfl

@[simp] theorem Form.isLooseTarget_bare (f : Form) : f.bare.isLooseTarget = f.isLooseTarget := by
  cases f <;> rfl

@[simp] theorem Form.isLooseOperand_bare (f : Form) : f.bare.isLooseOperand = f.isLooseOperand := by
  cases f <;> rfl

@[simp] theorem Node.isPredicate_bare (n : Node) : n.bare.isPredicate = n.isPredicate := by
  rw [Node.isPredicate, Node.form_bare, Form.isPredicate_bare, Node.isPredicate]

/-! ### Text -/

theorem Subscript.texts_bareAll {ss : List Subscript}
    (hss : ∀ s ∈ ss, ∀ n ∈ s.positions, n.bare.text = n.text) :
    Subscript.texts (Subscript.bareAll ss) = Subscript.texts ss := by
  induction ss with
  | nil => rfl
  | cons s ss ih =>
    obtain ⟨hs, hss⟩ := List.forall_mem_cons.mp hss
    have htext : s.bare.text = s.text := by
      cases s <;> simp_all [Subscript.bare, Subscript.text, Subscript.positions]
    rw [Subscript.bareAll, Subscript.texts, htext, ih hss, Subscript.texts]

/-- Declared types are not written. -/
theorem Node.text_bare (n : Node) : n.bare.text = n.text := by
  induction n with
  | literal | context | current | last | named | positional => rfl
  | elements target subscripts ih ihs =>
    simp only [Node.bare, Form.bare, Node.text, Form.text, Node.form_bare, Form.isLooseTarget_bare, ih,
      Subscript.texts_bareAll ihs]
  | member _ _ ih | wildcardMember _ ih | descendant _ _ ih | method _ _ ih | unary _ _ ih
  | negation _ ih | existence _ ih | isUnknown _ ih =>
    simp only [Node.bare, Form.bare, Node.text, Form.text, Node.form_bare, Form.isLooseTarget_bare,
      Form.isLooseOperand_bare, ih]
  | filter _ _ ih ih' | binary _ _ _ ih ih' | comparison _ _ _ ih ih' | conjunction _ _ ih ih'
  | disjunction _ _ ih ih' | startsWith _ _ ih ih' =>
    simp only [Node.bare, Form.bare, Node.text, Form.text, Node.form_bare, Form.isLooseTarget_bare,
      Form.isLooseOperand_bare, ih, ih']

/-! ### The check -/

@[simp] theorem Node.checkValue_bare (n : Node) : n.bare.checkValue = n.checkValue := by
  rw [Node.checkValue, Node.isPredicate_bare, Node.text_bare, Node.checkValue]

theorem Subscript.checkAll_bareAll {around : Surroundings} {ss : List Subscript}
    (hss : ∀ s ∈ ss, ∀ n ∈ s.positions, n.bare.checkIn around = n.checkIn around) :
    Subscript.checkAll around (Subscript.bareAll ss) = Subscript.checkAll around ss := by
  induction ss with
  | nil => rfl
  | cons s ss ih =>
    obtain ⟨hs, hss⟩ := List.forall_mem_cons.mp hss
    have hcheck : s.bare.checkIn around = s.checkIn around := by
      cases s <;> simp_all [Subscript.bare, Subscript.checkIn, Subscript.positions]
    rw [Subscript.bareAll, Subscript.checkAll, hcheck, ih hss, Subscript.checkAll]

theorem Node.checkIn_bare (n : Node) (around : Surroundings) :
    n.bare.checkIn around = n.checkIn around := by
  induction n generalizing around with
  | literal | context | current | last | named | positional => rfl
  | elements target subscripts ih ihs =>
    simp only [Node.bare, Form.bare, Node.checkIn, Form.checkIn, Node.checkValue_bare, ih,
      Subscript.checkAll_bareAll fun s hs n hn => ihs s hs n hn _]
  | filter target predicate ih ih' =>
    simp only [Node.bare, Form.bare, Node.checkIn, Form.checkIn, Node.checkValue_bare,
      Node.isPredicate_bare, Node.text_bare, ih, ih']
  | member _ _ ih | wildcardMember _ ih | descendant _ _ ih | method _ _ ih | unary _ _ ih
  | negation _ ih | existence _ ih | isUnknown _ ih =>
    simp only [Node.bare, Form.bare, Node.checkIn, Form.checkIn, Node.checkValue_bare, ih]
  | binary _ _ _ ih ih' | comparison _ _ _ ih ih' | conjunction _ _ ih ih' | disjunction _ _ ih ih'
  | startsWith _ _ ih ih' =>
    simp only [Node.bare, Form.bare, Node.checkIn, Form.checkIn, Node.checkValue_bare, ih, ih']

/-- A tree has the same fault, or none, without its declared types. -/
theorem Node.check_bare (n : Node) : n.bare.check = n.check :=
  n.checkIn_bare ⟨false, false⟩

end PathQuery
