import PathQuery.Bindings
import PathQuery.Path.Node

/-!
# Trees as a whole

A path tree is three types defined together, and the nodes inside subscripts are children too. This file
provides induction over whole trees and the parts of a tree at any depth.

* `Node.induction` — one case for each form, with the positions of all subscripts among the children.
* `Node.evaluation_induction` — the same for two properties at once: `E` of the sequence of a node and
  `T` of its truth value. Only the forms that compute a sequence have an `E` case, and only predicates
  have a `T` case.
* `Node.forms` — the forms of a tree; what holds of all of them is what holds at every depth.
* `Node.isLogical` — a predicate whose connectives join predicates.
* `Node.ConnectsPredicates` — all connectives of a tree, at any depth, join predicates.
* `Node.AsksPredicates` — so do they, and all filters have predicates too.
* `Node.BoundIn` — all variables of a tree have a value.
-/

namespace PathQuery

/-- The nodes that a subscript evaluates. -/
def Subscript.positions : Subscript → List Node
  | .index position => [position]
  | .range first final => [first, final]
  | .last | .wildcard => []

/-! ### Induction -/

/-- **Induction over trees.** In the case of an array accessor all positions of its subscripts may be
assumed to have the property. -/
@[elab_as_elim, induction_eliminator]
theorem Node.induction {motive : Node → Prop}
    (literal : ∀ value declared, motive (.mk (.literal value) declared))
    (context : ∀ declared, motive (.mk .context declared))
    (current : ∀ declared, motive (.mk .current declared))
    (last : ∀ declared, motive (.mk .last declared))
    (named : ∀ name declared, motive (.mk (.named name) declared))
    (positional : ∀ position declared, motive (.mk (.positional position) declared))
    (member : ∀ target name, motive target → ∀ declared, motive (.mk (.member target name) declared))
    (wildcardMember : ∀ target, motive target →
      ∀ declared, motive (.mk (.wildcardMember target) declared))
    (descendant : ∀ target name, motive target →
      ∀ declared, motive (.mk (.descendant target name) declared))
    (elements : ∀ target subscripts, motive target →
      (∀ s ∈ subscripts, ∀ n ∈ s.positions, motive n) →
      ∀ declared, motive (.mk (.elements target subscripts) declared))
    (filter : ∀ target predicate, motive target → motive predicate →
      ∀ declared, motive (.mk (.filter target predicate) declared))
    (unary : ∀ sign operand, motive operand →
      ∀ declared, motive (.mk (.unary sign operand) declared))
    (binary : ∀ op left right, motive left → motive right →
      ∀ declared, motive (.mk (.binary op left right) declared))
    (method : ∀ target m, motive target → ∀ declared, motive (.mk (.method target m) declared))
    (comparison : ∀ op left right, motive left → motive right →
      ∀ declared, motive (.mk (.comparison op left right) declared))
    (conjunction : ∀ left right, motive left → motive right →
      ∀ declared, motive (.mk (.conjunction left right) declared))
    (disjunction : ∀ left right, motive left → motive right →
      ∀ declared, motive (.mk (.disjunction left right) declared))
    (negation : ∀ operand, motive operand → ∀ declared, motive (.mk (.negation operand) declared))
    (existence : ∀ operand, motive operand →
      ∀ declared, motive (.mk (.existence operand) declared))
    (isUnknown : ∀ operand, motive operand →
      ∀ declared, motive (.mk (.isUnknown operand) declared))
    (startsWith : ∀ whole initial, motive whole → motive initial →
      ∀ declared, motive (.mk (.startsWith whole initial) declared))
    (n : Node) : motive n :=
  @Node.rec motive (fun form => ∀ declared, motive (.mk form declared))
    (fun s => ∀ n ∈ s.positions, motive n) (fun ss => ∀ s ∈ ss, ∀ n ∈ s.positions, motive n)
    (fun _ declared h => h declared)
    literal context current last named positional member wildcardMember descendant elements filter
    unary binary method comparison conjunction disjunction negation existence isUnknown startsWith
    (fun _ h => List.forall_mem_singleton.mpr h)
    (fun _ _ hf hl => List.forall_mem_cons.mpr ⟨hf, List.forall_mem_singleton.mpr hl⟩)
    (List.forall_mem_nil _) (List.forall_mem_nil _) (List.forall_mem_nil _)
    (fun _ _ hs hss => List.forall_mem_cons.mpr ⟨hs, hss⟩) n

/-- **Induction for evaluation.** A predicate has a sequence by its truth value, and all other nodes
have no truth value, so that each form is a case of only one of the two properties. -/
theorem Node.evaluation_induction {E T : Node → Prop}
    (literal : ∀ value declared, E (.mk (.literal value) declared))
    (context : ∀ declared, E (.mk .context declared))
    (current : ∀ declared, E (.mk .current declared))
    (last : ∀ declared, E (.mk .last declared))
    (named : ∀ name declared, E (.mk (.named name) declared))
    (positional : ∀ position declared, E (.mk (.positional position) declared))
    (member : ∀ target name, E target → ∀ declared, E (.mk (.member target name) declared))
    (wildcardMember : ∀ target, E target → ∀ declared, E (.mk (.wildcardMember target) declared))
    (descendant : ∀ target name, E target →
      ∀ declared, E (.mk (.descendant target name) declared))
    (elements : ∀ target subscripts, E target → (∀ s ∈ subscripts, ∀ n ∈ s.positions, E n) →
      ∀ declared, E (.mk (.elements target subscripts) declared))
    (filter : ∀ target predicate, E target → T predicate →
      ∀ declared, E (.mk (.filter target predicate) declared))
    (unary : ∀ sign operand, E operand → ∀ declared, E (.mk (.unary sign operand) declared))
    (binary : ∀ op left right, E left → E right →
      ∀ declared, E (.mk (.binary op left right) declared))
    (method : ∀ target m, E target → ∀ declared, E (.mk (.method target m) declared))
    (comparison : ∀ op left right, E left → E right →
      ∀ declared, T (.mk (.comparison op left right) declared))
    (conjunction : ∀ left right, T left → T right →
      ∀ declared, T (.mk (.conjunction left right) declared))
    (disjunction : ∀ left right, T left → T right →
      ∀ declared, T (.mk (.disjunction left right) declared))
    (negation : ∀ operand, T operand → ∀ declared, T (.mk (.negation operand) declared))
    (existence : ∀ operand, E operand → ∀ declared, T (.mk (.existence operand) declared))
    (isUnknown : ∀ operand, T operand → ∀ declared, T (.mk (.isUnknown operand) declared))
    (startsWith : ∀ whole initial, E whole → E initial →
      ∀ declared, T (.mk (.startsWith whole initial) declared))
    (predicate : ∀ n : Node, n.isPredicate = true → T n → E n)
    (other : ∀ n : Node, n.isPredicate = false → T n)
    (n : Node) : E n ∧ T n := by
  have ofTruth : ∀ n : Node, n.isPredicate = true → T n → E n ∧ T n :=
    fun n hn h => ⟨predicate n hn h, h⟩
  have ofSequence : ∀ n : Node, n.isPredicate = false → E n → E n ∧ T n :=
    fun n hn h => ⟨h, other n hn⟩
  induction n with
  | literal value declared => exact ofSequence _ rfl (literal value declared)
  | context declared => exact ofSequence _ rfl (context declared)
  | current declared => exact ofSequence _ rfl (current declared)
  | last declared => exact ofSequence _ rfl (last declared)
  | named name declared => exact ofSequence _ rfl (named name declared)
  | positional position declared => exact ofSequence _ rfl (positional position declared)
  | member target name ht declared => exact ofSequence _ rfl (member target name ht.1 declared)
  | wildcardMember target ht declared =>
    exact ofSequence _ rfl (wildcardMember target ht.1 declared)
  | descendant target name ht declared =>
    exact ofSequence _ rfl (descendant target name ht.1 declared)
  | elements target subscripts ht hs declared =>
    exact ofSequence _ rfl
      (elements target subscripts ht.1 (fun s hmem n hn => (hs s hmem n hn).1) declared)
  | filter target predicate ht hp declared =>
    exact ofSequence _ rfl (filter target predicate ht.1 hp.2 declared)
  | unary sign operand ho declared => exact ofSequence _ rfl (unary sign operand ho.1 declared)
  | binary op left right hl hr declared =>
    exact ofSequence _ rfl (binary op left right hl.1 hr.1 declared)
  | method target m ht declared => exact ofSequence _ rfl (method target m ht.1 declared)
  | comparison op left right hl hr declared =>
    exact ofTruth _ rfl (comparison op left right hl.1 hr.1 declared)
  | conjunction left right hl hr declared =>
    exact ofTruth _ rfl (conjunction left right hl.2 hr.2 declared)
  | disjunction left right hl hr declared =>
    exact ofTruth _ rfl (disjunction left right hl.2 hr.2 declared)
  | negation operand ho declared => exact ofTruth _ rfl (negation operand ho.2 declared)
  | existence operand ho declared => exact ofTruth _ rfl (existence operand ho.1 declared)
  | isUnknown operand ho declared => exact ofTruth _ rfl (isUnknown operand ho.2 declared)
  | startsWith whole initial hw hi declared =>
    exact ofTruth _ rfl (startsWith whole initial hw.1 hi.1 declared)

/-! ### The forms of a tree -/

mutual

/-- The forms of a node and of all nodes below it. -/
def Node.forms : Node → List Form
  | .mk form _ => form :: form.inner

/-- The forms of all nodes below a form. -/
def Form.inner : Form → List Form
  | .literal _ | .context | .current | .last | .named _ | .positional _ => []
  | .member target _ | .wildcardMember target | .descendant target _ | .method target _ =>
      target.forms
  | .elements target subscripts => target.forms ++ Subscript.innerAll subscripts
  | .filter target predicate => target.forms ++ predicate.forms
  | .unary _ operand | .negation operand | .existence operand | .isUnknown operand => operand.forms
  | .binary _ left right | .comparison _ left right | .conjunction left right
  | .disjunction left right | .startsWith left right => left.forms ++ right.forms

/-- The forms of all nodes in a subscript. -/
def Subscript.inner : Subscript → List Form
  | .index position => position.forms
  | .range first final => first.forms ++ final.forms
  | .last | .wildcard => []

/-- The forms of all nodes in several subscripts. -/
def Subscript.innerAll : List Subscript → List Form
  | [] => []
  | s :: ss => s.inner ++ Subscript.innerAll ss

end

theorem Subscript.forall_inner {P : Form → Prop} (s : Subscript) :
    (∀ f ∈ s.inner, P f) ↔ ∀ n ∈ s.positions, ∀ f ∈ n.forms, P f := by
  cases s <;> simp [Subscript.inner, Subscript.positions, or_imp, forall_and]

theorem Subscript.forall_innerAll {P : Form → Prop} (ss : List Subscript) :
    (∀ f ∈ Subscript.innerAll ss, P f) ↔ ∀ s ∈ ss, ∀ n ∈ s.positions, ∀ f ∈ n.forms, P f := by
  induction ss with
  | nil => simp [Subscript.innerAll]
  | cons s ss ih =>
    rw [Subscript.innerAll, List.forall_mem_append, List.forall_mem_cons, ih,
      Subscript.forall_inner]

/-- What holds of all forms of a node holds of its own form and of all forms below it. -/
theorem Node.forall_forms {P : Form → Prop} {form : Form} {declared : Option SqlType} :
    (∀ f ∈ (Node.mk form declared).forms, P f) ↔ P form ∧ ∀ f ∈ form.inner, P f := by
  rw [Node.forms, List.forall_mem_cons]

/-! ### Predicates -/

mutual

/-- Whether a node is a predicate and its connectives, down to the first other predicates, join
predicates. -/
def Node.isLogical : Node → Bool
  | .mk form _ => form.isLogical

def Form.isLogical : Form → Bool
  | .comparison .. | .existence _ | .startsWith .. => true
  | .conjunction left right | .disjunction left right => left.isLogical && right.isLogical
  | .negation operand | .isUnknown operand => operand.isLogical
  | _ => false

end

theorem Node.isPredicate_of_isLogical {n : Node} (h : n.isLogical = true) :
    n.isPredicate = true := by
  obtain ⟨form, declared⟩ := n
  cases form with
  | comparison | conjunction | disjunction | negation | existence | isUnknown | startsWith => rfl
  | _ => exact absurd h (by simp [Node.isLogical, Form.isLogical])

/-- The operands of a connective, which it asks for a truth value. -/
def Form.connected : Form → List Node
  | .conjunction left right | .disjunction left right => [left, right]
  | .negation operand | .isUnknown operand => [operand]
  | _ => []

/-- All connectives of a tree, at any depth, join predicates. -/
def Node.ConnectsPredicates (n : Node) : Prop :=
  ∀ f ∈ n.forms, ∀ p ∈ f.connected, p.isPredicate = true

instance (n : Node) : Decidable n.ConnectsPredicates :=
  inferInstanceAs (Decidable (∀ f ∈ n.forms, ∀ p ∈ f.connected, p.isPredicate = true))

/-- The nodes that a form asks for a truth value. -/
def Form.asked : Form → List Node
  | .filter _ predicate => [predicate]
  | form => form.connected

/-- All nodes of a tree that are asked for a truth value, in filters and by connectives, are
predicates. -/
def Node.AsksPredicates (n : Node) : Prop :=
  ∀ f ∈ n.forms, ∀ p ∈ f.asked, p.isPredicate = true

instance (n : Node) : Decidable n.AsksPredicates :=
  inferInstanceAs (Decidable (∀ f ∈ n.forms, ∀ p ∈ f.asked, p.isPredicate = true))

/-! ### Variables -/

/-- What the parameters hold for a variable; other forms look nothing up. -/
def Form.lookup (bindings : Bindings) : Form → Option (Except BindingError Item)
  | .named name => some (bindings.get name)
  | .positional position => some (bindings.getIndex position)
  | _ => none

/-- Whether a form is a variable without a value. -/
def Form.isUnbound (bindings : Bindings) (f : Form) : Bool :=
  match f.lookup bindings with
  | some (.error _) => true
  | _ => false

/-- All variables of a tree have a value. -/
def Node.BoundIn (bindings : Bindings) (n : Node) : Prop :=
  ∀ f ∈ n.forms, f.isUnbound bindings = false

instance (bindings : Bindings) (n : Node) : Decidable (n.BoundIn bindings) :=
  inferInstanceAs (Decidable (∀ f ∈ n.forms, f.isUnbound bindings = false))

end PathQuery
