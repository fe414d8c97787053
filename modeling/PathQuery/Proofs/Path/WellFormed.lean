import PathQuery.Path.Validity
import PathQuery.Proofs.Path.Tree

/-!
# Well-formed trees

The check of a tree carries two flags down the tree and stops at the first fault. Here a tree is looked at
as a whole instead: each node of it has a place, which is told by the roles of the node and of all nodes
around it. A tree is well formed if every node fits its place.

* `Form.children` — the nodes below a form, each with its role.
* `Node.Occurs` — a node at any depth of a tree, with its roles and those around it.
* `Form.InPlace` — what a form asks of the roles around it and of the nodes below it; `Node.WellFormed`
  asks it of every occurrence.
* `Node.children_induction` — induction over trees by children.
* `Form.checkIn_eq_ok_iff` — one step of the check: it looks at the form itself and goes to the children.
* `Node.check_eq_ok_iff_wellFormed` — the trees without faults are the well-formed ones.
-/

namespace PathQuery

/-! ### Occurrences -/

/-- How a node serves the node above it. -/
inductive Role where
  /-- An accessor, a filter or a method works on it. -/
  | target
  /-- A filter asks it of each candidate. -/
  | predicate
  /-- A subscript takes a position from it. -/
  | position
  /-- Arithmetic computes with it. -/
  | operand
  /-- A comparison, a connective or another predicate is made of it. -/
  | part
  deriving DecidableEq

/-- Whether a node can have a role. The predicate of a filter is one, and a predicate has no sequence to
work on, to take a position from or to compute with. -/
def Role.admits : Role → Node → Bool
  | .predicate, n => n.isPredicate
  | .target, n | .position, n | .operand, n => !n.isPredicate
  | .part, _ => true

/-- The nodes below a form with their roles. -/
def Form.children : Form → List (Role × Node)
  | .literal _ | .context | .current | .last | .named _ | .positional _ => []
  | .member target _ | .wildcardMember target | .descendant target _ | .method target _ =>
      [(.target, target)]
  | .elements target subscripts =>
      (.target, target) :: (subscripts.flatMap Subscript.positions).map fun n => (.position, n)
  | .filter target predicate => [(.target, target), (.predicate, predicate)]
  | .unary _ operand => [(.operand, operand)]
  | .binary _ left right => [(.operand, left), (.operand, right)]
  | .comparison _ left right | .conjunction left right | .disjunction left right
  | .startsWith left right => [(.part, left), (.part, right)]
  | .negation operand | .existence operand | .isUnknown operand => [(.part, operand)]

/-- A node occurs in a tree. The roles are its own, then those of the nodes around it from the inside
out; the root of the tree has none. -/
inductive Node.Occurs (root : Node) : List Role → Node → Prop
  | root : root.Occurs [] root
  | child {roles : List Role} {n : Node} {child : Role × Node} :
      root.Occurs roles n → child ∈ n.form.children → root.Occurs (child.1 :: roles) child.2

/-! ### Places -/

/-- A form fits its place among the roles around it. -/
structure Form.InPlace (roles : List Role) (f : Form) : Prop where
  /-- `@` lies in the predicate of a filter. -/
  current : f = .current → .predicate ∈ roles
  /-- `last` lies in a subscript. -/
  last : f = .last → .position ∈ roles
  template : ∀ target, f ≠ .method target (.datetime (some ""))
  children : ∀ child ∈ f.children, child.1.admits child.2 = true

/-- Every node of a tree fits its place. -/
def Node.WellFormed (root : Node) : Prop :=
  ∀ roles n, root.Occurs roles n → n.form.InPlace roles

/-- Every node of a tree fits its place when the tree itself stands among other roles. -/
def Node.WellFormedUnder (outer : List Role) (root : Node) : Prop :=
  ∀ roles n, root.Occurs roles n → n.form.InPlace (roles ++ outer)

theorem Form.inPlace_iff {roles : List Role} {f : Form} :
    f.InPlace roles ↔ (f = .current → .predicate ∈ roles) ∧ (f = .last → .position ∈ roles) ∧
      (∀ target, f ≠ .method target (.datetime (some ""))) ∧
      ∀ child ∈ f.children, child.1.admits child.2 = true :=
  ⟨fun h => ⟨h.current, h.last, h.template, h.children⟩, fun h => ⟨h.1, h.2.1, h.2.2.1, h.2.2.2⟩⟩

theorem Node.Occurs.inside {n m : Node} {child : Role × Node} {roles : List Role}
    (hchild : child ∈ n.form.children) (h : child.2.Occurs roles m) :
    n.Occurs (roles ++ [child.1]) m := by
  induction h with
  | root => exact .child .root hchild
  | child _ hmem ih => exact .child ih hmem

/-- What occurs in a tree is its root or occurs in a child of it. -/
theorem Node.Occurs.eq_or_inside {n m : Node} {roles : List Role} (h : n.Occurs roles m) :
    (roles = [] ∧ m = n) ∨ ∃ child ∈ n.form.children, ∃ inner : List Role,
      roles = inner ++ [child.1] ∧ child.2.Occurs inner m := by
  induction h with
  | root => exact Or.inl ⟨rfl, rfl⟩
  | @child roles m below _ hmem ih =>
    rcases ih with ⟨rfl, rfl⟩ | ⟨child, hchild, inner, rfl, hinner⟩
    · exact Or.inr ⟨below, hmem, [], rfl, .root⟩
    · exact Or.inr ⟨child, hchild, below.1 :: inner, rfl, .child hinner hmem⟩

/-- All nodes fit their places if the root does and all nodes in its children do. -/
theorem Node.wellFormedUnder_iff {n : Node} {outer : List Role} :
    n.WellFormedUnder outer ↔ n.form.InPlace outer ∧
      ∀ child ∈ n.form.children, child.2.WellFormedUnder (child.1 :: outer) := by
  constructor
  · intro h
    refine ⟨h [] n .root, fun child hchild roles m hm => ?_⟩
    have hinside := h _ _ (hm.inside hchild)
    rwa [List.append_assoc, List.singleton_append] at hinside
  · rintro ⟨hroot, hchildren⟩ roles m hm
    rcases hm.eq_or_inside with ⟨rfl, rfl⟩ | ⟨child, hchild, inner, rfl, hinner⟩
    · exact hroot
    · rw [List.append_assoc, List.singleton_append]
      exact hchildren child hchild inner m hinner

/-- **Induction by children.** All nodes below a node may be assumed to have the property. -/
theorem Node.children_induction {motive : Node → Prop}
    (step : ∀ n : Node, (∀ child ∈ n.form.children, motive child.2) → motive n) (n : Node) :
    motive n := by
  induction n with
  | literal | context | current | last | named | positional =>
    exact step _ (List.forall_mem_nil _)
  | member _ _ h | wildcardMember _ h | descendant _ _ h | unary _ _ h | method _ _ h | negation _ h
  | existence _ h | isUnknown _ h =>
    exact step _ (List.forall_mem_singleton.mpr h)
  | filter _ _ h h' | binary _ _ _ h h' | comparison _ _ _ h h' | conjunction _ _ h h'
  | disjunction _ _ h h' | startsWith _ _ h h' =>
    exact step _ (List.forall_mem_cons.mpr ⟨h, List.forall_mem_singleton.mpr h'⟩)
  | elements target subscripts htarget hsubscripts declared =>
    refine step _ (List.forall_mem_cons.mpr ⟨htarget, fun child hchild => ?_⟩)
    obtain ⟨n, hn, rfl⟩ := List.mem_map.mp hchild
    obtain ⟨s, hs, hn⟩ := List.mem_flatMap.mp hn
    exact hsubscripts s hs n hn

/-! ### The check -/

/-- What the check knows of the roles around a node. -/
def Surroundings.ofRoles (roles : List Role) : Surroundings where
  filter := .predicate ∈ roles
  subscript := .position ∈ roles

/-- Only the predicate of a filter and the positions of a subscript change what the check knows. -/
theorem Surroundings.ofRoles_cons (role : Role) (roles : List Role) :
    ofRoles (role :: roles) =
      match role with
      | .predicate => { ofRoles roles with filter := true }
      | .position => { ofRoles roles with subscript := true }
      | .target | .operand | .part => ofRoles roles := by
  cases role <;> simp [ofRoles]

section Faults

variable {around : Surroundings}

theorem Node.checkValue_eq_ok_iff {n : Node} : n.checkValue = .ok () ↔ n.isPredicate = false := by
  unfold Node.checkValue
  cases n.isPredicate <;> simp

theorem Method.check_eq_ok_iff {m : Method} : m.check = .ok () ↔ m ≠ .datetime (some "") := by
  unfold Method.check
  split
  · simp
  · next h => exact iff_of_true rfl fun hm => h hm

theorem Subscript.checkIn_eq_ok_iff {s : Subscript} :
    s.checkIn around = .ok () ↔
      ∀ n ∈ s.positions, n.isPredicate = false ∧ n.checkIn around = .ok () := by
  cases s <;>
    simp [Subscript.checkIn, Subscript.positions, check_bind_eq_ok, Node.checkValue_eq_ok_iff, and_assoc]

theorem Subscript.checkAll_eq_ok_iff {ss : List Subscript} :
    Subscript.checkAll around ss = .ok () ↔
      ∀ n ∈ ss.flatMap Subscript.positions, n.isPredicate = false ∧ n.checkIn around = .ok () := by
  induction ss with
  | nil => simp [Subscript.checkAll]
  | cons s ss ih =>
    rw [Subscript.checkAll, check_bind_eq_ok, Subscript.checkIn_eq_ok_iff, ih, List.flatMap_cons,
      List.forall_mem_append]

end Faults

/-- **One step of the check.** A form has no fault exactly if it fits its place and its children have no
faults in theirs. -/
theorem Form.checkIn_eq_ok_iff (roles : List Role) (f : Form) :
    f.checkIn (.ofRoles roles) = .ok () ↔ f.InPlace roles ∧
      ∀ child ∈ f.children, child.2.checkIn (.ofRoles (child.1 :: roles)) = .ok () := by
  rw [Form.inPlace_iff]
  cases f with
  | current => simp [Form.checkIn, Form.children, Surroundings.ofRoles]
  | last => simp [Form.checkIn, Form.children, Surroundings.ofRoles]
  | elements target subscripts =>
    have hchildren : ∀ P : Role × Node → Prop,
        (∀ child ∈ (Form.elements target subscripts).children, P child) ↔
          P (.target, target) ∧ ∀ n ∈ subscripts.flatMap Subscript.positions, P (.position, n) := by
      intro P
      rw [Form.children, List.forall_mem_cons, List.forall_mem_map]
    rw [hchildren, hchildren, Form.checkIn, check_bind_eq_ok, check_bind_eq_ok,
      Node.checkValue_eq_ok_iff, Subscript.checkAll_eq_ok_iff]
    simp [Role.admits, Surroundings.ofRoles_cons, forall_and, and_assoc, and_left_comm]
  | filter target predicate =>
    by_cases hp : predicate.isPredicate = true <;>
      simp [Form.checkIn, check_bind_eq_ok, Node.checkValue_eq_ok_iff, Form.children, Role.admits,
        Surroundings.ofRoles_cons, hp]
  | method target m =>
    simp [Form.checkIn, check_bind_eq_ok, Node.checkValue_eq_ok_iff, Method.check_eq_ok_iff,
      Form.children, Role.admits, Surroundings.ofRoles_cons, and_assoc]
  | _ =>
    simp [Form.checkIn, check_bind_eq_ok, Node.checkValue_eq_ok_iff, Form.children, Role.admits,
      Surroundings.ofRoles_cons, and_assoc, and_left_comm]

/-- The check among some roles accepts the trees that are well formed there. -/
theorem Node.checkIn_eq_ok_iff (n : Node) (roles : List Role) :
    n.checkIn (.ofRoles roles) = .ok () ↔ n.WellFormedUnder roles := by
  induction n using Node.children_induction generalizing roles with
  | step n ih =>
    have hform : n.checkIn (.ofRoles roles) = n.form.checkIn (.ofRoles roles) := by
      cases n
      rfl
    rw [hform, Form.checkIn_eq_ok_iff, Node.wellFormedUnder_iff]
    exact and_congr_right fun _ => forall₂_congr fun child hchild => ih child hchild _

/-- **The check accepts exactly the well-formed trees.** -/
theorem Node.check_eq_ok_iff_wellFormed (n : Node) : n.check = .ok () ↔ n.WellFormed := by
  have hcheck : n.check = .ok () ↔ n.WellFormedUnder [] := n.checkIn_eq_ok_iff []
  simp only [hcheck, Node.WellFormedUnder, Node.WellFormed, List.append_nil]

end PathQuery
