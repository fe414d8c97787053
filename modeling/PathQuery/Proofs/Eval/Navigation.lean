import PathQuery.Proofs.Eval.Failure

/-!
# Navigation in lax mode

Lax mode drops what an accessor does not find, so that going through a document cannot fail. What a filter
asks may fail inside, but a predicate keeps such failures to itself.

* `Node.IsNavigation` — a tree of accessors with fixed subscripts, `type`, `size` and filters over the
  input, literals and bound variables.
* `Node.eval_lax_neverFails` — such a tree has a sequence in every scope of lax mode.
* `Node.evaluate_lax_of_isNavigation` — so it has one for every document without failed conversions.
-/

namespace PathQuery

/-! ### Steps in lax mode -/

section Steps

variable (s : Sequence)

theorem Sequence.member_lax (name : String) : NeverFails (s.member .lax name) := by
  refine FailsOnly.collect (fun x => ?_) _
  cases x with
  | object members =>
    simp only [Item.member]
    cases Entries.get? name members <;> exact FailsOnly.ok _
  | _ => exact FailsOnly.ok _

theorem Sequence.wildcardMember_lax : NeverFails (s.wildcardMember .lax) := by
  refine FailsOnly.collect (fun x => ?_) _
  cases x <;> exact FailsOnly.ok _

theorem Sequence.size_lax : NeverFails (s.method .lax .size) := by
  refine FailsOnly.collect (fun x => ?_) _
  cases x <;> exact FailsOnly.ok _

/-- In lax mode every item has elements to choose from. -/
theorem Sequence.elements_lax {choose : List Item → Except EvalError Sequence}
    (h : ∀ elements, NeverFails (choose elements)) : NeverFails (s.elements .lax choose) := by
  refine FailsOnly.collect (fun x => ?_) s
  cases x <;> exact h _

end Steps

section Elements

variable (elements : List Item)

theorem Item.element_lax (position : Nat) : NeverFails (Item.element .lax elements position) := by
  unfold Item.element
  cases elements[position]? <;> exact FailsOnly.ok _

theorem Item.elementRange_lax (first final : Nat) :
    NeverFails (Item.elementRange .lax elements first final) := by
  rw [Item.elementRange, if_neg (by simp)]
  exact FailsOnly.ok _

theorem Item.lastElement_lax : NeverFails (Item.lastElement .lax elements) := by
  unfold Item.lastElement
  cases elements.getLast? <;> exact FailsOnly.ok _

end Elements

/-! ### Fixed subscripts -/

/-- A non-negative integer that is written out. -/
def Node.IsFixedPosition (n : Node) : Prop :=
  ∃ k : Int64, 0 ≤ k ∧ n.form = .literal (.int k)

theorem Node.IsFixedPosition.eval_eq {n : Node} (hn : n.IsFixedPosition) (scope : Scope) :
    ∃ k : Int64, 0 ≤ k ∧ n.eval scope = .ok [.int k] := by
  obtain ⟨k, hk, hform⟩ := hn
  obtain ⟨form, declared⟩ := n
  obtain rfl : form = .literal (.int k) := hform
  exact ⟨k, hk, rfl⟩

theorem Sequence.position_of_nonneg {k : Int64} (hk : 0 ≤ k) (mode : Mode) :
    Sequence.position mode [.int k] = .ok k.toInt.toNat := by
  have hnumber : Sequence.number mode .subscript [.int k] = .ok (.int k) := by cases mode <;> rfl
  have hnonneg : 0 ≤ k.toInt := Int64.le_iff_toInt_le.mp hk
  show (Sequence.number mode .subscript [.int k] >>= Number.position) = _
  rw [hnumber]
  show Number.position (.int k) = _
  simp only [Number.position, Number.toInt?, if_pos hnonneg]

theorem Subscript.choose_lax {scope : Scope} (hlax : scope.mode = .lax) (elements : List Item)
    {s : Subscript} (hs : ∀ n ∈ s.positions, n.IsFixedPosition) :
    NeverFails (s.choose scope elements) := by
  cases s with
  | index position =>
    obtain ⟨k, hk, heval⟩ :=
      Node.IsFixedPosition.eval_eq (hs position (by simp [Subscript.positions])) scope
    simp only [Subscript.choose, heval, hlax]
    show NeverFails (Sequence.position .lax [.int k] >>= Item.element .lax elements)
    rw [Sequence.position_of_nonneg hk]
    exact Item.element_lax elements _
  | range first final =>
    obtain ⟨k, hk, hfirst⟩ :=
      Node.IsFixedPosition.eval_eq (hs first (by simp [Subscript.positions])) scope
    obtain ⟨l, hl, hfinal⟩ :=
      Node.IsFixedPosition.eval_eq (hs final (by simp [Subscript.positions])) scope
    simp only [Subscript.choose, hfirst, hfinal, hlax]
    show NeverFails (Sequence.position .lax [.int k] >>= fun a =>
      Sequence.position .lax [.int l] >>= Item.elementRange .lax elements a)
    rw [Sequence.position_of_nonneg hk, Sequence.position_of_nonneg hl]
    exact Item.elementRange_lax elements _ _
  | last =>
    simp only [Subscript.choose, hlax]
    exact Item.lastElement_lax elements
  | wildcard => exact FailsOnly.ok _

theorem Subscript.chooseAll_lax {scope : Scope} (hlax : scope.mode = .lax) (elements : List Item)
    {ss : List Subscript} (h : ∀ s ∈ ss, ∀ n ∈ s.positions, n.IsFixedPosition) :
    NeverFails (Subscript.chooseAll scope elements ss) := by
  induction ss with
  | nil => exact FailsOnly.ok []
  | cons s ss ih =>
    obtain ⟨hs, hss⟩ := List.forall_mem_cons.mp h
    simp only [Subscript.chooseAll]
    refine FailsOnly.bind (Subscript.choose_lax hlax elements hs) (fun xs => ?_)
    exact FailsOnly.bind (ih hss) (fun ys => FailsOnly.ok _)

/-! ### Trees -/

/-- A tree that goes through a document: accessors, with subscripts that are fixed, `type`, `size` and
filters, from the input, from literals and from bound variables. A filter may ask anything of a
candidate that has a truth value, as long as its variables are bound. -/
inductive Node.IsNavigation (bindings : Bindings) : Node → Prop
  | context {declared : Option SqlType} : IsNavigation bindings (.mk .context declared)
  | literal {value : Literal} {declared : Option SqlType} :
      IsNavigation bindings (.mk (.literal value) declared)
  | named {name : String} {declared : Option SqlType} {x : Item} :
      bindings.get name = .ok x → IsNavigation bindings (.mk (.named name) declared)
  | positional {position : Nat} {declared : Option SqlType} {x : Item} :
      bindings.getIndex position = .ok x → IsNavigation bindings (.mk (.positional position) declared)
  | member {target : Node} {name : String} {declared : Option SqlType} :
      target.IsNavigation bindings → IsNavigation bindings (.mk (.member target name) declared)
  | wildcardMember {target : Node} {declared : Option SqlType} :
      target.IsNavigation bindings → IsNavigation bindings (.mk (.wildcardMember target) declared)
  | descendant {target : Node} {name : String} {declared : Option SqlType} :
      target.IsNavigation bindings → IsNavigation bindings (.mk (.descendant target name) declared)
  | elements {target : Node} {subscripts : List Subscript} {declared : Option SqlType} :
      target.IsNavigation bindings → (∀ s ∈ subscripts, ∀ n ∈ s.positions, n.IsFixedPosition) →
      IsNavigation bindings (.mk (.elements target subscripts) declared)
  | type {target : Node} {declared : Option SqlType} :
      target.IsNavigation bindings → IsNavigation bindings (.mk (.method target .type) declared)
  | size {target : Node} {declared : Option SqlType} :
      target.IsNavigation bindings → IsNavigation bindings (.mk (.method target .size) declared)
  | filter {target predicate : Node} {declared : Option SqlType} :
      target.IsNavigation bindings → predicate.isLogical = true → predicate.BoundIn bindings →
      IsNavigation bindings (.mk (.filter target predicate) declared)

/-- A bound variable has its value as its sequence. -/
theorem ofBinding_neverFails {r : Except BindingError Item} {x : Item} (h : r = .ok x) :
    NeverFails (ofBinding r) := by
  rw [h]
  exact FailsOnly.ok _

/-- **Navigation never fails in lax mode**, whatever the scope is otherwise. -/
theorem Node.eval_lax_neverFails {n : Node} {bindings : Bindings} (hn : n.IsNavigation bindings)
    {scope : Scope} (hlax : scope.mode = .lax) (hbindings : scope.bindings = bindings) :
    NeverFails (n.eval scope) := by
  subst hbindings
  induction hn with
  | context | literal => exact FailsOnly.ok _
  | named h => exact ofBinding_neverFails h
  | positional h => exact ofBinding_neverFails h
  | member _ ih =>
    refine FailsOnly.bind ih (fun s => ?_)
    rw [hlax]
    exact s.member_lax _
  | wildcardMember _ ih =>
    refine FailsOnly.bind ih (fun s => ?_)
    rw [hlax]
    exact s.wildcardMember_lax
  | descendant _ ih => exact FailsOnly.bind ih fun s => FailsOnly.ok _
  | elements _ hsubscripts ih =>
    refine FailsOnly.bind ih (fun s => ?_)
    rw [hlax]
    exact s.elements_lax fun elements => Subscript.chooseAll_lax rfl elements hsubscripts
  | type _ ih => exact FailsOnly.bind ih fun s => FailsOnly.ok _
  | size _ ih =>
    refine FailsOnly.bind ih (fun s => ?_)
    rw [hlax]
    exact s.size_lax
  | filter _ hlogical hbound ih =>
    -- The predicate keeps all failures of its operands to itself.
    refine FailsOnly.bind ih (fun s => Sequence.select_failsOnly (fun x => ?_) _)
    exact Node.truth_neverFails_of_boundIn { scope with current := some x } hlogical hbound

/-- **Lax navigation is total.** A tree that goes through a document has a sequence in lax mode for every
input and parameters without failed conversions. -/
theorem Node.evaluate_lax_of_isNavigation {n : Node} {bindings : Bindings}
    (hn : n.IsNavigation bindings) (hbindings : ∀ b ∈ bindings.entries, b.2.hasFailure = false)
    {input : Item} (hinput : input.hasFailure = false) :
    ∃ s, n.evaluate .lax input bindings = .ok s := by
  rw [Node.evaluate_of_clean (failedConversion?_eq_none_iff.mpr ⟨hinput, hbindings⟩)]
  exact (Node.eval_lax_neverFails hn rfl rfl).exists_ok

/-- A range beyond the elements of an array, and a filter that divides by zero. -/
theorem Node.evaluate_lax_of_isNavigation_of_long_range :
    let predicate := either (compared .greater (arithmetic .divide current (literal (.int 0)))
      (named "x")) (negated (compared .equal (member "b" current) (literal (.int 1))))
    let tree := method .size (filter (range 1 0x7fffffffffffffff (member "a" context)) predicate)
    let bindings := Bindings.empty.insert "x" (.int 0)
    let input := Item.object [("a", .array [.null, .object [("b", .int 1)], .array [.null]])]
    tree.IsNavigation bindings ∧ (∀ b ∈ bindings.entries, b.2.hasFailure = false) ∧
      input.hasFailure = false ∧ ∃ s, tree.evaluate .lax input bindings = .ok s := by
  intro predicate tree bindings input
  have hsubscripts : ∀ s ∈ [Subscript.range (literal (.int 1)) (literal (.int 0x7fffffffffffffff))],
      ∀ n ∈ s.positions, n.IsFixedPosition :=
    List.forall_mem_singleton.mpr (List.forall_mem_cons.mpr
      ⟨⟨1, by decide, rfl⟩, List.forall_mem_singleton.mpr ⟨0x7fffffffffffffff, by decide, rfl⟩⟩)
  have htree : tree.IsNavigation bindings :=
    .size (.filter (.elements (.member .context) hsubscripts) rfl (by decide))
  have hbindings : ∀ b ∈ bindings.entries, b.2.hasFailure = false := by decide
  exact ⟨htree, hbindings, rfl, Node.evaluate_lax_of_isNavigation htree hbindings rfl⟩

end PathQuery
