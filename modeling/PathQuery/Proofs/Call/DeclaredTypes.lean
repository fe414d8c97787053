import PathQuery.Call.Basic
import PathQuery.Proofs.Path.Bare

/-!
# What declared types do

Of all the types that a tree declares, only the one at its root is ever looked at, and only where a scalar
result is converted and the call asks for no type of its own.

* `Node.eval_bare` — a tree evaluates as it does without its declared types, in every scope.
* `Path.sequence_congr` — so all functions come to one sequence for trees that differ in them.
* `Node.declared_types_inert` — check, text, evaluation and calls of such trees.
-/

namespace PathQuery

/-! ### Evaluation -/

theorem Subscript.choose_bare {scope : Scope} (elements : List Item) {s : Subscript}
    (hs : ∀ n ∈ s.positions, n.bare.eval scope = n.eval scope) :
    s.bare.choose scope elements = s.choose scope elements := by
  cases s with
  | index position =>
    have hposition := hs position (by simp [Subscript.positions])
    rw [Subscript.bare, Subscript.choose, hposition, Subscript.choose]
  | range first final =>
    have hfirst := hs first (by simp [Subscript.positions])
    have hfinal := hs final (by simp [Subscript.positions])
    rw [Subscript.bare, Subscript.choose, hfirst, hfinal, Subscript.choose]
  | last | wildcard => rfl

theorem Subscript.chooseAll_bareAll {scope : Scope} (elements : List Item) {ss : List Subscript}
    (hss : ∀ s ∈ ss, ∀ n ∈ s.positions, n.bare.eval scope = n.eval scope) :
    Subscript.chooseAll scope elements (Subscript.bareAll ss) =
      Subscript.chooseAll scope elements ss := by
  induction ss with
  | nil => rfl
  | cons s ss ih =>
    obtain ⟨hs, hss⟩ := List.forall_mem_cons.mp hss
    rw [Subscript.bareAll, Subscript.chooseAll, Subscript.choose_bare elements hs, ih hss,
      Subscript.chooseAll]

/-- **Declared types have no part in evaluation.** The error of a node without a truth value quotes the
text of the node, which does not show them. -/
theorem Node.eval_bare (n : Node) :
    (∀ scope, n.bare.eval scope = n.eval scope) ∧ ∀ scope, n.bare.truth scope = n.truth scope := by
  refine Node.evaluation_induction (E := fun n => ∀ scope, n.bare.eval scope = n.eval scope)
    (T := fun n => ∀ scope, n.bare.truth scope = n.truth scope)
    ?literal ?context ?current ?last ?named ?positional ?member ?wildcardMember ?descendant
    ?elements ?filter ?unary ?binary ?method ?comparison ?conjunction ?disjunction ?negation
    ?existence ?isUnknown ?startsWith ?predicate ?other n
  case literal | named | positional => exact fun _ _ _ => rfl
  case context | current | last => exact fun _ _ => rfl
  case wildcardMember =>
    intro target ih declared scope
    simp only [Node.bare, Form.bare, Node.eval, Form.eval, ih]
  case member | descendant | method =>
    intro target _ ih declared scope
    simp only [Node.bare, Form.bare, Node.eval, Form.eval, ih]
  case unary =>
    intro sign operand ih declared scope
    simp only [Node.bare, Form.bare, Node.eval, Form.eval, ih]
  case binary =>
    intro op left right ihl ihr declared scope
    simp only [Node.bare, Form.bare, Node.eval, Form.eval, ihl, ihr]
  case elements =>
    intro target subscripts ih ihs declared scope
    have hchoose : ∀ (inner : Scope) (elements : List Item),
        Subscript.chooseAll inner elements (Subscript.bareAll subscripts) =
          Subscript.chooseAll inner elements subscripts := fun inner elements =>
      Subscript.chooseAll_bareAll elements fun s hs n hn => ihs s hs n hn inner
    simp only [Node.bare, Form.bare, Node.eval, Form.eval, ih, hchoose]
  case filter =>
    intro target predicate ih ihp declared scope
    simp only [Node.bare, Form.bare, Node.eval, Form.eval, ih, ihp]
  case comparison =>
    intro op left right ihl ihr declared scope
    simp only [Node.bare, Form.bare, Node.truth, Form.truth, ihl, ihr]
  case conjunction | disjunction | startsWith =>
    intro left right ihl ihr declared scope
    simp only [Node.bare, Form.bare, Node.truth, Form.truth, ihl, ihr]
  case negation | existence | isUnknown =>
    intro operand ih declared scope
    simp only [Node.bare, Form.bare, Node.truth, Form.truth, ih]
  case predicate =>
    intro p hp ih scope
    rw [Node.eval_of_isPredicate (p.isPredicate_bare.trans hp), Node.eval_of_isPredicate hp, ih]
  case other =>
    intro p hp scope
    rw [Node.truth_of_not_isPredicate (p.isPredicate_bare.trans hp),
      Node.truth_of_not_isPredicate hp, Node.text_bare]

theorem Node.eval_congr {n m : Node} (h : n.bare = m.bare) (scope : Scope) :
    n.eval scope = m.eval scope := by
  rw [← n.eval_bare.1 scope, h, m.eval_bare.1 scope]

/-! ### Calls -/

namespace Path

variable {p q : Path} {input : Item} {row : ParameterRow}

theorem sequence_congr (hmode : p.mode = q.mode) (hroot : p.root.bare = q.root.bare)
    (function : SqlFunction) : p.sequence function input row = q.sequence function input row := by
  simp only [sequence, hmode, Node.eval_congr hroot]

theorem exists?_congr (hmode : p.mode = q.mode) (hroot : p.root.bare = q.root.bare)
    (onError : ExistsBehavior) : p.exists? input row onError = q.exists? input row onError := by
  rw [exists?, sequence_congr hmode hroot, exists?]

theorem query?_congr (hmode : p.mode = q.mode) (hroot : p.root.bare = q.root.bare)
    (options : QueryOptions) : p.query? input row options = q.query? input row options := by
  simp only [query?, sequence_congr hmode hroot]

/-- A scalar is converted to the same type unless the roots declare different ones that count. -/
theorem target_congr {options : ValueOptions}
    (htype : p.root.declared = q.root.declared ∨ options.returning.isSome = true) :
    p.target options = q.target options := by
  rcases htype with hdeclared | hreturning
  · rw [target, hdeclared, target]
  · obtain ⟨type, htype⟩ := Option.isSome_iff_exists.mp hreturning
    rw [target, htype, target, htype]
    rfl

theorem value?_congr (hmode : p.mode = q.mode) (hroot : p.root.bare = q.root.bare)
    {options : ValueOptions} (htarget : p.target options = q.target options) (coercion : Coercion) :
    p.value? coercion input row options = q.value? coercion input row options := by
  simp only [value?, sequence_congr hmode hroot, htarget]

end Path

/-- **Declared types are inert.** Two trees that differ in nothing else have the same faults, the same text
and, for every input and all parameters, the same sequence or the same error. As paths of one mode they
give the same results in all functions; in the one that converts a scalar they do so if the types at their
roots are the same or the call asks for a type. -/
theorem Node.declared_types_inert {n m : Node} (h : n.bare = m.bare) :
    n.check = m.check ∧ n.text = m.text ∧
    (∀ mode input bindings, n.evaluate mode input bindings = m.evaluate mode input bindings) ∧
    ∀ p q : Path, p.root = n → q.root = m → p.mode = q.mode →
      p.text = q.text ∧ ∀ input row,
        (∀ onError, p.exists? input row onError = q.exists? input row onError) ∧
        (∀ options, p.query? input row options = q.query? input row options) ∧
        ∀ coercion options, n.declared = m.declared ∨ options.returning.isSome = true →
          p.value? coercion input row options = q.value? coercion input row options := by
  have hcheck : n.check = m.check := by
    rw [← n.check_bare, h, m.check_bare]
  have htext : n.text = m.text := by
    rw [← n.text_bare, h, m.text_bare]
  refine ⟨hcheck, htext, fun mode input bindings => ?_, ?_⟩
  · rw [Node.evaluate, Node.eval_congr h, Node.evaluate]
  · rintro p q rfl rfl hmode
    refine ⟨?_, fun input row => ⟨fun onError => ?_, fun options => ?_, ?_⟩⟩
    · rw [Path.text, hmode, htext, Path.text]
    · exact Path.exists?_congr hmode h onError
    · exact Path.query?_congr hmode h options
    · intro coercion options htype
      exact Path.value?_congr hmode h (Path.target_congr htype) coercion

/-- Types in the operands of a filter, and other types at the root, do not matter where a type is asked
for; where none is, the one at the root matters. -/
theorem Node.declared_types_inert_of_filter :
    let tree (inner root : SqlType) : Node :=
      (filter ((member "a" (context.withDeclared inner)).withDeclared .date)
        (compared .less (current.withDeclared inner) (literal (.int 5)))).withDeclared root
    let n := tree .boolean .double
    let m := tree (.varchar (some 3)) .bigInt
    let input := Item.object [("a", .array [.int 7, .int 4])]
    let p : Path := ⟨.lax, n, rfl⟩
    let q : Path := ⟨.lax, m, rfl⟩
    n.bare = m.bare ∧ n.declared ≠ m.declared ∧ n.text = "$.a ? (@ < 5)" ∧ m.text = n.text ∧
      m.evaluate .lax input .empty = .ok [.int 4] ∧
      n.evaluate .lax input .empty = .ok [.int 4] ∧
      (∀ options, p.query? input [] options = q.query? input [] options) ∧
      p.value? Coercion.standard input [] { returning := some .integer } =
        q.value? Coercion.standard input [] { returning := some .integer } ∧
      p.value? Coercion.standard input [] {} = .ok (some (.double (.ofInt 4))) ∧
      q.value? Coercion.standard input [] {} = .ok (some (.bigInt 4)) := by
  intro tree n m input p q
  have hbare : n.bare = m.bare := by rfl
  have heval : m.evaluate .lax input .empty = .ok [.int 4] := by rfl
  obtain ⟨-, htext, hevaluate, hcalls⟩ := Node.declared_types_inert hbare
  obtain ⟨-, hquery, hvalue⟩ := (hcalls p q rfl rfl rfl).2 input []
  refine ⟨hbare, by decide, by rfl, htext.symm, heval, (hevaluate ..).trans heval, hquery, ?_, by rfl,
    by rfl⟩
  exact hvalue Coercion.standard { returning := some .integer } (Or.inr rfl)

end PathQuery
