import PathQuery.Eval.Basic
import PathQuery.Proofs.Path.Tree

/-!
# Input in an array of its own

In lax mode an item that is no array and the array of that one item are the same input to a path. Each
step that meets the input itself takes it apart in the same way: it unwraps the array or else views the
item as an array. The exceptions are the path `$`, which is the input, and `$.type()`, which tells an
array from its element.

* `Node.apply_wrapped` — what does not tell the two inputs apart has the same value for the two
  evaluations of any node.
* `Node.eval_wrapped` — all nodes but `$` have the same result for both inputs.
-/

namespace PathQuery

/-- Whether a form is `$`. -/
def Form.isContext : Form → Bool
  | .context => true
  | _ => false

/-- Whether a form is `$.type()`. -/
def Form.isTypeOfInput : Form → Bool
  | .method target .type => target.form.isContext
  | _ => false

/-! ### Steps -/

section Steps

variable {x : Item} (hx : x.isArray = false)

include hx

theorem Sequence.unwrap_wrapped : Sequence.unwrap .lax [.array [x]] = Sequence.unwrap .lax [x] := by
  rw [Sequence.unwrap_lax, Sequence.unwrap_lax, List.flatMap_singleton, List.flatMap_singleton,
    Item.spread_of_not_isArray hx]
  rfl

theorem Item.elements?_of_not_isArray : x.elements? .lax = some [x] := by
  cases x with
  | array elements => exact absurd hx (by simp [Item.isArray])
  | _ => rfl

theorem Item.size_of_not_isArray : x.size .lax = .ok [.int 1] := by
  cases x with
  | array elements => exact absurd hx (by simp [Item.isArray])
  | _ => rfl

theorem Sequence.elements_wrapped (choose : List Item → Except EvalError Sequence) :
    Sequence.elements .lax choose [.array [x]] = Sequence.elements .lax choose [x] := by
  simp only [Sequence.elements, Sequence.collect, Item.elements?_of_not_isArray hx]
  rfl

omit hx in
theorem Sequence.descendants_wrapped (name : String) :
    Sequence.descendants name [.array [x]] = Sequence.descendants name [x] := by
  simp [Sequence.descendants, Item.descendants, Item.elementDescendants]

theorem Sequence.number_wrapped (place : NumberPlace) :
    Sequence.number .lax place [.array [x]] = Sequence.number .lax place [x] := by
  unfold Sequence.number
  rw [Sequence.unwrap_wrapped hx]

theorem Sequence.position_wrapped :
    Sequence.position .lax [.array [x]] = Sequence.position .lax [x] := by
  unfold Sequence.position
  rw [Sequence.number_wrapped hx]

theorem Sequence.method_wrapped {m : Method} (hm : m ≠ .type) :
    Sequence.method .lax m [.array [x]] = Sequence.method .lax m [x] := by
  cases m with
  | type => exact absurd rfl hm
  | size =>
    simp only [Sequence.method, Sequence.collect, Item.size_of_not_isArray hx]
    rfl
  | _ => simp only [Sequence.method, Sequence.unwrap_wrapped hx]

end Steps

/-! ### Predicates and their unwrapped operands -/

section Operands

variable {mode : Mode} {l l' r r' : Except EvalError Sequence}

/-- An operand counts only through what it is when unwrapped. -/
theorem tolerate_bind_congr {f : Sequence → Sequence} (h : l.map f = l'.map f)
    (g : Sequence → Except EvalError Truth) :
    (tolerate l >>= fun a => match a with
      | none => pure .unknown
      | some a => g (f a)) =
    (tolerate l' >>= fun a => match a with
      | none => pure .unknown
      | some a => g (f a)) := by
  cases l with
  | error e =>
    cases l' with
    | error e' => rw [Except.error.inj h]
    | ok a' => cases h
  | ok a =>
    cases l' with
    | error e' => cases h
    | ok a' => exact congrArg g (Except.ok.inj h)

theorem Truth.compare_congr {op : ComparisonOp}
    (hl : l.map (Sequence.unwrap mode) = l'.map (Sequence.unwrap mode))
    (hr : r.map (Sequence.unwrap mode) = r'.map (Sequence.unwrap mode)) :
    Truth.compare mode op l (fun _ => r) = Truth.compare mode op l' (fun _ => r') := by
  refine (tolerate_bind_congr hl fun a => tolerate r >>= fun b => match b with
    | none => pure .unknown
    | some b => pure (Truth.ofOperands op a (b.unwrap mode))).trans ?_
  refine bind_congr (fun a => ?_)
  cases a with
  | none => rfl
  | some a => exact tolerate_bind_congr hr fun b => pure (Truth.ofOperands op (a.unwrap mode) b)

/-- The truth of `starts with` for a beginning that is one text. -/
def Truth.ofWhole (mode : Mode) (whole : Except EvalError Sequence) (text : String) :
    Except EvalError Truth := do
  match ← tolerate whole with
  | none => return .unknown
  | some w => return .ofPrefixes mode text (w.unwrap mode)

/-- The truth of `starts with` by that of a text, which the beginning must be. -/
def Truth.ofInitial (ofText : String → Except EvalError Truth) :
    Sequence → Except EvalError Truth
  | [.string text] => ofText text
  | _ => pure .unknown

theorem Truth.startsWith_congr
    (hl : l.map (Sequence.unwrap mode) = l'.map (Sequence.unwrap mode))
    (hr : r.map (Sequence.unwrap mode) = r'.map (Sequence.unwrap mode)) :
    Truth.startsWith mode l (fun _ => r) = Truth.startsWith mode l' (fun _ => r') := by
  have hwhole : Truth.ofWhole mode r = Truth.ofWhole mode r' := by
    funext text
    exact tolerate_bind_congr hr fun b => pure (Truth.ofPrefixes mode text b)
  have hinitial := tolerate_bind_congr hl (Truth.ofInitial (Truth.ofWhole mode r))
  refine hinitial.trans (bind_congr fun a => ?_)
  rw [hwhole]
  rfl

end Operands

/-! ### Nodes -/

/-- The same scope with the input in an array of its own. -/
def Scope.wrapped (scope : Scope) : Scope :=
  { scope with root := .array [scope.root] }

theorem Scope.wrapped_mode (scope : Scope) : scope.wrapped.mode = scope.mode := rfl

/-- What does not tell the input from the array of it does not tell the two evaluations apart. -/
theorem Node.apply_wrapped {β : Type} {n : Node} {scope : Scope}
    (hn : n.form.isContext = false → n.eval scope.wrapped = n.eval scope)
    (f : Except EvalError Sequence → β)
    (hf : f (.ok [.array [scope.root]]) = f (.ok [scope.root])) :
    f (n.eval scope.wrapped) = f (n.eval scope) := by
  cases hc : n.form.isContext with
  | false => rw [hn hc]
  | true =>
    obtain ⟨form, declared⟩ := n
    cases form with
    | context => exact hf
    | _ => exact absurd hc (by simp [Node.form, Form.isContext])

theorem Node.unwrap_wrapped {n : Node} {scope : Scope} (hx : scope.root.isArray = false)
    (hn : n.form.isContext = false → n.eval scope.wrapped = n.eval scope) :
    (n.eval scope.wrapped).map (Sequence.unwrap .lax) =
      (n.eval scope).map (Sequence.unwrap .lax) :=
  Node.apply_wrapped hn (Except.map (Sequence.unwrap .lax))
    (congrArg Except.ok (Sequence.unwrap_wrapped hx))

/-- A step that does not tell the input from the array of it. -/
theorem Node.bind_wrapped {β : Type} {n : Node} {scope : Scope}
    (hn : n.form.isContext = false → n.eval scope.wrapped = n.eval scope)
    (step : Sequence → Except EvalError β) (hstep : step [.array [scope.root]] = step [scope.root]) :
    (n.eval scope.wrapped >>= step) = (n.eval scope >>= step) :=
  Node.apply_wrapped hn (· >>= step) hstep

theorem Subscript.choose_wrapped {scope : Scope} (hlax : scope.mode = .lax)
    (hx : scope.root.isArray = false) (elements : List Item) {s : Subscript}
    (hs : ∀ n ∈ s.positions, n.form.isContext = false → n.eval scope.wrapped = n.eval scope) :
    s.choose scope.wrapped elements = s.choose scope elements := by
  have hmode : scope.wrapped.mode = .lax := hlax
  cases s with
  | index position =>
    simp only [Subscript.choose, hmode, hlax]
    refine Node.bind_wrapped (hs position (by simp [Subscript.positions])) _ ?_
    rw [Sequence.position_wrapped hx]
  | range first final =>
    simp only [Subscript.choose, hmode, hlax]
    have hfinal : ∀ a : Nat,
        (final.eval scope.wrapped >>= fun r => r.position .lax >>= fun b =>
          Item.elementRange .lax elements a b) =
        (final.eval scope >>= fun r => r.position .lax >>= fun b =>
          Item.elementRange .lax elements a b) := by
      intro a
      refine Node.bind_wrapped (hs final (by simp [Subscript.positions])) _ ?_
      rw [Sequence.position_wrapped hx]
    simp only [hfinal]
    refine Node.bind_wrapped (hs first (by simp [Subscript.positions])) _ ?_
    rw [Sequence.position_wrapped hx]
  | last => simp only [Subscript.choose, hmode, hlax]
  | wildcard => simp only [Subscript.choose]

theorem Subscript.chooseAll_wrapped (scope : Scope) (hlax : scope.mode = .lax)
    (hx : scope.root.isArray = false) (elements : List Item) {ss : List Subscript}
    (hss : ∀ s ∈ ss, ∀ n ∈ s.positions,
      n.form.isContext = false → n.eval scope.wrapped = n.eval scope) :
    Subscript.chooseAll scope.wrapped elements ss = Subscript.chooseAll scope elements ss := by
  induction ss with
  | nil => simp only [Subscript.chooseAll]
  | cons s ss ih =>
    obtain ⟨hs, hss⟩ := List.forall_mem_cons.mp hss
    simp only [Subscript.chooseAll]
    rw [Subscript.choose_wrapped hlax hx elements hs, ih hss]

/-- **The input and the array of it give the same results.** In lax mode all nodes but `$` have the same
sequence, and all nodes the same truth value, for an input that is no array and for the array of it. -/
theorem Node.eval_wrapped (n : Node) :
    ((∀ f ∈ n.forms, f.isTypeOfInput = false) → ∀ scope : Scope, scope.mode = .lax →
      scope.root.isArray = false → n.form.isContext = false →
      n.eval scope.wrapped = n.eval scope) ∧
    ((∀ f ∈ n.forms, f.isTypeOfInput = false) → ∀ scope : Scope, scope.mode = .lax →
      scope.root.isArray = false → n.truth scope.wrapped = n.truth scope) := by
  refine Node.evaluation_induction
    (E := fun n => (∀ f ∈ n.forms, f.isTypeOfInput = false) → ∀ scope : Scope,
      scope.mode = .lax → scope.root.isArray = false → n.form.isContext = false →
      n.eval scope.wrapped = n.eval scope)
    (T := fun n => (∀ f ∈ n.forms, f.isTypeOfInput = false) → ∀ scope : Scope,
      scope.mode = .lax → scope.root.isArray = false → n.truth scope.wrapped = n.truth scope)
    ?literal ?context ?current ?last ?named ?positional ?member ?wildcardMember ?descendant
    ?elements ?filter ?unary ?binary ?method ?comparison ?conjunction ?disjunction ?negation
    ?existence ?isUnknown ?startsWith ?predicate ?other n
  case literal => exact fun _ _ _ _ _ _ _ => rfl
  case context => exact fun _ _ _ _ _ h => absurd h (by simp [Node.form, Form.isContext])
  case current => exact fun _ _ _ _ _ _ => rfl
  case last => exact fun _ _ _ _ _ _ => rfl
  case named => exact fun _ _ _ _ _ _ _ => rfl
  case positional => exact fun _ _ _ _ _ _ _ => rfl
  case member =>
    intro target name ih declared hn scope hlax hx _
    refine Node.bind_wrapped (ih (Node.forall_forms.mp hn).2 scope hlax hx) _ ?_
    simp only [Sequence.member, Scope.wrapped, hlax, Sequence.unwrap_wrapped hx]
  case wildcardMember =>
    intro target ih declared hn scope hlax hx _
    refine Node.bind_wrapped (ih (Node.forall_forms.mp hn).2 scope hlax hx) _ ?_
    simp only [Sequence.wildcardMember, Scope.wrapped, hlax, Sequence.unwrap_wrapped hx]
  case descendant =>
    intro target name ih declared hn scope hlax hx _
    refine Node.bind_wrapped (ih (Node.forall_forms.mp hn).2 scope hlax hx) _ ?_
    rw [Sequence.descendants_wrapped]
  case elements =>
    intro target subscripts ih ihs declared hn scope hlax hx _
    obtain ⟨htarget, hsubscripts⟩ := List.forall_mem_append.mp (Node.forall_forms.mp hn).2
    have hchoose : (fun elements => Subscript.chooseAll
          { scope.wrapped with last := some (lastIndex elements) } elements subscripts) =
        fun elements => Subscript.chooseAll
          { scope with last := some (lastIndex elements) } elements subscripts := by
      funext elements
      refine Subscript.chooseAll_wrapped { scope with last := some (lastIndex elements) } hlax hx
        elements (fun s hs n hmem => ?_)
      exact ihs s hs n hmem ((Subscript.forall_innerAll subscripts).mp hsubscripts s hs n hmem)
        { scope with last := some (lastIndex elements) } hlax hx
    simp only [Node.eval, Form.eval, hchoose]
    refine Node.bind_wrapped (ih htarget scope hlax hx) _ ?_
    simp only [Scope.wrapped, hlax, Sequence.elements_wrapped hx]
  case filter =>
    intro target predicate ih ihp declared hn scope hlax hx _
    obtain ⟨htarget, hpredicate⟩ := List.forall_mem_append.mp (Node.forall_forms.mp hn).2
    have hselect : (fun x => predicate.truth { scope.wrapped with current := some x }) =
        fun x => predicate.truth { scope with current := some x } := by
      funext x
      exact ihp hpredicate { scope with current := some x } hlax hx
    simp only [Node.eval, Form.eval, hselect]
    refine Node.bind_wrapped (ih htarget scope hlax hx) _ ?_
    simp only [Scope.wrapped, hlax, Sequence.unwrap_wrapped hx]
  case unary =>
    intro sign operand ih declared hn scope hlax hx _
    refine Node.bind_wrapped (ih (Node.forall_forms.mp hn).2 scope hlax hx) _ ?_
    simp only [Scope.wrapped, hlax, Sequence.number_wrapped hx]
  case binary =>
    intro op left right ihl ihr declared hn scope hlax hx _
    obtain ⟨hleft, hright⟩ := List.forall_mem_append.mp (Node.forall_forms.mp hn).2
    have hsecond : ∀ a : Number,
        (right.eval scope.wrapped >>= fun r => r.number .lax .rightOperand >>= fun b =>
          a.arithmetic op b >>= fun c => Except.ok [Item.number c]) =
        (right.eval scope >>= fun r => r.number .lax .rightOperand >>= fun b =>
          a.arithmetic op b >>= fun c => Except.ok [Item.number c]) := by
      intro a
      refine Node.bind_wrapped (ihr hright scope hlax hx) _ ?_
      rw [Sequence.number_wrapped hx]
    simp only [Node.eval, Form.eval, Scope.wrapped_mode, hlax]
    refine (Node.bind_wrapped (ihl hleft scope hlax hx) _ ?_).trans
      (bind_congr fun l => bind_congr hsecond)
    rw [Sequence.number_wrapped hx]
  case method =>
    intro target m ih declared hn scope hlax hx _
    obtain ⟨hform, htarget⟩ := Node.forall_forms.mp hn
    by_cases hm : m = .type
    · subst hm
      simp only [Node.eval, Form.eval, Scope.wrapped_mode, ih htarget scope hlax hx hform]
    · refine Node.bind_wrapped (ih htarget scope hlax hx) _ ?_
      simp only [Scope.wrapped, hlax, Sequence.method_wrapped hx hm]
  case comparison =>
    intro op left right ihl ihr declared hn scope hlax hx
    obtain ⟨hleft, hright⟩ := List.forall_mem_append.mp (Node.forall_forms.mp hn).2
    simp only [Node.truth, Form.truth, Scope.wrapped_mode, hlax]
    exact Truth.compare_congr (Node.unwrap_wrapped hx (ihl hleft scope hlax hx))
      (Node.unwrap_wrapped hx (ihr hright scope hlax hx))
  case startsWith =>
    intro whole initial ihw ihi declared hn scope hlax hx
    obtain ⟨hwhole, hinitial⟩ := List.forall_mem_append.mp (Node.forall_forms.mp hn).2
    simp only [Node.truth, Form.truth, Scope.wrapped_mode, hlax]
    exact Truth.startsWith_congr (Node.unwrap_wrapped hx (ihi hinitial scope hlax hx))
      (Node.unwrap_wrapped hx (ihw hwhole scope hlax hx))
  case conjunction =>
    intro left right ihl ihr declared hn scope hlax hx
    obtain ⟨hleft, hright⟩ := List.forall_mem_append.mp (Node.forall_forms.mp hn).2
    show Truth.andThen (left.truth scope.wrapped) (fun _ => right.truth scope.wrapped) = _
    rw [ihl hleft scope hlax hx, ihr hright scope hlax hx]
    rfl
  case disjunction =>
    intro left right ihl ihr declared hn scope hlax hx
    obtain ⟨hleft, hright⟩ := List.forall_mem_append.mp (Node.forall_forms.mp hn).2
    show Truth.orElse (left.truth scope.wrapped) (fun _ => right.truth scope.wrapped) = _
    rw [ihl hleft scope hlax hx, ihr hright scope hlax hx]
    rfl
  case negation =>
    intro operand ih declared hn scope hlax hx
    show (operand.truth scope.wrapped).map Truth.not = _
    rw [ih (Node.forall_forms.mp hn).2 scope hlax hx]
    rfl
  case isUnknown =>
    intro operand ih declared hn scope hlax hx
    show (operand.truth scope.wrapped).map (fun t => Truth.ofBool (t = .unknown)) = _
    rw [ih (Node.forall_forms.mp hn).2 scope hlax hx]
    rfl
  case existence =>
    intro operand ih declared hn scope hlax hx
    exact Node.apply_wrapped (ih (Node.forall_forms.mp hn).2 scope hlax hx) Truth.ofExistence rfl
  case predicate =>
    intro p hp ih hn scope hlax hx _
    rw [Node.eval_of_isPredicate hp, Node.eval_of_isPredicate hp, ih hn scope hlax hx]
  case other =>
    intro n hpred _ scope _ _
    rw [Node.truth_of_not_isPredicate hpred, Node.truth_of_not_isPredicate hpred]

/-! ### Whole paths -/

theorem failedConversion?_wrapped (x : Item) (bindings : Bindings) :
    failedConversion? (.array [x]) bindings = failedConversion? x bindings := by
  have hfailure : (Item.array [x]).hasFailure = x.hasFailure := by
    simp [Item.hasFailure, Item.anyFailure]
  rw [failedConversion?, failedConversion?, hfailure]

/-- **An array of one item is transparent in lax mode.** A path that is not `$` and nowhere asks for
`$.type()` has the same sequence, or the same error, for an item that is no array and for the array of
that one item. -/
theorem Node.evaluate_lax_singleton_array (t : Node) (hroot : t.form.isContext = false)
    (htype : ∀ f ∈ t.forms, f.isTypeOfInput = false) (x : Item) (hx : x.isArray = false)
    (bindings : Bindings) :
    t.evaluate .lax (.array [x]) bindings = t.evaluate .lax x bindings := by
  have heval : t.eval (.initial .lax (.array [x]) bindings) = t.eval (.initial .lax x bindings) :=
    (Node.eval_wrapped t).1 htype (.initial .lax x bindings) rfl hx hroot
  rw [Node.evaluate, Node.evaluate, failedConversion?_wrapped, heval]

/-- The input as a target, as an operand, in a subscript and in a nested filter. -/
theorem Node.evaluate_lax_singleton_array_of_sum :
    let zeros := filter (subscripted [.index context] context)
      (both (compared .equal current context)
        (nonempty (filter context (compared .equal current (literal (.int 0))))))
    let sum := arithmetic .add zeros context
    sum.evaluate .lax (.array [.int 0]) .empty = sum.evaluate .lax (.int 0) .empty ∧
      sum.evaluate .lax (.int 0) .empty = .ok [.int 0] := by
  intro zeros sum
  exact ⟨Node.evaluate_lax_singleton_array sum rfl (by decide) (.int 0) rfl .empty, rfl⟩

end PathQuery
