import PathQuery.Eval.Basic
import PathQuery.Proofs.Path.Tree

/-!
# Checked scopes and predicates

The check of a tree follows the filters and subscripts around each node, and evaluation follows them too:
a filter gives `@` a value and a subscript gives one to `last`. This file shows that the two agree. They
also agree on the predicates of filters, but not on the operands of connectives, which the check lets pass
whatever they are.

* `Node.evalWith` — evaluation in which the results for `@` outside of filters, for `last` outside of
  subscripts and for the truth of a node that is no predicate are open. `Node.evalWith_errors` says that
  the usual errors in these places make it the usual evaluation.
* `Scope.Agrees` — two scopes have the values that the surroundings of a node promise, and the same ones.
* `Node.evalWith_of_connected` — a tree without faults has the same result in scopes that agree, whatever
  the open results are; those for truth count only for the operands of connectives.
* `Node.check_negated` — the check lets pass the negation of a node that has no truth value, and the
  negation has no result for any input.
-/

namespace PathQuery

/-! ### Open evaluation -/

/-- The results in the places where a scope or a node has nothing to offer. -/
structure Fallbacks where
  /-- The result of `@` outside of filters. -/
  current : Except EvalError Sequence
  /-- The result of `last` outside of subscripts. -/
  last : Except EvalError Sequence
  /-- The truth of a form that is no predicate. -/
  truth : Form → Except EvalError Truth

/-- The errors that evaluation gives. -/
def Fallbacks.errors : Fallbacks where
  current := .error .currentOutsideFilter
  last := .error .lastOutsideSubscript
  truth form := .error (.notPredicate form.text)

mutual

/-- The sequence of a node, with open results. -/
def Node.evalWith (fallbacks : Fallbacks) (scope : Scope) : Node → Except EvalError Sequence
  | .mk form _ => form.evalWith fallbacks scope

def Form.evalWith (fallbacks : Fallbacks) (scope : Scope) : Form → Except EvalError Sequence
  | .literal value => .ok [value.item]
  | .context => .ok [scope.root]
  | .named name => ofBinding (scope.bindings.get name)
  | .positional position => ofBinding (scope.bindings.getIndex position)
  | .current =>
      match scope.current with
      | some x => .ok [x]
      | none => fallbacks.current
  | .last =>
      match scope.last with
      | some n => .ok [.int n]
      | none => fallbacks.last
  | .member target name => do (← target.evalWith fallbacks scope).member scope.mode name
  | .wildcardMember target => do (← target.evalWith fallbacks scope).wildcardMember scope.mode
  | .descendant target name => do return (← target.evalWith fallbacks scope).descendants name
  | .elements target subscripts => do
      let s ← target.evalWith fallbacks scope
      s.elements scope.mode fun elements =>
        Subscript.chooseAllWith fallbacks { scope with last := some (lastIndex elements) } elements
          subscripts
  | .filter target predicate => do
      let s ← target.evalWith fallbacks scope
      (s.unwrap scope.mode).select fun x =>
        predicate.truthWith fallbacks { scope with current := some x }
  | .unary sign operand => do
      let n ← (← operand.evalWith fallbacks scope).number scope.mode .unaryOperand
      return [.number (← n.signed sign)]
  | .binary op left right => do
      let a ← (← left.evalWith fallbacks scope).number scope.mode .leftOperand
      let b ← (← right.evalWith fallbacks scope).number scope.mode .rightOperand
      return [.number (← a.arithmetic op b)]
  | .method target m => do (← target.evalWith fallbacks scope).method scope.mode m
  | .comparison op left right =>
      (Truth.compare scope.mode op (left.evalWith fallbacks scope) fun _ =>
        right.evalWith fallbacks scope).map Truth.sequence
  | .conjunction left right =>
      (Truth.andThen (left.truthWith fallbacks scope) fun _ =>
        right.truthWith fallbacks scope).map Truth.sequence
  | .disjunction left right =>
      (Truth.orElse (left.truthWith fallbacks scope) fun _ =>
        right.truthWith fallbacks scope).map Truth.sequence
  | .negation operand => (operand.truthWith fallbacks scope).map fun t => t.not.sequence
  | .existence operand => (Truth.ofExistence (operand.evalWith fallbacks scope)).map Truth.sequence
  | .isUnknown operand =>
      (operand.truthWith fallbacks scope).map fun t => (Truth.ofBool (t = .unknown)).sequence
  | .startsWith whole initial =>
      (Truth.startsWith scope.mode (initial.evalWith fallbacks scope) fun _ =>
        whole.evalWith fallbacks scope).map Truth.sequence

/-- The truth value of a predicate, with open results. -/
def Node.truthWith (fallbacks : Fallbacks) (scope : Scope) : Node → Except EvalError Truth
  | .mk form _ => form.truthWith fallbacks scope

def Form.truthWith (fallbacks : Fallbacks) (scope : Scope) : Form → Except EvalError Truth
  | .comparison op left right =>
      Truth.compare scope.mode op (left.evalWith fallbacks scope) fun _ =>
        right.evalWith fallbacks scope
  | .conjunction left right =>
      Truth.andThen (left.truthWith fallbacks scope) fun _ => right.truthWith fallbacks scope
  | .disjunction left right =>
      Truth.orElse (left.truthWith fallbacks scope) fun _ => right.truthWith fallbacks scope
  | .negation operand => (operand.truthWith fallbacks scope).map Truth.not
  | .existence operand => Truth.ofExistence (operand.evalWith fallbacks scope)
  | .isUnknown operand =>
      (operand.truthWith fallbacks scope).map fun t => Truth.ofBool (t = .unknown)
  | .startsWith whole initial =>
      Truth.startsWith scope.mode (initial.evalWith fallbacks scope) fun _ =>
        whole.evalWith fallbacks scope
  | form => fallbacks.truth form

/-- The elements of an array that a subscript chooses, with open results. -/
def Subscript.chooseWith (fallbacks : Fallbacks) (scope : Scope) (elements : List Item) :
    Subscript → Except EvalError Sequence
  | .index position => do
      Item.element scope.mode elements
        (← (← position.evalWith fallbacks scope).position scope.mode)
  | .range first final => do
      let a ← (← first.evalWith fallbacks scope).position scope.mode
      let b ← (← final.evalWith fallbacks scope).position scope.mode
      Item.elementRange scope.mode elements a b
  | .last => Item.lastElement scope.mode elements
  | .wildcard => .ok elements

/-- The elements that several subscripts choose, with open results. -/
def Subscript.chooseAllWith (fallbacks : Fallbacks) (scope : Scope) (elements : List Item) :
    List Subscript → Except EvalError Sequence
  | [] => .ok []
  | s :: ss => do
      let xs ← s.chooseWith fallbacks scope elements
      let ys ← Subscript.chooseAllWith fallbacks scope elements ss
      return xs ++ ys

end

theorem Node.evalWith_of_isPredicate {n : Node} (h : n.isPredicate = true) (fallbacks : Fallbacks)
    (scope : Scope) :
    n.evalWith fallbacks scope = (n.truthWith fallbacks scope).map Truth.sequence := by
  obtain ⟨form, declared⟩ := n
  cases form with
  | negation operand =>
    simp only [Node.evalWith, Form.evalWith, Node.truthWith, Form.truthWith]
    cases operand.truthWith fallbacks scope <;> rfl
  | isUnknown operand =>
    simp only [Node.evalWith, Form.evalWith, Node.truthWith, Form.truthWith]
    cases operand.truthWith fallbacks scope <;> rfl
  | comparison | conjunction | disjunction | existence | startsWith => rfl
  | _ => exact absurd h (by simp [Node.isPredicate, Node.form, Form.isPredicate])

theorem Node.truthWith_of_not_isPredicate {n : Node} (h : n.isPredicate = false)
    (fallbacks : Fallbacks) (scope : Scope) : n.truthWith fallbacks scope = fallbacks.truth n.form := by
  obtain ⟨form, declared⟩ := n
  cases form with
  | comparison | conjunction | disjunction | negation | existence | isUnknown | startsWith =>
    exact absurd h (by simp [Node.isPredicate, Node.form, Form.isPredicate])
  | _ => simp only [Node.truthWith, Form.truthWith, Node.form]

/-! ### The usual errors -/

mutual

/-- With the usual errors in the open places, evaluation is the usual one. -/
theorem Node.evalWith_errors (scope : Scope) : ∀ n : Node, n.evalWith .errors scope = n.eval scope
  | .mk form _ => form.evalWith_errors scope

theorem Form.evalWith_errors (scope : Scope) :
    ∀ form : Form, form.evalWith .errors scope = form.eval scope
  | .literal _ | .context | .named _ | .positional _ | .current | .last => rfl
  | .member target _ | .wildcardMember target | .descendant target _ | .method target _
  | .unary _ target | .existence target => by
    simp only [Form.evalWith, Form.eval, target.evalWith_errors scope]
  | .binary _ left right | .comparison _ left right | .startsWith left right => by
    simp only [Form.evalWith, Form.eval, left.evalWith_errors scope, right.evalWith_errors scope]
  | .conjunction left right | .disjunction left right => by
    simp only [Form.evalWith, Form.eval, left.truthWith_errors scope, right.truthWith_errors scope]
  | .negation operand | .isUnknown operand => by
    simp only [Form.evalWith, Form.eval, operand.truthWith_errors scope]
  | .elements target subscripts => by
    simp only [Form.evalWith, Form.eval, target.evalWith_errors scope,
      Subscript.chooseAllWith_errors]
  | .filter target predicate => by
    simp only [Form.evalWith, Form.eval, target.evalWith_errors scope, predicate.truthWith_errors]

theorem Node.truthWith_errors (scope : Scope) :
    ∀ n : Node, n.truthWith .errors scope = n.truth scope
  | .mk form _ => form.truthWith_errors scope

theorem Form.truthWith_errors (scope : Scope) :
    ∀ form : Form, form.truthWith .errors scope = form.truth scope
  | .comparison _ left right | .startsWith left right => by
    simp only [Form.truthWith, Form.truth, left.evalWith_errors scope, right.evalWith_errors scope]
  | .conjunction left right | .disjunction left right => by
    simp only [Form.truthWith, Form.truth, left.truthWith_errors scope,
      right.truthWith_errors scope]
  | .negation operand | .isUnknown operand => by
    simp only [Form.truthWith, Form.truth, operand.truthWith_errors scope]
  | .existence operand => by simp only [Form.truthWith, Form.truth, operand.evalWith_errors scope]
  | .literal _ | .context | .named _ | .positional _ | .current | .last | .member ..
  | .wildcardMember _ | .descendant .. | .elements .. | .filter .. | .unary .. | .binary ..
  | .method .. => by simp only [Form.truthWith, Form.truth, Fallbacks.errors]

theorem Subscript.chooseWith_errors (scope : Scope) (elements : List Item) :
    ∀ s : Subscript, s.chooseWith .errors scope elements = s.choose scope elements
  | .index position => by
    simp only [Subscript.chooseWith, Subscript.choose, position.evalWith_errors scope]
  | .range first final => by
    simp only [Subscript.chooseWith, Subscript.choose, first.evalWith_errors scope,
      final.evalWith_errors scope]
  | .last | .wildcard => rfl

theorem Subscript.chooseAllWith_errors (scope : Scope) (elements : List Item) :
    ∀ ss : List Subscript,
      Subscript.chooseAllWith .errors scope elements ss = Subscript.chooseAll scope elements ss
  | [] => rfl
  | s :: ss => by
    simp only [Subscript.chooseAllWith, Subscript.chooseAll, s.chooseWith_errors scope elements,
      Subscript.chooseAllWith_errors scope elements ss]

end

/-! ### Surroundings and scopes -/

/-- Two scopes have what the surroundings promise, and all but what they do not promise is the same. -/
structure Scope.Agrees (around : Surroundings) (scope scope' : Scope) : Prop where
  root : scope.root = scope'.root
  bindings : scope.bindings = scope'.bindings
  mode : scope.mode = scope'.mode
  current : around.filter = true → ∃ x, scope.current = some x ∧ scope'.current = some x
  last : around.subscript = true → ∃ n, scope.last = some n ∧ scope'.last = some n

namespace Scope.Agrees

variable {around : Surroundings} {scope scope' : Scope} (h : Agrees around scope scope')

include h

/-- A filter keeps scopes in agreement and gives them what it promises. -/
theorem inFilter (x : Item) :
    Agrees { around with filter := true } { scope with current := some x }
      { scope' with current := some x } where
  root := h.root
  bindings := h.bindings
  mode := h.mode
  current _ := ⟨x, rfl, rfl⟩
  last := h.last

/-- So does a subscript. -/
theorem inSubscript (n : Int64) :
    Agrees { around with subscript := true } { scope with last := some n }
      { scope' with last := some n } where
  root := h.root
  bindings := h.bindings
  mode := h.mode
  current := h.current
  last _ := ⟨n, rfl, rfl⟩

end Scope.Agrees

/-- Where nothing is promised, only the input, the parameters and the mode count. -/
theorem Scope.agrees_initial (input : Item) (current current' : Option Item)
    (last last' : Option Int64) (bindings : Bindings) (mode : Mode) :
    Scope.Agrees ⟨false, false⟩ ⟨input, current, last, bindings, mode⟩
      ⟨input, current', last', bindings, mode⟩ where
  root := rfl
  bindings := rfl
  mode := rfl
  current h := nomatch h
  last h := nomatch h

/-! ### Trees without faults -/

theorem Subscript.chooseWith_of_checkIn {fallbacks : Fallbacks} {around : Surroundings}
    {scope scope' : Scope} (hscope : scope.Agrees around scope') (elements : List Item) {s : Subscript}
    (hs : s.checkIn around = .ok ())
    (ih : ∀ n ∈ s.positions, n.checkIn around = .ok () →
      n.evalWith fallbacks scope = n.eval scope') :
    s.chooseWith fallbacks scope elements = s.choose scope' elements := by
  cases s with
  | index position =>
    simp only [Subscript.checkIn, check_bind_eq_ok] at hs
    have hposition := ih position (by simp [Subscript.positions]) hs.2
    simp only [Subscript.chooseWith, Subscript.choose, hposition, hscope.mode]
  | range first final =>
    simp only [Subscript.checkIn, check_bind_eq_ok] at hs
    obtain ⟨-, hfirst, -, hfinal⟩ := hs
    have hfirst := ih first (by simp [Subscript.positions]) hfirst
    have hfinal := ih final (by simp [Subscript.positions]) hfinal
    simp only [Subscript.chooseWith, Subscript.choose, hfirst, hfinal, hscope.mode]
  | last => simp only [Subscript.chooseWith, Subscript.choose, hscope.mode]
  | wildcard => rfl

theorem Subscript.chooseAllWith_of_checkAll {fallbacks : Fallbacks} {around : Surroundings}
    {scope scope' : Scope} (hscope : scope.Agrees around scope') (elements : List Item) {ss : List Subscript}
    (hss : Subscript.checkAll around ss = .ok ())
    (ih : ∀ s ∈ ss, ∀ n ∈ s.positions, n.checkIn around = .ok () →
      n.evalWith fallbacks scope = n.eval scope') :
    Subscript.chooseAllWith fallbacks scope elements ss = Subscript.chooseAll scope' elements ss := by
  induction ss with
  | nil => rfl
  | cons s ss ihss =>
    simp only [Subscript.checkAll, check_bind_eq_ok] at hss
    obtain ⟨hs, hss⟩ := hss
    obtain ⟨ihs, ihrest⟩ := List.forall_mem_cons.mp ih
    simp only [Subscript.chooseAllWith, Subscript.chooseAll,
      Subscript.chooseWith_of_checkIn hscope elements hs ihs, ihss hss ihrest]

/-- The open results have nothing to say about the truth of a node: it is a predicate, or they hold the
usual error for it. -/
def Fallbacks.Spare (fallbacks : Fallbacks) (p : Node) : Prop :=
  p.isPredicate = false → fallbacks.truth p.form = Fallbacks.errors.truth p.form

theorem Fallbacks.spare_of_isPredicate (fallbacks : Fallbacks) {p : Node}
    (hp : p.isPredicate = true) : fallbacks.Spare p := by
  intro hnot
  rw [hp] at hnot
  cases hnot

/-- **The check follows the scope.** A tree without faults in some surroundings has the same result in all
scopes that agree on them, whatever the open results for `@` and `last` are. The open results for truth
count only for the operands of connectives: the check has seen that all filters have predicates. -/
theorem Node.evalWith_of_connected (fallbacks : Fallbacks) (n : Node) :
    ((∀ f ∈ n.forms, ∀ p ∈ f.connected, fallbacks.Spare p) → ∀ around scope scope',
      n.checkIn around = .ok () → scope.Agrees around scope' →
      n.evalWith fallbacks scope = n.eval scope') ∧
    ((∀ f ∈ n.forms, ∀ p ∈ f.connected, fallbacks.Spare p) → fallbacks.Spare n →
      ∀ around scope scope', n.checkIn around = .ok () → scope.Agrees around scope' →
      n.truthWith fallbacks scope = n.truth scope') := by
  refine Node.evaluation_induction
    (E := fun n => (∀ f ∈ n.forms, ∀ p ∈ f.connected, fallbacks.Spare p) →
      ∀ around scope scope', n.checkIn around = .ok () → Scope.Agrees around scope scope' →
      n.evalWith fallbacks scope = n.eval scope')
    (T := fun n => (∀ f ∈ n.forms, ∀ p ∈ f.connected, fallbacks.Spare p) → fallbacks.Spare n →
      ∀ around scope scope', n.checkIn around = .ok () → Scope.Agrees around scope scope' →
      n.truthWith fallbacks scope = n.truth scope')
    ?literal ?context ?current ?last ?named ?positional ?member ?wildcardMember ?descendant
    ?elements ?filter ?unary ?binary ?method ?comparison ?conjunction ?disjunction ?negation
    ?existence ?isUnknown ?startsWith ?predicate ?other n
  case literal => exact fun _ _ _ _ _ _ _ _ => rfl
  case context =>
    intro declared _ around scope scope' _ h
    show Except.ok [scope.root] = .ok [scope'.root]
    rw [h.root]
  case named =>
    intro name declared _ around scope scope' _ h
    show ofBinding (scope.bindings.get name) = ofBinding (scope'.bindings.get name)
    rw [h.bindings]
  case positional =>
    intro position declared _ around scope scope' _ h
    show ofBinding (scope.bindings.getIndex position) = ofBinding (scope'.bindings.getIndex position)
    rw [h.bindings]
  case current =>
    intro declared _ around scope scope' hn h
    -- The check has seen a filter around the node.
    have hfilter : around.filter = true := by
      simp only [Node.checkIn, Form.checkIn] at hn
      split at hn
      · assumption
      · cases hn
    obtain ⟨x, hx, hx'⟩ := h.current hfilter
    simp only [Node.evalWith, Form.evalWith, Node.eval, Form.eval, hx, hx']
  case last =>
    intro declared _ around scope scope' hn h
    have hsubscript : around.subscript = true := by
      simp only [Node.checkIn, Form.checkIn] at hn
      split at hn
      · assumption
      · cases hn
    obtain ⟨n, hn, hn'⟩ := h.last hsubscript
    simp only [Node.evalWith, Form.evalWith, Node.eval, Form.eval, hn, hn']
  case member =>
    intro target name ih declared hspare around scope scope' hn h
    obtain ⟨-, htarget⟩ := check_bind_eq_ok.mp hn
    show (target.evalWith fallbacks scope >>= fun s => s.member scope.mode name) = _
    rw [ih (Node.forall_forms.mp hspare).2 around scope scope' htarget h, h.mode]
    rfl
  case wildcardMember =>
    intro target ih declared hspare around scope scope' hn h
    obtain ⟨-, htarget⟩ := check_bind_eq_ok.mp hn
    show (target.evalWith fallbacks scope >>= fun s => s.wildcardMember scope.mode) = _
    rw [ih (Node.forall_forms.mp hspare).2 around scope scope' htarget h, h.mode]
    rfl
  case descendant =>
    intro target name ih declared hspare around scope scope' hn h
    obtain ⟨-, htarget⟩ := check_bind_eq_ok.mp hn
    show (target.evalWith fallbacks scope >>= fun s => Except.ok (s.descendants name)) = _
    rw [ih (Node.forall_forms.mp hspare).2 around scope scope' htarget h]
    rfl
  case elements =>
    intro target subscripts ih ihs declared hspare around scope scope' hn h
    obtain ⟨hspare, hspares⟩ := List.forall_mem_append.mp (Node.forall_forms.mp hspare).2
    obtain ⟨-, hn⟩ := check_bind_eq_ok.mp hn
    obtain ⟨htarget, hsubscripts⟩ := check_bind_eq_ok.mp hn
    have hchoose : (fun elements => Subscript.chooseAllWith fallbacks
          { scope with last := some (lastIndex elements) } elements subscripts) = fun elements =>
        Subscript.chooseAll { scope' with last := some (lastIndex elements) } elements subscripts := by
      funext elements
      have hinner := h.inSubscript (lastIndex elements)
      refine Subscript.chooseAllWith_of_checkAll hinner elements hsubscripts ?_
      intro s hs n hmem hcheck
      exact ihs s hs n hmem ((Subscript.forall_innerAll subscripts).mp hspares s hs n hmem) _ _ _
        hcheck hinner
    show (target.evalWith fallbacks scope >>= fun s => s.elements scope.mode fun elements =>
      Subscript.chooseAllWith fallbacks { scope with last := some (lastIndex elements) } elements
        subscripts) = _
    rw [hchoose, ih hspare around scope scope' htarget h, h.mode]
    rfl
  case filter =>
    intro target predicate ih ihp declared hspare around scope scope' hn h
    obtain ⟨hspare, hspares⟩ := List.forall_mem_append.mp (Node.forall_forms.mp hspare).2
    obtain ⟨-, hn⟩ := check_bind_eq_ok.mp hn
    obtain ⟨htarget, hpredicate⟩ := check_bind_eq_ok.mp hn
    have hselect : (fun x => predicate.truthWith fallbacks { scope with current := some x }) =
        fun x => predicate.truth { scope' with current := some x } := by
      funext x
      split at hpredicate
      · next hp =>
        exact ihp hspares (fallbacks.spare_of_isPredicate hp) _ _ _ hpredicate (h.inFilter x)
      · cases hpredicate
    show (target.evalWith fallbacks scope >>= fun s => (s.unwrap scope.mode).select fun x =>
      predicate.truthWith fallbacks { scope with current := some x }) = _
    rw [hselect, ih hspare around scope scope' htarget h, h.mode]
    rfl
  case unary =>
    intro sign operand ih declared hspare around scope scope' hn h
    obtain ⟨-, hoperand⟩ := check_bind_eq_ok.mp hn
    show (operand.evalWith fallbacks scope >>= fun s => s.number scope.mode .unaryOperand >>= fun n =>
      n.signed sign >>= fun m => Except.ok [Item.number m]) = _
    rw [ih (Node.forall_forms.mp hspare).2 around scope scope' hoperand h, h.mode]
    rfl
  case binary =>
    intro op left right ihl ihr declared hspare around scope scope' hn h
    obtain ⟨hsparel, hsparer⟩ := List.forall_mem_append.mp (Node.forall_forms.mp hspare).2
    obtain ⟨-, hn⟩ := check_bind_eq_ok.mp hn
    obtain ⟨hleft, hn⟩ := check_bind_eq_ok.mp hn
    obtain ⟨-, hright⟩ := check_bind_eq_ok.mp hn
    show (left.evalWith fallbacks scope >>= fun l => l.number scope.mode .leftOperand >>= fun a =>
      right.evalWith fallbacks scope >>= fun r => r.number scope.mode .rightOperand >>= fun b =>
      a.arithmetic op b >>= fun c => Except.ok [Item.number c]) = _
    rw [ihl hsparel around scope scope' hleft h, ihr hsparer around scope scope' hright h, h.mode]
    rfl
  case method =>
    intro target m ih declared hspare around scope scope' hn h
    obtain ⟨-, hn⟩ := check_bind_eq_ok.mp hn
    obtain ⟨-, htarget⟩ := check_bind_eq_ok.mp hn
    show (target.evalWith fallbacks scope >>= fun s => s.method scope.mode m) = _
    rw [ih (Node.forall_forms.mp hspare).2 around scope scope' htarget h, h.mode]
    rfl
  case comparison =>
    intro op left right ihl ihr declared hspare _ around scope scope' hn h
    obtain ⟨hsparel, hsparer⟩ := List.forall_mem_append.mp (Node.forall_forms.mp hspare).2
    obtain ⟨hleft, hright⟩ := check_bind_eq_ok.mp hn
    show Truth.compare scope.mode op (left.evalWith fallbacks scope)
      (fun _ => right.evalWith fallbacks scope) = _
    rw [ihl hsparel around scope scope' hleft h, ihr hsparer around scope scope' hright h, h.mode]
    rfl
  case startsWith =>
    intro whole initial ihw ihi declared hspare _ around scope scope' hn h
    obtain ⟨hsparew, hsparei⟩ := List.forall_mem_append.mp (Node.forall_forms.mp hspare).2
    obtain ⟨hwhole, hinitial⟩ := check_bind_eq_ok.mp hn
    show Truth.startsWith scope.mode (initial.evalWith fallbacks scope)
      (fun _ => whole.evalWith fallbacks scope) = _
    rw [ihi hsparei around scope scope' hinitial h, ihw hsparew around scope scope' hwhole h, h.mode]
    rfl
  case conjunction =>
    intro left right ihl ihr declared hspare _ around scope scope' hn h
    obtain ⟨hown, hinner⟩ := Node.forall_forms.mp hspare
    obtain ⟨hsparel, hsparer⟩ := List.forall_mem_append.mp hinner
    have hleftSpare : fallbacks.Spare left := hown left (by simp [Form.connected])
    have hrightSpare : fallbacks.Spare right := hown right (by simp [Form.connected])
    obtain ⟨hleft, hright⟩ := check_bind_eq_ok.mp hn
    show Truth.andThen (left.truthWith fallbacks scope)
      (fun _ => right.truthWith fallbacks scope) = _
    rw [ihl hsparel hleftSpare around scope scope' hleft h,
      ihr hsparer hrightSpare around scope scope' hright h]
    rfl
  case disjunction =>
    intro left right ihl ihr declared hspare _ around scope scope' hn h
    obtain ⟨hown, hinner⟩ := Node.forall_forms.mp hspare
    obtain ⟨hsparel, hsparer⟩ := List.forall_mem_append.mp hinner
    have hleftSpare : fallbacks.Spare left := hown left (by simp [Form.connected])
    have hrightSpare : fallbacks.Spare right := hown right (by simp [Form.connected])
    obtain ⟨hleft, hright⟩ := check_bind_eq_ok.mp hn
    show Truth.orElse (left.truthWith fallbacks scope)
      (fun _ => right.truthWith fallbacks scope) = _
    rw [ihl hsparel hleftSpare around scope scope' hleft h,
      ihr hsparer hrightSpare around scope scope' hright h]
    rfl
  case negation =>
    intro operand ih declared hspare _ around scope scope' hn h
    obtain ⟨hown, hinner⟩ := Node.forall_forms.mp hspare
    have hoperand : fallbacks.Spare operand := hown operand (by simp [Form.connected])
    show (operand.truthWith fallbacks scope).map Truth.not = _
    rw [ih hinner hoperand around scope scope' hn h]
    rfl
  case isUnknown =>
    intro operand ih declared hspare _ around scope scope' hn h
    obtain ⟨hown, hinner⟩ := Node.forall_forms.mp hspare
    have hoperand : fallbacks.Spare operand := hown operand (by simp [Form.connected])
    show (operand.truthWith fallbacks scope).map (fun t => Truth.ofBool (t = .unknown)) = _
    rw [ih hinner hoperand around scope scope' hn h]
    rfl
  case existence =>
    intro operand ih declared hspare _ around scope scope' hn h
    show Truth.ofExistence (operand.evalWith fallbacks scope) = _
    rw [ih (Node.forall_forms.mp hspare).2 around scope scope' hn h]
    rfl
  case predicate =>
    intro p hp ih hspare around scope scope' hn h
    rw [Node.evalWith_of_isPredicate hp, Node.eval_of_isPredicate hp,
      ih hspare (fallbacks.spare_of_isPredicate hp) around scope scope' hn h]
  case other =>
    -- The check lets such nodes pass under a connective, where the open result must be the usual error.
    intro p hp _ hspare around scope scope' _ _
    rw [Node.truthWith_of_not_isPredicate hp, Node.truth_of_not_isPredicate hp, hspare hp]
    obtain ⟨form, declared⟩ := p
    simp only [Fallbacks.errors, Node.form, Node.text]

/-- The case in which the open results for truth are the usual errors. -/
theorem Node.evalWith_of_checkIn (fallbacks : Fallbacks)
    (htruth : fallbacks.truth = Fallbacks.errors.truth) (n : Node) :
    (∀ around scope scope', n.checkIn around = .ok () → scope.Agrees around scope' →
      n.evalWith fallbacks scope = n.eval scope') ∧
    (∀ around scope scope', n.checkIn around = .ok () → scope.Agrees around scope' →
      n.truthWith fallbacks scope = n.truth scope') := by
  have hspare : ∀ p : Node, fallbacks.Spare p := fun p _ => congrFun htruth p.form
  obtain ⟨heval, htruthWith⟩ := Node.evalWith_of_connected fallbacks n
  exact ⟨heval fun _ _ p _ => hspare p, htruthWith (fun _ _ p _ => hspare p) (hspare n)⟩

/-! ### Whole paths -/

/-- **A checked tree never misses its scope.** The result of a tree without faults does not depend on what
`@` and `last` are before any filter and subscript, also if they are nothing at all. Nor does it depend
on what stands in for the errors of `@` outside of filters and `last` outside of subscripts: no part of
the tree gets there, not even below a predicate that would have made the error unknown. -/
theorem Node.check_scopes (n : Node) (hn : n.check = .ok ()) (input : Item) (bindings : Bindings)
    (mode : Mode) :
    (∀ (current current' : Option Item) (last last' : Option Int64),
      n.eval ⟨input, current, last, bindings, mode⟩ =
        n.eval ⟨input, current', last', bindings, mode⟩) ∧
    ∀ (outsideFilter outsideSubscript : Except EvalError Sequence) (current : Option Item)
      (last : Option Int64),
      n.evalWith { Fallbacks.errors with current := outsideFilter, last := outsideSubscript }
          ⟨input, current, last, bindings, mode⟩ =
        n.eval ⟨input, current, last, bindings, mode⟩ := by
  constructor
  · intro current current' last last'
    rw [← Node.evalWith_errors]
    exact (Node.evalWith_of_checkIn _ rfl n).1 _ _ _ hn
      (Scope.agrees_initial input current current' last last' bindings mode)
  · intro outsideFilter outsideSubscript current last
    exact (Node.evalWith_of_checkIn
        { Fallbacks.errors with current := outsideFilter, last := outsideSubscript } rfl n).1 _ _ _ hn
      (Scope.agrees_initial input current current last last bindings mode)

/-- A filter in a subscript that asks for `last` of the subscript around it. -/
theorem Node.check_scopes_of_filter_in_subscript :
    let position := filter (member "b" context) (compared .equal current last)
    let tree := subscripted [.index position] (member "a" context)
    let input := Item.object [("a", .array [.int 10, .int 20]), ("b", .array [.int 0, .int 1])]
    tree.check = .ok () ∧
      tree.eval (.initial .lax input .empty) = .ok [.int 20] ∧
      tree.eval ⟨input, some .null, some 7, .empty, .lax⟩ = .ok [.int 20] ∧
      tree.evalWith { Fallbacks.errors with current := .ok [], last := .ok [] }
        (.initial .lax input .empty) = .ok [.int 20] := by
  intro position tree input
  have hcheck : tree.check = .ok () := by rfl
  have heval : tree.eval (.initial .lax input .empty) = .ok [.int 20] := by rfl
  obtain ⟨hscope, hopen⟩ := Node.check_scopes tree hcheck input .empty .lax
  exact ⟨hcheck, heval, (hscope (some .null) none (some 7) none).trans heval,
    (hopen (.ok []) (.ok []) none none).trans heval⟩

/-! ### Predicate positions -/

/-- **The check sees the predicates of filters.** In a tree without faults only the operands of connectives
are asked for a truth value that they may not have: the result stays the same whatever else stands in for
the error of a node that is no predicate. Where all connectives join predicates, no node is asked in vain,
not even below a predicate that would have made the error unknown. -/
theorem Node.check_predicate_positions (n : Node) (hn : n.check = .ok ()) (input : Item)
    (bindings : Bindings) (mode : Mode) :
    (∀ truth : Form → Except EvalError Truth,
      (∀ f ∈ n.forms, ∀ p ∈ f.connected, p.isPredicate = false →
        truth p.form = .error (.notPredicate p.text)) →
      n.evalWith { Fallbacks.errors with truth := truth } (.initial mode input bindings) =
        n.eval (.initial mode input bindings)) ∧
    (n.ConnectsPredicates → ∀ truth : Form → Except EvalError Truth,
      n.evalWith { Fallbacks.errors with truth := truth } (.initial mode input bindings) =
        n.eval (.initial mode input bindings)) := by
  have hagrees : Scope.Agrees ⟨false, false⟩ (.initial mode input bindings)
      (.initial mode input bindings) :=
    Scope.agrees_initial input none none none none bindings mode
  have hopen : ∀ truth : Form → Except EvalError Truth,
      (∀ f ∈ n.forms, ∀ p ∈ f.connected,
        Fallbacks.Spare { Fallbacks.errors with truth := truth } p) →
      n.evalWith { Fallbacks.errors with truth := truth } (.initial mode input bindings) =
        n.eval (.initial mode input bindings) :=
    fun truth hspare => (Node.evalWith_of_connected _ n).1 hspare _ _ _ hn hagrees
  constructor
  · intro truth htruth
    refine hopen truth (fun f hf p hp hnot => ?_)
    obtain ⟨form, declared⟩ := p
    exact htruth f hf ⟨form, declared⟩ hp hnot
  · intro hconnects truth
    exact hopen truth fun f hf p hp => Fallbacks.spare_of_isPredicate _ (hconnects f hf p hp)

/-- A conjunction and a negation in a filter, and the filter in a comparison. -/
theorem Node.check_predicate_positions_of_nested_filter :
    let small := filter (allElements context)
      (both (negated (compared .greater current (literal (.int 2)))) (nonempty current))
    let tree := compared .equal small (literal (.int 1))
    let input := Item.array [.int 1, .int 3]
    tree.check = .ok () ∧ tree.ConnectsPredicates ∧
      tree.eval (.initial .strict input .empty) = .ok [.boolean true] ∧
      tree.evalWith { Fallbacks.errors with truth := fun _ => .error (.binding (.unbound "x")) }
        (.initial .strict input .empty) = .ok [.boolean true] := by
  intro small tree input
  have hcheck : tree.check = .ok () := by rfl
  have hconnects : tree.ConnectsPredicates := by decide
  have heval : tree.eval (.initial .strict input .empty) = .ok [.boolean true] := by rfl
  have hopen := (Node.check_predicate_positions tree hcheck input .empty .strict).2 hconnects
  exact ⟨hcheck, hconnects, heval, (hopen _).trans heval⟩

/-- The check asks nothing more of a negation than of its operand, and a negation of anything but a
predicate always fails. -/
theorem Node.check_negated (operand : Node) (hoperand : operand.isPredicate = false) :
    (negated operand).check = operand.check ∧
      ∀ scope : Scope, (negated operand).eval scope = .error (.notPredicate operand.text) := by
  refine ⟨rfl, fun scope => ?_⟩
  show (operand.truth scope).map (fun t => t.not.sequence) = _
  rw [Node.truth_of_not_isPredicate hoperand]
  rfl

/-- The check does not see all predicate positions: it lets pass `!($)`, which fails for want of a
predicate, so that what stands in for this error does make a difference. -/
theorem Node.check_misses_negated_input :
    (negated context).check = .ok () ∧
      (negated context).evaluate .lax (.object []) .empty = .error (.notPredicate "$") ∧
      ¬ ∀ (n : Node) (input : Item) (bindings : Bindings) (mode : Mode)
        (truth : Form → Except EvalError Truth), n.check = .ok () →
        n.evalWith { Fallbacks.errors with truth := truth } (.initial mode input bindings) =
          n.eval (.initial mode input bindings) := by
  obtain ⟨hcheck, heval⟩ := Node.check_negated context rfl
  refine ⟨hcheck, heval (.initial .lax (.object []) .empty), fun hall => ?_⟩
  have hsame := hall (negated context) (.object []) .empty .lax (fun _ => .ok .true) hcheck
  rw [heval] at hsame
  cases hsame

end PathQuery
