import PathQuery.Eval.Basic
import PathQuery.Proofs.Path.Tree

/-!
# How evaluation fails

Each step of evaluation fails with data errors only, and a variable without a value is the only other
cause of failure. Predicates turn data errors into unknown, so that nothing but a missing value ends one.

* `FailsOnly` — all errors of a result have a property; `FailsOnly.bind` and `FailsOnly.collect` carry it
  through the steps.
* `Node.failsOnly` — a tree fails with data errors and with the binding errors of its own variables.
* `Node.truth_failsOnly_of_isLogical` — a predicate whose connectives join predicates fails with binding
  errors only.
-/

namespace PathQuery

/-- All errors of a result have a property. -/
def FailsOnly {ε α : Type} (E : ε → Prop) (r : Except ε α) : Prop :=
  ∀ e, r = .error e → E e

/-- A result that is no failure. -/
abbrev NeverFails {ε α : Type} (r : Except ε α) : Prop :=
  FailsOnly (fun _ => False) r

theorem NeverFails.exists_ok {ε α : Type} {r : Except ε α} (h : NeverFails r) : ∃ a, r = .ok a := by
  cases r with
  | ok a => exact ⟨a, rfl⟩
  | error e => exact (h e rfl).elim

/-- Whether the data are the cause of an error. -/
def EvalError.OfData (e : EvalError) : Prop :=
  e.isDataError = true

section Results

variable {ε α β : Type} {E F : ε → Prop}

theorem FailsOnly.ok (a : α) : FailsOnly E (.ok a) := by
  intro e h
  cases h

theorem FailsOnly.error {e : ε} (h : E e) : FailsOnly E (.error e : Except ε α) := by
  intro e' h'
  cases h'
  exact h

theorem FailsOnly.mono {r : Except ε α} (hr : FailsOnly E r) (hEF : ∀ e, E e → F e) :
    FailsOnly F r :=
  fun e h => hEF e (hr e h)

theorem FailsOnly.bind {r : Except ε α} {f : α → Except ε β} (hr : FailsOnly E r)
    (hf : ∀ a, FailsOnly E (f a)) : FailsOnly E (r >>= f) := by
  cases r with
  | error e => exact FailsOnly.error (hr e rfl)
  | ok a => exact hf a

theorem FailsOnly.map {r : Except ε α} {f : α → β} (hr : FailsOnly E r) :
    FailsOnly E (r.map f) := by
  cases r with
  | error e => exact FailsOnly.error (hr e rfl)
  | ok a => exact FailsOnly.ok (f a)

theorem FailsOnly.collect {step : Item → Except ε Sequence} (h : ∀ x, FailsOnly E (step x))
    (s : Sequence) : FailsOnly E (s.collect step) := by
  induction s with
  | nil => exact FailsOnly.ok []
  | cons x s ih =>
    simp only [Sequence.collect]
    have hx := h x
    cases hstep : step x with
    | error e => exact FailsOnly.error (hx e hstep)
    | ok ys => exact ih.map

end Results

/-! ### Steps -/

section Steps

variable (mode : Mode) (s : Sequence)

theorem Mode.orError_ofData {e : EvalError} (h : e.OfData) :
    FailsOnly EvalError.OfData (mode.orError e) := by
  cases mode with
  | lax => exact FailsOnly.ok []
  | strict => exact FailsOnly.error h

theorem Sequence.member_ofData (name : String) :
    FailsOnly EvalError.OfData (s.member mode name) := by
  refine FailsOnly.collect (fun x => ?_) _
  cases x with
  | object members =>
    simp only [Item.member]
    cases Entries.get? name members with
    | none => exact mode.orError_ofData rfl
    | some x => exact FailsOnly.ok [x]
  | _ => exact mode.orError_ofData rfl

theorem Sequence.wildcardMember_ofData :
    FailsOnly EvalError.OfData (s.wildcardMember mode) := by
  refine FailsOnly.collect (fun x => ?_) _
  cases x with
  | object members => exact FailsOnly.ok _
  | _ => exact mode.orError_ofData rfl

theorem Sequence.number_ofData (place : NumberPlace) :
    FailsOnly EvalError.OfData (s.number mode place) := by
  unfold Sequence.number
  split
  · exact FailsOnly.ok _
  · exact FailsOnly.error rfl
  · exact FailsOnly.error rfl

theorem Number.position_ofData (n : Number) : FailsOnly EvalError.OfData n.position := by
  unfold Number.position
  split
  · split
    · exact FailsOnly.ok _
    · exact FailsOnly.error rfl
  · split
    · exact FailsOnly.ok _
    · exact FailsOnly.error rfl

theorem Sequence.position_ofData : FailsOnly EvalError.OfData (s.position mode) :=
  FailsOnly.bind (s.number_ofData mode .subscript) Number.position_ofData

theorem Number.signed_ofData (sign : Sign) (n : Number) :
    FailsOnly EvalError.OfData (n.signed sign) := by
  unfold Number.signed
  split
  · exact FailsOnly.ok _
  · split
    · exact FailsOnly.ok _
    · exact FailsOnly.error rfl
  · exact FailsOnly.ok _

theorem Number.arithmetic_ofData (op : ArithmeticOp) (a b : Number) :
    FailsOnly EvalError.OfData (a.arithmetic op b) := by
  unfold Number.arithmetic
  split
  · split
    · exact FailsOnly.error rfl
    · split
      · exact FailsOnly.ok _
      · exact FailsOnly.error rfl
  · split
    · exact FailsOnly.error rfl
    · dsimp only
      split
      · exact FailsOnly.ok _
      · exact FailsOnly.error rfl

theorem Item.element_ofData (elements : List Item) (position : Nat) :
    FailsOnly EvalError.OfData (Item.element mode elements position) := by
  unfold Item.element
  split
  · exact FailsOnly.ok _
  · exact mode.orError_ofData rfl

theorem Item.elementRange_ofData (elements : List Item) (first final : Nat) :
    FailsOnly EvalError.OfData (Item.elementRange mode elements first final) := by
  unfold Item.elementRange
  split
  · exact FailsOnly.error rfl
  · exact FailsOnly.ok _

theorem Item.lastElement_ofData (elements : List Item) :
    FailsOnly EvalError.OfData (Item.lastElement mode elements) := by
  unfold Item.lastElement
  split
  · exact FailsOnly.ok _
  · exact mode.orError_ofData rfl

/-! ### Methods -/

theorem Item.size_ofData (x : Item) : FailsOnly EvalError.OfData (x.size mode) := by
  cases x with
  | array elements => exact FailsOnly.ok _
  | _ =>
    cases mode with
    | lax => exact FailsOnly.ok _
    | strict => exact FailsOnly.error rfl

theorem Item.double_ofData (x : Item) : FailsOnly EvalError.OfData x.double := by
  have hfinite : ∀ d : Double, FailsOnly EvalError.OfData (Item.double.finite d) := by
    intro d
    unfold Item.double.finite
    split
    · exact FailsOnly.ok _
    · exact FailsOnly.error rfl
  unfold Item.double
  split
  · exact hfinite _
  · split
    · exact hfinite _
    · exact FailsOnly.error rfl
  · exact FailsOnly.error rfl

theorem Item.rounded_ofData (m : Method) (f : Double → Double) (x : Item) :
    FailsOnly EvalError.OfData (x.rounded m f) := by
  unfold Item.rounded
  split
  · exact FailsOnly.ok _
  · exact FailsOnly.ok _
  · exact FailsOnly.error rfl

theorem Item.abs_ofData (x : Item) : FailsOnly EvalError.OfData x.abs := by
  unfold Item.abs
  split
  · split
    · exact FailsOnly.ok _
    · exact FailsOnly.error rfl
  · exact FailsOnly.ok _
  · exact FailsOnly.error rfl

theorem Item.readDatetime_ofData (template : Option String) (x : Item) :
    FailsOnly EvalError.OfData (x.readDatetime template) := by
  unfold Item.readDatetime
  split
  · dsimp only
    split
    · exact FailsOnly.ok _
    · exact FailsOnly.error rfl
  · exact FailsOnly.error rfl

theorem Item.keyValues_ofData (id : Nat) (x : Item) :
    FailsOnly EvalError.OfData (x.keyValues id) := by
  unfold Item.keyValues
  split
  · exact FailsOnly.ok _
  · exact FailsOnly.error rfl

theorem Sequence.keyValues_ofData (id : Nat) : FailsOnly EvalError.OfData (s.keyValues id) := by
  induction s generalizing id with
  | nil => exact FailsOnly.ok []
  | cons x s ih =>
    unfold Sequence.keyValues
    split
    · next e he => exact FailsOnly.error (x.keyValues_ofData id e he)
    · exact (ih (id + 1)).map

theorem Sequence.method_ofData (m : Method) : FailsOnly EvalError.OfData (s.method mode m) := by
  cases m with
  | type => exact FailsOnly.ok _
  | size => exact FailsOnly.collect (Item.size_ofData mode) _
  | double => exact FailsOnly.collect Item.double_ofData _
  | ceiling => exact FailsOnly.collect (Item.rounded_ofData .ceiling Double.ceil) _
  | floor => exact FailsOnly.collect (Item.rounded_ofData .floor Double.floor) _
  | abs => exact FailsOnly.collect Item.abs_ofData _
  | keyValue => exact Sequence.keyValues_ofData _ 0
  | datetime template => exact FailsOnly.collect (Item.readDatetime_ofData template) _

end Steps

/-! ### Nodes -/

theorem ofBinding_failsOnly {E : EvalError → Prop} {r : Except BindingError Item}
    (h : ∀ e, r = .error e → E (.binding e)) : FailsOnly E (ofBinding r) := by
  cases r with
  | ok x => exact FailsOnly.ok _
  | error e => exact FailsOnly.error (h e rfl)

/-- What is left of the errors of an operand inside a predicate. -/
theorem tolerate_failsOnly {α : Type} {E : EvalError → Prop} {r : Except EvalError α}
    (hr : FailsOnly E r) : FailsOnly (fun e => E e ∧ ¬ e.OfData) (tolerate r) := by
  cases r with
  | ok a => exact FailsOnly.ok _
  | error e =>
    unfold tolerate
    by_cases he : e.isDataError = true
    · simp only [he, if_true]
      exact FailsOnly.ok _
    · simp only [he]
      exact FailsOnly.error ⟨hr e rfl, he⟩

namespace Truth

variable {E : EvalError → Prop} {mode : Mode}

theorem compare_failsOnly {op : ComparisonOp} {left : Except EvalError Sequence}
    {right : Unit → Except EvalError Sequence} (hl : FailsOnly E left)
    (hr : ∀ u, FailsOnly E (right u)) :
    FailsOnly (fun e => E e ∧ ¬ e.OfData) (Truth.compare mode op left right) := by
  refine FailsOnly.bind (tolerate_failsOnly hl) (fun l => ?_)
  cases l with
  | none => exact FailsOnly.ok _
  | some l =>
    refine FailsOnly.bind (tolerate_failsOnly (hr ())) (fun r => ?_)
    cases r <;> exact FailsOnly.ok _

theorem ofExistence_failsOnly {operand : Except EvalError Sequence} (h : FailsOnly E operand) :
    FailsOnly (fun e => E e ∧ ¬ e.OfData) (Truth.ofExistence operand) := by
  refine FailsOnly.bind (tolerate_failsOnly h) (fun s => ?_)
  cases s <;> exact FailsOnly.ok _

theorem startsWith_failsOnly {initial : Except EvalError Sequence}
    {whole : Unit → Except EvalError Sequence} (hi : FailsOnly E initial)
    (hw : ∀ u, FailsOnly E (whole u)) :
    FailsOnly (fun e => E e ∧ ¬ e.OfData) (Truth.startsWith mode initial whole) := by
  refine FailsOnly.bind (tolerate_failsOnly hi) (fun i => ?_)
  cases i with
  | none => exact FailsOnly.ok _
  | some i =>
    dsimp only
    split
    · refine FailsOnly.bind (tolerate_failsOnly (hw ())) (fun w => ?_)
      cases w <;> exact FailsOnly.ok _
    · exact FailsOnly.ok _

theorem andThen_failsOnly {left : Except EvalError Truth} {right : Unit → Except EvalError Truth}
    (hl : FailsOnly E left) (hr : ∀ u, FailsOnly E (right u)) :
    FailsOnly E (Truth.andThen left right) := by
  refine FailsOnly.bind hl (fun l => ?_)
  split
  · exact FailsOnly.ok _
  · exact FailsOnly.bind (hr ()) (fun r => FailsOnly.ok _)

theorem orElse_failsOnly {left : Except EvalError Truth} {right : Unit → Except EvalError Truth}
    (hl : FailsOnly E left) (hr : ∀ u, FailsOnly E (right u)) :
    FailsOnly E (Truth.orElse left right) := by
  refine FailsOnly.bind hl (fun l => ?_)
  split
  · exact FailsOnly.ok _
  · exact FailsOnly.bind (hr ()) (fun r => FailsOnly.ok _)

end Truth

theorem Sequence.select_failsOnly {E : EvalError → Prop}
    {predicate : Item → Except EvalError Truth} (h : ∀ x, FailsOnly E (predicate x))
    (s : Sequence) : FailsOnly E (s.select predicate) := by
  refine FailsOnly.collect (fun x => ?_) s
  have hx := h x
  split
  · exact FailsOnly.ok _
  · exact FailsOnly.ok _
  · next e he => exact FailsOnly.error (hx e he)

theorem Sequence.elements_failsOnly {E : EvalError → Prop} (hE : ∀ e : EvalError, e.OfData → E e)
    {mode : Mode} {choose : List Item → Except EvalError Sequence}
    (h : ∀ elements, FailsOnly E (choose elements)) (s : Sequence) :
    FailsOnly E (s.elements mode choose) := by
  refine FailsOnly.collect (fun x => ?_) s
  split
  · exact h _
  · exact FailsOnly.error (hE _ rfl)

theorem Subscript.choose_failsOnly {E : EvalError → Prop} (hE : ∀ e : EvalError, e.OfData → E e)
    {scope : Scope} (elements : List Item) {s : Subscript}
    (h : ∀ n ∈ s.positions, FailsOnly E (n.eval scope)) :
    FailsOnly E (s.choose scope elements) := by
  have hp : ∀ r : Sequence, FailsOnly E (r.position scope.mode) :=
    fun r => (r.position_ofData scope.mode).mono hE
  cases s with
  | index position =>
    simp only [Subscript.choose]
    refine FailsOnly.bind (h position (by simp [Subscript.positions])) (fun r => ?_)
    refine FailsOnly.bind (hp r) (fun i => ?_)
    exact (Item.element_ofData scope.mode elements i).mono hE
  | range first final =>
    simp only [Subscript.choose]
    refine FailsOnly.bind (h first (by simp [Subscript.positions])) (fun r => ?_)
    refine FailsOnly.bind (hp r) (fun i => ?_)
    refine FailsOnly.bind (h final (by simp [Subscript.positions])) (fun r => ?_)
    refine FailsOnly.bind (hp r) (fun j => ?_)
    exact (Item.elementRange_ofData scope.mode elements i j).mono hE
  | last => exact (Item.lastElement_ofData scope.mode elements).mono hE
  | wildcard => exact FailsOnly.ok _

theorem Subscript.chooseAll_failsOnly {E : EvalError → Prop}
    (hE : ∀ e : EvalError, e.OfData → E e) {scope : Scope} (elements : List Item)
    {ss : List Subscript} (h : ∀ s ∈ ss, ∀ n ∈ s.positions, FailsOnly E (n.eval scope)) :
    FailsOnly E (Subscript.chooseAll scope elements ss) := by
  induction ss with
  | nil => exact FailsOnly.ok []
  | cons s ss ih =>
    obtain ⟨hs, hss⟩ := List.forall_mem_cons.mp h
    simp only [Subscript.chooseAll]
    refine FailsOnly.bind (Subscript.choose_failsOnly hE elements hs) (fun xs => ?_)
    exact FailsOnly.bind (ih hss) (fun ys => FailsOnly.ok _)

/-! ### Trees -/

/-- Looking up the value of a form fails, if at all, with an error of a property. -/
def Form.LookupFailsOnly (bindings : Bindings) (P : EvalError → Prop) (f : Form) : Prop :=
  ∀ e, f.lookup bindings = some (.error e) → P (.binding e)

theorem Form.lookupFailsOnly_of_isUnbound {bindings : Bindings} {P : EvalError → Prop} {f : Form}
    (h : f.isUnbound bindings = false) : f.LookupFailsOnly bindings P := by
  intro e he
  rw [Form.isUnbound, he] at h
  cases h

/-- **Causes of failure.** A tree fails with data errors and with the errors of looking up its own
variables, whatever the scope. -/
theorem Node.failsOnly {bindings : Bindings} {P : EvalError → Prop}
    (hP : ∀ e : EvalError, e.OfData → P e) (n : Node) :
    ((∀ f ∈ n.forms, f.LookupFailsOnly bindings P) →
      ∀ scope : Scope, scope.bindings = bindings → FailsOnly P (n.eval scope)) ∧
    ((∀ f ∈ n.forms, f.LookupFailsOnly bindings P) →
      ∀ scope : Scope, scope.bindings = bindings → FailsOnly P (n.truth scope)) := by
  -- Inner scopes keep the parameters, so the induction is over all scopes that have them.
  refine Node.evaluation_induction
    (E := fun n => (∀ f ∈ n.forms, f.LookupFailsOnly bindings P) →
      ∀ scope : Scope, scope.bindings = bindings → FailsOnly P (n.eval scope))
    (T := fun n => (∀ f ∈ n.forms, f.LookupFailsOnly bindings P) →
      ∀ scope : Scope, scope.bindings = bindings → FailsOnly P (n.truth scope))
    ?literal ?context ?current ?last ?named ?positional ?member ?wildcardMember ?descendant
    ?elements ?filter ?unary ?binary ?method ?comparison ?conjunction ?disjunction ?negation
    ?existence ?isUnknown ?startsWith ?predicate ?other n
  case literal => exact fun _ _ _ _ _ => FailsOnly.ok _
  case context => exact fun _ _ _ _ => FailsOnly.ok _
  case current =>
    intro _ _ scope _
    simp only [Node.eval, Form.eval]
    cases scope.current with
    | some x => exact FailsOnly.ok _
    | none => exact FailsOnly.error (hP _ rfl)
  case last =>
    intro _ _ scope _
    simp only [Node.eval, Form.eval]
    cases scope.last with
    | some k => exact FailsOnly.ok _
    | none => exact FailsOnly.error (hP _ rfl)
  case named =>
    intro name declared hn scope hs
    refine ofBinding_failsOnly (fun e he => (Node.forall_forms.mp hn).1 e ?_)
    rw [← hs]
    exact congrArg some he
  case positional =>
    intro position declared hn scope hs
    refine ofBinding_failsOnly (fun e he => (Node.forall_forms.mp hn).1 e ?_)
    rw [← hs]
    exact congrArg some he
  case member =>
    intro target name ih declared hn scope hs
    refine FailsOnly.bind (ih (Node.forall_forms.mp hn).2 scope hs) (fun s => ?_)
    exact (s.member_ofData scope.mode name).mono hP
  case wildcardMember =>
    intro target ih declared hn scope hs
    refine FailsOnly.bind (ih (Node.forall_forms.mp hn).2 scope hs) (fun s => ?_)
    exact (s.wildcardMember_ofData scope.mode).mono hP
  case descendant =>
    intro target name ih declared hn scope hs
    exact FailsOnly.bind (ih (Node.forall_forms.mp hn).2 scope hs) (fun s => FailsOnly.ok _)
  case elements =>
    intro target subscripts iht ihs declared hn scope hs
    obtain ⟨ht, hss⟩ := List.forall_mem_append.mp (Node.forall_forms.mp hn).2
    refine FailsOnly.bind (iht ht scope hs) (fun s => ?_)
    refine Sequence.elements_failsOnly hP (fun elements => ?_) s
    refine Subscript.chooseAll_failsOnly hP elements (fun s hmem n hpos => ?_)
    exact ihs s hmem n hpos ((Subscript.forall_innerAll _).mp hss s hmem n hpos) _ hs
  case filter =>
    intro target predicate iht ihp declared hn scope hs
    obtain ⟨ht, hp⟩ := List.forall_mem_append.mp (Node.forall_forms.mp hn).2
    refine FailsOnly.bind (iht ht scope hs) (fun s => ?_)
    exact Sequence.select_failsOnly (fun x => ihp hp { scope with current := some x } hs) _
  case unary =>
    intro sign operand ih declared hn scope hs
    refine FailsOnly.bind (ih (Node.forall_forms.mp hn).2 scope hs) (fun s => ?_)
    refine FailsOnly.bind ((s.number_ofData scope.mode .unaryOperand).mono hP) (fun a => ?_)
    exact FailsOnly.bind ((a.signed_ofData sign).mono hP) (fun b => FailsOnly.ok _)
  case binary =>
    intro op left right ihl ihr declared hn scope hs
    obtain ⟨hl, hr⟩ := List.forall_mem_append.mp (Node.forall_forms.mp hn).2
    refine FailsOnly.bind (ihl hl scope hs) (fun s => ?_)
    refine FailsOnly.bind ((s.number_ofData scope.mode .leftOperand).mono hP) (fun a => ?_)
    refine FailsOnly.bind (ihr hr scope hs) (fun s => ?_)
    refine FailsOnly.bind ((s.number_ofData scope.mode .rightOperand).mono hP) (fun b => ?_)
    exact FailsOnly.bind ((a.arithmetic_ofData op b).mono hP) (fun c => FailsOnly.ok _)
  case method =>
    intro target m ih declared hn scope hs
    refine FailsOnly.bind (ih (Node.forall_forms.mp hn).2 scope hs) (fun s => ?_)
    exact (s.method_ofData scope.mode m).mono hP
  case comparison =>
    intro op left right ihl ihr declared hn scope hs
    obtain ⟨hl, hr⟩ := List.forall_mem_append.mp (Node.forall_forms.mp hn).2
    exact (Truth.compare_failsOnly (ihl hl scope hs) fun _ => ihr hr scope hs).mono fun _ he => he.1
  case conjunction =>
    intro left right ihl ihr declared hn scope hs
    obtain ⟨hl, hr⟩ := List.forall_mem_append.mp (Node.forall_forms.mp hn).2
    exact Truth.andThen_failsOnly (ihl hl scope hs) fun _ => ihr hr scope hs
  case disjunction =>
    intro left right ihl ihr declared hn scope hs
    obtain ⟨hl, hr⟩ := List.forall_mem_append.mp (Node.forall_forms.mp hn).2
    exact Truth.orElse_failsOnly (ihl hl scope hs) fun _ => ihr hr scope hs
  case negation =>
    exact fun operand ih declared hn scope hs => (ih (Node.forall_forms.mp hn).2 scope hs).map
  case existence =>
    intro operand ih declared hn scope hs
    have ho := ih (Node.forall_forms.mp hn).2 scope hs
    exact (Truth.ofExistence_failsOnly ho).mono fun _ he => he.1
  case isUnknown =>
    exact fun operand ih declared hn scope hs => (ih (Node.forall_forms.mp hn).2 scope hs).map
  case startsWith =>
    intro whole initial ihw ihi declared hn scope hs
    obtain ⟨hw, hi⟩ := List.forall_mem_append.mp (Node.forall_forms.mp hn).2
    exact (Truth.startsWith_failsOnly (ihi hi scope hs) fun _ => ihw hw scope hs).mono fun _ he => he.1
  case predicate =>
    intro n hpred ih hn scope hs
    rw [Node.eval_of_isPredicate hpred]
    exact (ih hn scope hs).map
  case other =>
    intro n hpred _ scope _
    rw [Node.truth_of_not_isPredicate hpred]
    exact FailsOnly.error (hP _ rfl)

/-! ### Predicates -/

/-- **Predicates contain data errors.** Where connectives join predicates, only looking up a variable can
fail: comparisons, `exists` and `starts with` answer all data errors of their operands by unknown. -/
theorem Node.truth_failsOnly_of_isLogical {bindings : Bindings} {P : EvalError → Prop} (n : Node)
    (hlog : n.isLogical = true) (hn : ∀ f ∈ n.forms, f.LookupFailsOnly bindings P) {scope : Scope}
    (hs : scope.bindings = bindings) : FailsOnly P (n.truth scope) := by
  have operand : ∀ m : Node, (∀ f ∈ m.forms, f.LookupFailsOnly bindings P) →
      FailsOnly (fun e => P e ∨ e.OfData) (m.eval scope) :=
    fun m hm => (Node.failsOnly (fun _ h => Or.inr h) m).1
      (fun f hf e he => Or.inl (hm f hf e he)) scope hs
  have contained : ∀ e : EvalError, (P e ∨ e.OfData) ∧ ¬ e.OfData → P e :=
    fun e he => he.1.resolve_right he.2
  induction n with
  | comparison op left right _ _ declared =>
    obtain ⟨hl, hr⟩ := List.forall_mem_append.mp (Node.forall_forms.mp hn).2
    exact (Truth.compare_failsOnly (operand left hl) fun _ => operand right hr).mono contained
  | conjunction left right ihl ihr declared =>
    obtain ⟨hl, hr⟩ := List.forall_mem_append.mp (Node.forall_forms.mp hn).2
    obtain ⟨hlogl, hlogr⟩ := Bool.and_eq_true_iff.mp hlog
    exact Truth.andThen_failsOnly (ihl hlogl hl) fun _ => ihr hlogr hr
  | disjunction left right ihl ihr declared =>
    obtain ⟨hl, hr⟩ := List.forall_mem_append.mp (Node.forall_forms.mp hn).2
    obtain ⟨hlogl, hlogr⟩ := Bool.and_eq_true_iff.mp hlog
    exact Truth.orElse_failsOnly (ihl hlogl hl) fun _ => ihr hlogr hr
  | negation p ih declared => exact (ih hlog (Node.forall_forms.mp hn).2).map
  | existence m _ declared =>
    exact (Truth.ofExistence_failsOnly (operand m (Node.forall_forms.mp hn).2)).mono contained
  | isUnknown p ih declared => exact (ih hlog (Node.forall_forms.mp hn).2).map
  | startsWith whole initial _ _ declared =>
    obtain ⟨hw, hi⟩ := List.forall_mem_append.mp (Node.forall_forms.mp hn).2
    exact (Truth.startsWith_failsOnly (operand initial hi) fun _ => operand whole hw).mono contained
  | _ => exact absurd hlog (by simp [Node.isLogical, Form.isLogical])

theorem Node.truth_neverFails_of_boundIn {n : Node} (scope : Scope) (hlog : n.isLogical = true)
    (hn : n.BoundIn scope.bindings) : NeverFails (n.truth scope) :=
  Node.truth_failsOnly_of_isLogical n hlog
    (fun f hf => Form.lookupFailsOnly_of_isUnbound (hn f hf)) (Eq.refl scope.bindings)

theorem Node.exists_truth_of_boundIn {n : Node} (scope : Scope) (hlog : n.isLogical = true)
    (hn : n.BoundIn scope.bindings) : ∃ t, n.truth scope = .ok t :=
  (Node.truth_neverFails_of_boundIn scope hlog hn).exists_ok

/-- A call is free of failed conversions if its input and all its parameters are. -/
theorem failedConversion?_eq_none_iff {input : Item} {bindings : Bindings} :
    failedConversion? input bindings = none ↔
      input.hasFailure = false ∧ ∀ p ∈ bindings.entries, p.2.hasFailure = false := by
  unfold failedConversion?
  cases input.hasFailure <;> simp [Bindings.firstFailure?]

theorem Node.evaluate_of_clean {input : Item} {bindings : Bindings}
    (h : failedConversion? input bindings = none) (mode : Mode) (n : Node) :
    n.evaluate mode input bindings = n.eval (.initial mode input bindings) := by
  rw [Node.evaluate, h]

/-- **Data errors never escape a predicate.** Where the connectives of a predicate join predicates, it has
a truth value or fails for want of a parameter; as a whole path over clean data with all its variables
bound, it gives exactly one item, which is true, false or null. -/
theorem Node.isLogical_contains_data_errors (p : Node) (hp : p.isLogical = true) :
    (∀ scope : Scope, (∃ t, p.truth scope = .ok t) ∨ ∃ e, p.truth scope = .error (.binding e)) ∧
    ∀ (mode : Mode) (input : Item) (bindings : Bindings), input.hasFailure = false →
      (∀ b ∈ bindings.entries, b.2.hasFailure = false) → p.BoundIn bindings →
      ∃ x, p.evaluate mode input bindings = .ok [x] ∧
        (x = .boolean true ∨ x = .boolean false ∨ x = .null) := by
  constructor
  · intro scope
    have h := Node.truth_failsOnly_of_isLogical (P := fun e => ∃ cause, e = .binding cause) p hp
      (fun _ _ cause _ => ⟨cause, rfl⟩) (Eq.refl scope.bindings)
    cases ht : p.truth scope with
    | ok t => exact Or.inl ⟨t, rfl⟩
    | error e =>
      obtain ⟨cause, rfl⟩ := h e ht
      exact Or.inr ⟨cause, rfl⟩
  · intro mode input bindings hinput hbindings hbound
    have hclean := failedConversion?_eq_none_iff.mpr ⟨hinput, hbindings⟩
    obtain ⟨t, ht⟩ := Node.exists_truth_of_boundIn (.initial mode input bindings) hp hbound
    refine ⟨t.item, ?_, ?_⟩
    · rw [Node.evaluate_of_clean hclean,
        Node.eval_of_isPredicate (Node.isPredicate_of_isLogical hp), ht]
      rfl
    · cases t with
      | true => exact Or.inl rfl
      | false => exact Or.inr (Or.inl rfl)
      | unknown => exact Or.inr (Or.inr rfl)

/-- A division by zero inside a negation leaves it unknown, in strict mode too. -/
theorem Node.isLogical_contains_division_by_zero :
    let p := negated (compared .equal (arithmetic .divide (named "x") (literal (.int 0))) context)
    let bindings := Bindings.empty.insert "x" (.int 1)
    p.isLogical = true ∧ p.BoundIn bindings ∧
      ∃ x, p.evaluate .strict (.object []) bindings = .ok [x] ∧
        (x = .boolean true ∨ x = .boolean false ∨ x = .null) :=
  ⟨rfl, by decide, (Node.isLogical_contains_data_errors _ rfl).2 .strict _ _ rfl (by decide)
    (by decide)⟩

end PathQuery
