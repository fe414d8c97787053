import PathQuery.Proofs.Eval.Preservation

/-!
# Binding errors of operands

A comparison and `starts with` evaluate one operand first, and the other only if the result of the first
leads on to it. A missing parameter of the first operand therefore ends the predicate always, and one of
the second operand only where it is looked for.

* `Form.operands?` — the two operands in the order of their evaluation.
* `Form.LeadsOn` — which sequences of the first operand lead on to the second.
* `Node.binding_errors_leave_predicates` — which binding errors leave a predicate, and that it is unknown
  where one of the second operand does not.
* `Node.data_errors_hide_unbound_variables` — a data error of the first operand does hide one.
-/

namespace PathQuery

/-! ### Results -/

theorem bind_eq_error_iff {ε α β : Type} {r : Except ε α} {f : α → Except ε β} {e : ε} :
    (r >>= f) = .error e ↔ r = .error e ∨ ∃ a, r = .ok a ∧ f a = .error e := by
  cases r with
  | error e' => simp [bind, Except.bind]
  | ok a => simp [bind, Except.bind]

/-- An error comes from the data or from the parameters, or else from a failed conversion. -/
theorem EvalError.ofData_or_binding {e : EvalError} (h : e.kind ≠ .inputConversion) :
    e.OfData ∨ ∃ cause, e = .binding cause := by
  cases e with
  | binding cause => exact Or.inr ⟨cause, rfl⟩
  | failedInput | failedParameter => exact absurd rfl h
  | _ => exact Or.inl rfl

section Tolerance

variable {α : Type} {r : Except EvalError α}

theorem tolerate_eq_some_iff {a : α} : tolerate r = .ok (some a) ↔ r = .ok a := by
  cases r with
  | ok b => simp [tolerate]
  | error e =>
    unfold tolerate
    by_cases he : e.isDataError = true <;> simp [he]

/-- A binding error passes through, and none comes from elsewhere. -/
theorem tolerate_eq_binding_iff {cause : BindingError} :
    tolerate r = .error (.binding cause) ↔ r = .error (.binding cause) := by
  cases r with
  | ok a => simp [tolerate]
  | error e =>
    unfold tolerate
    by_cases he : e.isDataError = true
    · have hne : e ≠ .binding cause := by
        rintro rfl
        cases he
      simp [he, hne]
    · simp [he]

theorem tolerate_of_data {e : EvalError} (h : e.OfData) :
    tolerate (.error e : Except EvalError α) = .ok none :=
  if_pos h

end Tolerance

/-! ### Predicates on two operands -/

namespace Truth

variable {mode : Mode} {op : ComparisonOp} {first : Except EvalError Sequence}
  {second : Unit → Except EvalError Sequence} {cause : BindingError}

theorem compare_eq_binding_iff :
    compare mode op first second = .error (.binding cause) ↔
      first = .error (.binding cause) ∨
        (∃ s, first = .ok s) ∧ second () = .error (.binding cause) := by
  rw [compare, bind_eq_error_iff, tolerate_eq_binding_iff]
  refine or_congr_right ⟨?_, ?_⟩
  · rintro ⟨a, ha, hrest⟩
    cases a with
    | none => cases hrest
    | some s =>
      refine ⟨⟨s, tolerate_eq_some_iff.mp ha⟩, ?_⟩
      rcases bind_eq_error_iff.mp hrest with hsecond | ⟨b, -, hb⟩
      · exact tolerate_eq_binding_iff.mp hsecond
      · cases b <;> cases hb
  · rintro ⟨⟨s, hs⟩, hsecond⟩
    exact ⟨some s, tolerate_eq_some_iff.mpr hs,
      bind_eq_error_iff.mpr (Or.inl (tolerate_eq_binding_iff.mpr hsecond))⟩

theorem compare_of_data {e : EvalError} (h : e.OfData) :
    compare mode op (.error e) second = .ok .unknown := by
  rw [compare, tolerate_of_data h]
  rfl

theorem startsWith_eq_binding_iff :
    startsWith mode first second = .error (.binding cause) ↔
      first = .error (.binding cause) ∨
        (∃ s, first = .ok s ∧ ∃ text, s.unwrap mode = [.string text]) ∧
          second () = .error (.binding cause) := by
  rw [startsWith, bind_eq_error_iff, tolerate_eq_binding_iff]
  refine or_congr_right ⟨?_, ?_⟩
  · rintro ⟨a, ha, hrest⟩
    cases a with
    | none => cases hrest
    | some s =>
      dsimp only at hrest
      split at hrest
      · next text htext =>
        refine ⟨⟨s, tolerate_eq_some_iff.mp ha, text, htext⟩, ?_⟩
        rcases bind_eq_error_iff.mp hrest with hsecond | ⟨b, -, hb⟩
        · exact tolerate_eq_binding_iff.mp hsecond
        · cases b <;> cases hb
      · cases hrest
  · rintro ⟨⟨s, hs, text, htext⟩, hsecond⟩
    refine ⟨some s, tolerate_eq_some_iff.mpr hs, ?_⟩
    simp only [htext]
    exact bind_eq_error_iff.mpr (Or.inl (tolerate_eq_binding_iff.mpr hsecond))

theorem startsWith_of_data {e : EvalError} (h : e.OfData) :
    startsWith mode (.error e) second = .ok .unknown := by
  rw [startsWith, tolerate_of_data h]
  rfl

/-- Without one text to look for there is nothing to ask of the second operand. -/
theorem startsWith_of_no_text {s : Sequence} (h : ¬ ∃ text, s.unwrap mode = [.string text]) :
    startsWith mode (.ok s) second = .ok .unknown := by
  simp only [startsWith, tolerate, bind, Except.bind]
  split
  · next text htext => exact absurd ⟨text, htext⟩ h
  · rfl

end Truth

/-! ### Nodes -/

/-- The operands of a comparison and of `starts with`, the one that is evaluated first in front. -/
def Form.operands? : Form → Option (Node × Node)
  | .comparison _ left right => some (left, right)
  | .startsWith whole initial => some (initial, whole)
  | _ => none

/-- Whether a sequence of the first operand leads on to the second one: `starts with` has to be given one
text to look for. -/
def Form.LeadsOn (mode : Mode) (s : Sequence) : Form → Prop
  | .startsWith .. => ∃ text, s.unwrap mode = [.string text]
  | _ => True

theorem Node.truth_eq_binding_iff {n first second : Node}
    (hn : n.form.operands? = some (first, second)) (scope : Scope) (cause : BindingError) :
    n.truth scope = .error (.binding cause) ↔
      first.eval scope = .error (.binding cause) ∨
        (∃ s, first.eval scope = .ok s ∧ n.form.LeadsOn scope.mode s) ∧
          second.eval scope = .error (.binding cause) := by
  obtain ⟨form, declared⟩ := n
  cases form with
  | comparison op left right =>
    cases hn
    simp only [Node.truth, Form.truth, Truth.compare_eq_binding_iff, Node.form, Form.LeadsOn, and_true]
  | startsWith whole initial =>
    cases hn
    simp only [Node.truth, Form.truth, Truth.startsWith_eq_binding_iff, Node.form, Form.LeadsOn]
  | _ => cases hn

/-- A data error of the first operand decides the predicate. -/
theorem Node.truth_of_data {n first second : Node} (hn : n.form.operands? = some (first, second))
    {scope : Scope} {e : EvalError} (hfirst : first.eval scope = .error e) (he : e.OfData) :
    n.truth scope = .ok .unknown := by
  obtain ⟨form, declared⟩ := n
  cases form with
  | comparison op left right =>
    cases hn
    simp only [Node.truth, Form.truth, hfirst, Truth.compare_of_data he]
  | startsWith whole initial =>
    cases hn
    simp only [Node.truth, Form.truth, hfirst, Truth.startsWith_of_data he]
  | _ => cases hn

/-- So does a sequence that does not lead on to the second operand. -/
theorem Node.truth_of_not_leadsOn {n first second : Node}
    (hn : n.form.operands? = some (first, second)) {scope : Scope} {s : Sequence}
    (hfirst : first.eval scope = .ok s) (hs : ¬ n.form.LeadsOn scope.mode s) :
    n.truth scope = .ok .unknown := by
  obtain ⟨form, declared⟩ := n
  cases form with
  | comparison op left right => exact absurd trivial hs
  | startsWith whole initial =>
    cases hn
    simp only [Node.truth, Form.truth, hfirst, Truth.startsWith_of_no_text hs]
  | _ => cases hn

/-- **Binding errors leave a predicate on two operands.** One of the operand that is evaluated first always
does, and one of the other operand exactly if the first has a sequence that leads on to it. Where an error of
the second operand is passed by, the predicate fails with a binding error of the first, or it is unknown, by
a data error of the first operand or for want of a text to look for; it is never true or false. -/
theorem Node.binding_errors_leave_predicates {n first second : Node}
    (hn : n.form.operands? = some (first, second)) (scope : Scope) :
    (∀ cause, n.truth scope = .error (.binding cause) ↔
      first.eval scope = .error (.binding cause) ∨
        (∃ s, first.eval scope = .ok s ∧ n.form.LeadsOn scope.mode s) ∧
          second.eval scope = .error (.binding cause)) ∧
    ∀ cause, second.eval scope = .error (.binding cause) →
      (∃ cause', n.truth scope = .error (.binding cause')) ∨
        n.truth scope = .ok .unknown ∧
          ((∃ e, first.eval scope = .error e ∧ e.OfData) ∨
            ∃ s, first.eval scope = .ok s ∧ ¬ n.form.LeadsOn scope.mode s) := by
  refine ⟨fun cause => Node.truth_eq_binding_iff hn scope cause, fun cause hsecond => ?_⟩
  cases hfirst : first.eval scope with
  | ok s =>
    by_cases hs : n.form.LeadsOn scope.mode s
    · have herror : n.truth scope = .error (.binding cause) :=
        (Node.truth_eq_binding_iff hn scope cause).mpr (Or.inr ⟨⟨s, hfirst, hs⟩, hsecond⟩)
      exact Or.inl ⟨cause, herror⟩
    · exact Or.inr ⟨Node.truth_of_not_leadsOn hn hfirst hs, Or.inr ⟨s, rfl, hs⟩⟩
  | error e =>
    rcases EvalError.ofData_or_binding (Node.kind_of_eval hfirst) with he | ⟨cause', rfl⟩
    · exact Or.inr ⟨Node.truth_of_data hn hfirst he, Or.inl ⟨e, rfl, he⟩⟩
    · have herror : n.truth scope = .error (.binding cause') :=
        (Node.truth_eq_binding_iff hn scope cause').mpr (Or.inl hfirst)
      exact Or.inl ⟨cause', herror⟩

/-- A comparison whose second operand is missing, inside the filter of an array. -/
theorem Node.binding_errors_leave_predicates_of_unbound_operand :
    let p := compared .less (member "a" current) (arithmetic .add (named "x") (literal (.int 1)))
    let scope : Scope := ⟨.array [], some (.object [("a", .null)]), none, .empty, .strict⟩
    p.form.operands? =
        some (member "a" current, arithmetic .add (named "x") (literal (.int 1))) ∧
      p.truth scope = .error (.binding (.unbound "x")) := by
  intro p scope
  refine ⟨rfl, ?_⟩
  exact ((Node.binding_errors_leave_predicates (n := p) rfl scope).1 _).mpr
    (Or.inr ⟨⟨[.null], rfl, trivial⟩, rfl⟩)

/-- The data of the first operand do hide an unbound variable of the second: a member that strict mode
does not find makes `$.a == $x` null, and so does a number to look for in `$x starts with 1`. -/
theorem Node.data_errors_hide_unbound_variables :
    (named "x").eval (.initial .strict (.object []) .empty) = .error (.binding (.unbound "x")) ∧
      (compared .equal (member "a" context) (named "x")).evaluate .strict (.object []) .empty =
        .ok [.null] ∧
      (startsWith (named "x") (literal (.int 1))).evaluate .strict (.object []) .empty = .ok [.null] ∧
      ¬ ∀ (n first second : Node) (scope : Scope) (cause : BindingError),
        n.form.operands? = some (first, second) →
        first.eval scope = .error (.binding cause) ∨ second.eval scope = .error (.binding cause) →
        ∃ cause', n.truth scope = .error (.binding cause') := by
  refine ⟨rfl, rfl, rfl, fun hall => ?_⟩
  obtain ⟨cause, hcause⟩ := hall (compared .equal (member "a" context) (named "x")) _ _
    (.initial .strict (.object []) .empty) (.unbound "x") rfl (Or.inr rfl)
  cases hcause

end PathQuery
