import PathQuery.Proofs.Eval.Truth

/-!
# Laws of the connectives

A conjunction and a disjunction evaluate their second operand only where the first does not decide, so
which operands can fail depends on the truth values met on the way. Negation of conjunctions and
disjunctions, double negation and associativity do not change what is evaluated, nor in which order, and
hold with all errors. The other laws of Kleene's logic hold where no operand fails.

* `Truth.orElse_eq_not_andThen` — a disjunction is a negated conjunction of negations, short circuit
  included; the laws of disjunction follow from those of conjunction by it.
* `Truth.andThen_assoc` and `Truth.orElse_assoc` — the results of three operands in turn.
* `Node.SameIn` — two nodes with the same result in a scope, as a sequence and as a predicate.
* `Node.connectives_kleene` — the laws for predicates of a path.
-/

namespace PathQuery

namespace Truth

/-! ### Truth values -/

theorem and_or_distrib (a b c : Truth) : a.and (b.or c) = (a.and b).or (a.and c) := by
  cases a <;> cases b <;> cases c <;> rfl

theorem or_and_distrib (a b c : Truth) : a.or (b.and c) = (a.or b).and (a.or c) := by
  cases a <;> cases b <;> cases c <;> rfl

theorem and_or_self (a b : Truth) : a.and (a.or b) = a := by
  cases a <;> cases b <;> rfl

theorem or_and_self (a b : Truth) : a.or (a.and b) = a := by
  cases a <;> cases b <;> rfl

/-! ### Results -/

section Results

variable (a : Except EvalError Truth) (b c : Unit → Except EvalError Truth)

theorem map_not_not : (a.map not).map not = a := by
  cases a with
  | error e => rfl
  | ok t => exact congrArg Except.ok (not_not t)

theorem andThen_true : andThen (.ok .true) b = b () := by
  show (b () >>= fun t => .ok (Truth.and .true t)) = b ()
  cases b () with
  | error e => rfl
  | ok t => cases t <;> rfl

theorem andThen_unknown : andThen (.ok .unknown) b = (b ()).map (Truth.and .unknown) := by
  show (b () >>= fun t => .ok (Truth.and .unknown t)) = (b ()).map (Truth.and .unknown)
  cases b () <;> rfl

/-- **Disjunction by negation.** A disjunction stops where the conjunction of the negated operands stops. -/
theorem orElse_eq_not_andThen :
    orElse a b = (andThen (a.map not) fun u => (b u).map not).map not := by
  cases a with
  | error e => rfl
  | ok t =>
    cases t with
    | true => rfl
    | false | unknown =>
      show (b () >>= _) = ((((b ()).map not) >>= _) : Except EvalError Truth).map not
      cases b () with
      | error e => rfl
      | ok r => cases r <;> rfl

theorem not_andThen : (andThen a b).map not = orElse (a.map not) fun u => (b u).map not := by
  simp only [orElse_eq_not_andThen, map_not_not]

theorem not_orElse : (orElse a b).map not = andThen (a.map not) fun u => (b u).map not := by
  rw [orElse_eq_not_andThen, map_not_not]

theorem andThen_assoc :
    andThen (andThen a b) c = andThen a fun u => andThen (b u) c := by
  cases a with
  | error e => rfl
  | ok t =>
    cases t with
    | false => rfl
    | true => simp only [andThen_true]
    | unknown =>
      -- A second operand that is false decides on both sides, and any other leaves it to the third.
      simp only [andThen_unknown]
      cases b () with
      | error e => rfl
      | ok r =>
        cases r with
        | false => rfl
        | true =>
          show andThen (.ok .unknown) c = (andThen (.ok .true) c).map (Truth.and .unknown)
          rw [andThen_true, andThen_unknown]
        | unknown =>
          show andThen (.ok .unknown) c = (andThen (.ok .unknown) c).map (Truth.and .unknown)
          rw [andThen_unknown]
          cases c () with
          | error e => rfl
          | ok r => cases r <;> rfl

theorem orElse_assoc :
    orElse (orElse a b) c = orElse a fun u => orElse (b u) c := by
  simp only [orElse_eq_not_andThen, map_not_not, andThen_assoc]

end Results

end Truth

namespace Node

/-! ### Nodes with the same result -/

/-- Two nodes have the same result in a scope, as a sequence and as a predicate, errors included. -/
structure SameIn (scope : Scope) (m n : Node) : Prop where
  eval_eq : m.eval scope = n.eval scope
  truth_eq : m.truth scope = n.truth scope

/-- Predicates have the same result if they have the same truth value or the same error. -/
theorem SameIn.of_truth {scope : Scope} {m n : Node} (hm : m.isPredicate = true)
    (hn : n.isPredicate = true) (h : m.truth scope = n.truth scope) : SameIn scope m n where
  eval_eq := by rw [eval_of_isPredicate hm, eval_of_isPredicate hn, h]
  truth_eq := h

section Connectives

variable (p q : Node) (scope : Scope)

theorem truth_both :
    (both p q).truth scope = Truth.andThen (p.truth scope) fun _ => q.truth scope := rfl

theorem truth_either :
    (either p q).truth scope = Truth.orElse (p.truth scope) fun _ => q.truth scope := rfl

theorem truth_negated : (negated p).truth scope = (p.truth scope).map Truth.not := rfl

end Connectives

/-! ### The laws -/

/-- **Kleene algebra of predicates.** De Morgan's laws, double negation and associativity hold in every
scope, with the same error where an operand fails. Where no operand fails, conjunction and disjunction are
commutative, distribute over each other and absorb each other. -/
theorem connectives_kleene {p : Node} (hp : p.isPredicate = true) (q r : Node) (scope : Scope) :
    (SameIn scope (negated (both p q)) (either (negated p) (negated q)) ∧
      SameIn scope (negated (either p q)) (both (negated p) (negated q)) ∧
      SameIn scope (negated (negated p)) p ∧
      SameIn scope (both (both p q) r) (both p (both q r)) ∧
      SameIn scope (either (either p q) r) (either p (either q r))) ∧
    ((∀ n ∈ [p, q, r], ∃ t, n.truth scope = .ok t) →
      SameIn scope (both p q) (both q p) ∧
      SameIn scope (either p q) (either q p) ∧
      SameIn scope (both p (either q r)) (either (both p q) (both p r)) ∧
      SameIn scope (either p (both q r)) (both (either p q) (either p r)) ∧
      SameIn scope (both p (either p q)) p ∧
      SameIn scope (either p (both p q)) p) := by
  refine ⟨⟨.of_truth rfl rfl ?_, .of_truth rfl rfl ?_, .of_truth rfl hp ?_, .of_truth rfl rfl ?_,
    .of_truth rfl rfl ?_⟩, fun hok => ?_⟩
  · simp only [truth_negated, truth_both, truth_either, Truth.not_andThen]
  · simp only [truth_negated, truth_both, truth_either, Truth.not_orElse]
  · simp only [truth_negated, Truth.map_not_not]
  · simp only [truth_both, Truth.andThen_assoc]
  · simp only [truth_either, Truth.orElse_assoc]
  · obtain ⟨a, ha⟩ := hok p (by simp)
    obtain ⟨b, hb⟩ := hok q (by simp)
    obtain ⟨c, hc⟩ := hok r (by simp)
    refine ⟨.of_truth rfl rfl ?_, .of_truth rfl rfl ?_, .of_truth rfl rfl ?_, .of_truth rfl rfl ?_,
      .of_truth rfl hp ?_, .of_truth rfl hp ?_⟩
    -- Where all operands have truth values the connectives are the tables.
    all_goals simp only [truth_both, truth_either, ha, hb, hc, Truth.andThen_ok, Truth.orElse_ok]
    · rw [Truth.and_comm]
    · rw [Truth.or_comm]
    · rw [Truth.and_or_distrib]
    · rw [Truth.or_and_distrib]
    · rw [Truth.and_or_self]
    · rw [Truth.or_and_self]

/-- An unknown operand in front of one that fails, and operands of all three truth values. -/
theorem connectives_kleene_of_unbound_operand :
    let scope : Scope := ⟨.array [], some (.object [("a", .int 1)]), none, .empty, .strict⟩
    let isNull := compared .equal (member "a" current) (literal .null)
    let isSmall := compared .less (member "a" current) (named "x")
    let isNegative := compared .less (member "a" current) (literal (.int 0))
    let isPresent := nonempty (member "a" current)
    isNull.isPredicate = true ∧
      SameIn scope (negated (both isNull isSmall)) (either (negated isNull) (negated isSmall)) ∧
      (negated (both isNull isSmall)).truth scope = .error (.binding (.unbound "x")) ∧
      (∀ n ∈ [isNull, isNegative, isPresent], ∃ t, n.truth scope = .ok t) ∧
      SameIn scope (both isNull (either isNegative isPresent))
        (either (both isNull isNegative) (both isNull isPresent)) ∧
      SameIn scope (either isNull (both isNull isNegative)) isNull := by
  intro scope isNull isSmall isNegative isPresent
  have hok : ∀ n ∈ [isNull, isNegative, isPresent], ∃ t, n.truth scope = .ok t := by
    rintro n hn
    rcases List.mem_cons.mp hn with rfl | hn
    · exact ⟨.unknown, rfl⟩
    · rcases List.mem_cons.mp hn with rfl | hn
      · exact ⟨.false, rfl⟩
      · obtain rfl := List.mem_singleton.mp hn
        exact ⟨.true, rfl⟩
  obtain ⟨⟨hnot, -⟩, -⟩ := connectives_kleene (p := isNull) rfl isSmall isNegative scope
  obtain ⟨-, -, hdistrib, -, -, habsorb⟩ :=
    (connectives_kleene (p := isNull) rfl isNegative isPresent scope).2 hok
  exact ⟨rfl, hnot, rfl, hok, hdistrib, habsorb⟩

/-- A conjunction is not commutative where an operand fails: what is false decides only in front. -/
example :
    let scope := Scope.initial .lax (.int 1) .empty
    let isNegative := compared .less context (literal (.int 0))
    let isSmall := compared .less context (named "x")
    (both isNegative isSmall).truth scope = .ok .false ∧
      (both isSmall isNegative).truth scope = .error (.binding (.unbound "x")) :=
  ⟨rfl, rfl⟩

end Node

end PathQuery
