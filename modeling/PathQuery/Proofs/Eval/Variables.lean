import PathQuery.Proofs.Eval.Preservation
import PathQuery.Proofs.Eval.Substitution

/-!
# Variables and parameters

A tree reads of its parameters what its variables ask for, by name or by position, and nothing else. All
other parameters can be changed, added or left out without any effect, and no error mentions them.

* `Bindings.AgreeFor` — two rows of parameters in which the variables of a tree find the same.
* `Node.Lacks` — the errors of the variables of a tree that have no value.
* `Node.eval_of_agreeFor` — a tree has the same result under rows that agree for it, in every scope.
* `Node.evaluate_depends_on_variables` — so it has as a whole path, and a binding error of it is one of a
  variable that it lacks.
-/

namespace PathQuery

/-- The variables of a tree have the same values in both rows or no value in either of them. -/
structure Bindings.AgreeFor (n : Node) (bindings bindings' : Bindings) : Prop where
  named : ∀ name, .named name ∈ n.forms → bindings.get name = bindings'.get name
  positional : ∀ position, .positional position ∈ n.forms →
    bindings.getIndex position = bindings'.getIndex position

/-- An error says which variable of a tree has no value. -/
inductive Node.Lacks (n : Node) (bindings : Bindings) : BindingError → Prop
  | named {name : String} : .named name ∈ n.forms → name ∉ Entries.keys bindings.entries →
      n.Lacks bindings (.unbound name)
  | positional {position : Nat} : .positional position ∈ n.forms → bindings.size ≤ position →
      n.Lacks bindings (.unboundPosition position)

/-! ### What is read -/

theorem Bindings.AgreeFor.lookup_eq {n : Node} {bindings bindings' : Bindings}
    (h : AgreeFor n bindings bindings') {f : Form} (hf : f ∈ n.forms) :
    f.lookup bindings' = f.lookup bindings := by
  cases f with
  | named name => exact congrArg some (h.named name hf).symm
  | positional position => exact congrArg some (h.positional position hf).symm
  | _ => rfl

/-- **Only variables read parameters.** Nothing is put in for `@` and `last` here, so that the substitution
is of one row of parameters for another. -/
theorem Node.eval_of_agreeFor {n : Node} {scope : Scope} {bindings : Bindings}
    (h : Bindings.AgreeFor n scope.bindings bindings) :
    n.eval { scope with bindings := bindings } = n.eval scope := by
  have hsame : Scope.Substitutes True .nothing scope { scope with bindings := bindings } :=
    { root := rfl
      mode := rfl
      current := fun _ hname => nomatch hname
      current_none := fun _ => rfl
      last := fun _ hlast => nomatch hlast
      last_none := fun _ => rfl
      nothing := fun _ => rfl }
  have heval := n.eval_substitute.1 _ _ _ hsame fun f hf =>
    ⟨h.lookup_eq hf, fun _ _ => Or.inl trivial⟩
  rwa [n.substitute_nothing] at heval

/-! ### What is missed -/

/-- Looking up a variable of a tree fails only for want of its value. -/
theorem Node.lacks_of_lookup {n : Node} {bindings : Bindings} {f : Form} (hf : f ∈ n.forms)
    {e : BindingError} (h : f.lookup bindings = some (.error e)) : n.Lacks bindings e := by
  cases f with
  | named name =>
    obtain ⟨rfl, hname⟩ := (bindings.get_eq_error_iff name e).mp (Option.some.inj h)
    exact .named hf hname
  | positional position =>
    obtain ⟨rfl, hposition⟩ := (bindings.getIndex_eq_error_iff position e).mp (Option.some.inj h)
    exact .positional hf hposition
  | _ => cases h

/-- A binding error of a tree is one of its own variables. -/
theorem Node.lacks_of_eval {n : Node} {scope : Scope} {e : BindingError}
    (h : n.eval scope = .error (.binding e)) : n.Lacks scope.bindings e := by
  have hdata : ∀ cause : EvalError, cause.OfData →
      ∀ e, cause = .binding e → n.Lacks scope.bindings e := by
    rintro cause hcause e rfl
    cases hcause
  have hlookup : ∀ f ∈ n.forms, f.LookupFailsOnly scope.bindings
      (fun cause => ∀ e, cause = .binding e → n.Lacks scope.bindings e) := by
    intro f hf e he e' heq
    cases heq
    exact Node.lacks_of_lookup hf he
  exact (Node.failsOnly hdata n).1 hlookup scope rfl _ h e rfl

theorem Node.not_lacks_of_boundIn {n : Node} {bindings : Bindings} (hn : n.BoundIn bindings)
    (e : BindingError) : ¬ n.Lacks bindings e := by
  intro h
  cases h with
  | named hf hname =>
    have hbound := hn _ hf
    rw [Form.isUnbound, Form.lookup, (bindings.get_eq_error_iff _ _).mpr ⟨rfl, hname⟩] at hbound
    cases hbound
  | positional hf hposition =>
    have hbound := hn _ hf
    rw [Form.isUnbound, Form.lookup,
      (bindings.getIndex_eq_error_iff _ _).mpr ⟨rfl, hposition⟩] at hbound
    cases hbound

/-! ### Whole paths -/

/-- **A path depends on its variables only.** For two rows of parameters without failed conversions in
which its variables find the same, a tree gives the same sequence or the same error. If the error is one
of binding, it says which variable of the tree has no value; so there is none where all variables have
one. -/
theorem Node.evaluate_depends_on_variables (n : Node) (mode : Mode) (input : Item) :
    (∀ bindings bindings' : Bindings, (∀ b ∈ bindings.entries, b.2.hasFailure = false) →
      (∀ b ∈ bindings'.entries, b.2.hasFailure = false) → Bindings.AgreeFor n bindings bindings' →
      n.evaluate mode input bindings = n.evaluate mode input bindings') ∧
    ∀ bindings : Bindings,
      (∀ e, n.evaluate mode input bindings = .error (.binding e) → n.Lacks bindings e) ∧
      (n.BoundIn bindings → ∀ e, n.evaluate mode input bindings ≠ .error (.binding e)) := by
  constructor
  · intro bindings bindings' hclean hclean' hagree
    cases hinput : input.hasFailure with
    | true =>
      have hfailed : ∀ b : Bindings, n.evaluate mode input b = .error .failedInput := by
        intro b
        rw [Node.evaluate, failedConversion?, if_pos hinput]
      rw [hfailed, hfailed]
    | false =>
      have hscope : Bindings.AgreeFor n (Scope.initial mode input bindings).bindings bindings' := hagree
      rw [Node.evaluate_of_clean (failedConversion?_eq_none_iff.mpr ⟨hinput, hclean⟩),
        Node.evaluate_of_clean (failedConversion?_eq_none_iff.mpr ⟨hinput, hclean'⟩)]
      exact (Node.eval_of_agreeFor hscope).symm
  · intro bindings
    have hlacks : ∀ e, n.evaluate mode input bindings = .error (.binding e) → n.Lacks bindings e := by
      intro e h
      cases hfailed : failedConversion? input bindings with
      | some cause =>
        have hkind := kind_of_failedConversion? hfailed
        rw [Node.evaluate, hfailed] at h
        rw [Except.error.inj h] at hkind
        cases hkind
      | none =>
        rw [Node.evaluate_of_clean hfailed] at h
        exact Node.lacks_of_eval h
    exact ⟨hlacks, fun hbound e h => Node.not_lacks_of_boundIn hbound e (hlacks e h)⟩

/-- A variable in the subscript of a filter's operand and one by its position; a parameter between them is
not asked for, and the name of a third has no value. -/
theorem Node.evaluate_depends_on_variables_of_unused_parameter :
    let position := arithmetic .add (named "k") (literal (.int 1))
    let tree := filter (subscripted [.index position] context) (compared .less current (positional 2))
    let input := Item.array [.int 5, .array [.int 1, .int 7]]
    let row (unused : Item) : Bindings :=
      ((Bindings.empty.insert "k" (.int 0)).insert "other" unused).insert "limit" (.int 3)
    let short := Bindings.empty.insert "limit" (.int 3)
    Bindings.AgreeFor tree (row .null) (row (.string "x")) ∧
      tree.evaluate .lax input (row .null) = .ok [.int 1] ∧
      tree.evaluate .lax input (row (.string "x")) = .ok [.int 1] ∧
      tree.evaluate .lax input short = .error (.binding (.unbound "k")) ∧
      tree.Lacks short (.unbound "k") ∧ tree.BoundIn (row .null) ∧
      ∀ e, tree.evaluate .lax input (row .null) ≠ .error (.binding e) := by
  intro position tree input row short
  have hvariables : ∀ f ∈ tree.forms,
      (∀ name, f = .named name → name = "k") ∧ ∀ place, f = .positional place → place = 2 := by
    simp [tree, position, Node.forms, Form.inner, Subscript.innerAll, Subscript.inner, arithmetic,
      filter, compared, subscripted, current, context, named, Node.positional, literal, ofForm]
  have hagree : Bindings.AgreeFor tree (row .null) (row (.string "x")) := by
    constructor
    · intro name hname
      obtain rfl := (hvariables _ hname).1 name rfl
      rfl
    · intro place hplace
      obtain rfl := (hvariables _ hplace).2 place rfl
      rfl
  have hbound : tree.BoundIn (row .null) := by decide
  have heval : tree.evaluate .lax input (row .null) = .ok [.int 1] := by rfl
  have hshort : tree.evaluate .lax input short = .error (.binding (.unbound "k")) := by rfl
  obtain ⟨hdepends, hmissed⟩ := Node.evaluate_depends_on_variables tree .lax input
  have hsame := hdepends (row .null) (row (.string "x")) (by decide) (by decide) hagree
  exact ⟨hagree, heval, hsame.symm.trans heval, hshort, (hmissed short).1 _ hshort, hbound,
    (hmissed (row .null)).2 hbound⟩

end PathQuery
