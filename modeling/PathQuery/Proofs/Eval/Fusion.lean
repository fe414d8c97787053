import PathQuery.Proofs.Eval.Connectives
import PathQuery.Proofs.Eval.Failure
import PathQuery.Proofs.Eval.Selection

/-!
# Filters in turn

Two filters in turn keep the candidates for which both predicates are true, as one filter by their
conjunction does, where no predicate fails on a candidate. In lax mode the second filter unwraps once more
what the first one has kept, so no candidate may be an array there.

* `Node.verdict` — the truth value of a predicate for a candidate.
* `Node.Decides` — a predicate fails on no candidate; `Node.decides_of_isLogical` says which ones never do.
* `Sequence.unwrap_of_flat` — candidates without arrays stay as they are.
* `Node.eval_filter_filter` — what two filters in turn keep.
* `Node.filters_fuse` — filters in turn, in either order, are one filter by the conjunction.
-/

namespace PathQuery

/-- Candidates that hold no array where arrays would be unwrapped. -/
theorem Sequence.unwrap_of_flat {mode : Mode} {s : Sequence}
    (h : mode = .lax → ∀ x ∈ s, x.isArray = false) : s.unwrap mode = s := by
  cases mode with
  | strict => rfl
  | lax => exact unwrap_eq_self (h rfl)

theorem Truth.and_eq_true_iff {a b : Truth} : a.and b = .true ↔ a = .true ∧ b = .true := by
  cases a <;> cases b <;> simp [Truth.and]

namespace Node

/-- The truth value of a predicate for a candidate; a failure counts as unknown. -/
def verdict (scope : Scope) (p : Node) (x : Item) : Truth :=
  Truth.ofResult (p.truth { scope with current := some x })

/-- A predicate has a truth value for all candidates. -/
def Decides (scope : Scope) (p : Node) (candidates : Sequence) : Prop :=
  ∀ x ∈ candidates, ∃ t, p.truth { scope with current := some x } = .ok t

section Filters

variable {target p q : Node} {scope : Scope} {s candidates : Sequence}

/-- Where connectives join predicates and all variables are bound, a predicate fails on nothing. -/
theorem decides_of_isLogical (hp : p.isLogical = true) (hbound : p.BoundIn scope.bindings)
    (candidates : Sequence) : p.Decides scope candidates :=
  fun x _ => exists_truth_of_boundIn { scope with current := some x } hp hbound

theorem Decides.truth_eq (hp : p.Decides scope candidates) {x : Item} (hx : x ∈ candidates) :
    p.truth { scope with current := some x } = .ok (p.verdict scope x) := by
  obtain ⟨t, ht⟩ := hp x hx
  rw [verdict, ht]
  rfl

theorem Decides.both (hp : p.Decides scope candidates) (hq : q.Decides scope candidates) :
    (both p q).Decides scope candidates := by
  intro x hx
  exact ⟨_, by rw [truth_both, hp.truth_eq hx, hq.truth_eq hx, Truth.andThen_ok]⟩

theorem verdict_both (hp : p.Decides scope candidates) (hq : q.Decides scope candidates) {x : Item}
    (hx : x ∈ candidates) :
    (Node.both p q).verdict scope x = (p.verdict scope x).and (q.verdict scope x) := by
  rw [verdict, truth_both, hp.truth_eq hx, hq.truth_eq hx, Truth.andThen_ok]
  rfl

/-- A filter keeps the candidates with a true verdict. -/
theorem eval_filter_of_decides (htarget : target.eval scope = .ok s)
    (hp : p.Decides scope (s.unwrap scope.mode)) :
    (filter target p).eval scope =
      .ok ((s.unwrap scope.mode).filter fun x => p.verdict scope x = .true) := by
  rw [eval_filter_of_ok htarget]
  exact Sequence.select_eq_filter (p.verdict scope) fun x hx => hp.truth_eq hx

/-- What two filters in turn keep. The second one has the candidates that the first one keeps. -/
theorem eval_filter_filter (htarget : target.eval scope = .ok s)
    (hp : p.Decides scope (s.unwrap scope.mode)) (hq : q.Decides scope (s.unwrap scope.mode))
    (hflat : scope.mode = .lax → ∀ x ∈ s.unwrap scope.mode, x.isArray = false) :
    (filter (filter target p) q).eval scope =
      .ok ((s.unwrap scope.mode).filter fun x =>
        p.verdict scope x = .true ∧ q.verdict scope x = .true) := by
  have hfirst := eval_filter_of_decides htarget hp
  have hkept : ∀ x ∈ (s.unwrap scope.mode).filter fun x => p.verdict scope x = .true,
      x ∈ s.unwrap scope.mode := fun x hx => List.mem_of_mem_filter hx
  have hunwrap := Sequence.unwrap_of_flat fun hlax x hx => hflat hlax x (hkept x hx)
  have hsecond := eval_filter_of_decides (p := q) hfirst (by
    rw [hunwrap]
    exact fun x hx => hq x (hkept x hx))
  rw [hsecond, hunwrap, List.filter_filter]
  simp only [Bool.decide_and, Bool.and_comm]

/-- **Filter fusion.** Where no predicate fails on a candidate, the filters of a target by two predicates
in turn, by their conjunction, and in turn in the other order, keep the same candidates, in order: those for
which both are true. In lax mode no candidate may be an array. -/
theorem filters_fuse (htarget : target.eval scope = .ok s)
    (hp : p.Decides scope (s.unwrap scope.mode)) (hq : q.Decides scope (s.unwrap scope.mode))
    (hflat : scope.mode = .lax → ∀ x ∈ s.unwrap scope.mode, x.isArray = false) :
    let kept := (s.unwrap scope.mode).filter fun x =>
      p.verdict scope x = .true ∧ q.verdict scope x = .true
    (filter (filter target p) q).eval scope = .ok kept ∧
      (filter target (Node.both p q)).eval scope = .ok kept ∧
      (filter (filter target q) p).eval scope = .ok kept := by
  intro kept
  refine ⟨eval_filter_filter htarget hp hq hflat, ?_, ?_⟩
  · rw [eval_filter_of_decides htarget (hp.both hq)]
    refine congrArg Except.ok (List.filter_congr fun x hx => ?_)
    simp only [verdict_both hp hq hx, Truth.and_eq_true_iff]
  · rw [eval_filter_filter htarget hq hp hflat]
    refine congrArg Except.ok (List.filter_congr fun x _ => ?_)
    simp only [and_comm]

end Filters

/-- Candidates for which one predicate is false, one is unknown, and both are true. -/
theorem filters_fuse_of_unwrapped_array :
    let scope := Scope.initial .lax (.array [.int 1, .int 2, .string "a", .int 3]) .empty
    let p := compared .greater current (literal (.int 1))
    let q := negated (compared .equal current (literal (.int 3)))
    let candidates : Sequence := [.int 1, .int 2, .string "a", .int 3]
    context.eval scope = .ok [.array candidates] ∧
      Sequence.unwrap scope.mode [.array candidates] = candidates ∧
      p.Decides scope candidates ∧ q.Decides scope candidates ∧
      (∀ x ∈ candidates, x.isArray = false) ∧
      (filter (filter context p) q).eval scope = .ok [.int 2] ∧
      (filter context (both p q)).eval scope = .ok [.int 2] ∧
      (filter (filter context q) p).eval scope = .ok [.int 2] := by
  intro scope p q candidates
  have hp : p.Decides scope candidates := decides_of_isLogical rfl (by decide) _
  have hq : q.Decides scope candidates := decides_of_isLogical rfl (by decide) _
  have hflat : ∀ x ∈ candidates, x.isArray = false := by decide
  have htarget : context.eval scope = .ok [.array candidates] := rfl
  obtain ⟨hpq, hboth, hqp⟩ := filters_fuse htarget hp hq fun _ => hflat
  exact ⟨htarget, rfl, hp, hq, hflat, hpq, hboth, hqp⟩

/-- An array among the candidates of lax mode: the second filter looks at its elements. -/
example :
    let scope := Scope.initial .lax (.array [.array [.int 1]]) .empty
    let p := nonempty current
    let q := compared .equal current (literal (.int 1))
    (filter (filter context p) q).eval scope = .ok [.int 1] ∧
      (filter context (both p q)).eval scope = .ok [.array [.int 1]] :=
  ⟨rfl, rfl⟩

end Node

end PathQuery
