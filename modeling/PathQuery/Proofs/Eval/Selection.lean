import Mathlib.Data.List.FinRange
import PathQuery.Proofs.Eval.Truth

/-!
# What filters select

A filter asks its predicate about one candidate after another and keeps those for which it is true. The
predicate, its negation and the question whether it is unknown ask the same of each candidate, so that
the three filters stop at the same candidate or share out all of them.

* `Sequence.select_eq_filter` — where all candidates have a truth value, a filter keeps those that are
  true.
* `Sequence.select_stops` — the first candidate without a truth value ends all filters that ask for a
  function of it.
* `Node.filters_partition` — a predicate, its negation and its being unknown partition the candidates.
-/

namespace PathQuery

/-! ### One filter -/

section Select

variable {truth : Item → Except EvalError Truth} {candidates : Sequence}

/-- A filter whose predicate has a truth value for every candidate. -/
theorem Sequence.select_eq_filter (verdict : Item → Truth)
    (h : ∀ x ∈ candidates, truth x = .ok (verdict x)) :
    candidates.select truth = .ok (candidates.filter fun x => verdict x = .true) := by
  induction candidates with
  | nil => rfl
  | cons x xs ih =>
    obtain ⟨hx, hxs⟩ := List.forall_mem_cons.mp h
    have hrest : Sequence.collect _ xs = .ok (xs.filter fun x => verdict x = .true) := ih hxs
    simp only [Sequence.select, Sequence.collect, hx, hrest]
    cases hverdict : verdict x with
    | true => rw [List.filter_cons_of_pos (by simp [hverdict])]; rfl
    | false | unknown => rw [List.filter_cons_of_neg (by simp [hverdict])]; rfl

/-- A candidate without a truth value: the first one gives its error to all filters that ask for a
function of the truth value. -/
theorem Sequence.select_stops {x : Item} (hx : x ∈ candidates) {e : EvalError}
    (he : truth x = .error e) :
    ∃ first, ∀ f : Truth → Truth,
      candidates.select (fun y => (truth y).map f) = .error first := by
  induction candidates with
  | nil => cases hx
  | cons y ys ih =>
    cases hy : truth y with
    | error first =>
      refine ⟨first, fun f => ?_⟩
      simp only [Sequence.select, Sequence.collect, hy, Except.map]
    | ok t =>
      have hmem : x ∈ ys := by
        rcases List.mem_cons.mp hx with rfl | hmem
        · rw [hy] at he
          cases he
        · exact hmem
      obtain ⟨first, hfirst⟩ := ih hmem
      refine ⟨first, fun f => ?_⟩
      have hrest : Sequence.collect _ ys = .error first := hfirst f
      simp only [Sequence.select, Sequence.collect, hy, hrest]
      cases hf : f t <;> simp only [Except.map, hf]

/-- The truth value of a result; a failure counts as unknown. -/
def Truth.ofResult : Except EvalError Truth → Truth
  | .ok t => t
  | .error _ => .unknown

/-- Filters by functions of one truth value either stop together or keep what the functions say. -/
theorem Sequence.select_map_cases (truth : Item → Except EvalError Truth) (candidates : Sequence) :
    (∃ e, ∀ f : Truth → Truth, candidates.select (fun x => (truth x).map f) = .error e) ∨
    ∃ verdict : Item → Truth, (∀ x ∈ candidates, truth x = .ok (verdict x)) ∧
      ∀ f : Truth → Truth, candidates.select (fun x => (truth x).map f) =
        .ok (candidates.filter fun x => f (verdict x) = .true) := by
  by_cases hfails : ∃ x ∈ candidates, ∃ e, truth x = .error e
  · obtain ⟨x, hx, e, he⟩ := hfails
    exact Or.inl (Sequence.select_stops hx he)
  · have hok : ∀ x ∈ candidates, truth x = .ok (Truth.ofResult (truth x)) := by
      intro x hx
      cases ht : truth x with
      | error e => exact absurd ⟨x, hx, e, ht⟩ hfails
      | ok t => rfl
    refine Or.inr ⟨fun x => Truth.ofResult (truth x), hok, fun f => ?_⟩
    refine Sequence.select_eq_filter (fun x => f (Truth.ofResult (truth x))) ?_
    intro x hx
    rw [hok x hx]
    rfl

end Select

/-! ### Positions -/

/-- The positions that are marked with a truth value, from the first to the last. -/
def Truth.positions {n : Nat} (mark : Fin n → Truth) (t : Truth) : List (Fin n) :=
  (List.finRange n).filter fun i => mark i = t

theorem Truth.mem_positions {n : Nat} {mark : Fin n → Truth} {t : Truth} {i : Fin n} :
    i ∈ positions mark t ↔ mark i = t := by
  simp [positions]

/-- No position is lost and none counts twice. -/
theorem Truth.length_positions {n : Nat} (mark : Fin n → Truth) :
    (positions mark .true).length + (positions mark .false).length +
      (positions mark .unknown).length = n := by
  have hsplit : ∀ is : List (Fin n),
      (is.filter fun i => mark i = .true).length + (is.filter fun i => mark i = .false).length +
        (is.filter fun i => mark i = .unknown).length = is.length := by
    intro is
    induction is with
    | nil => rfl
    | cons i is ih =>
      cases hi : mark i <;> simp [hi, ← ih] <;> omega
  exact (hsplit (List.finRange n)).trans List.length_finRange

/-- Keeping items by a property is keeping the positions where they have it. -/
theorem Sequence.filter_eq_positions (candidates : Sequence) (verdict : Item → Truth) (t : Truth) :
    (candidates.filter fun x => verdict x = t) =
      (Truth.positions (fun i => verdict (candidates.get i)) t).map candidates.get := by
  conv_lhs => rw [← List.map_get_finRange candidates, List.filter_map]
  rfl

/-! ### Three filters -/

section Filters

variable {target : Node} {scope : Scope}

theorem Node.eval_filter_of_error {e : EvalError} (h : target.eval scope = .error e) (p : Node) :
    (filter target p).eval scope = .error e := by
  show (target.eval scope >>= fun s => (s.unwrap scope.mode).select fun x =>
    p.truth { scope with current := some x }) = _
  rw [h]
  rfl

theorem Node.eval_filter_of_ok {s : Sequence} (h : target.eval scope = .ok s) (p : Node) :
    (filter target p).eval scope =
      (s.unwrap scope.mode).select fun x => p.truth { scope with current := some x } := by
  show (target.eval scope >>= fun s => (s.unwrap scope.mode).select fun x =>
    p.truth { scope with current := some x }) = _
  rw [h]
  rfl

end Filters

/-- **Ternary partitioning.** The filters of a target by a predicate, by its negation and by its being
unknown all fail with the same error, or they partition the candidates, which are the items of the target
unwrapped as the mode asks: each position of a candidate is marked with one truth value, and the filters
keep the candidates at the positions marked true, false and unknown, in order. -/
theorem Node.filters_partition (target p : Node) (scope : Scope) :
    (∃ e, (filter target p).eval scope = .error e ∧
      (filter target (negated p)).eval scope = .error e ∧
      (filter target (unknown p)).eval scope = .error e) ∨
    ∃ s candidates, target.eval scope = .ok s ∧ candidates = s.unwrap scope.mode ∧
      ∃ mark : Fin candidates.length → Truth,
        (∀ i, p.truth { scope with current := some (candidates.get i) } = .ok (mark i)) ∧
        (filter target p).eval scope = .ok ((Truth.positions mark .true).map candidates.get) ∧
        (filter target (negated p)).eval scope =
          .ok ((Truth.positions mark .false).map candidates.get) ∧
        (filter target (unknown p)).eval scope =
          .ok ((Truth.positions mark .unknown).map candidates.get) ∧
        (∀ i, ∃! t, i ∈ Truth.positions mark t) ∧
        (∀ t, (Truth.positions mark t).Pairwise (· < ·)) ∧
        (Truth.positions mark .true).length + (Truth.positions mark .false).length +
          (Truth.positions mark .unknown).length = candidates.length := by
  cases htarget : target.eval scope with
  | error e =>
    exact Or.inl ⟨e, eval_filter_of_error htarget p, eval_filter_of_error htarget (negated p),
      eval_filter_of_error htarget (unknown p)⟩
  | ok s =>
    have hnegated := eval_filter_of_ok htarget (negated p)
    have hunknown := eval_filter_of_ok htarget (unknown p)
    have hself : (filter target p).eval scope = (s.unwrap scope.mode).select fun x =>
        (p.truth { scope with current := some x }).map id := by
      rw [eval_filter_of_ok htarget p, Except.map_id]
      rfl
    rcases Sequence.select_map_cases (fun x => p.truth { scope with current := some x })
      (s.unwrap scope.mode) with ⟨e, he⟩ | ⟨verdict, htruth, hselect⟩
    · exact Or.inl ⟨e, hself.trans (he id), hnegated.trans (he Truth.not), hunknown.trans (he _)⟩
    · refine Or.inr ⟨s, s.unwrap scope.mode, rfl, rfl,
        fun i => verdict ((s.unwrap scope.mode).get i), ?_, ?_, ?_, ?_, ?_, ?_, ?_⟩
      · exact fun i => htruth _ (List.get_mem _ i)
      · rw [hself, hselect id, ← Sequence.filter_eq_positions]
        rfl
      · refine hnegated.trans ((hselect Truth.not).trans ?_)
        rw [← Sequence.filter_eq_positions]
        simp only [Truth.not_eq_true_iff]
      · refine hunknown.trans ((hselect fun t => Truth.ofBool (t = .unknown)).trans ?_)
        rw [← Sequence.filter_eq_positions]
        simp only [Truth.ofBool_eq_true_iff, decide_eq_true_eq]
      · exact fun i => ⟨_, Truth.mem_positions.mpr rfl, fun t ht => (Truth.mem_positions.mp ht).symm⟩
      · exact fun t => (List.pairwise_lt_finRange _).filter _
      · exact Truth.length_positions _

/-- Of the candidates one is greater than 1, one is not, and one does not compare. -/
example :
    let scope := Scope.initial .lax (.array [.int 1, .int 2, .string "a"]) .empty
    let p := Node.compared .greater .current (.literal (.int 1))
    (Node.filter .context p).eval scope = .ok [.int 2] ∧
      (Node.filter .context p.negated).eval scope = .ok [.int 1] ∧
      (Node.filter .context p.unknown).eval scope = .ok [.string "a"] :=
  ⟨rfl, rfl, rfl⟩

end PathQuery
