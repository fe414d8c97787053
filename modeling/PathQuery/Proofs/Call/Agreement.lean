import PathQuery.Proofs.Bindings
import PathQuery.Proofs.Call.Routing
import PathQuery.Proofs.Eval.Preservation

/-!
# The functions and the evaluator

The functions look for failed conversions and bind their rows themselves. Without a failed conversion the
sequence that they come to is the one of the evaluator, and each of them is a view of it.

* `Path.evaluateRow` — the evaluator alone, for a row of parameters; `Path.sequence_of_clean` says that
  the functions see no other sequence.
* `Wrapper.wrap_unconditional`, `Wrapper.wrap_conditional_of_isStructured` and
  `Wrapper.wrap_conditional_of_scalar` — the three wrappers in terms of each other.
* `Path.functions_agree` — what the functions give for every sequence and every failure.
-/

namespace PathQuery

/-! ### One sequence -/

namespace Path

/-- The sequence of a path for a row of parameters, by binding them and then evaluating. -/
def evaluateRow (p : Path) (input : Item) (row : ParameterRow) : Except EvalError Sequence := do
  let bindings ← (Bindings.ofRow row).mapError EvalError.binding
  p.evaluate input bindings

variable {p : Path} {input : Item} {row : ParameterRow}

/-- Without a failed conversion the functions come to the sequence of the evaluator. -/
theorem sequence_of_clean (hinput : input.Clean) (hrow : ∀ entry ∈ row, entry.2.Clean)
    (function : SqlFunction) :
    p.sequence function input row = (p.evaluateRow input row).mapError CallError.evaluation := by
  rw [Item.clean_iff] at hinput
  simp only [Item.clean_iff] at hrow
  have hany : (row.any fun entry => entry.2.hasFailure) = false := by
    rw [List.any_eq_false]
    intro entry hentry
    simp [hrow entry hentry]
  rw [sequence, hinput, hany]
  cases hbind : Bindings.ofRow row with
  | error e =>
    rw [evaluateRow, hbind]
    rfl
  | ok bindings =>
    have hclean : failedConversion? input bindings = none := by
      rw [failedConversion?_eq_none_iff, Bindings.entries_of_ofRow hbind]
      exact ⟨hinput, hrow⟩
    have hevaluate : p.evaluateRow input row = p.root.eval (.initial p.mode input bindings) := by
      rw [evaluateRow, hbind]
      exact Node.evaluate_of_clean hclean p.mode p.root
    rw [hevaluate]
    rfl

theorem sequence_eq_ok_iff (hinput : input.Clean) (hrow : ∀ entry ∈ row, entry.2.Clean)
    (function : SqlFunction) (s : Sequence) :
    p.sequence function input row = .ok s ↔ p.evaluateRow input row = .ok s := by
  rw [sequence_of_clean hinput hrow, mapError_eq_ok_iff]

theorem sequence_eq_error_iff (hinput : input.Clean) (hrow : ∀ entry ∈ row, entry.2.Clean)
    (function : SqlFunction) (cause : EvalError) :
    p.sequence function input row = .error (.evaluation cause) ↔
      p.evaluateRow input row = .error cause := by
  rw [sequence_of_clean hinput hrow, mapError_eq_error_iff]
  simp

end Path

/-! ### Wrappers -/

namespace Wrapper

theorem wrap_unconditional (s : Sequence) :
    unconditional.wrap s = .ok (.array (s.map Item.toJson)) := by
  rw [← Item.toJsonElements_eq_map]
  rfl

theorem wrap_conditional_of_isStructured {x : Item} (hx : x.isStructured = true) :
    conditional.wrap [x] = without.wrap [x] := by
  simp [wrap, hx]

theorem wrap_conditional_of_scalar {s : Sequence} (hs : ∀ x, s = [x] → x.isStructured = false) :
    conditional.wrap s = unconditional.wrap s := by
  match s with
  | [x] => simp [wrap, hs x rfl, Item.toJson, Item.toJsonElements]
  | [] | _ :: _ :: _ => rfl

end Wrapper

/-! ### Views of the sequence -/

namespace Path

variable {p : Path} {input : Item} {row : ParameterRow}

theorem exists?_of_ok {s : Sequence} (h : p.sequence .exists input row = .ok s)
    (onError : ExistsBehavior) : p.exists? input row onError = .ok (some !s.isEmpty) := by
  rw [exists?, h]
  rfl

theorem query?_of_ne_nil {s : Sequence} (h : p.sequence .query input row = .ok s) (hs : s ≠ [])
    (options : QueryOptions) :
    p.query? input row options = options.onError.behavior.resolve (options.wrapper.wrap s) := by
  rw [query?_eq_settle, queryOutcome_of_ne_nil h hs, Outcome.settle_ofExcept]

theorem query?_of_nil (h : p.sequence .query input row = .ok []) (options : QueryOptions) :
    p.query? input row options = options.onEmpty.behavior.fallback (.emptyResult .query) := by
  rw [query?_eq_settle, queryOutcome_of_nil h]
  rfl

/-- With an array around all results, only the sequence itself can fail. -/
theorem queryFails_unconditional_iff (e : CallError) :
    p.QueryFails input row .unconditional e ↔ p.sequence .query input row = .error e := by
  refine ⟨fun h => ?_, .sequence⟩
  cases h with
  | sequence hseq => exact hseq

/-- The wrapper matters only through what it makes of the sequence. -/
theorem query?_wrapper_congr {s : Sequence} (h : p.sequence .query input row = .ok s)
    {wrapper wrapper' : Wrapper} (hwrap : wrapper.wrap s = wrapper'.wrap s)
    (onEmpty onError : QueryBehavior) :
    p.query? input row ⟨wrapper, onEmpty, onError⟩ =
      p.query? input row ⟨wrapper', onEmpty, onError⟩ := by
  by_cases hs : s = []
  · rw [hs] at h
    rw [query?_of_nil h, query?_of_nil h]
  · rw [query?_of_ne_nil h hs, query?_of_ne_nil h hs, hwrap]

theorem value?_of_null (h : p.sequence .value input row = .ok [.null]) (coercion : Coercion)
    (options : ValueOptions) : p.value? coercion input row options = .ok none := by
  rw [value?_eq_settle, valueOutcome_of_null h]
  rfl

/-- A value that stands in for nothing is a converted scalar. -/
theorem converts_of_value? {coercion : Coercion} {returning : Option SqlType} {v : SqlValue}
    (h : p.value? coercion input row ⟨returning, .null, .error⟩ = .ok (some v)) :
    ∃ x, p.Converts input row coercion (p.target { returning := returning }) x v := by
  rw [value?_eq_settle] at h
  rcases valueOutcome_cases with hnil | ⟨e, hfails⟩ | hnull | ⟨x, v', hconverts⟩
  · rw [valueOutcome_of_nil hnil] at h
    cases h
  · rw [hfails.outcome_eq] at h
    cases h
  · rw [valueOutcome_of_null hnull] at h
    cases h
  · rw [hconverts.outcome_eq] at h
    cases h
    exact ⟨x, hconverts⟩

/-- The functions are views of one result: they fail as it does where errors are raised, and otherwise
what they give follows from its items. -/
structure Views (p : Path) (input : Item) (row : ParameterRow) (r : Except EvalError Sequence) :
    Prop where
  exists_error : ∀ cause,
    p.exists? input row .error = .error (.evaluation cause) ↔ r = .error cause
  exists_ok : ∀ s, r = .ok s → p.exists? input row .error = .ok (some !s.isEmpty)
  query_error : ∀ onEmpty cause,
    p.query? input row ⟨.unconditional, onEmpty, .error⟩ = .error (.evaluation cause) ↔
      r = .error cause
  /-- The behavior on empty results is the result of a query exactly if there are no items. -/
  query_empty : (∀ onEmpty : QueryBehavior,
    p.query? input row ⟨.unconditional, onEmpty, .error⟩ =
      onEmpty.behavior.fallback (.emptyResult .query)) ↔ r = .ok []
  query_items : ∀ s, r = .ok s → s ≠ [] → ∀ onEmpty,
    p.query? input row ⟨.unconditional, onEmpty, .error⟩ = .ok (some (.array (s.map Item.toJson)))
  conditional_of_isStructured : ∀ x, r = .ok [x] → x.isStructured = true → ∀ onEmpty onError,
    p.query? input row ⟨.conditional, onEmpty, onError⟩ =
      p.query? input row ⟨.without, onEmpty, onError⟩
  conditional_of_other : ∀ s, r = .ok s → s ≠ [] → (∀ x, s = [x] → x.isStructured = false) →
    ∀ onEmpty onError, p.query? input row ⟨.conditional, onEmpty, onError⟩ =
      p.query? input row ⟨.unconditional, onEmpty, onError⟩
  /-- A value that stands in for nothing is that of one scalar, which is not null. -/
  value_some : ∀ coercion returning v,
    p.value? coercion input row ⟨returning, .null, .error⟩ = .ok (some v) →
      ∃ x, r = .ok [x] ∧ x.isStructured = false ∧ x ≠ .null
  value_of_null : r = .ok [.null] →
    ∀ coercion options, p.value? coercion input row options = .ok none

/-- **The functions agree with the evaluator and with each other.** For values without failed
conversions, all of them are views of what the evaluator gives. -/
theorem functions_agree (p : Path) {input : Item} {row : ParameterRow} (hinput : input.Clean)
    (hrow : ∀ entry ∈ row, entry.2.Clean) : p.Views input row (p.evaluateRow input row) where
  exists_error cause := by
    rw [exists?_eq_error_iff, sequence_eq_error_iff hinput hrow]
    exact and_iff_right rfl
  exists_ok s h := exists?_of_ok ((sequence_eq_ok_iff hinput hrow .exists s).mpr h) .error
  query_error onEmpty cause := by
    have hne : CallError.evaluation cause ≠ .emptyResult .query := by simp
    rw [(p.query?_routed input row .unconditional).error_of_failure onEmpty .error _ hne,
      queryFails_unconditional_iff, sequence_eq_error_iff hinput hrow]
    exact and_iff_right rfl
  query_empty := by
    have hrouted := p.query?_routed input row .unconditional
    rw [← sequence_eq_ok_iff hinput hrow .query]
    -- The one behavior that can be told from all others is the one that raises the error.
    refine ⟨fun h => ((hrouted.error_of_empty .error .error).mp (h .error)).1, fun h onEmpty => ?_⟩
    exact hrouted.empty_eq h onEmpty .error
  query_items s h hs onEmpty := by
    rw [query?_of_ne_nil ((sequence_eq_ok_iff hinput hrow .query s).mpr h) hs,
      Wrapper.wrap_unconditional, Behavior.resolve_ok]
  conditional_of_isStructured x h hx :=
    query?_wrapper_congr ((sequence_eq_ok_iff hinput hrow .query [x]).mpr h)
      (Wrapper.wrap_conditional_of_isStructured hx)
  conditional_of_other s h _ hother :=
    query?_wrapper_congr ((sequence_eq_ok_iff hinput hrow .query s).mpr h)
      (Wrapper.wrap_conditional_of_scalar hother)
  value_some coercion returning v h := by
    obtain ⟨x, hconverts⟩ := converts_of_value? h
    exact ⟨x, (sequence_eq_ok_iff hinput hrow .value [x]).mp hconverts.sequence,
      hconverts.scalar, hconverts.ne_null⟩
  value_of_null h := value?_of_null ((sequence_eq_ok_iff hinput hrow .value [.null]).mpr h)

/-- A member that is an array, one that is null, and a missing one. -/
theorem functions_agree_of_members :
    let p (name : String) : Path := ⟨.lax, Node.member name Node.context, rfl⟩
    let input := Item.object [("a", .array [.int 1, .string "x"]), ("b", .null)]
    let row := [("y", Item.boolean true)]
    (∀ onEmpty, (p "a").query? input row ⟨.unconditional, onEmpty, .error⟩ =
      .ok (some (.array [.array [.int 1, .string "x"]]))) ∧
    (∀ onEmpty onError, (p "a").query? input row ⟨.conditional, onEmpty, onError⟩ =
      (p "a").query? input row ⟨.without, onEmpty, onError⟩) ∧
    (∀ coercion options, (p "b").value? coercion input row options = .ok none) ∧
    (p "c").exists? input row .error = .ok (some false) := by
  intro p input row
  have hinput : input.Clean := input.clean_iff.mpr rfl
  have hrow : ∀ entry ∈ row, entry.2.Clean := by
    intro entry hentry
    rw [List.mem_singleton.mp hentry]
    exact (Item.clean_iff _).mpr rfl
  have harray := functions_agree (p "a") hinput hrow
  refine ⟨fun onEmpty => ?_, ?_, ?_, ?_⟩
  · exact harray.query_items [.array [.int 1, .string "x"]] rfl (List.cons_ne_nil _ _) onEmpty
  · exact harray.conditional_of_isStructured _ rfl rfl
  · exact (functions_agree (p "b") hinput hrow).value_of_null rfl
  · exact (functions_agree (p "c") hinput hrow).exists_ok [] rfl

end Path

end PathQuery
