import PathQuery.Call.Basic

/-!
# Routing to the behaviors

A call comes to an outcome in which its behaviors have no say. Only then one of them is asked: the one on
empty results if the sequence is empty, the one on errors if something has failed, and none if there is a
result.

* `Outcome` and `Outcome.settle` — the two stages; `Path.value?_eq_settle` and its like say that the
  functions work in this way.
* `Path.ValueFails` and `Path.QueryFails` — all that can fail between the input and the result.
* `Routed` — what it means that two behaviors are asked in exactly the right cases.
* `Path.behaviors_route_outcomes` — the functions route all their outcomes so.
-/

namespace PathQuery

/-! ### Mapped results -/

theorem mapError_eq_ok_iff {α ε ε' : Type} (f : ε → ε') (r : Except ε α) (a : α) :
    r.mapError f = .ok a ↔ r = .ok a := by
  constructor
  · intro h
    cases r with
    | ok b =>
      cases h
      rfl
    | error e => cases h
  · rintro rfl
    rfl

theorem mapError_eq_error_iff {α ε ε' : Type} (f : ε → ε') (r : Except ε α) (e' : ε') :
    r.mapError f = .error e' ↔ ∃ e, r = .error e ∧ f e = e' := by
  constructor
  · intro h
    cases r with
    | ok b => cases h
    | error e =>
      cases h
      exact ⟨e, rfl, rfl⟩
  · rintro ⟨e, rfl, rfl⟩
    rfl

theorem map_eq_ok_iff {α β ε : Type} (f : α → β) (r : Except ε α) (b : β) :
    r.map f = .ok b ↔ ∃ a, r = .ok a ∧ f a = b := by
  cases r <;> simp [Except.map]

theorem map_eq_error_iff {α β ε : Type} (f : α → β) (r : Except ε α) (e : ε) :
    r.map f = .error e ↔ r = .error e := by
  cases r <;> simp [Except.map]

theorem mapError_map {α β ε ε' : Type} (r : Except ε α) (f : α → β) (g : ε → ε') :
    (r.map f).mapError g = do return f (← r.mapError g) := by
  cases r <;> rfl

/-! ### Outcomes -/

/-- How a call ends before any behavior is asked. -/
inductive Outcome (α : Type) where
  /-- No items where there should be a result. -/
  | empty
  | failure (e : CallError)
  /-- A result; `none` is SQL null. -/
  | result (r : Option α)

namespace Outcome

variable {α : Type}

def ofExcept : Except CallError α → Outcome α
  | .ok a => .result (some a)
  | .error e => .failure e

/-- The result of a call by its behaviors. -/
def settle (function : SqlFunction) (onEmpty onError : Behavior α) :
    Outcome α → Except CallError (Option α)
  | .empty => onEmpty.fallback (.emptyResult function)
  | .failure e => onError.fallback e
  | .result r => .ok r

theorem settle_ofExcept (function : SqlFunction) (onEmpty onError : Behavior α)
    (r : Except CallError α) : (ofExcept r).settle function onEmpty onError = onError.resolve r := by
  cases r <;> rfl

theorem settle_eq_error_iff (function : SqlFunction) (onEmpty onError : Behavior α) (o : Outcome α)
    (e : CallError) :
    o.settle function onEmpty onError = .error e ↔
      (o = .empty ∧ onEmpty.raises = true ∧ e = .emptyResult function) ∨
      (o = .failure e ∧ onError.raises = true) := by
  cases o with
  | empty => simp [settle, Behavior.fallback_eq_error_iff]
  | failure cause =>
    simp only [settle, Behavior.fallback_eq_error_iff, failure.injEq]
    constructor
    · rintro ⟨hraises, rfl⟩
      exact Or.inr ⟨rfl, hraises⟩
    · rintro (⟨h, -⟩ | ⟨rfl, hraises⟩)
      · cases h
      · exact ⟨hraises, rfl⟩
  | result r => simp [settle]

theorem settle_eq_some_iff (function : SqlFunction) (onEmpty onError : Behavior α) (o : Outcome α)
    (a : α) :
    o.settle function onEmpty onError = .ok (some a) ↔
      (o = .empty ∧ onEmpty = .value a) ∨ ((∃ e, o = .failure e) ∧ onError = .value a) ∨
        o = .result (some a) := by
  cases o <;> simp [settle, Behavior.fallback_eq_some_iff]

theorem ofExcept_eq_result_iff (r : Except CallError α) (a : α) :
    ofExcept r = .result (some a) ↔ r = .ok a := by
  cases r <;> simp [ofExcept]

theorem ofExcept_eq_failure_iff (r : Except CallError α) (e : CallError) :
    ofExcept r = .failure e ↔ r = .error e := by
  cases r <;> simp [ofExcept]

theorem ofExcept_ne_empty (r : Except CallError α) : ofExcept r ≠ .empty := by
  cases r <;> simp [ofExcept]

end Outcome

/-- A call with two behaviors asks each of them in exactly its own cases: `isEmpty` is the case of the
behavior on empty results, and `fails` holds of the failures that the behavior on errors is asked about. -/
structure Routed {B α : Type} (function : SqlFunction) (behavior : B → Behavior α) (error : B)
    (call : B → B → Except CallError (Option α)) (isEmpty : Prop) (fails : CallError → Prop) :
    Prop where
  /-- An empty result is an error only by the behavior on empty results, whatever the other one is. -/
  error_of_empty : ∀ onEmpty onError,
    call onEmpty onError = .error (.emptyResult function) ↔ isEmpty ∧ onEmpty = error
  /-- Every other error is a failure, unchanged, that the behavior on errors raises. -/
  error_of_failure : ∀ onEmpty onError e, e ≠ .emptyResult function →
    (call onEmpty onError = .error e ↔ onError = error ∧ fails e)
  onError_congr : isEmpty → ∀ onEmpty onError onError', call onEmpty onError = call onEmpty onError'
  onEmpty_congr : ¬ isEmpty → ∀ onEmpty onEmpty' onError, call onEmpty onError = call onEmpty' onError
  empty_eq : isEmpty → ∀ onEmpty onError,
    call onEmpty onError = (behavior onEmpty).fallback (.emptyResult function)
  failure_eq : ∀ e, fails e → ∀ onEmpty onError, call onEmpty onError = (behavior onError).fallback e

/-- A call that comes to an outcome first and settles it then is routed. -/
theorem Outcome.routed {α B : Type} (function : SqlFunction) {behavior : B → Behavior α} {error : B}
    (hraises : ∀ b, (behavior b).raises = true ↔ b = error) (o : Outcome α)
    (ho : o ≠ .failure (.emptyResult function)) :
    Routed function behavior error
      (fun onEmpty onError => o.settle function (behavior onEmpty) (behavior onError))
      (o = .empty) (fun e => o = .failure e) where
  error_of_empty onEmpty onError := by
    rw [settle_eq_error_iff, hraises]
    simp [ho]
  error_of_failure onEmpty onError e he := by
    rw [settle_eq_error_iff, hraises, hraises]
    simp [he, and_comm]
  onError_congr h _ _ _ := by
    rw [h]
    rfl
  onEmpty_congr h _ _ _ := by
    cases o with
    | empty => exact absurd rfl h
    | failure e => rfl
    | result r => rfl
  empty_eq h _ _ := by
    rw [h]
    rfl
  failure_eq e h _ _ := by
    rw [h]
    rfl

theorem ExistsBehavior.raises_iff (b : ExistsBehavior) :
    b.behavior.raises = Bool.true ↔ b = .error := by
  cases b <;> simp [ExistsBehavior.behavior, Behavior.raises]

theorem ValueBehavior.raises_iff (b : ValueBehavior) : b.behavior.raises = true ↔ b = .error := by
  cases b <;> simp [ValueBehavior.behavior, Behavior.raises]

theorem ValueBehavior.behavior_eq_value_iff {b : ValueBehavior} {v : SqlValue} :
    b.behavior = .value v ↔ b = .default v := by
  cases b <;> simp [ValueBehavior.behavior]

theorem QueryBehavior.raises_iff (b : QueryBehavior) : b.behavior.raises = true ↔ b = .error := by
  cases b <;> simp [QueryBehavior.behavior, Behavior.raises]

/-- Several items have no JSON form of their own without an array around them. -/
theorem Wrapper.wrap_eq_error_iff {wrapper : Wrapper} {s : Sequence} (hs : s ≠ []) (e : CallError) :
    wrapper.wrap s = .error e ↔
      wrapper = .without ∧ 1 < s.length ∧ e = .notSingleResult s.length := by
  match s, hs with
  | [x], _ => cases wrapper <;> simp [Wrapper.wrap]
  | x :: y :: s, _ => cases wrapper <;> simp [Wrapper.wrap, eq_comm]

namespace Path

variable (p : Path) (input : Item) (row : ParameterRow)

theorem sequence_ne_emptyResult (function function' : SqlFunction) :
    p.sequence function input row ≠ .error (.emptyResult function') := by
  unfold sequence
  split
  · simp
  · split
    · simp
    · split
      · simp
      · intro h
        obtain ⟨cause, -, hcause⟩ := (mapError_eq_error_iff ..).mp h
        cases hcause

/-! ### One scalar as an SQL value -/

/-- The outcome of converting the one scalar of a path to a type. -/
def valueOutcome (coercion : Coercion) (type : SqlType) : Outcome SqlValue :=
  match p.sequence .value input row with
  | .error e => .failure e
  | .ok [] => .empty
  | .ok s =>
      match s.scalar with
      | .error e => .failure e
      | .ok .null => .result none
      | .ok x => .ofExcept ((coercion x type).mapError CallError.coercion)

theorem value?_eq_settle (coercion : Coercion) (options : ValueOptions) :
    p.value? coercion input row options =
      (p.valueOutcome input row coercion (p.target options)).settle .value
        options.onEmpty.behavior options.onError.behavior := by
  unfold value? valueOutcome
  cases p.sequence .value input row with
  | error e => rfl
  | ok s =>
    cases s with
    | nil => rfl
    | cons x xs =>
      dsimp only
      cases Sequence.scalar (x :: xs) with
      | error e => rfl
      | ok y =>
        cases y with
        | null => rfl
        | _ => exact (Outcome.settle_ofExcept ..).symm

/-- What can fail on the way to an SQL value, with the error that tells of it. -/
inductive ValueFails (coercion : Coercion) (type : SqlType) : CallError → Prop
  | sequence {e : CallError} : p.sequence .value input row = .error e → ValueFails coercion type e
  | several {s : Sequence} : p.sequence .value input row = .ok s → 1 < s.length →
      ValueFails coercion type (.notSingleScalar s.length)
  | structured {x : Item} : p.sequence .value input row = .ok [x] → x.isStructured = true →
      ValueFails coercion type (.notScalar x.type)
  | coercion {x : Item} {e : CoercionError} : p.sequence .value input row = .ok [x] →
      x.isStructured = false → x ≠ .null → coercion x type = .error e →
      ValueFails coercion type (.coercion e)

section Value

variable {p input row} {coercion : Coercion} {type : SqlType}

theorem valueOutcome_of_nil (h : p.sequence .value input row = .ok []) :
    p.valueOutcome input row coercion type = .empty := by
  rw [valueOutcome, h]

theorem valueOutcome_of_null (h : p.sequence .value input row = .ok [.null]) :
    p.valueOutcome input row coercion type = .result none := by
  rw [valueOutcome, h]
  rfl

theorem valueOutcome_of_scalar {x : Item} (h : p.sequence .value input row = .ok [x])
    (hx : x.isStructured = false) (hnull : x ≠ .null) :
    p.valueOutcome input row coercion type =
      .ofExcept ((coercion x type).mapError CallError.coercion) := by
  rw [valueOutcome, h]
  cases x with
  | null => exact absurd rfl hnull
  | array | object => cases hx
  | _ => rfl

theorem ValueFails.outcome_eq {e : CallError} (h : p.ValueFails input row coercion type e) :
    p.valueOutcome input row coercion type = .failure e := by
  cases h with
  | sequence hseq => rw [valueOutcome, hseq]
  | several hseq hs =>
    rename_i s
    match s, hs with
    | x :: y :: s, _ =>
      rw [valueOutcome, hseq]
      rfl
  | structured hseq hx =>
    rename_i x
    rw [valueOutcome, hseq]
    cases x with
    | array | object => rfl
    | _ => cases hx
  | coercion hseq hx hnull hcoercion =>
    rw [valueOutcome_of_scalar hseq hx hnull, hcoercion]
    rfl

/-- A scalar that a path comes to and a value that it is converted to. -/
structure Converts (p : Path) (input : Item) (row : ParameterRow) (coercion : Coercion)
    (type : SqlType) (x : Item) (v : SqlValue) : Prop where
  sequence : p.sequence .value input row = .ok [x]
  scalar : x.isStructured = false
  ne_null : x ≠ .null
  value : coercion x type = .ok v

theorem Converts.outcome_eq {x : Item} {v : SqlValue}
    (h : p.Converts input row coercion type x v) :
    p.valueOutcome input row coercion type = .result (some v) := by
  rw [valueOutcome_of_scalar h.sequence h.scalar h.ne_null, h.value]
  rfl

/-- A sequence is empty, or something fails, or its one item is null, or that item is converted. -/
theorem valueOutcome_cases :
    p.sequence .value input row = .ok [] ∨ (∃ e, p.ValueFails input row coercion type e) ∨
      p.sequence .value input row = .ok [.null] ∨
      ∃ x v, p.Converts input row coercion type x v := by
  cases hseq : p.sequence .value input row with
  | error e => exact Or.inr (Or.inl ⟨e, .sequence hseq⟩)
  | ok s =>
    match s with
    | [] => exact Or.inl rfl
    | x :: y :: s => exact Or.inr (Or.inl ⟨_, .several hseq (by simp)⟩)
    | [x] =>
      refine Or.inr ?_
      by_cases hx : x.isStructured = true
      · exact Or.inl ⟨_, .structured hseq hx⟩
      · rw [Bool.not_eq_true] at hx
        by_cases hnull : x = .null
        · exact Or.inr (Or.inl (by rw [hnull]))
        · cases hcoercion : coercion x type with
          | error e => exact Or.inl ⟨_, .coercion hseq hx hnull hcoercion⟩
          | ok v => exact Or.inr (Or.inr ⟨x, v, hseq, hx, hnull, hcoercion⟩)

theorem valueOutcome_eq_empty_iff :
    p.valueOutcome input row coercion type = .empty ↔ p.sequence .value input row = .ok [] := by
  refine ⟨fun h => ?_, valueOutcome_of_nil⟩
  rcases valueOutcome_cases with hnil | ⟨e, hfails⟩ | hnull | ⟨x, v, hconverts⟩
  · exact hnil
  · cases hfails.outcome_eq.symm.trans h
  · cases (valueOutcome_of_null hnull).symm.trans h
  · cases hconverts.outcome_eq.symm.trans h

theorem valueOutcome_eq_failure_iff {e : CallError} :
    p.valueOutcome input row coercion type = .failure e ↔
      p.ValueFails input row coercion type e := by
  refine ⟨fun h => ?_, ValueFails.outcome_eq⟩
  rcases valueOutcome_cases with hnil | ⟨e', hfails⟩ | hnull | ⟨x, v, hconverts⟩
  · cases (valueOutcome_of_nil hnil).symm.trans h
  · cases hfails.outcome_eq.symm.trans h
    exact hfails
  · cases (valueOutcome_of_null hnull).symm.trans h
  · cases hconverts.outcome_eq.symm.trans h

theorem valueOutcome_eq_result_iff {v : SqlValue} :
    p.valueOutcome input row coercion type = .result (some v) ↔
      ∃ x, p.Converts input row coercion type x v := by
  refine ⟨fun h => ?_, fun ⟨x, hconverts⟩ => hconverts.outcome_eq⟩
  rcases valueOutcome_cases with hnil | ⟨e, hfails⟩ | hnull | ⟨x, w, hconverts⟩
  · cases (valueOutcome_of_nil hnil).symm.trans h
  · cases hfails.outcome_eq.symm.trans h
  · cases (valueOutcome_of_null hnull).symm.trans h
  · cases hconverts.outcome_eq.symm.trans h
    exact ⟨x, hconverts⟩

theorem ValueFails.ne_emptyResult {e : CallError} (h : p.ValueFails input row coercion type e)
    (function : SqlFunction) : e ≠ .emptyResult function := by
  rintro rfl
  cases h with
  | sequence hseq => exact p.sequence_ne_emptyResult input row _ _ hseq

end Value

/-- An SQL value is that of the behavior on empty results, that of the one on errors, or a converted
scalar. -/
theorem value?_eq_some_iff {coercion : Coercion} {options : ValueOptions} {v : SqlValue} :
    p.value? coercion input row options = .ok (some v) ↔
      (p.sequence .value input row = .ok [] ∧ options.onEmpty.behavior = .value v) ∨
      ((∃ e, p.ValueFails input row coercion (p.target options) e) ∧
        options.onError.behavior = .value v) ∨
      ∃ x, p.Converts input row coercion (p.target options) x v := by
  rw [value?_eq_settle, Outcome.settle_eq_some_iff, valueOutcome_eq_empty_iff,
    valueOutcome_eq_result_iff]
  simp only [valueOutcome_eq_failure_iff]

/-! ### The items as JSON -/

/-- The outcome of giving the items of a path as JSON. -/
def queryOutcome (wrapper : Wrapper) : Outcome Json :=
  match p.sequence .query input row with
  | .error e => .failure e
  | .ok [] => .empty
  | .ok s => .ofExcept (wrapper.wrap s)

theorem query?_eq_settle (options : QueryOptions) :
    p.query? input row options =
      (p.queryOutcome input row options.wrapper).settle .query
        options.onEmpty.behavior options.onError.behavior := by
  unfold query? queryOutcome
  cases p.sequence .query input row with
  | error e => rfl
  | ok s =>
    cases s with
    | nil => rfl
    | cons x xs => exact (Outcome.settle_ofExcept ..).symm

/-- What can fail on the way to a JSON value, with the error that tells of it. -/
inductive QueryFails : Wrapper → CallError → Prop
  | sequence {wrapper : Wrapper} {e : CallError} : p.sequence .query input row = .error e →
      QueryFails wrapper e
  | several {s : Sequence} : p.sequence .query input row = .ok s → 1 < s.length →
      QueryFails .without (.notSingleResult s.length)

section Query

variable {p input row} {wrapper : Wrapper}

theorem queryOutcome_of_nil (h : p.sequence .query input row = .ok []) :
    p.queryOutcome input row wrapper = .empty := by
  rw [queryOutcome, h]

theorem queryOutcome_of_ne_nil {s : Sequence} (h : p.sequence .query input row = .ok s)
    (hs : s ≠ []) : p.queryOutcome input row wrapper = .ofExcept (wrapper.wrap s) := by
  cases s with
  | nil => exact absurd rfl hs
  | cons x xs => rw [queryOutcome, h]

theorem QueryFails.outcome_eq {e : CallError} (h : p.QueryFails input row wrapper e) :
    p.queryOutcome input row wrapper = .failure e := by
  cases h with
  | sequence hseq => rw [queryOutcome, hseq]
  | several hseq hs =>
    have hne := List.ne_nil_of_length_pos (Nat.lt_of_succ_lt hs)
    rw [queryOutcome_of_ne_nil hseq hne, Outcome.ofExcept_eq_failure_iff,
      Wrapper.wrap_eq_error_iff hne]
    exact ⟨rfl, hs, rfl⟩

theorem queryOutcome_eq_empty_iff :
    p.queryOutcome input row wrapper = .empty ↔ p.sequence .query input row = .ok [] := by
  refine ⟨fun h => ?_, queryOutcome_of_nil⟩
  cases hseq : p.sequence .query input row with
  | error e => cases (QueryFails.outcome_eq (.sequence hseq)).symm.trans h
  | ok s =>
    by_cases hs : s = []
    · rw [hs]
    · rw [queryOutcome_of_ne_nil hseq hs] at h
      exact absurd h (Outcome.ofExcept_ne_empty _)

theorem queryOutcome_eq_failure_iff {e : CallError} :
    p.queryOutcome input row wrapper = .failure e ↔ p.QueryFails input row wrapper e := by
  refine ⟨fun h => ?_, QueryFails.outcome_eq⟩
  cases hseq : p.sequence .query input row with
  | error e' =>
    cases (QueryFails.outcome_eq (.sequence hseq)).symm.trans h
    exact .sequence hseq
  | ok s =>
    by_cases hs : s = []
    · cases (queryOutcome_of_nil (hs ▸ hseq)).symm.trans h
    · rw [queryOutcome_of_ne_nil hseq hs, Outcome.ofExcept_eq_failure_iff,
        Wrapper.wrap_eq_error_iff hs] at h
      obtain ⟨rfl, hseveral, rfl⟩ := h
      exact .several hseq hseveral

theorem queryOutcome_eq_result_iff {json : Json} :
    p.queryOutcome input row wrapper = .result (some json) ↔
      ∃ s, p.sequence .query input row = .ok s ∧ s ≠ [] ∧ wrapper.wrap s = .ok json := by
  constructor
  · intro h
    cases hseq : p.sequence .query input row with
    | error e => cases (QueryFails.outcome_eq (.sequence hseq)).symm.trans h
    | ok s =>
      by_cases hs : s = []
      · cases (queryOutcome_of_nil (hs ▸ hseq)).symm.trans h
      · rw [queryOutcome_of_ne_nil hseq hs, Outcome.ofExcept_eq_result_iff] at h
        exact ⟨s, rfl, hs, h⟩
  · rintro ⟨s, hseq, hs, hwrap⟩
    rw [queryOutcome_of_ne_nil hseq hs, Outcome.ofExcept_eq_result_iff]
    exact hwrap

theorem QueryFails.ne_emptyResult {e : CallError} (h : p.QueryFails input row wrapper e)
    (function : SqlFunction) : e ≠ .emptyResult function := by
  rintro rfl
  cases h with
  | sequence hseq => exact p.sequence_ne_emptyResult input row _ _ hseq

end Query

/-- A JSON value is that of the behavior on empty results, that of the one on errors, or made of the
items. -/
theorem query?_eq_some_iff {options : QueryOptions} {json : Json} :
    p.query? input row options = .ok (some json) ↔
      (p.sequence .query input row = .ok [] ∧ options.onEmpty.behavior = .value json) ∨
      ((∃ e, p.QueryFails input row options.wrapper e) ∧ options.onError.behavior = .value json) ∨
      ∃ s, p.sequence .query input row = .ok s ∧ s ≠ [] ∧ options.wrapper.wrap s = .ok json := by
  rw [query?_eq_settle, Outcome.settle_eq_some_iff, queryOutcome_eq_empty_iff,
    queryOutcome_eq_result_iff]
  simp only [queryOutcome_eq_failure_iff]

/-! ### All functions -/

/-- A question for existence fails exactly if the sequence does and its behavior raises errors. -/
theorem exists?_eq_error_iff (onError : ExistsBehavior) (e : CallError) :
    p.exists? input row onError = .error e ↔
      onError = .error ∧ p.sequence .exists input row = .error e := by
  unfold exists?
  cases p.sequence .exists input row with
  | error e' =>
    show onError.behavior.fallback e' = .error e ↔ _
    rw [Behavior.fallback_eq_error_iff, ExistsBehavior.raises_iff]
    simp [eq_comm]
  | ok s => simp [Except.map]

/-- The type of a conversion does not depend on the behaviors. -/
theorem value?_routed (coercion : Coercion) (returning : Option SqlType) :
    Routed .value ValueBehavior.behavior .error
      (fun onEmpty onError => p.value? coercion input row ⟨returning, onEmpty, onError⟩)
      (p.sequence .value input row = .ok [])
      (p.ValueFails input row coercion (p.target { returning := returning })) := by
  have hcall : (fun onEmpty onError => p.value? coercion input row ⟨returning, onEmpty, onError⟩) =
      fun onEmpty onError => (p.valueOutcome input row coercion
        (p.target { returning := returning })).settle .value onEmpty.behavior onError.behavior := by
    funext onEmpty onError
    exact p.value?_eq_settle input row coercion ⟨returning, onEmpty, onError⟩
  have hrouted := Outcome.routed .value ValueBehavior.raises_iff
    (p.valueOutcome input row coercion (p.target { returning := returning }))
    (fun h => (valueOutcome_eq_failure_iff.mp h).ne_emptyResult .value rfl)
  simp only [valueOutcome_eq_empty_iff, valueOutcome_eq_failure_iff] at hrouted
  rw [hcall]
  exact hrouted

theorem query?_routed (wrapper : Wrapper) :
    Routed .query QueryBehavior.behavior .error
      (fun onEmpty onError => p.query? input row ⟨wrapper, onEmpty, onError⟩)
      (p.sequence .query input row = .ok []) (p.QueryFails input row wrapper) := by
  have hcall : (fun onEmpty onError => p.query? input row ⟨wrapper, onEmpty, onError⟩) =
      fun onEmpty onError => (p.queryOutcome input row wrapper).settle .query
        onEmpty.behavior onError.behavior := by
    funext onEmpty onError
    exact p.query?_eq_settle input row ⟨wrapper, onEmpty, onError⟩
  have hrouted := Outcome.routed .query QueryBehavior.raises_iff
    (p.queryOutcome input row wrapper)
    (fun h => (queryOutcome_eq_failure_iff.mp h).ne_emptyResult .query rfl)
  simp only [queryOutcome_eq_empty_iff, queryOutcome_eq_failure_iff] at hrouted
  rw [hcall]
  exact hrouted

/-- **Behaviors are asked in exactly their cases.** A question for existence is an error only if the
sequence fails and its behavior raises errors. The other functions ask the behavior on empty results if
and only if the sequence is empty, and the behavior on errors if and only if something fails, for every
way of converting scalars. -/
theorem behaviors_route_outcomes :
    (∀ (onError : ExistsBehavior) (e : CallError),
      p.exists? input row onError = .error e ↔
        onError = .error ∧ p.sequence .exists input row = .error e) ∧
    (∀ (coercion : Coercion) (returning : Option SqlType),
      Routed .value ValueBehavior.behavior .error
        (fun onEmpty onError => p.value? coercion input row ⟨returning, onEmpty, onError⟩)
        (p.sequence .value input row = .ok [])
        (p.ValueFails input row coercion (p.target { returning := returning }))) ∧
    ∀ wrapper : Wrapper,
      Routed .query QueryBehavior.behavior .error
        (fun onEmpty onError => p.query? input row ⟨wrapper, onEmpty, onError⟩)
        (p.sequence .query input row = .ok []) (p.QueryFails input row wrapper) :=
  ⟨p.exists?_eq_error_iff input row, p.value?_routed input row, p.query?_routed input row⟩

/-- A missing member is an empty result in lax mode and a failure in strict mode. -/
theorem behaviors_route_outcomes_of_missing_member :
    let p (mode : Mode) : Path := ⟨mode, Node.member "a" Node.context, rfl⟩
    let input := Item.object []
    let missing := CallError.evaluation (EvalError.memberNotFound "a")
    (∀ onError, (p .lax).value? Coercion.standard input [] ⟨none, .error, onError⟩ =
      .error (.emptyResult .value)) ∧
    (∀ onEmpty, (p .strict).value? Coercion.standard input [] ⟨none, onEmpty, .error⟩ =
      .error missing) ∧
    (∀ onEmpty, (p .strict).query? input [] ⟨.without, onEmpty, .emptyArray⟩ =
      .ok (some (.array []))) ∧
    (p .strict).exists? input [] .error = .error missing := by
  intro p input missing
  have hvalue mode := (behaviors_route_outcomes (p mode) input []).2.1 Coercion.standard none
  have hquery := (behaviors_route_outcomes (p .strict) input []).2.2 .without
  refine ⟨fun onError => ?_, fun onEmpty => ?_, fun onEmpty => ?_, ?_⟩
  · exact ((hvalue .lax).error_of_empty .error onError).mpr ⟨rfl, rfl⟩
  · exact (hvalue .strict).failure_eq missing (.sequence rfl) onEmpty .error
  · exact hquery.failure_eq missing (.sequence rfl) onEmpty .emptyArray
  · exact ((behaviors_route_outcomes (p .strict) input []).1 .error missing).mpr ⟨rfl, rfl⟩

end Path

end PathQuery
