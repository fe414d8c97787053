import Mathlib
import PathQuery.CommandLine.Run
import PathQuery.Proofs.Call.Routing
import PathQuery.Proofs.Path.Exchange
import PathQuery.Proofs.Sql.Coercion

/-!
# Runs from the command line

The options of a run either go together or not, whatever its data. If they do, they ask for one request to
a function, and the data can do no more than make that request fail; a behavior other than `error` takes
care of such a failure.

* `Request` and `Arguments.Asks` — a function with its behaviors, and the one that arguments ask for.
* `Arguments.Accepted` — which options go together, in terms of the words alone.
* `Arguments.rejected_or_asks` and `Arguments.call_of_asks` — the two ways in which a call goes on;
  `Arguments.accepted_iff_call` says that they are told apart by `Arguments.Accepted`.
* `Arguments.runs_never_fail_on_data` — the results of runs: there always is one, and it is well typed.
-/

namespace PathQuery

/-- A scalar that a call gives is of the type that it converts to, if the default values are. -/
theorem Path.value?_fits {p : Path} {input : Item} {row : ParameterRow} {options : ValueOptions}
    {v : SqlValue} (hempty : ∀ w, options.onEmpty = .default w → w.Fits (p.target options))
    (herror : ∀ w, options.onError = .default w → w.Fits (p.target options))
    (h : p.value? Coercion.standard input row options = .ok (some v)) : v.Fits (p.target options) := by
  rcases (p.value?_eq_some_iff input row).mp h with ⟨-, hv⟩ | ⟨-, hv⟩ | ⟨x, hconverts⟩
  · exact hempty v (ValueBehavior.behavior_eq_value_iff.mp hv)
  · exact herror v (ValueBehavior.behavior_eq_value_iff.mp hv)
  · exact Coercion.standard_fits hconverts.value

theorem Path.ofNode_eq_ok_iff {mode : Mode} {root : Node} {p : Path} :
    Path.ofNode mode root = .ok p ↔ p.mode = mode ∧ p.root = root := by
  unfold ofNode
  constructor
  · intro h
    split at h
    · cases h
      exact ⟨rfl, rfl⟩
    · cases h
  · rintro ⟨rfl, rfl⟩
    split
    next => rfl
    next e h => cases p.valid.symm.trans h

namespace CommandLine

/-! ### Words -/

/-- A word names a behavior of a function. -/
def BehaviorWord.suits : BehaviorWord → SqlFunction → Bool
  | .error, _ => Bool.true
  | .true, .exists | .false, .exists | .unknown, .exists => Bool.true
  | .null, .value | .default, .value => Bool.true
  | .null, .query | .emptyArray, .query | .emptyObject, .query => Bool.true
  | _, _ => Bool.false

/-- What a word is read as. It is a behavior if it suits the function and, where it asks for a default value,
there is one; no word but its own is `error`; and a rejection is not the fault of a call. -/
structure BehaviorWord.ReadAs {B : Type} (word? : Option BehaviorWord) (function : SqlFunction)
    (error : B) (hasDefault : Prop) (read : Except RunError B) : Prop where
  isOk_iff : (∃ b, read = .ok b) ↔
    (∀ word ∈ word?, word.suits function) ∧ (word? = some .default → hasDefault)
  eq_error_iff : read = .ok error ↔ word? = some .error
  ne_call : ∀ cause, read ≠ .error (.call cause)

theorem BehaviorWord.ReadAs.rejected_or_ok {B : Type} {word? : Option BehaviorWord}
    {function : SqlFunction} {error : B} {hasDefault : Prop} {read : Except RunError B}
    (h : ReadAs word? function error hasDefault read) :
    (∃ e, (∀ cause, e ≠ .call cause) ∧ read = .error e) ∨ ∃ b, read = .ok b := by
  cases read with
  | error e => exact Or.inl ⟨e, fun cause he => h.ne_call cause (congrArg Except.error he), rfl⟩
  | ok b => exact Or.inr ⟨b, rfl⟩

theorem existsBehavior_readAs (word? : Option BehaviorWord) :
    BehaviorWord.ReadAs word? .exists .error False (existsBehavior word?) := by
  cases word? with
  | none => constructor <;> simp [existsBehavior]
  | some word => cases word <;> constructor <;> simp [existsBehavior, BehaviorWord.suits]

theorem queryBehavior_readAs (word? : Option BehaviorWord) :
    BehaviorWord.ReadAs word? .query .error False (queryBehavior word?) := by
  cases word? with
  | none => constructor <;> simp [queryBehavior]
  | some word => cases word <;> constructor <;> simp [queryBehavior, BehaviorWord.suits]

namespace Arguments

section Defaults

variable (args : Arguments) (returning : Option SqlType)

theorem defaultValue_eq_ok_iff {v : SqlValue} :
    args.defaultValue returning = .ok v ↔ ∃ text json, args.default = some text ∧
      Json.read? text = some json ∧
      Coercion.standard (.ofJson json) (returning.getD (.varchar none)) = .ok v := by
  unfold defaultValue
  cases args.default with
  | none => simp
  | some text =>
    cases hread : Json.read? text with
    | none => simp [hread]
    | some json => simp [hread, mapError_eq_ok_iff]

theorem defaultValue_ne_call (cause : CallError) :
    args.defaultValue returning ≠ .error (.call cause) := by
  unfold defaultValue
  cases args.default with
  | none => simp
  | some text =>
    cases hread : Json.read? text with
    | none => simp [hread]
    | some json => simp [hread, mapError_eq_error_iff]

theorem valueBehavior_readAs (word? : Option BehaviorWord) :
    BehaviorWord.ReadAs word? .value .error (∃ v, args.defaultValue returning = .ok v)
      (args.valueBehavior returning word?) := by
  cases word? with
  | none => constructor <;> simp [valueBehavior]
  | some word =>
    cases word with
    | default =>
      constructor
      · cases hv : args.defaultValue returning <;>
          simp [valueBehavior, hv, Except.map, BehaviorWord.suits]
      · simp [valueBehavior, map_eq_ok_iff]
      · simp [valueBehavior, map_eq_error_iff, defaultValue_ne_call]
    | _ => constructor <;> simp [valueBehavior, BehaviorWord.suits]

theorem valueBehavior_eq_default_iff {word? : Option BehaviorWord} {v : SqlValue} :
    args.valueBehavior returning word? = .ok (.default v) ↔
      word? = some .default ∧ args.defaultValue returning = .ok v := by
  cases word? with
  | none => simp [valueBehavior]
  | some word => cases word <;> simp [valueBehavior, map_eq_ok_iff]

end Defaults

end Arguments

/-! ### Requests -/

/-- A function with all that it is called with apart from the data. -/
inductive Request where
  | exists (onError : ExistsBehavior)
  | value (options : ValueOptions)
  | query (options : QueryOptions)

namespace Request

def answer (p : Path) (input : Item) (row : ParameterRow) :
    Request → Except CallError (Option Json)
  | .exists onError => (p.exists? input row onError).map (·.map Json.bool)
  | .value options => (p.value? Coercion.standard input row options).map (·.map SqlValue.toJson)
  | .query options => p.query? input row options

/-- Whether one of the behaviors raises errors. -/
def Raises : Request → Prop
  | .exists onError => onError = .error
  | .value options => options.onEmpty = .error ∨ options.onError = .error
  | .query options => options.onEmpty = .error ∨ options.onError = .error

end Request

namespace Arguments

variable (args : Arguments) (p : Path)

/-- The type of a scalar: the one that is asked for, else the one that the path declares, else text. -/
def resultType : SqlType :=
  (args.returning.or p.root.declared).getD (.varchar none)

/-- The options go together. -/
structure Accepted : Prop where
  onError : ∀ word ∈ args.onError, word.suits args.function
  onEmpty : ∀ word ∈ args.onEmpty, args.function ≠ .exists ∧ word.suits args.function
  /-- A default value is there if a behavior uses it, and it has a form in the type of the result. -/
  default : args.onEmpty = some .default ∨ args.onError = some .default →
    ∃ text v w, args.default = some text ∧ Json.read? text = some v ∧
      Coercion.standard (.ofJson v) (args.resultType p) = .ok w

/-- The request that arguments ask for. -/
inductive Asks : Request → Prop
  | exists {onError : ExistsBehavior} : args.function = .exists → args.onEmpty = none →
      existsBehavior args.onError = .ok onError → Asks (.exists onError)
  | value {onEmpty onError : ValueBehavior} : args.function = .value →
      args.valueBehavior (args.returning.or p.root.declared) args.onEmpty = .ok onEmpty →
      args.valueBehavior (args.returning.or p.root.declared) args.onError = .ok onError →
      Asks (.value ⟨args.returning.or p.root.declared, onEmpty, onError⟩)
  | query {onEmpty onError : QueryBehavior} : args.function = .query →
      queryBehavior args.onEmpty = .ok onEmpty → queryBehavior args.onError = .ok onError →
      Asks (.query ⟨args.wrapper, onEmpty, onError⟩)

variable {args : Arguments} {p : Path}

/-! ### Options that go together -/

theorem Asks.raises {request : Request} (h : args.Asks p request) (hraises : request.Raises) :
    args.onEmpty = some .error ∨ args.onError = some .error := by
  cases h with
  | «exists» _ _ herror =>
    cases hraises
    exact Or.inr ((existsBehavior_readAs _).eq_error_iff.mp herror)
  | value _ hempty herror =>
    rcases hraises with h | h
    · cases h
      exact Or.inl ((args.valueBehavior_readAs _ _).eq_error_iff.mp hempty)
    · cases h
      exact Or.inr ((args.valueBehavior_readAs _ _).eq_error_iff.mp herror)
  | query _ hempty herror =>
    rcases hraises with h | h
    · cases h
      exact Or.inl ((queryBehavior_readAs _).eq_error_iff.mp hempty)
    · cases h
      exact Or.inr ((queryBehavior_readAs _).eq_error_iff.mp herror)

/-- Options that go together ask for something. -/
theorem Accepted.asks (h : args.Accepted p) : ∃ request, args.Asks p request := by
  have hdefault (huse : args.onEmpty = some .default ∨ args.onError = some .default) :
      ∃ v, args.defaultValue (args.returning.or p.root.declared) = .ok v := by
    obtain ⟨text, json, v, h⟩ := h.default huse
    exact ⟨v, (args.defaultValue_eq_ok_iff _).mpr ⟨text, json, h⟩⟩
  cases hf : args.function with
  | «exists» =>
    have hempty : args.onEmpty = none :=
      Option.eq_none_iff_forall_not_mem.mpr fun word hword => (h.onEmpty word hword).1 hf
    have hsuits := hf ▸ h.onError
    obtain ⟨onError, herror⟩ :=
      (existsBehavior_readAs _).isOk_iff.mpr ⟨hsuits, fun huse => by cases hsuits _ huse⟩
    exact ⟨_, .exists hf hempty herror⟩
  | value =>
    obtain ⟨onEmpty, hempty⟩ := (args.valueBehavior_readAs _ _).isOk_iff.mpr
      ⟨fun word hword => hf ▸ (h.onEmpty word hword).2, fun huse => hdefault (Or.inl huse)⟩
    obtain ⟨onError, herror⟩ := (args.valueBehavior_readAs _ _).isOk_iff.mpr
      ⟨hf ▸ h.onError, fun huse => hdefault (Or.inr huse)⟩
    exact ⟨_, .value hf hempty herror⟩
  | query =>
    have hemptySuits word (hword : word ∈ args.onEmpty) := hf ▸ (h.onEmpty word hword).2
    have herrorSuits := hf ▸ h.onError
    obtain ⟨onEmpty, hempty⟩ :=
      (queryBehavior_readAs _).isOk_iff.mpr ⟨hemptySuits, fun huse => by cases hemptySuits _ huse⟩
    obtain ⟨onError, herror⟩ :=
      (queryBehavior_readAs _).isOk_iff.mpr ⟨herrorSuits, fun huse => by cases herrorSuits _ huse⟩
    exact ⟨_, .query hf hempty herror⟩

/-- Options that ask for something go together. -/
theorem Asks.accepted {request : Request} (h : args.Asks p request) : args.Accepted p := by
  cases h with
  | «exists» hf hempty herror =>
    obtain ⟨hsuits, hdefault⟩ := (existsBehavior_readAs _).isOk_iff.mp ⟨_, herror⟩
    refine ⟨hf ▸ hsuits, fun word hword => ?_, fun huse => ?_⟩
    · cases hempty.symm.trans hword
    · exact (huse.elim (fun h => by cases hempty.symm.trans h) hdefault).elim
  | value hf hempty herror =>
    obtain ⟨hemptySuits, hemptyDefault⟩ := (args.valueBehavior_readAs _ _).isOk_iff.mp ⟨_, hempty⟩
    obtain ⟨herrorSuits, herrorDefault⟩ := (args.valueBehavior_readAs _ _).isOk_iff.mp ⟨_, herror⟩
    refine ⟨hf ▸ herrorSuits, fun word hword => ?_, fun huse => ?_⟩
    · rw [hf]
      exact ⟨by decide, hemptySuits word hword⟩
    · obtain ⟨v, hv⟩ := huse.elim hemptyDefault herrorDefault
      obtain ⟨text, json, h⟩ := (args.defaultValue_eq_ok_iff _).mp hv
      exact ⟨text, json, v, h⟩
  | query hf hempty herror =>
    obtain ⟨hemptySuits, hemptyDefault⟩ := (queryBehavior_readAs _).isOk_iff.mp ⟨_, hempty⟩
    obtain ⟨herrorSuits, herrorDefault⟩ := (queryBehavior_readAs _).isOk_iff.mp ⟨_, herror⟩
    refine ⟨hf ▸ herrorSuits, fun word hword => ?_, fun huse => ?_⟩
    · rw [hf]
      exact ⟨by decide, hemptySuits word hword⟩
    · exact (huse.elim hemptyDefault herrorDefault).elim

theorem call_of_asks {request : Request} (h : args.Asks p request) (input : Item) :
    args.call p input = (request.answer p input args.row).mapError .call := by
  cases h with
  | «exists» hf hempty herror =>
    simp only [call, hf, hempty, herror, Request.answer, mapError_map]
    rfl
  | value hf hempty herror =>
    simp only [call, hf, hempty, herror, Request.answer, mapError_map]
    rfl
  | query hf hempty herror =>
    simp only [call, hf, hempty, herror, Request.answer]
    rfl

/-- Either the options are rejected whatever the data, or the data goes to the request they ask for. -/
theorem rejected_or_asks :
    (∃ e, (∀ cause, e ≠ .call cause) ∧ ∀ input, args.call p input = .error e) ∨
      ∃ request, args.Asks p request := by
  -- The words are read before the data is looked at, and the first one that is rejected decides.
  cases hf : args.function with
  | «exists» =>
    cases hempty : args.onEmpty with
    | some word =>
      refine Or.inl ⟨.onEmptyOfExists, ⟨fun _ => nofun, fun input => ?_⟩⟩
      simp only [call, hf, hempty]
      rfl
    | none =>
      rcases (existsBehavior_readAs args.onError).rejected_or_ok with ⟨e, he, herror⟩ | ⟨_, herror⟩
      · refine Or.inl ⟨e, he, fun input => ?_⟩
        simp only [call, hf, hempty, herror]
        rfl
      · exact Or.inr ⟨_, .exists hf hempty herror⟩
  | value =>
    have hread := args.valueBehavior_readAs (args.returning.or p.root.declared)
    rcases (hread args.onEmpty).rejected_or_ok with ⟨e, he, hempty⟩ | ⟨_, hempty⟩
    · refine Or.inl ⟨e, he, fun input => ?_⟩
      simp only [call, hf, hempty]
      rfl
    rcases (hread args.onError).rejected_or_ok with ⟨e, he, herror⟩ | ⟨_, herror⟩
    · refine Or.inl ⟨e, he, fun input => ?_⟩
      simp only [call, hf, hempty, herror]
      rfl
    · exact Or.inr ⟨_, .value hf hempty herror⟩
  | query =>
    rcases (queryBehavior_readAs args.onEmpty).rejected_or_ok with ⟨e, he, hempty⟩ | ⟨_, hempty⟩
    · refine Or.inl ⟨e, he, fun input => ?_⟩
      simp only [call, hf, hempty]
      rfl
    rcases (queryBehavior_readAs args.onError).rejected_or_ok with ⟨e, he, herror⟩ | ⟨_, herror⟩
    · refine Or.inl ⟨e, he, fun input => ?_⟩
      simp only [call, hf, hempty, herror]
      rfl
    · exact Or.inr ⟨_, .query hf hempty herror⟩

/-- Options go together exactly if a call with them fails, if at all, in the function. -/
theorem accepted_iff_call :
    args.Accepted p ↔ ∀ input e, args.call p input = .error e → ∃ cause, e = .call cause := by
  constructor
  · intro h input e he
    obtain ⟨request, hasks⟩ := h.asks
    rw [call_of_asks hasks, mapError_eq_error_iff] at he
    obtain ⟨cause, -, rfl⟩ := he
    exact ⟨cause, rfl⟩
  · intro h
    rcases rejected_or_asks with ⟨e, hcall, he⟩ | ⟨request, hasks⟩
    · obtain ⟨cause, rfl⟩ := h .null e (he .null)
      exact absurd rfl (hcall cause)
    · exact hasks.accepted

end Arguments

/-! ### Results -/

namespace Request

variable {p : Path} {input : Item} {row : ParameterRow}

/-- A request fails only if one of its behaviors raises errors. -/
theorem raises_of_answer {request : Request} {e : CallError}
    (h : request.answer p input row = .error e) : request.Raises := by
  cases request with
  | «exists» onError =>
    rw [answer, map_eq_error_iff, p.exists?_eq_error_iff] at h
    exact h.1
  | value options =>
    rw [answer, map_eq_error_iff, p.value?_eq_settle, Outcome.settle_eq_error_iff,
      ValueBehavior.raises_iff, ValueBehavior.raises_iff] at h
    exact h.imp (fun h => h.2.1) (fun h => h.2)
  | query options =>
    rw [answer, p.query?_eq_settle, Outcome.settle_eq_error_iff,
      QueryBehavior.raises_iff, QueryBehavior.raises_iff] at h
    exact h.imp (fun h => h.2.1) (fun h => h.2)

end Request

namespace Arguments

variable {args : Arguments} {files : Files} {p : Path}

/-- A default value is of the type of the result. -/
theorem valueBehavior_fits {word? : Option BehaviorWord} {w : SqlValue}
    (h : args.valueBehavior (args.returning.or p.root.declared) word? = .ok (.default w)) :
    w.Fits (args.resultType p) := by
  obtain ⟨-, hw⟩ := (args.valueBehavior_eq_default_iff _).mp h
  obtain ⟨text, json, -, -, hcoercion⟩ := (args.defaultValue_eq_ok_iff _).mp hw
  exact Coercion.standard_fits hcoercion

/-- The type that the options of a request and the path say is that of the result. -/
theorem target_eq_resultType (args : Arguments) (p : Path) (onEmpty onError : ValueBehavior) :
    p.target ⟨args.returning.or p.root.declared, onEmpty, onError⟩ = args.resultType p := by
  rw [Path.target, Option.or_assoc, Option.or_self, resultType]

/-- A scalar that a call gives is well typed. -/
theorem call_value_typed (hf : args.function = .value) {input : Item} {j : Json}
    (h : args.call p input = .ok (some j)) :
    ∃ v : SqlValue, v.Fits (args.resultType p) ∧ j = v.toJson := by
  rcases rejected_or_asks with ⟨e, -, he⟩ | ⟨request, hasks⟩
  · cases (he input).symm.trans h
  rw [call_of_asks hasks, mapError_eq_ok_iff] at h
  cases hasks with
  | value _ hempty herror =>
    obtain ⟨result, hvalue, hresult⟩ := (map_eq_ok_iff ..).mp h
    obtain ⟨v, rfl, rfl⟩ := Option.map_eq_some_iff.mp hresult
    refine ⟨v, ?_, rfl⟩
    rw [← target_eq_resultType]
    refine Path.value?_fits (fun w hw => ?_) (fun w hw => ?_) hvalue
    · rw [target_eq_resultType]
      exact valueBehavior_fits (hempty.trans (congrArg Except.ok hw))
    · rw [target_eq_resultType]
      exact valueBehavior_fits (herror.trans (congrArg Except.ok hw))
  | «exists» hother | query hother => cases hother.symm.trans hf

/-- Options that go together fail on data only by a behavior that raises errors. -/
theorem Accepted.raises_of_call (h : args.Accepted p) {input : Item} {e : RunError}
    (he : args.call p input = .error e) :
    args.onEmpty = some .error ∨ args.onError = some .error := by
  obtain ⟨request, hasks⟩ := h.asks
  rw [call_of_asks hasks, mapError_eq_error_iff] at he
  obtain ⟨cause, hcause, -⟩ := he
  exact hasks.raises (Request.raises_of_answer hcause)

/-- A path file loads if it holds a tree without faults. -/
theorem loadPath_eq_ok_iff :
    args.loadPath files = .ok p ↔
      p.mode = args.mode ∧ ∃ text, files args.path = some text ∧ Node.ofText? text = some p.root := by
  unfold loadPath
  cases hfile : files args.path with
  | none => simp
  | some text =>
    cases hroot : Node.ofText? text with
    | none => simp [hroot]
    | some root =>
      simp [hroot, mapError_eq_ok_iff, Path.ofNode_eq_ok_iff, @eq_comm _ root]

theorem loadInput_isOk_iff {standardInput : String} :
    (∃ input, args.loadInput files standardInput = .ok input) ↔
      ∀ file ∈ args.input, ∃ text, files file = some text := by
  unfold loadInput
  cases args.input with
  | none => simp
  | some file => cases hfile : files file <;> simp [hfile]

theorem run_eq_ok_iff (hpath : args.loadPath files = .ok p) {standardInput : String} {j : Json} :
    args.run files standardInput = .ok j ↔ ∃ input result,
      args.loadInput files standardInput = .ok input ∧ args.call p input = .ok result ∧
        result.getD .null = j := by
  rw [run, hpath]
  cases hinput : args.loadInput files standardInput with
  | error e => simp [bind, Except.bind]
  | ok input =>
    cases hcall : args.call p input with
    | error e => simp [bind, Except.bind, hcall]
    | ok result => simp [bind, Except.bind, hcall, pure, Except.pure]

/-- **Data never makes a run fail, and a scalar is well typed.** Where the path is valid, the input can be
read and the options go together, and no behavior is `error`, there is a result for every document and all
parameters. Where the function is the one for scalars, every result is null or the JSON form of a value of
the type that is asked for, else of the one that the path declares, else of a text; a text with a limit is a
string that keeps to it. -/
theorem runs_never_fail_on_data (hpath : args.loadPath files = .ok p) :
    ((∀ file ∈ args.input, ∃ text, files file = some text) → args.Accepted p →
      args.onEmpty ≠ some .error → args.onError ≠ some .error →
      ∀ standardInput, ∃ j, args.run files standardInput = .ok j) ∧
    (args.function = .value → ∀ standardInput j, args.run files standardInput = .ok j →
      j = .null ∨ ∃ v : SqlValue, v.Fits (args.resultType p) ∧ j = v.toJson ∧
        ∀ n, args.resultType p = .varchar (some n) → ∃ s, j = .string s ∧ s.length ≤ n.toNat) := by
  constructor
  · intro hreadable haccepted hempty herror standardInput
    obtain ⟨input, hinput⟩ := loadInput_isOk_iff.mpr hreadable
    cases hcall : args.call p input with
    | ok result => exact ⟨_, (run_eq_ok_iff hpath).mpr ⟨input, result, hinput, hcall, rfl⟩⟩
    | error e => exact ((haccepted.raises_of_call hcall).elim hempty herror).elim
  · intro hf standardInput j hrun
    obtain ⟨input, result, -, hcall, rfl⟩ := (run_eq_ok_iff hpath).mp hrun
    cases result with
    | none => exact Or.inl rfl
    | some j =>
      obtain ⟨v, hfits, hj⟩ := call_value_typed hf hcall
      refine Or.inr ⟨v, hfits, hj, fun n hn => ?_⟩
      rw [hn] at hfits
      obtain ⟨s, hs, hlength⟩ := hfits.toJson_eq_string
      exact ⟨s, hj.trans hs, hlength⟩

/-- The whole document as a big integer, with a default value: the document may be a text that is no
number or no JSON, it may come from a file, and parameters may share a name. -/
theorem runs_never_fail_on_data_of_declared_type :
    let args (input : Option String) (params : List (String × String)) : Arguments :=
      { path := "path.json", input, mode := .lax, params, function := .value, onError := some .default,
        onEmpty := none, wrapper := .without, returning := none, default := some "\"12\"",
        verbose := false }
    let tree := "\x7b\"kind\": \"context_variable\", \"declared_type\": \"big_int\"\x7d"
    let files : Files := fun file =>
      if file = "path.json" then some tree else if file = "document.json" then some "\"seven\"" else none
    let p : Path := ⟨.lax, Node.context.withDeclared .bigInt, rfl⟩
    (∀ input params, (args input params).loadPath files = .ok p ∧ (args input params).Accepted p) ∧
      (∀ input ∈ [none, some "document.json"], ∀ params standardInput,
        ∃ j, (args input params).run files standardInput = .ok j) ∧
      (∀ input params standardInput j, (args input params).run files standardInput = .ok j →
        j = .null ∨ ∃ v : SqlValue, v.Fits .bigInt ∧ j = v.toJson) ∧
      (args none []).run files "\"7\"" = .ok (.int 7) ∧
      (args none []).run files "null" = .ok .null ∧
      (args (some "document.json") []).run files "\"7\"" = .ok (.int 12) ∧
      (args none []).run files "[7" = .ok (.int 12) ∧
      (args none [("x", "1"), ("x", "2")]).run files "7" = .ok (.int 12) := by
  intro args tree files p
  have hpath (input : Option String) (params : List (String × String)) :
      (args input params).loadPath files = .ok p := by
    have htree : Json.readAround? tree = some p.root.toJson := by
      simp only [tree, p]
      cbv
    have hroot : Node.ofText? tree = some p.root := by
      rw [Node.ofText?, htree, Option.bind_some]
      refine Node.ofJson?_toJson _ fun f hf => ?_
      have hform : f = .context := List.mem_singleton.mp hf
      rw [hform]
      constructor
      · intro x h
        cases h
      · intro i h
        cases h
    exact loadPath_eq_ok_iff.mpr ⟨rfl, tree, rfl, hroot⟩
  let request : Request := .value ⟨some .bigInt, .null, .default (.bigInt 12)⟩
  have hasks (input : Option String) (params : List (String × String)) :
      (args input params).Asks p request := by
    have hread : Json.read? "\"12\"" = some (.string "12") := by cbv
    have hdefault : (args input params).defaultValue (some .bigInt) = .ok (.bigInt 12) :=
      (defaultValue_eq_ok_iff _ _).mpr ⟨_, _, rfl, hread, rfl⟩
    exact .value rfl rfl ((valueBehavior_eq_default_iff _ _).mpr ⟨rfl, hdefault⟩)
  have hresult {input : Option String} {params : List (String × String)} {standardInput text : String}
      {x : Item} {row : ParameterRow} (result : Option Json)
      (hload : (args input params).loadInput files standardInput = .ok (document text))
      (hx : document text = x) (hrow : (args input params).row = row)
      (h : request.answer p x row = .ok result) :
      (args input params).run files standardInput = .ok (result.getD .null) := by
    refine (run_eq_ok_iff (hpath input params)).mpr ⟨document text, result, hload, ?_, rfl⟩
    rw [call_of_asks (hasks input params), hx, hrow, h]
    rfl
  have hrun (input : Option String) (params : List (String × String)) :=
    runs_never_fail_on_data (hpath input params)
  refine ⟨fun input params => ⟨hpath input params, (hasks input params).accepted⟩,
    fun input hinput params standardInput => ?_, fun input params standardInput j h => ?_,
    ?_, ?_, ?_, ?_, ?_⟩
  · have hreadable : ∀ file ∈ (args input params).input, ∃ text, files file = some text := by
      intro file hfile
      simp only [List.mem_cons, List.not_mem_nil, or_false] at hinput
      rcases hinput with rfl | rfl
      · cases hfile
      · cases hfile
        exact ⟨"\"seven\"", rfl⟩
    exact (hrun input params).1 hreadable (hasks input params).accepted (by simp [args]) (by simp [args])
      standardInput
  · refine ((hrun input params).2 rfl standardInput j h).imp_right ?_
    rintro ⟨v, hfits, hj, -⟩
    exact ⟨v, hfits, hj⟩
  · have hx : document "\"7\"" = .string "7" := by cbv
    exact hresult (some (.int 7)) rfl hx rfl rfl
  · have hx : document "null" = .null := by cbv
    exact hresult none rfl hx rfl rfl
  · have hx : document "\"seven\"" = .string "seven" := by cbv
    exact hresult (some (.int 12)) rfl hx rfl rfl
  · have hx : document "[7" = .failure := by cbv
    exact hresult (some (.int 12)) rfl hx rfl rfl
  · have hx : document "7" = .int 7 := by cbv
    have hrow : (args none [("x", "1"), ("x", "2")]).row = [("x", .int 1), ("x", .int 2)] := by
      simp only [args]
      cbv
    exact hresult (some (.int 12)) rfl hx hrow rfl

end Arguments

end CommandLine

end PathQuery
