import PathQuery.Call.Behavior
import PathQuery.Eval.Basic
import PathQuery.Sql.Coercion

/-!
# The SQL/JSON functions

A call evaluates a path for an input and a row of parameters and turns the sequence into an SQL result,
`none` for SQL null.

* `Path.exists?` asks whether the sequence has any item.
* `Path.value?` converts the one scalar of the sequence to an SQL type.
* `Path.query?` gives the items as JSON, with or without an array around them.

An empty sequence goes to the behavior on empty results and every failure to the behavior on errors;
neither takes the place of the other.
-/

namespace PathQuery

inductive SqlFunction where
  | exists | value | query
  deriving DecidableEq

def SqlFunction.name : SqlFunction → String
  | .exists => "JSON_EXISTS"
  | .value => "JSON_VALUE"
  | .query => "JSON_QUERY"

inductive CallError where
  | evaluation (e : EvalError)
  | coercion (e : CoercionError)
  | emptyResult (function : SqlFunction)
  /-- The input is a failed conversion. -/
  | malformedInput (function : SqlFunction)
  /-- A parameter is a failed conversion. -/
  | malformedParameter (function : SqlFunction)
  /-- Several items where a scalar must be. -/
  | notSingleScalar (count : Nat)
  /-- An array or an object where a scalar must be. -/
  | notScalar (found : ItemType)
  /-- Several items without an array around them. -/
  | notSingleResult (count : Nat)
  deriving DecidableEq

def CallError.message : CallError → String
  | .evaluation e => e.message
  | .coercion e => "Coercion error: " ++ e.message
  | .emptyResult function => function.name ++ " path returned no items"
  | .malformedInput function => "malformed input argument to " ++ function.name ++ " function"
  | .malformedParameter function =>
      "malformed JSON path parameter to " ++ function.name ++ " function"
  | .notSingleScalar count =>
      "structural error: singleton item required, path returned " ++ toString count ++ " items"
  | .notScalar found => "type error: expected a scalar, path returned " ++ found.name
  | .notSingleResult count =>
      "structural error: singleton item required without array wrapper, path returned " ++
        toString count ++ " items"

/-- The values passed to a path, with their names, in order. -/
abbrev ParameterRow := List (String × Item)

/-- When an array is put around the items of a query. -/
inductive Wrapper where
  | without
  /-- Around everything but a single array or object. -/
  | conditional
  | unconditional
  deriving DecidableEq

structure ValueOptions where
  /-- The type of the result; the path may declare another, and a text is the last resort. -/
  returning : Option SqlType := none
  onEmpty : ValueBehavior := .null
  onError : ValueBehavior := .null

structure QueryOptions where
  wrapper : Wrapper := .without
  onEmpty : QueryBehavior := .null
  onError : QueryBehavior := .null

/-- The sequence of a path, once no value passed to it is a failed conversion and the parameters have
names of their own. -/
def Path.sequence (p : Path) (function : SqlFunction) (input : Item) (row : ParameterRow) :
    Except CallError Sequence :=
  if input.hasFailure then .error (.malformedInput function)
  else if row.any fun entry => entry.2.hasFailure then .error (.malformedParameter function)
  else
    match Bindings.ofRow row with
    | .error e => .error (.evaluation (.binding e))
    | .ok bindings =>
        (p.root.eval (Scope.initial p.mode input bindings)).mapError CallError.evaluation

/-- The one scalar of a sequence. -/
def Sequence.scalar (s : Sequence) : Except CallError Item :=
  match s with
  | [x] => if x.isStructured then .error (.notScalar x.type) else .ok x
  | _ => .error (.notSingleScalar s.length)

/-- The items of a sequence as one JSON value. -/
def Wrapper.wrap (w : Wrapper) (s : Sequence) : Except CallError Json :=
  match w, s with
  | .without, [x] => .ok x.toJson
  | .without, _ => .error (.notSingleResult s.length)
  | .conditional, [x] => .ok (if x.isStructured then x.toJson else .array [x.toJson])
  | _, _ => .ok (Item.array s).toJson

namespace Path

/-- The type that a scalar is converted to. -/
def target (p : Path) (options : ValueOptions) : SqlType :=
  (options.returning.or p.root.declared).getD (.varchar none)

def exists? (p : Path) (input : Item) (row : ParameterRow) (onError : ExistsBehavior) :
    Except CallError (Option Bool) :=
  onError.behavior.resolve ((p.sequence .exists input row).map fun s => !s.isEmpty)

def value? (p : Path) (coercion : Coercion) (input : Item) (row : ParameterRow)
    (options : ValueOptions) : Except CallError (Option SqlValue) :=
  let onError := options.onError.behavior
  match p.sequence .value input row with
  | .error e => onError.fallback e
  | .ok [] => options.onEmpty.behavior.fallback (.emptyResult .value)
  | .ok s =>
      match s.scalar with
      | .error e => onError.fallback e
      | .ok .null => .ok none
      | .ok x => onError.resolve ((coercion x (p.target options)).mapError CallError.coercion)

def query? (p : Path) (input : Item) (row : ParameterRow) (options : QueryOptions) :
    Except CallError (Option Json) :=
  match p.sequence .query input row with
  | .error e => options.onError.behavior.fallback e
  | .ok [] => options.onEmpty.behavior.fallback (.emptyResult .query)
  | .ok s => options.onError.behavior.resolve (options.wrapper.wrap s)

end Path

end PathQuery
