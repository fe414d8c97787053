import PathQuery.CommandLine.Options
import PathQuery.Json.Writer
import PathQuery.Path.Exchange

/-!
# Running a call from the command line

`Arguments.run` is the whole program apart from reading its files: it loads the path, takes the document
and the parameters, and calls the function. A document or a parameter that is no JSON counts as a failed
conversion, so that the behavior on errors applies to it.
-/

namespace PathQuery.CommandLine

inductive RunError where
  | unreadablePath (file : String)
  | invalidPath (file : String)
  | faultyPath (fault : PathFault)
  | unreadableInput (file : String)
  | onEmptyOfExists
  | notExistsBehavior (word : BehaviorWord)
  | notValueBehavior (word : BehaviorWord)
  | notQueryBehavior (word : BehaviorWord)
  | missingDefault
  | invalidDefault (text : String)
  | defaultCoercion (e : CoercionError)
  | call (e : CallError)
  deriving DecidableEq

def RunError.message : RunError → String
  | .unreadablePath file => "failed to read path IR " ++ file
  | .invalidPath file => "invalid path IR in " ++ file
  | .faultyPath fault => fault.message
  | .unreadableInput file => "failed to read input " ++ file
  | .onEmptyOfExists => "--on-empty is not supported by JSON_EXISTS"
  | .notExistsBehavior word => word.label ++ " is not a JSON_EXISTS ON ERROR behavior"
  | .notValueBehavior word => word.label ++ " is not a JSON_VALUE behavior"
  | .notQueryBehavior word => word.label ++ " is not a JSON_QUERY behavior"
  | .missingDefault => "the default behavior needs --default <json>"
  | .invalidDefault text => "invalid --default value '" ++ text ++ "'"
  | .defaultCoercion e => e.message
  | .call e => e.message

/-- The files that a run can read, by name. -/
abbrev Files := String → Option String

/-- The item of a text, which is a failed conversion if the text is no JSON. -/
def document (text : String) : Item :=
  match Json.read? text with
  | some v => .ofJson v
  | none => .failure

def existsBehavior : Option BehaviorWord → Except RunError ExistsBehavior
  | none | some .false => .ok .false
  | some .true => .ok .true
  | some .unknown => .ok .unknown
  | some .error => .ok .error
  | some word => .error (.notExistsBehavior word)

def queryBehavior : Option BehaviorWord → Except RunError QueryBehavior
  | none | some .null => .ok .null
  | some .error => .ok .error
  | some .emptyArray => .ok .emptyArray
  | some .emptyObject => .ok .emptyObject
  | some word => .error (.notQueryBehavior word)

namespace Arguments

/-- The path of the path file. -/
def loadPath (args : Arguments) (files : Files) : Except RunError Path :=
  match files args.path with
  | none => .error (.unreadablePath args.path)
  | some text =>
      match Node.ofText? text with
      | none => .error (.invalidPath args.path)
      | some root => (Path.ofNode args.mode root).mapError RunError.faultyPath

/-- The document, from its file or from standard input. -/
def loadInput (args : Arguments) (files : Files) (standardInput : String) : Except RunError Item :=
  match args.input with
  | none => .ok (document standardInput)
  | some file =>
      match files file with
      | none => .error (.unreadableInput file)
      | some text => .ok (document text)

def row (args : Arguments) : ParameterRow :=
  args.params.map fun p => (p.1, document p.2)

/-- The default value, converted as a result is. -/
def defaultValue (args : Arguments) (returning : Option SqlType) : Except RunError SqlValue :=
  match args.default with
  | none => .error .missingDefault
  | some text =>
      match Json.read? text with
      | none => .error (.invalidDefault text)
      | some v =>
          (Coercion.standard (.ofJson v) (returning.getD (.varchar none))).mapError
            RunError.defaultCoercion

def valueBehavior (args : Arguments) (returning : Option SqlType) :
    Option BehaviorWord → Except RunError ValueBehavior
  | none | some .null => .ok .null
  | some .error => .ok .error
  | some .default => (args.defaultValue returning).map ValueBehavior.default
  | some word => .error (.notValueBehavior word)

/-- The result of the function on a path, an input and the parameters. -/
def call (args : Arguments) (p : Path) (input : Item) : Except RunError (Option Json) :=
  match args.function with
  | .exists => do
      if args.onEmpty.isSome then throw .onEmptyOfExists
      let onError ← existsBehavior args.onError
      let result ← (p.exists? input args.row onError).mapError RunError.call
      return result.map Json.bool
  | .value => do
      let returning := args.returning.or p.root.declared
      let onEmpty ← args.valueBehavior returning args.onEmpty
      let onError ← args.valueBehavior returning args.onError
      let options : ValueOptions := { returning, onEmpty, onError }
      let result ← (p.value? Coercion.standard input args.row options).mapError RunError.call
      return result.map SqlValue.toJson
  | .query => do
      let onEmpty ← queryBehavior args.onEmpty
      let onError ← queryBehavior args.onError
      let options : QueryOptions := { wrapper := args.wrapper, onEmpty, onError }
      (p.query? input args.row options).mapError RunError.call

/-- The output of the program, null for SQL null. -/
def run (args : Arguments) (files : Files) (standardInput : String) : Except RunError Json := do
  let p ← args.loadPath files
  let input ← args.loadInput files standardInput
  return (← args.call p input).getD .null

end Arguments

end PathQuery.CommandLine
