import PathQuery.Call.Basic

/-!
# Command line options

Words are read from left to right. An option waits for its value in the next word unless the value is
attached by `=`, and it is settled when the next option comes or the words end; only then is its value
read. A word that begins with a hyphen is never the value of the option before it.

* `Arguments.read` is the result of a command line: the arguments, or what is wrong with them.
-/

namespace PathQuery.CommandLine

/-- What is wrong with a command line, or the request for help. -/
inductive UsageError where
  /-- A value is missing, is empty where it must not be, or is not one of the words allowed. -/
  | invalidValue
  /-- A value has the wrong form. -/
  | valueValidation
  | unknownArgument
  /-- An option is given twice. -/
  | argumentConflict
  /-- A value is attached to an option without one. -/
  | tooManyValues
  | missingRequiredArgument
  | displayHelp
  deriving DecidableEq

/-- The words for behaviors that are common to all functions. -/
inductive BehaviorWord where
  | null | error | true | false | unknown | emptyArray | emptyObject | default
  deriving DecidableEq

/-- A behavior as messages name it. -/
def BehaviorWord.label : BehaviorWord → String
  | .null => "Null"
  | .error => "Error"
  | .true => "True"
  | .false => "False"
  | .unknown => "Unknown"
  | .emptyArray => "EmptyArray"
  | .emptyObject => "EmptyObject"
  | .default => "Default"

def BehaviorWord.ofText? : String → Option BehaviorWord
  | "null" => some .null
  | "error" => some .error
  | "true" => some .true
  | "false" => some .false
  | "unknown" => some .unknown
  | "empty-array" => some .emptyArray
  | "empty-object" => some .emptyObject
  | "default" => some .default
  | _ => none

def modeOfText? : String → Option Mode
  | "lax" => some .lax
  | "strict" => some .strict
  | _ => none

def functionOfText? : String → Option SqlFunction
  | "exists" => some .exists
  | "value" => some .value
  | "query" => some .query
  | _ => none

def wrapperOfText? : String → Option Wrapper
  | "without" => some .without
  | "conditional" => some .conditional
  | "unconditional" => some .unconditional
  | _ => none

/-- A name and a text around the first equals sign; the name cannot be empty. -/
def parameterOfText? (text : String) : Option (String × String) :=
  let cs := text.toList
  let name := cs.takeWhile (· != '=')
  match cs.dropWhile (· != '=') with
  | _ :: value => if name.isEmpty then none else some (String.ofList name, String.ofList value)
  | [] => none

/-! ### Options -/

/-- The options that have a value. -/
inductive ValueOption where
  | path | input | mode | param | function | onError | onEmpty | wrapper | returning | default
  deriving DecidableEq

def ValueOption.ofName? : String → Option ValueOption
  | "path" => some .path
  | "input" => some .input
  | "mode" => some .mode
  | "param" => some .param
  | "function" => some .function
  | "on-error" => some .onError
  | "on-empty" => some .onEmpty
  | "wrapper" => some .wrapper
  | "returning" => some .returning
  | "default" => some .default
  | _ => none

/-- The options without a value. -/
inductive Switch where
  | verbose | help
  deriving DecidableEq

def Switch.ofName? : String → Option Switch
  | "verbose" => some .verbose
  | "help" => some .help
  | _ => none

def Switch.ofLetter? : Char → Option Switch
  | 'v' => some .verbose
  | 'h' => some .help
  | _ => none

/-- The options given so far. -/
structure Given where
  path : Option String := none
  input : Option String := none
  mode : Option Mode := none
  params : List (String × String) := []
  function : Option SqlFunction := none
  onError : Option BehaviorWord := none
  onEmpty : Option BehaviorWord := none
  wrapper : Option Wrapper := none
  returning : Option SqlType := none
  default : Option String := none
  verbose : Bool := false

/-- A value for an option that may be given once. -/
def once {α : Type} (old : Option α) (e : UsageError) (value : Option α) :
    Except UsageError (Option α) :=
  match old, value with
  | some _, _ => .error .argumentConflict
  | none, some a => .ok (some a)
  | none, none => .error e

/-- A text that is not empty. -/
def nonempty? (text : String) : Option String :=
  if text = "" then none else some text

/-- The options with one more value. -/
def Given.put (g : Given) (option : ValueOption) (text : String) : Except UsageError Given :=
  match option with
  | .path => do return { g with path := ← once g.path .invalidValue (nonempty? text) }
  | .input => do return { g with input := ← once g.input .invalidValue (nonempty? text) }
  | .mode => do return { g with mode := ← once g.mode .invalidValue (modeOfText? text) }
  | .param =>
      match parameterOfText? text with
      | some p => .ok { g with params := g.params ++ [p] }
      | none => .error .valueValidation
  | .function => do
      return { g with function := ← once g.function .invalidValue (functionOfText? text) }
  | .onError => do
      return { g with onError := ← once g.onError .invalidValue (BehaviorWord.ofText? text) }
  | .onEmpty => do
      return { g with onEmpty := ← once g.onEmpty .invalidValue (BehaviorWord.ofText? text) }
  | .wrapper => do
      return { g with wrapper := ← once g.wrapper .invalidValue (wrapperOfText? text) }
  | .returning => do
      return { g with returning := ← once g.returning .valueValidation (SqlType.ofText? text) }
  | .default => do
      return { g with default := ← once g.default .invalidValue (some text) }

/-- The options with one more switch. -/
def Given.flip (g : Given) : Switch → Except UsageError Given
  | .verbose => if g.verbose then .error .argumentConflict else .ok { g with verbose := true }
  | .help => .error .displayHelp

/-! ### Words -/

/-- An option that is not settled yet, with its value if that has come. -/
structure Pending where
  option : ValueOption
  value : Option String

/-- What has been read of a command line. -/
structure Reading where
  given : Given := {}
  pending : Option Pending := none
  /-- Whether a double hyphen has ended the options. -/
  ended : Bool := false

namespace Reading

/-- The options with the pending one settled. -/
def settle (r : Reading) : Except UsageError Given :=
  match r.pending with
  | none => .ok r.given
  | some ⟨_, none⟩ => .error .invalidValue
  | some ⟨option, some text⟩ => r.given.put option text

/-- A word that begins with two hyphens. -/
def long (r : Reading) (word : List Char) : Except UsageError Reading :=
  let name := String.ofList (word.takeWhile (· != '='))
  let attached : Option String :=
    match word.dropWhile (· != '=') with
    | _ :: value => some (String.ofList value)
    | [] => none
  match ValueOption.ofName? name, Switch.ofName? name with
  | some option, _ => do
      let given ← r.settle
      match attached with
      | some value => return { given := ← given.put option value }
      | none => return { given := given, pending := some ⟨option, none⟩ }
  | none, some switch =>
      if attached.isSome then .error .tooManyValues
      else do return { given := ← (← r.settle).flip switch }
  | none, none => .error .unknownArgument

/-- The letters of a word that begins with one hyphen. -/
def short (r : Reading) : List Char → Except UsageError Reading
  | [] => .ok r
  | c :: cs =>
      match Switch.ofLetter? c with
      | none => .error .unknownArgument
      | some switch => do
          let given ← (← r.settle).flip switch
          short { given := given } cs

/-- What is read after one more word. -/
def step (r : Reading) (word : String) : Except UsageError Reading :=
  if r.ended then .error .unknownArgument
  else
    match word.toList with
    | ['-', '-'] => .ok { r with ended := true }
    | '-' :: '-' :: name => r.long name
    | '-' :: c :: cs => r.short (c :: cs)
    | _ =>
        match r.pending with
        | some ⟨option, none⟩ => .ok { r with pending := some ⟨option, some word⟩ }
        | _ => .error .unknownArgument

end Reading

/-! ### Arguments -/

/-- A complete command line. -/
structure Arguments where
  /-- The file with the path. -/
  path : String
  /-- The file with the document, which otherwise comes from standard input. -/
  input : Option String
  mode : Mode
  params : List (String × String)
  function : SqlFunction
  onError : Option BehaviorWord
  onEmpty : Option BehaviorWord
  wrapper : Wrapper
  returning : Option SqlType
  default : Option String
  verbose : Bool

/-- The arguments that options make. -/
def Given.arguments (g : Given) : Except UsageError Arguments :=
  match g.path with
  | none => .error .missingRequiredArgument
  | some path =>
      .ok
        { path
          input := g.input
          mode := g.mode.getD .lax
          params := g.params
          function := g.function.getD .exists
          onError := g.onError
          onEmpty := g.onEmpty
          wrapper := g.wrapper.getD .without
          returning := g.returning
          default := g.default
          verbose := g.verbose }

/-- The arguments of a command line, without the name of the program. -/
def Arguments.read (words : List String) : Except UsageError Arguments := do
  let r ← words.foldlM Reading.step {}
  (← r.settle).arguments

end PathQuery.CommandLine
