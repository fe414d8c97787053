import PathQuery.Bindings
import PathQuery.Path.Text

/-!
# Evaluation errors

Each constructor of `EvalError` is one cause. `EvalError.message` is its text and `EvalError.kind` its
kind. The errors of the first three kinds come from the data; inside a predicate they make it unknown,
while all others end the evaluation.
-/

namespace PathQuery

/-- The place of an operand that must be one number. -/
inductive NumberPlace where
  | unaryOperand | leftOperand | rightOperand | subscript
  deriving DecidableEq

def NumberPlace.name : NumberPlace → String
  | .unaryOperand => "unary operand"
  | .leftOperand => "left operand"
  | .rightOperand => "right operand"
  | .subscript => "array subscript"

inductive EvalError where
  | currentOutsideFilter
  | lastOutsideSubscript
  | memberNotFound (name : String)
  | memberOfNonObject (name : String) (found : ItemType)
  | wildcardOfNonObject (found : ItemType)
  | elementsOfNonArray (found : ItemType)
  | indexOutOfBounds (position length : Nat)
  | lastOutOfBounds (length : Nat)
  | rangeOutOfBounds (first final length : Nat)
  | notSingle (place : NumberPlace) (count : Nat)
  | sizeOfNonArray (found : ItemType)
  | notNumber (place : NumberPlace) (found : ItemType)
  | badSubscript (value : Number)
  | unreadableNumber (text : String)
  | doubleOfOther (found : ItemType)
  /-- A method that works on numbers was given something else. -/
  | methodOfNonNumber (method : Method) (found : ItemType)
  | keyValueOfNonObject (found : ItemType)
  | datetimeOfNonString (found : ItemType)
  | unreadableDatetime (text : String)
  /-- A node, written out, that has no truth value. -/
  | notPredicate (text : String)
  | divisionByZero
  | negationOverflow (n : Int64)
  | integerOverflow (op : ArithmeticOp) (left right : Int64)
  | numericOverflow (op : ArithmeticOp) (left right : Number)
  | absOverflow (n : Int64)
  | notFinite (x : Double)
  | binding (e : BindingError)
  | failedInput
  | failedParameter (name : String)
  deriving DecidableEq

inductive ErrorKind where
  | structural | type | arithmetic | binding | inputConversion
  deriving DecidableEq

namespace EvalError

def kind : EvalError → ErrorKind
  | .currentOutsideFilter | .lastOutsideSubscript | .memberNotFound _ | .memberOfNonObject ..
  | .wildcardOfNonObject _ | .elementsOfNonArray _ | .indexOutOfBounds .. | .lastOutOfBounds _
  | .rangeOutOfBounds .. | .notSingle .. | .sizeOfNonArray _ => .structural
  | .notNumber .. | .badSubscript _ | .unreadableNumber _ | .doubleOfOther _
  | .methodOfNonNumber .. | .keyValueOfNonObject _ | .datetimeOfNonString _
  | .unreadableDatetime _ | .notPredicate _ => .type
  | .divisionByZero | .negationOverflow _ | .integerOverflow .. | .numericOverflow ..
  | .absOverflow _ | .notFinite _ => .arithmetic
  | .binding _ => .binding
  | .failedInput | .failedParameter _ => .inputConversion

/-- Whether the data evaluated are the cause. -/
def isDataError (e : EvalError) : Bool :=
  match e.kind with
  | .structural | .type | .arithmetic => true
  | .binding | .inputConversion => false

/-- What is wrong, without the kind of error. -/
def detail : EvalError → String
  | .currentOutsideFilter => "@ used outside of a filter"
  | .lastOutsideSubscript => "last used outside of an array subscript"
  | .memberNotFound name => "member '" ++ name ++ "' not found in object"
  | .memberOfNonObject name found =>
      "member accessor '." ++ name ++ "' applied to " ++ found.name
  | .wildcardOfNonObject found => "wildcard member accessor applied to " ++ found.name
  | .elementsOfNonArray found => "array accessor applied to " ++ found.name
  | .indexOutOfBounds position length =>
      "array subscript " ++ toString position ++ " out of bounds for length " ++ toString length
  | .lastOutOfBounds length => "array subscript last out of bounds for length " ++ toString length
  | .rangeOutOfBounds first final length =>
      "array range [" ++ toString first ++ " to " ++ toString final ++ "] out of bounds for length " ++
        toString length
  | .notSingle place count =>
      place.name ++ ": singleton item required, found " ++ toString count ++ " items"
  | .sizeOfNonArray found => "size() applied to " ++ found.name
  | .notNumber place found => place.name ++ ": expected number, found " ++ found.name
  | .badSubscript value =>
      "array subscript must be a non-negative integer, found " ++ value.text
  | .unreadableNumber text => "double() cannot convert string '" ++ text ++ "' to a number"
  | .doubleOfOther found => "double() expects a number or string, found " ++ found.name
  | .methodOfNonNumber method found => method.name ++ "() expects a number, found " ++ found.name
  | .keyValueOfNonObject found => "keyvalue() expects an object, found " ++ found.name
  | .datetimeOfNonString found => "datetime() expects a string, found " ++ found.name
  | .unreadableDatetime text => "datetime() cannot parse '" ++ text ++ "'"
  | .notPredicate text => "filter expects a predicate, found " ++ text
  | .divisionByZero => "division by zero"
  | .negationOverflow n => "integer overflow negating " ++ toString n.toInt
  | .integerOverflow op left right =>
      "integer overflow: " ++ toString left.toInt ++ " " ++ op.text ++ " " ++ toString right.toInt
  | .numericOverflow op left right =>
      "numeric overflow: " ++ left.text ++ " " ++ op.text ++ " " ++ right.text
  | .absOverflow n => "integer overflow in abs(" ++ toString n.toInt ++ ")"
  | .notFinite x => "double() result " ++ x.plainText ++ " is not finite"
  | .binding e => e.message
  | .failedInput => "path input is the result of a failed conversion"
  | .failedParameter name =>
      "path parameter " ++ name ++ " is the result of a failed conversion"

def message (e : EvalError) : String :=
  match e.kind with
  | .structural => "structural error: " ++ e.detail
  | .type => "type error: " ++ e.detail
  | .arithmetic => "arithmetic error: " ++ e.detail
  | .binding => "parameter binding error: " ++ e.detail
  | .inputConversion => e.detail

end EvalError

end PathQuery
