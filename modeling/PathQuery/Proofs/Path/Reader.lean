import PathQuery.Json.Token
import PathQuery.Proofs.Eval.Distribution
import PathQuery.Proofs.Path.Spelling

/-!
# A reader of path texts

`Node.ofPathText?` reads a path that `Node.text` has written. A whole node is an operand, or two operands with
an infix operator between them; an operand is an atom or a node in parentheses with steps behind it, or a
node that has its operator in front. What is read is returned with the rest of the text.

* `Reader.atom?`, `Reader.infix?` and `Reader.step?` read the pieces.
* `Reader.operandWith` reads an operand, with a reader for the operands inside it; `Reader.operand` gives it
  itself as this reader, up to some depth.
-/

namespace PathQuery

/-- An operator between two operands. -/
inductive Infix where
  | arithmetic (op : ArithmeticOp)
  | comparison (op : ComparisonOp)
  | conjunction
  | disjunction
  | startsWith

namespace Infix

def form (left right : Node) : Infix → Form
  | .arithmetic op => .binary op left right
  | .comparison op => .comparison op left right
  | .conjunction => .conjunction left right
  | .disjunction => .disjunction left right
  | .startsWith => .startsWith left right

def text : Infix → String
  | .arithmetic op => " " ++ op.text ++ " "
  | .comparison op => " " ++ op.text ++ " "
  | .conjunction => " && "
  | .disjunction => " || "
  | .startsWith => " starts with "

def all : List Infix :=
  [.arithmetic .add, .arithmetic .subtract, .arithmetic .multiply, .arithmetic .divide,
    .arithmetic .modulus, .comparison .equal, .comparison .notEqual, .comparison .less, .comparison .lessOrEqual,
    .comparison .greater, .comparison .greaterOrEqual, .conjunction, .disjunction, .startsWith]

end Infix

namespace Reader

/-! ### Tokens -/

/-- What stands behind a word, if a text begins with it. -/
def behind? (word : String) (cs : List Char) : Option (List Char) :=
  word.toList.isPrefixOf? cs

def isNameChar (c : Char) : Bool :=
  Text.isLetter c || Text.isNumeral c || c = '_'

/-- The characters of a name, and there may be none. -/
def name (cs : List Char) : String × List Char :=
  (String.ofList (cs.takeWhile isNameChar), cs.dropWhile isNameChar)

/-- A quoted text behind its first quote. -/
def quoted? (cs : List Char) : Option (String × List Char) :=
  (Json.stringBody? [] cs).map fun (body, rest) => (String.ofList (body.map Char.ofNat), rest)

/-- A key, with or without quotes. -/
def key? : List Char → Option (String × List Char)
  | '"' :: cs => quoted? cs
  | cs => some (name cs)

/-- The digits behind a point, if there are any. -/
def fraction? : List Char → Option (List Char × List Char)
  | '.' :: c :: cs =>
      if c.isDigit then some (c :: cs.takeWhile Char.isDigit, cs.dropWhile Char.isDigit) else none
  | _ => none

/-- A number without a sign. -/
def number? (cs : List Char) : Option (Literal × List Char) :=
  let whole := cs.takeWhile Char.isDigit
  let rest := cs.dropWhile Char.isDigit
  match fraction? rest with
  | some (fraction, rest) => some (.float (.ofDecimal whole fraction), rest)
  | none => (int64? (digitsValue whole)).map fun n => (.int n, rest)

/-- The atoms that are words. -/
def words : List (String × Form) :=
  [("true", .literal (.bool true)), ("false", .literal (.bool false)), ("null", .literal .null),
    ("inf", .literal (.float (.infinite false))), ("NaN", .literal (.float .nan)), ("last", .last)]

/-- A node without parts. -/
def atom? : List Char → Option (Form × List Char)
  | '$' :: '<' :: cs =>
      (behind? ">" (cs.dropWhile Char.isDigit)).map fun rest =>
        (.positional (digitsValue (cs.takeWhile Char.isDigit)), rest)
  | '$' :: cs =>
      let (name, rest) := name cs
      some (if name = "" then .context else .named name, rest)
  | '@' :: cs => some (.current, cs)
  | '"' :: cs => (quoted? cs).map fun (s, rest) => (.literal (.string s), rest)
  | c :: cs =>
      if c.isDigit then (number? (c :: cs)).map fun (value, rest) => (.literal value, rest)
      else words.findSome? fun (word, form) => (behind? word (c :: cs)).map fun rest => (form, rest)
  | [] => none

def infix? (cs : List Char) : Option (Infix × List Char) :=
  Infix.all.findSome? fun i => (behind? i.text cs).map fun rest => (i, rest)

/-- The methods that have no arguments. -/
def methods : List Method :=
  [.type, .size, .double, .ceiling, .floor, .abs, .keyValue, .datetime none]

/-- A method behind its first parenthesis, or a member if there is none. -/
def memberOrMethod? (name : String) : List Char → Option (Step × List Char)
  | '(' :: ')' :: cs => (methods.find? fun m => m.name = name).map fun m => (.method m, cs)
  | '(' :: '"' :: cs =>
      (quoted? cs).bind fun (template, rest) =>
        (behind? ")" rest).map fun rest => (.method (.datetime (some template)), rest)
  | cs => some (.member name, cs)

/-! ### Nodes -/

section Nodes

variable (operand : List Char → Option (Node × List Char))

/-- A whole node, with a reader for its operands. -/
def wholeWith (cs : List Char) : Option (Node × List Char) :=
  match operand cs with
  | none => none
  | some (left, rest) =>
      match infix? rest with
      | none => some (left, rest)
      | some (i, rest) => (operand rest).map fun (right, rest) => (.ofForm (i.form left right), rest)

/-- A whole node behind its opening parenthesis. -/
def enclosed (cs : List Char) : Option (Node × List Char) :=
  match wholeWith operand cs with
  | none => none
  | some (n, rest) => (behind? ")" rest).map fun rest => (n, rest)

def subscript (cs : List Char) : Option (Subscript × List Char) :=
  match wholeWith operand cs with
  | none => (behind? "*" cs).map fun rest => (.wildcard, rest)
  | some (first, rest) =>
      match behind? " to " rest with
      | none => some (.ofNode first, rest)
      | some rest => (wholeWith operand rest).map fun (final, rest) => (.range first final, rest)

/-- Subscripts with commas between them, up to the closing bracket; their number is bounded. -/
def subscripts : Nat → List Char → Option (List Subscript × List Char)
  | 0, _ => none
  | count + 1, cs =>
      match subscript operand cs with
      | none => (behind? "]" cs).map fun rest => ([], rest)
      | some (s, rest) =>
          match behind? ", " rest with
          | none => (behind? "]" rest).map fun rest => ([s], rest)
          | some rest => (subscripts count rest).map fun (ss, rest) => (s :: ss, rest)

/-- A step behind its target. -/
def step? : List Char → Option (Step × List Char)
  | '.' :: '.' :: cs => (key? cs).map fun (name, rest) => (.descendant name, rest)
  | '.' :: '*' :: cs => some (.wildcardMember, cs)
  | '.' :: '"' :: cs => (quoted? cs).map fun (name, rest) => (.member name, rest)
  | '.' :: cs =>
      let (name, rest) := name cs
      memberOrMethod? name rest
  | '[' :: cs => (subscripts operand cs.length cs).map fun (ss, rest) => (.elements ss, rest)
  | ' ' :: '?' :: ' ' :: '(' :: cs => (enclosed operand cs).map fun (n, rest) => (.filter n, rest)
  | _ => none

/-- The steps behind a target, as many as there are up to a bound. -/
def chain : Nat → Node → List Char → Option (Node × List Char)
  | 0, target, cs => some (target, cs)
  | count + 1, target, cs =>
      match step? operand cs with
      | some (step, rest) => chain count (.ofForm (step.form target)) rest
      | none => some (target, cs)

/-- A signed operand. The least integer has digits that are none by themselves. -/
def negative (cs : List Char) : Option (Node × List Char) :=
  match operand cs with
  | some (n, rest) => some (.signed .minus n, rest)
  | none => (behind? "9223372036854775808" cs).map fun rest => (.literal (.int Int64.minValue), rest)

/-- An operand, with a reader for the operands inside it. -/
def operandWith : List Char → Option (Node × List Char)
  | '+' :: cs => (operand cs).map fun (n, rest) => (.signed .plus n, rest)
  | '-' :: cs => negative operand cs
  | '!' :: '(' :: cs => (enclosed operand cs).map fun (n, rest) => (.negated n, rest)
  | 'e' :: 'x' :: 'i' :: 's' :: 't' :: 's' :: ' ' :: '(' :: cs =>
      (enclosed operand cs).map fun (n, rest) => (.nonempty n, rest)
  | '(' :: cs =>
      match enclosed operand cs with
      | none => none
      | some (n, rest) =>
          match behind? " is unknown" rest with
          | some rest => some (.unknown n, rest)
          | none => chain operand rest.length n rest
  | cs => (atom? cs).bind fun (form, rest) => chain operand rest.length (.ofForm form) rest

end Nodes

/-- An operand with other operands in it up to some depth. -/
def operand : Nat → List Char → Option (Node × List Char)
  | 0 => fun _ => none
  | depth + 1 => operandWith (operand depth)

end Reader

/-- The tree that a text was written from. No operand is inside of more others than the text has
characters. -/
def Node.ofPathText? (text : String) : Option Node :=
  match Reader.wholeWith (Reader.operand (text.length + 1)) text.toList with
  | some (n, []) => some n
  | _ => none

end PathQuery
