import PathQuery.Mode
import PathQuery.Path.Node
import PathQuery.Text.Letter
import PathQuery.Text.Quoted

/-!
# Paths as text

`Node.text` writes a tree in the path language, for messages. A positional parameter, which the language
has no syntax for, is written `$<n>`. Parentheses stand where a target or an operand binds more loosely
than its place.
-/

namespace PathQuery

def Literal.text : Literal → String
  | .string s => Text.quoted s
  | .int n => toString n.toInt
  | .float x => (Number.float x).text
  | .bool b => if b then "true" else "false"
  | .null => "null"

def Sign.text : Sign → String
  | .plus => "+"
  | .minus => "-"

def ArithmeticOp.text : ArithmeticOp → String
  | .add => "+"
  | .subtract => "-"
  | .multiply => "*"
  | .divide => "/"
  | .modulus => "%"

def ComparisonOp.text : ComparisonOp → String
  | .equal => "=="
  | .notEqual => "<>"
  | .less => "<"
  | .lessOrEqual => "<="
  | .greater => ">"
  | .greaterOrEqual => ">="

def Method.name : Method → String
  | .type => "type"
  | .size => "size"
  | .double => "double"
  | .ceiling => "ceiling"
  | .floor => "floor"
  | .abs => "abs"
  | .keyValue => "keyvalue"
  | .datetime _ => "datetime"

def Method.text : Method → String
  | .datetime (some template) => "datetime(" ++ Text.quoted template ++ ")"
  | m => m.name ++ "()"

/-- Whether a key can be written without quotes. -/
def isIdentifier (key : List Char) : Bool :=
  match key with
  | [] => false
  | c :: cs =>
      (Text.isLetter c || c = '_') &&
        cs.all fun c => Text.isLetter c || Text.isNumeral c || c = '_'

def keyText (key : String) : String :=
  if isIdentifier key.toList then key else Text.quoted key

/-- Whether a form needs parentheses in front of an accessor. -/
def Form.isLooseTarget (form : Form) : Bool :=
  form.isPredicate || match form with
    | .unary .. | .binary .. => true
    | _ => false

/-- Whether a form needs parentheses as an operand. -/
def Form.isLooseOperand : Form → Bool
  | .binary .. | .comparison .. | .conjunction .. | .disjunction .. | .startsWith .. => true
  | _ => false

/-- A text, between parentheses if they are needed. -/
def parenthesised (needed : Bool) (text : String) : String :=
  if needed then "(" ++ text ++ ")" else text

mutual

def Node.text : Node → String
  | .mk form _ => form.text

def Form.text : Form → String
  | .literal value => value.text
  | .context => "$"
  | .named name => "$" ++ name
  | .positional position => "$<" ++ toString position ++ ">"
  | .current => "@"
  | .last => "last"
  | .member target name => parenthesised target.form.isLooseTarget target.text ++ "." ++ keyText name
  | .wildcardMember target => parenthesised target.form.isLooseTarget target.text ++ ".*"
  | .descendant target name =>
      parenthesised target.form.isLooseTarget target.text ++ ".." ++ keyText name
  | .elements target subscripts =>
      parenthesised target.form.isLooseTarget target.text ++ "[" ++
        String.intercalate ", " (Subscript.texts subscripts) ++ "]"
  | .filter target predicate =>
      parenthesised target.form.isLooseTarget target.text ++ " ? (" ++ predicate.text ++ ")"
  | .method target m => parenthesised target.form.isLooseTarget target.text ++ "." ++ m.text
  | .unary sign operand => sign.text ++ parenthesised operand.form.isLooseOperand operand.text
  | .binary op left right =>
      parenthesised left.form.isLooseOperand left.text ++ " " ++ op.text ++ " " ++
        parenthesised right.form.isLooseOperand right.text
  | .comparison op left right =>
      parenthesised left.form.isLooseOperand left.text ++ " " ++ op.text ++ " " ++
        parenthesised right.form.isLooseOperand right.text
  | .conjunction left right =>
      parenthesised left.form.isLooseOperand left.text ++ " && " ++
        parenthesised right.form.isLooseOperand right.text
  | .disjunction left right =>
      parenthesised left.form.isLooseOperand left.text ++ " || " ++
        parenthesised right.form.isLooseOperand right.text
  | .negation operand => "!(" ++ operand.text ++ ")"
  | .existence operand => "exists (" ++ operand.text ++ ")"
  | .isUnknown operand => "(" ++ operand.text ++ ") is unknown"
  | .startsWith whole initial =>
      parenthesised whole.form.isLooseOperand whole.text ++ " starts with " ++
        parenthesised initial.form.isLooseOperand initial.text

def Subscript.text : Subscript → String
  | .index position => position.text
  | .range first final => first.text ++ " to " ++ final.text
  | .last => "last"
  | .wildcard => "*"

def Subscript.texts : List Subscript → List String
  | [] => []
  | s :: ss => s.text :: Subscript.texts ss

end

end PathQuery
