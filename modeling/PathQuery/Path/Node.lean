import PathQuery.Item.Basic
import PathQuery.Sql.Type

/-!
# Path trees

A path is a tree of nodes. A node has a form and may declare the SQL type of its result; the declared
type matters only when the result of a whole path is converted.

* `Node`, `Form` and `Subscript` are the tree, defined together.
* `Node.isPredicate` holds of the nodes that have a truth value instead of a sequence.
* The functions at the end build nodes without a declared type.
-/

namespace PathQuery

inductive Literal where
  | string (s : String)
  | int (n : Int64)
  | float (x : Double)
  | bool (b : Bool)
  | null
  deriving DecidableEq

inductive Sign where
  | plus | minus
  deriving DecidableEq

inductive ArithmeticOp where
  | add | subtract | multiply | divide | modulus
  deriving DecidableEq

inductive ComparisonOp where
  | equal | notEqual | less | lessOrEqual | greater | greaterOrEqual
  deriving DecidableEq

inductive Method where
  | type | size | double | ceiling | floor | abs | keyValue
  /-- Read a date and time, by a template or as ISO 8601. -/
  | datetime (template : Option String)
  deriving DecidableEq

mutual

/-- A form with the SQL type that it declares. -/
inductive Node where
  | mk (form : Form) (declared : Option SqlType)

/-- What a node computes. -/
inductive Form where
  | literal (value : Literal)
  /-- The input item. -/
  | context
  /-- The item that a filter is looking at. -/
  | current
  /-- The last index of the array that is subscripted. -/
  | last
  /-- A parameter by its name. -/
  | named (name : String)
  /-- A parameter by its place in the row. -/
  | positional (position : Nat)
  | member (target : Node) (name : String)
  | wildcardMember (target : Node)
  /-- The members of a name at any depth. -/
  | descendant (target : Node) (name : String)
  | elements (target : Node) (subscripts : List Subscript)
  | filter (target : Node) (predicate : Node)
  | unary (sign : Sign) (operand : Node)
  | binary (op : ArithmeticOp) (left : Node) (right : Node)
  | method (target : Node) (method : Method)
  | comparison (op : ComparisonOp) (left : Node) (right : Node)
  | conjunction (left : Node) (right : Node)
  | disjunction (left : Node) (right : Node)
  | negation (operand : Node)
  /-- Whether a path has any item. -/
  | existence (operand : Node)
  | isUnknown (operand : Node)
  | startsWith (whole : Node) (initial : Node)

/-- The parts of an array that are taken. -/
inductive Subscript where
  | index (position : Node)
  | range (first : Node) (final : Node)
  | last
  | wildcard

end

instance : Inhabited Node := ⟨.mk .context none⟩

/-- The item that a literal stands for. -/
def Literal.item : Literal → Item
  | .string s => .string s
  | .int n => .int n
  | .float x => .float x
  | .bool b => .boolean b
  | .null => .null

/-- Whether a comparison asks only for equality. -/
def ComparisonOp.isEquality : ComparisonOp → Bool
  | .equal | .notEqual => true
  | _ => false

/-- Whether a form has a truth value instead of a sequence. -/
def Form.isPredicate : Form → Bool
  | .comparison .. | .conjunction .. | .disjunction .. | .negation .. | .existence .. | .isUnknown ..
  | .startsWith .. => true
  | _ => false

namespace Node

def form : Node → Form
  | .mk form _ => form

def declared : Node → Option SqlType
  | .mk _ declared => declared

def isPredicate (n : Node) : Bool :=
  n.form.isPredicate

/-! ### Building trees -/

def ofForm (form : Form) : Node := .mk form none

def withDeclared (type : SqlType) (n : Node) : Node := .mk n.form (some type)

def context : Node := ofForm .context

def current : Node := ofForm .current

def last : Node := ofForm .last

def literal (value : Literal) : Node := ofForm (.literal value)

def named (name : String) : Node := ofForm (.named name)

def positional (position : Nat) : Node := ofForm (.positional position)

def member (name : String) (target : Node) : Node := ofForm (.member target name)

def wildcardMember (target : Node) : Node := ofForm (.wildcardMember target)

def descendant (name : String) (target : Node) : Node := ofForm (.descendant target name)

def subscripted (subscripts : List Subscript) (target : Node) : Node :=
  ofForm (.elements target subscripts)

/-- The element at a fixed index. -/
def index (n : Int64) : Node → Node :=
  subscripted [.index (literal (.int n))]

/-- The elements from one fixed index to another. -/
def range (first final : Int64) : Node → Node :=
  subscripted [.range (literal (.int first)) (literal (.int final))]

def lastElement : Node → Node := subscripted [.last]

def allElements : Node → Node := subscripted [.wildcard]

def filter (target predicate : Node) : Node := ofForm (.filter target predicate)

def method (m : Method) (target : Node) : Node := ofForm (.method target m)

def signed (sign : Sign) (operand : Node) : Node := ofForm (.unary sign operand)

def arithmetic (op : ArithmeticOp) (left right : Node) : Node := ofForm (.binary op left right)

def compared (op : ComparisonOp) (left right : Node) : Node := ofForm (.comparison op left right)

def both (left right : Node) : Node := ofForm (.conjunction left right)

def either (left right : Node) : Node := ofForm (.disjunction left right)

def negated (operand : Node) : Node := ofForm (.negation operand)

def nonempty (operand : Node) : Node := ofForm (.existence operand)

def unknown (operand : Node) : Node := ofForm (.isUnknown operand)

def startsWith (whole initial : Node) : Node := ofForm (.startsWith whole initial)

end Node

end PathQuery
