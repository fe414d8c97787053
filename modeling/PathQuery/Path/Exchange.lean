import PathQuery.Json.Part
import PathQuery.Json.Reader
import PathQuery.Json.Writer
import PathQuery.Path.Node

/-!
# Trees as JSON

Trees travel as JSON: a form is an object whose only member is named for the form, and a form without
content is a bare name.

* `Node.toJson` writes a tree and `Node.ofJson?` reads one. Members that a form does not have are passed
  over, while a member that it has must be there, once, and of its own type.
* `Node.ofText?` reads a tree from a text, where the fields of a form may also be listed by position.
-/

namespace PathQuery

/-- Whether the fields of a form may be listed by position instead of by name. -/
inductive FieldStyle where
  | namedOnly
  | namedOrListed
  deriving DecidableEq

/-- The fields of a form in order. -/
def FieldStyle.fields? (style : FieldStyle) (names : List String) (v : Json) :
    Option (List (Json.Part v)) :=
  match style, v.elementParts? with
  | .namedOrListed, some parts => if parts.length = names.length then some parts else none
  | _, _ => v.members? names

/-- An object with one member. -/
def Json.tagged (name : String) (content : Json) : Json :=
  .object [(name, content)]

/-! ### Types -/

def SqlType.toJson : SqlType → Json
  | .boolean => .string "boolean"
  | .integer => .string "integer"
  | .bigInt => .string "big_int"
  | .double => .string "double"
  | .varchar none => .tagged "varchar" .null
  | .varchar (some n) => .tagged "varchar" (.int n.toNat)
  | .date => .string "date"
  | .timestamp => .string "timestamp"

/-- A limit on the length of texts, or none. -/
def SqlType.limitOfJson? : Json → Option (Option UInt32)
  | .null => some none
  | .int n => if 0 ≤ n ∧ n < 0x100000000 then some (some n.toNat.toUInt32) else none
  | _ => none

def SqlType.ofJson? (v : Json) : Option SqlType :=
  match v.case? with
  | some ("varchar", some limit) => (limitOfJson? limit.1).map .varchar
  | some (name, content) =>
      if !Json.isBare content then none
      else match name with
        | "boolean" => some .boolean
        | "integer" => some .integer
        | "big_int" => some .bigInt
        | "double" => some .double
        | "date" => some .date
        | "timestamp" => some .timestamp
        | _ => none
  | none => none

/-- A declared type, or null for none. -/
def SqlType.declaredOfJson? : Json → Option (Option SqlType)
  | .null => some none
  | v => (ofJson? v).map some

/-! ### Names -/

def Sign.tag : Sign → String
  | .plus => "plus"
  | .minus => "minus"

def ArithmeticOp.tag : ArithmeticOp → String
  | .add => "add"
  | .subtract => "subtract"
  | .multiply => "multiply"
  | .divide => "divide"
  | .modulus => "modulus"

def ComparisonOp.tag : ComparisonOp → String
  | .equal => "equal"
  | .notEqual => "not_equal"
  | .less => "less_than"
  | .lessOrEqual => "less_than_or_equal"
  | .greater => "greater_than"
  | .greaterOrEqual => "greater_than_or_equal"

/-- The value of a bare name among some. -/
def Json.named? {α : Type} (tag : α → String) (options : List α) (v : Json) : Option α :=
  match v.case? with
  | some (name, content) => if isBare content then options.find? fun a => tag a = name else none
  | none => none

def Sign.ofJson? : Json → Option Sign :=
  Json.named? tag [.plus, .minus]

def ArithmeticOp.ofJson? : Json → Option ArithmeticOp :=
  Json.named? tag [.add, .subtract, .multiply, .divide, .modulus]

def ComparisonOp.ofJson? : Json → Option ComparisonOp :=
  Json.named? tag [.equal, .notEqual, .less, .lessOrEqual, .greater, .greaterOrEqual]

/-! ### Literals and methods -/

def Literal.toJson : Literal → Json
  | .string s => .tagged "string" (.string s)
  | .int n => .tagged "int" (.int n.toInt)
  | .float x => .tagged "float" (if x.isFinite then .float x else .null)
  | .bool b => .tagged "bool" (.bool b)
  | .null => .string "null"

/-- A number as a double. -/
def Json.double? : Json → Option Double
  | .int n => some (.ofInt n)
  | .float x => some x
  | _ => none

def Json.int64? : Json → Option Int64
  | .int n => PathQuery.int64? n
  | _ => none

def Literal.ofJson? (v : Json) : Option Literal :=
  match v.case? with
  | some ("string", some c) => (c.1.string?).map .string
  | some ("int", some c) => (c.1.int64?).map .int
  | some ("float", some c) => (c.1.double?).map .float
  | some ("bool", some ⟨.bool b, _⟩) => some (.bool b)
  | some ("null", c) => if Json.isBare c then some .null else none
  | _ => none

def Method.toJson : Method → Json
  | .type => .string "type"
  | .size => .string "size"
  | .double => .string "double"
  | .ceiling => .string "ceiling"
  | .floor => .string "floor"
  | .abs => .string "abs"
  | .keyValue => .string "key_value"
  | .datetime none => .tagged "datetime" .null
  | .datetime (some template) => .tagged "datetime" (.string template)

def Method.ofJson? (v : Json) : Option Method :=
  match v.case? with
  | some ("datetime", some ⟨.null, _⟩) => some (.datetime none)
  | some ("datetime", some ⟨.string template, _⟩) => some (.datetime (some template))
  | some (name, content) =>
      if !Json.isBare content then none
      else match name with
        | "type" => some .type
        | "size" => some .size
        | "double" => some .double
        | "ceiling" => some .ceiling
        | "floor" => some .floor
        | "abs" => some .abs
        | "key_value" => some .keyValue
        | _ => none
  | none => none

/-- A place in a row of parameters, of 64 bits. -/
def Json.position? : Json → Option Nat
  | .int n => if 0 ≤ n ∧ n < 0x10000000000000000 then some n.toNat else none
  | _ => none

/-! ### Trees -/

mutual

def Node.toJson : Node → Json
  | .mk form none => .object [("kind", form.toJson)]
  | .mk form (some type) => .object [("kind", form.toJson), ("declared_type", type.toJson)]

def Form.toJson : Form → Json
  | .literal value => .tagged "literal" value.toJson
  | .context => .string "context_variable"
  | .named name => .tagged "named_value_variable" (.string name)
  | .positional position => .tagged "positional_variable" (.int position)
  | .current => .string "current_item"
  | .last => .string "last_index"
  | .member target name =>
      .tagged "member_accessor" (.object [("target", target.toJson), ("name", .string name)])
  | .wildcardMember target =>
      .tagged "wildcard_member_accessor" (.object [("target", target.toJson)])
  | .descendant target name =>
      .tagged "descendant_member_accessor"
        (.object [("target", target.toJson), ("name", .string name)])
  | .elements target subscripts =>
      .tagged "array_accessor"
        (.object [("target", target.toJson), ("subscripts", .array (Subscript.allToJson subscripts))])
  | .filter target predicate =>
      .tagged "filter" (.object [("target", target.toJson), ("predicate", predicate.toJson)])
  | .unary sign operand =>
      .tagged "unary_arithmetic"
        (.object [("sign", .string sign.tag), ("operand", operand.toJson)])
  | .binary op left right =>
      .tagged "binary_arithmetic"
        (.object [("op", .string op.tag), ("left", left.toJson), ("right", right.toJson)])
  | .method target m =>
      .tagged "method_call" (.object [("target", target.toJson), ("method", m.toJson)])
  | .comparison op left right =>
      .tagged "comparison"
        (.object [("op", .string op.tag), ("left", left.toJson), ("right", right.toJson)])
  | .conjunction left right =>
      .tagged "conjunction" (.object [("left", left.toJson), ("right", right.toJson)])
  | .disjunction left right =>
      .tagged "disjunction" (.object [("left", left.toJson), ("right", right.toJson)])
  | .negation operand => .tagged "negation" operand.toJson
  | .existence operand => .tagged "exists" operand.toJson
  | .isUnknown operand => .tagged "is_unknown" operand.toJson
  | .startsWith whole initial =>
      .tagged "starts_with" (.object [("whole", whole.toJson), ("initial", initial.toJson)])

def Subscript.toJson : Subscript → Json
  | .index position => .tagged "index" position.toJson
  | .range first final =>
      .tagged "range" (.object [("from", first.toJson), ("to", final.toJson)])
  | .last => .string "last"
  | .wildcard => .string "wildcard"

def Subscript.allToJson : List Subscript → List Json
  | [] => []
  | s :: ss => s.toJson :: Subscript.allToJson ss

end

/-- The form and the declared type of a node, as an object or as a list of one or two. -/
def Node.fields? (v : Json) : Option (Json.Part v × Option SqlType) :=
  match v.elementParts? with
  | some [form] => some (form, none)
  | some [form, type] => (SqlType.declaredOfJson? type.1).map fun t => (form, t)
  | some _ => none
  | none =>
      (v.member? "kind").bind fun form =>
        if v.hasMember "declared_type" then
          (v.member? "declared_type").bind fun type =>
            (SqlType.declaredOfJson? type.1).map fun declared => (form, declared)
        else some (form, none)

mutual

def Node.ofJson? (style : FieldStyle) (v : Json) : Option Node := do
  let (⟨form, _⟩, type) ← Node.fields? v
  return .mk (← Form.ofJson? style form) type
termination_by sizeOf v

def Form.ofJson? (style : FieldStyle) (v : Json) : Option Form := do
  match ← v.case? with
  | ("literal", some ⟨c, _⟩) => return .literal (← Literal.ofJson? c)
  | ("named_value_variable", some ⟨c, _⟩) => return .named (← c.string?)
  | ("positional_variable", some ⟨c, _⟩) => return .positional (← c.position?)
  | ("member_accessor", some ⟨c, _⟩) =>
      match ← style.fields? ["target", "name"] c with
      | [⟨target, _⟩, ⟨name, _⟩] => return .member (← Node.ofJson? style target) (← name.string?)
      | _ => none
  | ("wildcard_member_accessor", some ⟨c, _⟩) =>
      match ← style.fields? ["target"] c with
      | [⟨target, _⟩] => return .wildcardMember (← Node.ofJson? style target)
      | _ => none
  | ("descendant_member_accessor", some ⟨c, _⟩) =>
      match ← style.fields? ["target", "name"] c with
      | [⟨target, _⟩, ⟨name, _⟩] => return .descendant (← Node.ofJson? style target) (← name.string?)
      | _ => none
  | ("array_accessor", some ⟨c, _⟩) =>
      match ← style.fields? ["target", "subscripts"] c with
      | [⟨target, _⟩, ⟨list, _⟩] =>
          let ⟨subscripts, _⟩ ← list.elements?
          return .elements (← Node.ofJson? style target) (← Subscript.allOfJson? style subscripts)
      | _ => none
  | ("filter", some ⟨c, _⟩) =>
      match ← style.fields? ["target", "predicate"] c with
      | [⟨target, _⟩, ⟨predicate, _⟩] =>
          return .filter (← Node.ofJson? style target) (← Node.ofJson? style predicate)
      | _ => none
  | ("unary_arithmetic", some ⟨c, _⟩) =>
      match ← style.fields? ["sign", "operand"] c with
      | [⟨sign, _⟩, ⟨operand, _⟩] =>
          return .unary (← Sign.ofJson? sign) (← Node.ofJson? style operand)
      | _ => none
  | ("binary_arithmetic", some ⟨c, _⟩) =>
      match ← style.fields? ["op", "left", "right"] c with
      | [⟨op, _⟩, ⟨left, _⟩, ⟨right, _⟩] =>
          return .binary (← ArithmeticOp.ofJson? op) (← Node.ofJson? style left)
            (← Node.ofJson? style right)
      | _ => none
  | ("method_call", some ⟨c, _⟩) =>
      match ← style.fields? ["target", "method"] c with
      | [⟨target, _⟩, ⟨m, _⟩] => return .method (← Node.ofJson? style target) (← Method.ofJson? m)
      | _ => none
  | ("comparison", some ⟨c, _⟩) =>
      match ← style.fields? ["op", "left", "right"] c with
      | [⟨op, _⟩, ⟨left, _⟩, ⟨right, _⟩] =>
          return .comparison (← ComparisonOp.ofJson? op) (← Node.ofJson? style left)
            (← Node.ofJson? style right)
      | _ => none
  | ("conjunction", some ⟨c, _⟩) =>
      match ← style.fields? ["left", "right"] c with
      | [⟨left, _⟩, ⟨right, _⟩] =>
          return .conjunction (← Node.ofJson? style left) (← Node.ofJson? style right)
      | _ => none
  | ("disjunction", some ⟨c, _⟩) =>
      match ← style.fields? ["left", "right"] c with
      | [⟨left, _⟩, ⟨right, _⟩] =>
          return .disjunction (← Node.ofJson? style left) (← Node.ofJson? style right)
      | _ => none
  | ("negation", some ⟨c, _⟩) => return .negation (← Node.ofJson? style c)
  | ("exists", some ⟨c, _⟩) => return .existence (← Node.ofJson? style c)
  | ("is_unknown", some ⟨c, _⟩) => return .isUnknown (← Node.ofJson? style c)
  | ("starts_with", some ⟨c, _⟩) =>
      match ← style.fields? ["whole", "initial"] c with
      | [⟨whole, _⟩, ⟨initial, _⟩] =>
          return .startsWith (← Node.ofJson? style whole) (← Node.ofJson? style initial)
      | _ => none
  | ("context_variable", c) => if Json.isBare c then some .context else none
  | ("current_item", c) => if Json.isBare c then some .current else none
  | ("last_index", c) => if Json.isBare c then some .last else none
  | _ => none
termination_by sizeOf v

def Subscript.ofJson? (style : FieldStyle) (v : Json) : Option Subscript := do
  match ← v.case? with
  | ("index", some ⟨c, _⟩) => return .index (← Node.ofJson? style c)
  | ("range", some ⟨c, _⟩) =>
      match ← style.fields? ["from", "to"] c with
      | [⟨first, _⟩, ⟨final, _⟩] =>
          return .range (← Node.ofJson? style first) (← Node.ofJson? style final)
      | _ => none
  | ("last", c) => if Json.isBare c then some .last else none
  | ("wildcard", c) => if Json.isBare c then some .wildcard else none
  | _ => none
termination_by sizeOf v

def Subscript.allOfJson? (style : FieldStyle) (vs : List Json) : Option (List Subscript) :=
  match vs with
  | [] => some []
  | v :: vs => do return (← Subscript.ofJson? style v) :: (← Subscript.allOfJson? style vs)
termination_by sizeOf vs

end

/-- Whether a tree, written and read again, is written the same once more. -/
def Node.survivesExchange (n : Node) : Bool :=
  match Node.ofJson? .namedOnly n.toJson with
  | some m => m.toJson.pretty == n.toJson.pretty
  | none => false

/-- The tree that a text describes. Members that are passed over need no value of their own. -/
def Node.ofText? (text : String) : Option Node :=
  (Json.readAround? text).bind (Node.ofJson? .namedOrListed)

end PathQuery
