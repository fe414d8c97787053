import PathQuery.DateTime.Basic
import PathQuery.Item.Number
import PathQuery.Json.Basic

/-!
# Items

An item is a JSON value, a date and time value, or the sign that a value could not be converted. Such a
failed conversion is never evaluated; it is only found, at any depth, by `Item.hasFailure`.

* `Item.ofJson` and `Item.toJson` convert between documents and items.
* `Item.type` is the type that a path can ask for.
-/

namespace PathQuery

inductive Item where
  | null
  | boolean (b : Bool)
  | number (n : Number)
  | string (s : String)
  | datetime (d : DateTime)
  | array (elements : List Item)
  | object (members : List (String × Item))
  /-- A value whose conversion has failed. -/
  | failure

/-- The types of items. -/
inductive ItemType where
  | null | boolean | number | string | date | time | timestamp | zonedTimestamp | array | object
  | failure
  deriving DecidableEq

def ItemType.name : ItemType → String
  | .null => "null"
  | .boolean => "boolean"
  | .number => "number"
  | .string => "string"
  | .date => "date"
  | .time => "time without time zone"
  | .timestamp => "timestamp without time zone"
  | .zonedTimestamp => "timestamp with time zone"
  | .array => "array"
  | .object => "object"
  | .failure => "input error"

def DateTime.type : DateTime → ItemType
  | .date _ => .date
  | .time _ => .time
  | .timestamp _ => .timestamp
  | .zoned _ => .zonedTimestamp

/-- A number as JSON, which has no infinities and no not-a-number. -/
def Number.toJson : Number → Json
  | .int n => .int n.toInt
  | .float x => if x.isFinite then .float x else .null

namespace Item

instance : Inhabited Item := ⟨.null⟩

def int (n : Int64) : Item := .number (.int n)

def float (x : Double) : Item := .number (.float x)

def type : Item → ItemType
  | .null => .null
  | .boolean _ => .boolean
  | .number _ => .number
  | .string _ => .string
  | .datetime d => d.type
  | .array _ => .array
  | .object _ => .object
  | .failure => .failure

def isArray : Item → Bool
  | .array _ => true
  | _ => false

/-- Whether an item is an array or an object. -/
def isStructured : Item → Bool
  | .array _ | .object _ => true
  | _ => false

def number? : Item → Option Number
  | .number n => some n
  | _ => none

/-! ### Failed conversions -/

mutual

/-- Whether a failed conversion occurs at any depth. -/
def hasFailure : Item → Bool
  | .failure => true
  | .array elements => anyFailure elements
  | .object members => anyMemberFailure members
  | .null | .boolean _ | .number _ | .string _ | .datetime _ => false

def anyFailure : List Item → Bool
  | [] => false
  | x :: xs => x.hasFailure || anyFailure xs

def anyMemberFailure : List (String × Item) → Bool
  | [] => false
  | (_, x) :: ms => x.hasFailure || anyMemberFailure ms

end

/-! ### Documents -/

/-- An integer of a document; one beyond 64 bits becomes a double. -/
def ofInt (n : Int) : Item :=
  match int64? n with
  | some i => .int i
  | none => .float (.ofInt n)

mutual

def ofJson : Json → Item
  | .null => .null
  | .bool b => .boolean b
  | .int n => ofInt n
  | .float x => .float x
  | .string s => .string s
  | .array elements => .array (ofJsonElements elements)
  | .object members => .object (ofJsonMembers members)

def ofJsonElements : List Json → List Item
  | [] => []
  | v :: vs => ofJson v :: ofJsonElements vs

def ofJsonMembers : List (String × Json) → List (String × Item)
  | [] => []
  | (name, v) :: ms => (name, ofJson v) :: ofJsonMembers ms

end

mutual

/-- An item as JSON: dates and times are strings, and a failed conversion is null. -/
def toJson : Item → Json
  | .null | .failure => .null
  | .boolean b => .bool b
  | .number n => n.toJson
  | .string s => .string s
  | .datetime d => .string d.text
  | .array elements => .array (toJsonElements elements)
  | .object members => .object (toJsonMembers members)

def toJsonElements : List Item → List Json
  | [] => []
  | x :: xs => x.toJson :: toJsonElements xs

def toJsonMembers : List (String × Item) → List (String × Json)
  | [] => []
  | (name, x) :: ms => (name, x.toJson) :: toJsonMembers ms

end

end Item

end PathQuery
