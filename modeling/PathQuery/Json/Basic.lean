import PathQuery.Double.Basic
import PathQuery.Entries

/-!
# JSON values

The document format: integers and doubles are told apart, and objects keep the order of their members.
A text may repeat a member name; `Json.distinct` keeps the first position of each name and its last
value, at every depth.
-/

namespace PathQuery

/-- A JSON value. An integer lies between `-2 ^ 63` and `2 ^ 64 - 1`; every other number is a double. -/
inductive Json where
  | null
  | bool (b : Bool)
  | int (n : Int)
  | float (x : Double)
  | string (s : String)
  | array (elements : List Json)
  | object (members : List (String × Json))

namespace Json

instance : Inhabited Json := ⟨.null⟩

mutual

/-- The value with each object's member names made distinct. -/
def distinct : Json → Json
  | .array elements => .array (distinctAll elements)
  | .object members => .object (Entries.ofList (distinctMembers members))
  | .null => .null
  | .bool b => .bool b
  | .int n => .int n
  | .float x => .float x
  | .string s => .string s

def distinctAll : List Json → List Json
  | [] => []
  | v :: vs => v.distinct :: distinctAll vs

def distinctMembers : List (String × Json) → List (String × Json)
  | [] => []
  | (name, v) :: ms => (name, v.distinct) :: distinctMembers ms

end

/-- The value of a member of an object. -/
def get? (name : String) : Json → Option Json
  | .object members => Entries.get? name members
  | _ => none

end Json

end PathQuery
