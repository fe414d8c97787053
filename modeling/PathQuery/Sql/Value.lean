import PathQuery.DateTime.Basic
import PathQuery.Double.Shortest
import PathQuery.Json.Basic
import PathQuery.Sql.Type

/-!
# SQL values

The values that a scalar path result is converted to, with their text and their JSON form.
-/

namespace PathQuery

inductive SqlValue where
  | boolean (b : Bool)
  | integer (n : Int32)
  | bigInt (n : Int64)
  | double (x : Double)
  | varchar (s : String)
  | date (d : Date)
  | timestamp (t : Timestamp)
  deriving DecidableEq

namespace SqlValue

/-- The type of a value; a text carries no limit of its own. -/
def type : SqlValue → SqlType
  | .boolean _ => .boolean
  | .integer _ => .integer
  | .bigInt _ => .bigInt
  | .double _ => .double
  | .varchar _ => .varchar none
  | .date _ => .date
  | .timestamp _ => .timestamp

def text : SqlValue → String
  | .boolean b => if b then "true" else "false"
  | .integer n => toString n.toInt
  | .bigInt n => toString n.toInt
  | .double x => x.plainText
  | .varchar s => s
  | .date d => d.text
  | .timestamp t => t.textWith " "

/-- A value as JSON: dates and timestamps are strings, and a double that is not finite is null. -/
def toJson : SqlValue → Json
  | .boolean b => .bool b
  | .integer n => .int n.toInt
  | .bigInt n => .int n.toInt
  | .double x => if x.isFinite then .float x else .null
  | v => .string v.text

end SqlValue

end PathQuery
