import PathQuery.Double.Reading
import PathQuery.Text.Blank

/-!
# SQL types

The types that a path result can be converted to. `SqlType.text` is the name of a type, and
`SqlType.ofText?` reads names in any case of ASCII letters, with blank characters around them.
-/

namespace PathQuery

inductive SqlType where
  | boolean
  | integer
  | bigInt
  | double
  /-- Text with at most this many characters. -/
  | varchar (limit : Option UInt32)
  | date
  | timestamp
  deriving DecidableEq

namespace SqlType

def text : SqlType → String
  | .boolean => "boolean"
  | .integer => "integer"
  | .bigInt => "bigint"
  | .double => "double"
  | .varchar none => "varchar"
  | .varchar (some n) => "varchar(" ++ toString n.toNat ++ ")"
  | .date => "date"
  | .timestamp => "timestamp"

/-- A number of 32 bits in decimal digits, with at most a plus sign in front. -/
def limit? (cs : List Char) : Option UInt32 :=
  let ds := if cs.head? = some '+' then cs.tail else cs
  let n := digitsValue ds
  if ds.isEmpty || !ds.all Char.isDigit || 0x100000000 ≤ n then none else some n.toUInt32

/-- What stands between the parentheses of a text type with a limit. -/
def parenthesised? (name : List Char) : Option (List Char) :=
  let opening := "varchar(".toList
  if opening.isPrefixOf name && name.getLast? = some ')' && opening.length < name.length then
    some (name.drop opening.length).dropLast
  else none

/-- The type that a text names. -/
def ofText? (text : String) : Option SqlType :=
  let name := (Text.trim text).toList.map Char.toLower
  match String.ofList name with
  | "boolean" | "bool" => some .boolean
  | "integer" | "int" => some .integer
  | "bigint" => some .bigInt
  | "double" => some .double
  | "varchar" => some (.varchar none)
  | "date" => some .date
  | "timestamp" => some .timestamp
  | _ =>
      (parenthesised? name).bind fun inner =>
        (limit? (Text.trim (String.ofList inner)).toList).map fun n => .varchar (some n)

end SqlType

end PathQuery
