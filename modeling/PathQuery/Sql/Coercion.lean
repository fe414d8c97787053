import PathQuery.DateTime.Template
import PathQuery.Item.Basic
import PathQuery.Sql.Value

/-!
# Coercion of scalars to SQL types

A `Coercion` turns an item into a value of an SQL type. `Coercion.standard` follows the rules of SQL
casts: a number becomes an integer only if it is one, a text is trimmed before it is read, and a
timestamp with an offset gives its local date and time.
-/

namespace PathQuery

inductive CoercionError where
  /-- The item, described, has no form in the type. -/
  | invalidCast (described : String) (target : SqlType)
  | outOfRange (value : String) (target : SqlType)
  /-- A text with too many characters. -/
  | tooLong (length : Nat) (target : SqlType)
  | unknownType (name : String)
  deriving DecidableEq

def CoercionError.message : CoercionError → String
  | .invalidCast described target => "cannot cast " ++ described ++ " to " ++ target.text
  | .outOfRange value target => "value " ++ value ++ " out of range for " ++ target.text
  | .tooLong length target => "value of length " ++ toString length ++ " exceeds " ++ target.text
  | .unknownType name => "unknown SQL type: " ++ name

/-- The type that a text names, or the error that it names none. -/
def SqlType.ofText (text : String) : Except CoercionError SqlType :=
  match SqlType.ofText? text with
  | some t => .ok t
  | none => .error (.unknownType text)

/-- A way to convert items to values of SQL types. -/
abbrev Coercion := Item → SqlType → Except CoercionError SqlValue

namespace Coercion

def booleanText (b : Bool) : String :=
  if b then "true" else "false"

/-- An item as error messages name it. -/
def describe : Item → String
  | .string s => "string '" ++ s ++ "'"
  | .number n => "number " ++ n.text
  | .boolean b => "boolean " ++ booleanText b
  | .datetime d => d.type.name ++ " " ++ d.text
  | x => x.type.name

/-- The truth value that a text names. -/
def boolean? (s : String) : Option Bool :=
  match String.ofList ((Text.trim s).toList.map Char.toLower) with
  | "true" | "t" | "1" => some true
  | "false" | "f" | "0" => some false
  | _ => none

/-- The 64-bit integer that a trimmed text denotes. -/
def integer? (s : String) : Option Int64 :=
  (Numeral.integer? (Text.trim s).toList).bind int64?

/-- A 64-bit integer as a value of one of the two integer types. -/
def narrow? (target : SqlType) (n : Int64) : Option SqlValue :=
  match target with
  | .integer =>
      if -0x80000000 ≤ n.toInt ∧ n.toInt < 0x80000000 then some (.integer (Int32.ofInt n.toInt))
      else none
  | _ => some (.bigInt n)

/-- The text of a scalar. -/
def text? : Item → Option String
  | .string s => some s
  | .boolean b => some (booleanText b)
  | .number n => some n.text
  | .datetime d => some d.text
  | _ => none

/-- The local date of a value that has one. -/
def date? : DateTime → Option Date
  | .date d => some d
  | .timestamp t => some t.date
  | .zoned t => some t.clock.date
  | .time _ => none

def midnight : Time := ⟨0, 0, 0, 0, by decide⟩

/-- The local timestamp of a value that has a date. -/
def timestamp? : DateTime → Option Timestamp
  | .date d => some ⟨d, midnight⟩
  | .timestamp t => some t
  | .zoned t => some t.clock
  | .time _ => none

/-- The date and time value of an item that is one or whose trimmed text denotes one. -/
def datetime? : Item → Option DateTime
  | .datetime d => some d
  | .string s => DateTime.ofIso? (Text.trim s)
  | _ => none

/-- An item as an integer of the target type, which is one of the two integer types. -/
def toInteger (x : Item) (target : SqlType) : Except CoercionError SqlValue :=
  let invalid := CoercionError.invalidCast (describe x) target
  let narrowed (n : Int64) (shown : String) : Except CoercionError SqlValue :=
    match narrow? target n with
    | some v => .ok v
    | none => .error (.outOfRange shown target)
  match x with
  | .boolean b => narrowed (if b then 1 else 0) (booleanText b)
  | .number n =>
      match n.toInt? with
      | some i => narrowed i n.text
      | none => .error (.outOfRange n.text target)
  | .string s =>
      match integer? s with
      | some i => narrowed i s
      | none => .error invalid
  | _ => .error invalid

/-- The rules of SQL casts. -/
def standard : Coercion := fun x target =>
  let orInvalid (v : Option SqlValue) : Except CoercionError SqlValue :=
    match v with
    | some v => .ok v
    | none => .error (.invalidCast (describe x) target)
  match target with
  | .boolean =>
      orInvalid <| match x with
        | .boolean b => some (.boolean b)
        | .number n => some (.boolean !n.toDouble.isZero)
        | .string s => (boolean? s).map .boolean
        | _ => none
  | .integer | .bigInt => toInteger x target
  | .double =>
      orInvalid <| match x with
        | .number n => some (.double n.toDouble)
        | .string s =>
            ((Double.ofText? (Text.trim s)).filter Double.isFinite).map .double
        | _ => none
  | .varchar limit =>
      match text? x with
      | none => .error (.invalidCast (describe x) target)
      | some s =>
          if limit.any fun n => n.toNat < s.length then .error (.tooLong s.length target)
          else .ok (.varchar s)
  | .date => orInvalid (((datetime? x).bind date?).map .date)
  | .timestamp => orInvalid (((datetime? x).bind timestamp?).map .timestamp)

end Coercion

end PathQuery
