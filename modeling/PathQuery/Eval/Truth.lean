import PathQuery.Item.Basic
import PathQuery.Mode
import PathQuery.Path.Node

/-!
# Truth values

Predicates have three truth values. The connectives are those of Kleene's strong logic: an operand that
is unknown matters only where the other one does not decide.

* `Item.compareBy` compares two items; items of different kinds, and nulls, compare as unknown.
* `Truth.ofPrefixes` is the truth of `starts with` for several candidates.
-/

namespace PathQuery

inductive Truth where
  | true
  | false
  | unknown
  deriving DecidableEq

namespace Truth

def ofBool (b : Bool) : Truth :=
  if b then .true else .false

def name : Truth → String
  | .true => "true"
  | .false => "false"
  | .unknown => "unknown"

def and : Truth → Truth → Truth
  | .false, _ | _, .false => .false
  | .true, .true => .true
  | _, _ => .unknown

def or : Truth → Truth → Truth
  | .true, _ | _, .true => .true
  | .false, .false => .false
  | _, _ => .unknown

def not : Truth → Truth
  | .true => .false
  | .false => .true
  | .unknown => .unknown

/-- A truth value as an item; null is unknown. -/
def item : Truth → Item
  | .true => .boolean Bool.true
  | .false => .boolean Bool.false
  | .unknown => .null

theorem and_comm (a b : Truth) : a.and b = b.and a := by
  cases a <;> cases b <;> rfl

theorem or_comm (a b : Truth) : a.or b = b.or a := by
  cases a <;> cases b <;> rfl

theorem not_and (a b : Truth) : (a.and b).not = a.not.or b.not := by
  cases a <;> cases b <;> rfl

@[simp] theorem not_not (a : Truth) : a.not.not = a := by
  cases a <;> rfl

end Truth

/-! ### Comparison -/

/-- Whether an order between two values satisfies a comparison. -/
def ComparisonOp.admits : ComparisonOp → Ordering → Bool
  | .equal, o => o == .eq
  | .notEqual, o => o != .eq
  | .less, o => o == .lt
  | .lessOrEqual, o => o != .gt
  | .greater, o => o == .gt
  | .greaterOrEqual, o => o != .lt

/-- The order of two booleans, false first. -/
def compareBool (a b : Bool) : Ordering :=
  compare a.toNat b.toNat

/-- How two items compare for an operator. Booleans only compare for equality. -/
def Item.order? (op : ComparisonOp) : Item → Item → Option Ordering
  | .number a, .number b => a.compare? b
  | .string a, .string b => some (compareOfLessAndEq a b)
  | .boolean a, .boolean b => if op.isEquality then some (compareBool a b) else none
  | .datetime a, .datetime b => a.compare? b
  | _, _ => none

/-- The truth of a comparison between two items. -/
def Item.compareBy (op : ComparisonOp) (a b : Item) : Truth :=
  match Item.order? op a b with
  | some o => Truth.ofBool (op.admits o)
  | none => .unknown

/-! ### Beginnings -/

/-- Whether a candidate is a text with this beginning; anything but a text is unknown. -/
def Item.startsWith (initial : String) : Item → Truth
  | .string s => Truth.ofBool (initial.toList.isPrefixOf s.toList)
  | _ => .unknown

/-- The truth of `starts with` for candidates in order. In lax mode the first candidate that is true
decides, in strict mode the first that is unknown. -/
def Truth.ofPrefixes (mode : Mode) (initial : String) (candidates : List Item) : Truth :=
  go Truth.false candidates
where
  go (soFar : Truth) : List Item → Truth
    | [] => soFar
    | x :: xs =>
        match x.startsWith initial, mode with
        | .true, .lax => .true
        | .true, .strict => go .true xs
        | .unknown, .lax => go .unknown xs
        | .unknown, .strict => .unknown
        | .false, _ => go soFar xs

end PathQuery
