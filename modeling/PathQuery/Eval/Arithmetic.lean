import PathQuery.Eval.Error
import PathQuery.Sequence

/-!
# Arithmetic on numbers

Two integers give an exact integer or fail; all other pairs are computed as doubles and fail unless the
result is finite.
-/

namespace PathQuery

/-- The one number that an operand must be; in lax mode an array stands for its elements. -/
def Sequence.number (mode : Mode) (place : NumberPlace) (operand : Sequence) :
    Except EvalError Number :=
  match operand.unwrap mode with
  | [.number n] => .ok n
  | [x] => .error (.notNumber place x.type)
  | xs => .error (.notSingle place xs.length)

/-- The mathematical result of an operation on integers; a quotient is truncated and a remainder has
the sign of the dividend. -/
def ArithmeticOp.onInt : ArithmeticOp → Int → Int → Int
  | .add, a, b => a + b
  | .subtract, a, b => a - b
  | .multiply, a, b => a * b
  | .divide, a, b => a.tdiv b
  | .modulus, a, b => a.tmod b

def ArithmeticOp.onDouble : ArithmeticOp → Double → Double → Double
  | .add => Double.add
  | .subtract => Double.sub
  | .multiply => Double.mul
  | .divide => Double.div
  | .modulus => Double.mod

/-- Whether an operation divides by its second operand. -/
def ArithmeticOp.divides : ArithmeticOp → Bool
  | .divide | .modulus => true
  | _ => false

/-- The result of an operation on 64-bit integers. The remainder of the least integer by -1 counts as
out of range, as its quotient is. -/
def ArithmeticOp.onInt64? (op : ArithmeticOp) (a b : Int64) : Option Int64 :=
  match op with
  | .modulus =>
      (int64? (a.toInt.tdiv b.toInt)).bind fun _ => int64? (a.toInt.tmod b.toInt)
  | _ => int64? (op.onInt a.toInt b.toInt)

namespace Number

def arithmetic (op : ArithmeticOp) : Number → Number → Except EvalError Number
  | .int a, .int b =>
      if op.divides && b = 0 then .error .divisionByZero
      else
        match op.onInt64? a b with
        | some n => .ok (.int n)
        | none => .error (.integerOverflow op a b)
  | a, b =>
      if op.divides && b.toDouble.isZero then .error .divisionByZero
      else
        let x := op.onDouble a.toDouble b.toDouble
        if x.isFinite then .ok (.float x) else .error (.numericOverflow op a b)

def signed : Sign → Number → Except EvalError Number
  | .plus, n => .ok n
  | .minus, .int n =>
      match int64? (-n.toInt) with
      | some m => .ok (.int m)
      | none => .error (.negationOverflow n)
  | .minus, .float x => .ok (.float x.neg)

end Number

/-- The position that a subscript denotes. Whole numbers from `2 ^ 63` on are beyond every array and
count as the last position of 63 bits. -/
def Number.position (n : Number) : Except EvalError Nat :=
  match n.toInt? with
  | some i => if 0 ≤ i.toInt then .ok i.toInt.toNat else .error (.badSubscript n)
  | none =>
      if n.toDouble.isWhole && !n.toDouble.isNegative then .ok 0x7fffffffffffffff
      else .error (.badSubscript n)

end PathQuery
