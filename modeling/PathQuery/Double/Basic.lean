/-!
# Binary64 numbers as exact values

A `Double` is not-a-number, an infinity, or a finite number with its sign, an integral significand and
a binary exponent. A finite number is a whole number of units of `2 ^ -1074`, the smallest positive
double, so every operation is integer arithmetic on `Double.units` followed by one rounding.

* `Double.ofRatio` rounds a quotient of naturals to nearest, ties to the even significand. A quotient
  too large for a finite double becomes an infinity.
* `Double.add`, `mul`, `div`, `mod` are the IEEE 754 operations, with the remainder truncated and exact.
* `Double.compare?` is the partial order of the values: the two zeros are equal and not-a-number is
  comparable with nothing.
-/

namespace PathQuery

/-- The significand and exponent of a finite double in lowest form: 53 bits, with the leading bit set
except at the least exponent. -/
def Double.Canonical (significand : Nat) (exponent : Int) : Prop :=
  significand < 0x20000000000000 ∧ -1074 ≤ exponent ∧ exponent ≤ 971 ∧
    (0x10000000000000 ≤ significand ∨ exponent = -1074)

instance (significand : Nat) (exponent : Int) :
    Decidable (Double.Canonical significand exponent) :=
  inferInstanceAs (Decidable (_ ∧ _ ∧ _ ∧ (_ ∨ _)))

/-- A binary64 number. All not-a-number encodings are one value, since no output tells them apart. -/
inductive Double where
  | nan
  | infinite (negative : Bool)
  | finite (negative : Bool) (significand : Nat) (exponent : Int)
      (canonical : Double.Canonical significand exponent)
  deriving DecidableEq

namespace Double

/-- The zero of either sign. -/
def zero (negative : Bool) : Double :=
  .finite negative 0 (-1074) (by decide)

instance : Inhabited Double := ⟨zero false⟩

def isFinite : Double → Bool
  | .finite .. => true
  | _ => false

def isNegative : Double → Bool
  | .nan => false
  | .infinite negative => negative
  | .finite negative .. => negative

/-- The number of units of `2 ^ -1074` in a finite double, signed; infinities and not-a-number have none. -/
def units : Double → Int
  | .finite negative significand exponent _ =>
      let magnitude : Int := significand * Nat.pow 2 (exponent + 1074).toNat
      if negative then -magnitude else magnitude
  | _ => 0

/-- The number of units in one. -/
def unitsPerOne : Nat := Nat.pow 2 1074

/-! ### Rounding -/

/-- The finite double with these parts, or an infinity where they are out of range. -/
def pack (negative : Bool) (significand : Nat) (exponent : Int) : Double :=
  if h : Canonical significand exponent then .finite negative significand exponent h
  else .infinite negative

/-- The quotient rounded to nearest, a half going to the even neighbour. -/
def roundQuotient (num den : Nat) : Nat :=
  let quotient := num / den
  let remainder := num % den
  if 2 * remainder < den ∨ (2 * remainder = den ∧ quotient % 2 = 0) then quotient else quotient + 1

/-- The floor of the binary logarithm of `num / den`. -/
def ratioLog (num den : Nat) : Int :=
  let guess : Int := (num.log2 : Int) - den.log2
  if den * Nat.pow 2 guess.toNat ≤ num * Nat.pow 2 (-guess).toNat then guess else guess - 1

/-- The double nearest to `num / den` with the given sign. -/
def ofRatio (negative : Bool) (num den : Nat) : Double :=
  if num = 0 then zero negative
  else
    let exponent := max (ratioLog num den - 52) (-1074)
    let significand :=
      roundQuotient (num * Nat.pow 2 (-exponent).toNat) (den * Nat.pow 2 exponent.toNat)
    if significand = 0x20000000000000 then pack negative 0x10000000000000 (exponent + 1)
    else pack negative significand exponent

/-- The double nearest to a signed quotient. -/
def ofQuotient (num : Int) (den : Nat) : Double :=
  ofRatio (num < 0) num.natAbs den

/-- The double nearest to an integer. -/
def ofInt (n : Int) : Double :=
  ofQuotient n 1

/-! ### Arithmetic -/

def neg : Double → Double
  | .nan => .nan
  | .infinite negative => .infinite !negative
  | .finite negative significand exponent h => .finite (!negative) significand exponent h

def abs : Double → Double
  | .nan => .nan
  | .infinite _ => .infinite false
  | .finite _ significand exponent h => .finite false significand exponent h

/-- A sum that is zero is negative only when both terms are. -/
def add : Double → Double → Double
  | .nan, _ | _, .nan => .nan
  | .infinite a, .infinite b => if a = b then .infinite a else .nan
  | .infinite a, _ => .infinite a
  | _, .infinite b => .infinite b
  | x, y =>
      let sum := x.units + y.units
      if sum = 0 then zero (x.isNegative && y.isNegative) else ofQuotient sum unitsPerOne

def sub (x y : Double) : Double :=
  add x (neg y)

def mul : Double → Double → Double
  | .nan, _ | _, .nan => .nan
  | .infinite a, y =>
      if y.isFinite && y.units = 0 then .nan else .infinite (a != y.isNegative)
  | x, .infinite b =>
      if x.units = 0 then .nan else .infinite (x.isNegative != b)
  | x, y =>
      ofRatio (x.isNegative != y.isNegative) (x.units.natAbs * y.units.natAbs)
        (unitsPerOne * unitsPerOne)

def div : Double → Double → Double
  | .nan, _ | _, .nan => .nan
  | .infinite a, y => if y.isFinite then .infinite (a != y.isNegative) else .nan
  | x, .infinite b => zero (x.isNegative != b)
  | x, y =>
      if y.units = 0 then
        if x.units = 0 then .nan else .infinite (x.isNegative != y.isNegative)
      else ofRatio (x.isNegative != y.isNegative) x.units.natAbs y.units.natAbs

/-- The remainder of the quotient truncated to an integer; it has the sign of the dividend. -/
def mod : Double → Double → Double
  | .nan, _ | _, .nan => .nan
  | .infinite _, _ => .nan
  | x, .infinite _ => x
  | x, y =>
      if y.units = 0 then .nan
      else ofRatio x.isNegative (x.units.natAbs % y.units.natAbs) unitsPerOne

/-! ### Whole numbers -/

/-- Whether a double is a finite whole number. -/
def isWhole (x : Double) : Bool :=
  x.isFinite && x.units.natAbs % unitsPerOne = 0

/-- The integer that a double is, if it is a whole number. -/
def toInt? (x : Double) : Option Int :=
  if x.isWhole then some (x.units / unitsPerOne) else none

/-- The whole number next to a finite double, away from zero or toward it, with the sign kept. -/
private def toWhole (awayFromZero : Bool) : Double → Double
  | .finite negative significand exponent h =>
      let size := (Double.finite negative significand exponent h).units.natAbs
      let whole := size / unitsPerOne
      ofRatio negative
        (if awayFromZero && size % unitsPerOne != 0 then whole + 1 else whole) 1
  | x => x

/-- The least whole number not below a double. -/
def ceil (x : Double) : Double :=
  toWhole (!x.isNegative) x

/-- The greatest whole number not above a double. -/
def floor (x : Double) : Double :=
  toWhole x.isNegative x

/-! ### Order -/

/-- More units than any finite double has. -/
def beyond : Int := Nat.pow 2 2098

/-- A position on the line of integers that orders doubles as their values. -/
def rank : Double → Option Int
  | .nan => none
  | .infinite negative => some (if negative then -beyond else beyond)
  | x => some x.units

/-- How two doubles compare; nothing compares with not-a-number. -/
def compare? (x y : Double) : Option Ordering :=
  match x.rank, y.rank with
  | some a, some b => some (compare a b)
  | _, _ => none

/-- Whether a double is a zero of either sign. -/
def isZero (x : Double) : Bool :=
  x.isFinite && x.units = 0

/-! ### Small facts -/

@[simp] theorem units_zero (negative : Bool) : (zero negative).units = 0 := by
  cases negative <;> simp [zero, units]

@[simp] theorem isFinite_neg (x : Double) : x.neg.isFinite = x.isFinite := by
  cases x <;> rfl

@[simp] theorem isFinite_abs (x : Double) : x.abs.isFinite = x.isFinite := by
  cases x <;> rfl

@[simp] theorem neg_neg (x : Double) : x.neg.neg = x := by
  cases x <;> simp [neg]

end Double

end PathQuery
