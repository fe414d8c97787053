import PathQuery.Double.Basic

/-!
# The shortest decimal that reads back

The reals that round to a finite double form an interval, closed exactly when its significand is even.
`Double.shortest` tries the decimal grids with 1, 2, … 17 digits and takes the first grid with a point
in that interval; of two such points it takes the nearer, and `TieRule` decides an exact tie.

* `Double.plainText` writes those digits positionally, whatever the size of the number.
* `Double.wholeText` writes every digit of a whole number.
-/

namespace PathQuery

/-- Which of two equally near decimals is written. -/
inductive TieRule where
  | up
  | even
  deriving DecidableEq

/-- A decimal `digits * 10 ^ exponent`. -/
structure Digits where
  digits : Nat
  exponent : Int
  deriving DecidableEq

namespace Digits

/-- The number of digits written, at least one. -/
def count (n : Nat) : Nat :=
  (Nat.toDigits 10 n).length

/-- The same decimal without trailing zeros; each removed zero shortens the digits, so their count
bounds the number of removals. -/
def strip (d : Digits) : Digits :=
  go (count d.digits) d
where
  go : Nat → Digits → Digits
    | 0, d => d
    | n + 1, d =>
        if d.digits ≠ 0 ∧ d.digits % 10 = 0 then go n ⟨d.digits / 10, d.exponent + 1⟩ else d

/-- The digits without an exponent: zeros fill the place up to the decimal point. -/
def positional (d : Digits) : String :=
  let ds := Nat.toDigits 10 d.digits
  if 0 ≤ d.exponent then String.ofList (ds ++ List.replicate d.exponent.toNat '0')
  else
    let places := (-d.exponent).toNat
    let padded := List.replicate (places + 1 - ds.length) '0' ++ ds
    let whole := padded.length - places
    String.ofList (padded.take whole ++ '.' :: padded.drop whole)

end Digits

namespace Double

/-- The interval of reals that round to a positive finite double, over a common denominator. -/
structure Rounding where
  low : Nat
  value : Nat
  high : Nat
  den : Nat
  closed : Bool

/-- Half the gap to the neighbour on either side; below a power of two the gap is half as wide. -/
def rounding (significand : Nat) (exponent : Int) : Rounding :=
  let quarter := exponent - 2
  let scale := Nat.pow 2 quarter.toNat
  let below := if significand = 0x10000000000000 ∧ exponent ≠ -1074 then 1 else 2
  ⟨(4 * significand - below) * scale, 4 * significand * scale, (4 * significand + 2) * scale,
    Nat.pow 2 (-quarter).toNat, significand % 2 = 0⟩

namespace Rounding

/-- Whether `n * 10 ^ step` rounds to the double. -/
def admits (r : Rounding) (n : Nat) (step : Int) : Bool :=
  let point := n * Nat.pow 10 step.toNat * r.den
  let low := r.low * Nat.pow 10 (-step).toNat
  let high := r.high * Nat.pow 10 (-step).toNat
  if r.closed then low ≤ point && point ≤ high else low < point && point < high

/-- The multiple of `10 ^ step` that rounds to the double, the nearer of two. -/
def onGrid (r : Rounding) (tie : TieRule) (step : Int) : Option Digits :=
  let value := r.value * Nat.pow 10 (-step).toNat
  let unit := r.den * Nat.pow 10 step.toNat
  let below := value / unit
  let twice := 2 * (value % unit)
  match r.admits below step, r.admits (below + 1) step with
  | true, true =>
      let lower := twice < unit ∨ (twice = unit ∧ tie = .even ∧ below % 2 = 0)
      some ⟨if lower then below else below + 1, step⟩
  | true, false => some ⟨below, step⟩
  | false, true => some ⟨below + 1, step⟩
  | false, false => none

/-- The number of digits before the decimal point, negative by the zeros that follow it. Every positive
double has a digit within 400 places. -/
def point (r : Rounding) : Int :=
  (Digits.count (r.value * Nat.pow 10 400 / r.den) : Int) - 400

/-- The first grid with a hit. Seventeen digits always tell two doubles apart. -/
def shortest (r : Rounding) (tie : TieRule) : Digits :=
  let point := r.point
  let hit := (List.range' 1 17).findSome? fun count => r.onGrid tie (point - (count : Nat))
  let cut := r.value * Nat.pow 10 (17 - point).toNat / (r.den * Nat.pow 10 (point - 17).toNat)
  (hit.getD ⟨cut, point - 17⟩).strip

end Rounding

/-- The fewest decimal digits that read back as a finite double without its sign. -/
def shortest (tie : TieRule) : Double → Digits
  | .finite _ significand exponent _ =>
      if significand = 0 then ⟨0, 0⟩ else (rounding significand exponent).shortest tie
  | _ => ⟨0, 0⟩

/-- A text with the sign of a number in front. -/
def signed (x : Double) (text : String) : String :=
  if x.isNegative then "-" ++ text else text

/-- A double in its fewest digits, never with an exponent. -/
def plainText (x : Double) : String :=
  match x with
  | .nan => "NaN"
  | .infinite _ => x.signed "inf"
  | .finite .. => x.signed (x.shortest .up).positional

/-- All digits of a finite whole number, with one zero after the point. -/
def wholeText (x : Double) : String :=
  x.signed (toString (x.units.natAbs / unitsPerOne) ++ ".0")

end Double

end PathQuery
