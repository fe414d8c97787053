import PathQuery.Double.Basic

/-!
# Decimal number texts

`Numeral` is the lexical form of a number: sign, digits before and after the point, exponent. It is read
by `Numeral.ofUnsigned?`, which leaves to its callers which digits may be missing, and it denotes
`Numeral.toDouble`, the nearest double.

* `Double.ofText?` reads a decimal text, or a name of an infinity or of not-a-number in any case.
* `Numeral.integer?` reads an optional sign and digits.
-/

namespace PathQuery

/-- The number that decimal digits denote. -/
def digitsValue (cs : List Char) : Nat :=
  cs.foldl (fun n c => 10 * n + (c.toNat - '0'.toNat)) 0

/-- The lexical parts of a decimal number. -/
structure Numeral where
  negative : Bool
  whole : List Char
  fraction : Option (List Char)
  exponent : Option Int

namespace Numeral

/-- The integer that an optional sign and at least one digit denote. -/
def integer? (cs : List Char) : Option Int :=
  let digits? (ds : List Char) : Option Nat :=
    if ds.isEmpty || !ds.all Char.isDigit then none else some (digitsValue ds)
  match cs with
  | '+' :: ds => (digits? ds).map Int.ofNat
  | '-' :: ds => (digits? ds).map fun n => -(n : Int)
  | ds => (digits? ds).map Int.ofNat

/-- The parts of a number text without its sign. -/
def ofUnsigned? (negative : Bool) (cs : List Char) : Option Numeral :=
  let whole := cs.takeWhile Char.isDigit
  let rest := cs.dropWhile Char.isDigit
  let (fraction, tail) :=
    match rest with
    | '.' :: ds => (some (ds.takeWhile Char.isDigit), ds.dropWhile Char.isDigit)
    | ds => (none, ds)
  match tail with
  | [] => some ⟨negative, whole, fraction, none⟩
  | c :: ds =>
      if c = 'e' ∨ c = 'E' then
        (integer? ds).map fun n => ⟨negative, whole, fraction, some n⟩
      else none

/-- The digits of a number as one natural number, the point left out. -/
def coefficient (n : Numeral) : Nat :=
  digitsValue (n.whole ++ n.fraction.getD [])

/-- The power of ten that the coefficient is multiplied by. -/
def scale (n : Numeral) : Int :=
  n.exponent.getD 0 - (n.fraction.getD []).length

/-- The nearest double. A number above `10 ^ 310` is above every finite double and one below
`10 ^ -330` rounds to zero, so no larger power of ten is computed. -/
def toDouble (n : Numeral) : Double :=
  let coefficient := n.coefficient
  let size := ((Nat.toDigits 10 coefficient).length : Int) + n.scale
  if coefficient = 0 ∨ size < -330 then .zero n.negative
  else if size > 310 then .infinite n.negative
  else .ofRatio n.negative (coefficient * Nat.pow 10 n.scale.toNat) (Nat.pow 10 (-n.scale).toNat)

end Numeral

/-- The double that a decimal text denotes: an optional sign, digits with an optional point among them
or at either end, and an optional exponent; or the name of an infinity or of not-a-number. -/
def Double.ofText? (text : String) : Option Double :=
  let (negative, body) :=
    match text.toList with
    | '-' :: cs => (true, cs)
    | '+' :: cs => (false, cs)
    | cs => (false, cs)
  let name := String.ofList (body.map Char.toLower)
  if name = "inf" ∨ name = "infinity" then some (.infinite negative)
  else if name = "nan" then some .nan
  else
    (Numeral.ofUnsigned? negative body).bind fun n =>
      if n.whole.isEmpty && (n.fraction.getD []).isEmpty then none else some n.toDouble

end PathQuery
