import PathQuery.Double.Shortest

/-!
# Numbers

A number is a 64-bit integer or a double. Integer arithmetic is exact: `int64?` gives a result
only where the mathematical one is in range.

* `Number.compare?` compares two integers exactly and all other pairs as doubles.
* `Number.toInt?` is the exact integer that a number is.
* `Number.text` shows a whole double with all its digits and one zero after the point.
-/

namespace PathQuery

/-- The 64-bit integer with a value, if there is one. -/
def int64? (n : Int) : Option Int64 :=
  if -0x8000000000000000 ≤ n ∧ n < 0x8000000000000000 then some (Int64.ofInt n) else none

theorem int64?_eq_some {n : Int} {i : Int64} (h : int64? n = some i) : i.toInt = n := by
  unfold int64? at h
  split at h
  · next hn =>
    rw [← Option.some.inj h]
    exact Int64.toInt_ofInt_of_le hn.1 hn.2
  · exact absurd h (by simp)

theorem int64?_toInt (i : Int64) : int64? i.toInt = some i := by
  have h1 := i.le_toInt
  have h2 := i.toInt_lt
  rw [int64?, if_pos ⟨h1, h2⟩, Int64.ofInt_toInt]

inductive Number where
  | int (n : Int64)
  | float (x : Double)
  deriving DecidableEq

namespace Number

def toDouble : Number → Double
  | .int n => .ofInt n.toInt
  | .float x => x

/-- The integer that a number is, if it is a whole number in the range of 64 bits. -/
def toInt? : Number → Option Int64
  | .int n => some n
  | .float x => x.toInt?.bind int64?

/-- How two numbers compare; not-a-number compares with nothing. -/
def compare? : Number → Number → Option Ordering
  | .int a, .int b => some (compare a.toInt b.toInt)
  | a, b => a.toDouble.compare? b.toDouble

def text : Number → String
  | .int n => toString n.toInt
  | .float x => if x.isWhole then x.wholeText else x.plainText

end Number

end PathQuery
