import PathQuery.Json.Token
import PathQuery.Proofs.Double.Order

/-!
# Numbers that are read as the nearest double

The reader of a number rounds its digits, and then rounds their product with a power of ten or their
quotient by one. Where both are doubles themselves only one rounding is left, and it is the one that makes
the nearest double.

* `Double.ofRatio_mul_right` — rounding depends on the quotient only.
* `Double.IsNat` holds of a double that is a natural number; `Double.mul_of_isNat` and `Double.div_of_isNat`
  round once for two of them.
* `Json.readDouble_eq_toDouble` — digits below `2 ^ 53`, with the point at most 22 places away, are read as
  the nearest double.
-/

namespace PathQuery

namespace Double

/-! ### One rounding -/

theorem roundQuotient_mul_right {factor : Nat} (hfactor : 0 < factor) (num den : Nat) :
    roundQuotient (num * factor) (den * factor) = roundQuotient num den := by
  have hless : 2 * (num % den * factor) < den * factor ↔ 2 * (num % den) < den := by
    rw [← Nat.mul_assoc, Nat.mul_lt_mul_right hfactor]
  have hhalf : 2 * (num % den * factor) = den * factor ↔ 2 * (num % den) = den := by
    rw [← Nat.mul_assoc, Nat.mul_left_inj (Nat.ne_of_gt hfactor)]
  unfold roundQuotient
  simp only [Nat.mul_div_mul_right _ _ hfactor, Nat.mul_mod_mul_right, hless, hhalf]

/-- **Rounding depends on the quotient only.** -/
theorem ofRatio_mul_right {den factor : Nat} (hden : den ≠ 0) (hfactor : 0 < factor) (negative : Bool)
    (num : Nat) : ofRatio negative (num * factor) (den * factor) = ofRatio negative num den := by
  by_cases hnum : num = 0
  · rw [hnum, Nat.zero_mul, ofRatio, ofRatio, if_pos rfl, if_pos rfl]
  · have hne : factor ≠ 0 := Nat.ne_of_gt hfactor
    have hnum' : num * factor ≠ 0 := Nat.mul_ne_zero hnum hne
    have hlog : ratioLog (num * factor) (den * factor) = ratioLog num den := by
      rw [ratioLog_eq hnum' (Nat.mul_ne_zero hden hne), ratioLog_eq hnum hden, Nat.cast_mul, Nat.cast_mul,
        mul_div_mul_right _ _ (Nat.cast_ne_zero.mpr hne)]
    have hround (up down : Nat) : roundQuotient (num * factor * up) (den * factor * down) =
        roundQuotient (num * up) (den * down) := by
      rw [Nat.mul_right_comm, Nat.mul_right_comm den, roundQuotient_mul_right hfactor]
    rw [ofRatio, ofRatio, if_neg hnum, if_neg hnum', hlog]
    simp only [hround]

theorem isNegative_pack (negative : Bool) (significand : Nat) (exponent : Int) :
    (pack negative significand exponent).isNegative = negative := by
  unfold pack
  split <;> rfl

theorem isNegative_ofRatio (negative : Bool) (num den : Nat) :
    (ofRatio negative num den).isNegative = negative := by
  unfold ofRatio
  split
  · rfl
  · dsimp only
    split <;> exact isNegative_pack negative _ _

theorem mul_of_isFinite {x y : Double} (hx : x.isFinite = true) (hy : y.isFinite = true) :
    x.mul y = ofRatio (x.isNegative != y.isNegative) (x.units.natAbs * y.units.natAbs)
      (unitsPerOne * unitsPerOne) := by
  cases x with
  | nan | infinite => cases hx
  | finite =>
    cases y with
    | nan | infinite => cases hy
    | finite => rfl

theorem div_of_isFinite {x y : Double} (hx : x.isFinite = true) (hy : y.isFinite = true)
    (hunits : y.units ≠ 0) :
    x.div y = ofRatio (x.isNegative != y.isNegative) x.units.natAbs y.units.natAbs := by
  cases x with
  | nan | infinite => cases hx
  | finite =>
    cases y with
    | nan | infinite => cases hy
    | finite => exact if_neg hunits

/-! ### Natural numbers -/

/-- A double is a natural number. -/
structure IsNat (x : Double) (n : Nat) : Prop where
  isFinite : x.isFinite = true
  isNegative : x.isNegative = false
  units : x.units.natAbs = n * unitsPerOne

section IsNat

variable {x y : Double} {m n : Nat}

theorem mul_of_isNat (hx : IsNat x m) (hy : IsNat y n) : x.mul y = ofRatio false (m * n) 1 := by
  have hpos : 0 < unitsPerOne * unitsPerOne := Nat.mul_pos unitsPerOne_pos unitsPerOne_pos
  have honce := ofRatio_mul_right Nat.one_ne_zero hpos false (m * n)
  rw [Nat.one_mul] at honce
  rw [mul_of_isFinite hx.isFinite hy.isFinite, hx.isNegative, hy.isNegative, hx.units, hy.units,
    Nat.mul_mul_mul_comm]
  exact honce

theorem div_of_isNat (hx : IsNat x m) (hy : IsNat y n) (hn : n ≠ 0) : x.div y = ofRatio false m n := by
  have hunits : y.units ≠ 0 := by
    rw [← Int.natAbs_ne_zero, hy.units]
    exact Nat.mul_ne_zero hn (Nat.ne_of_gt unitsPerOne_pos)
  rw [div_of_isFinite hx.isFinite hy.isFinite hunits, hx.isNegative, hy.isNegative, hx.units, hy.units]
  exact ofRatio_mul_right hn unitsPerOne_pos false m

theorem isNat_ofInt (hunits : nearestUnits n = n * unitsPerOne) (hmax : n ≤ maxWhole) :
    IsNat (ofInt n) n where
  isFinite := isFinite_ofInt hmax
  isNegative := isNegative_ofRatio _ _ _
  units := hunits

theorem isNat_ofInt_of_lt (h : n < 0x20000000000000) : IsNat (ofInt n) n := by
  have hmax : 0x20000000000000 ≤ maxWhole := by decide +kernel
  exact isNat_ofInt (nearestUnits_of_lt h) (Nat.le_trans (Nat.le_of_lt h) hmax)

/-- The powers of ten up to `10 ^ 22` are doubles: they are a number of 53 digits times a power of two. -/
theorem isNat_ofInt_pow_ten {e : Nat} (h : e ≤ 22) : IsNat (ofInt (Nat.pow 10 e)) (10 ^ e) := by
  have hunits : ∀ e < 23, nearestUnits (10 ^ e) = 10 ^ e * unitsPerOne := by decide +kernel
  have hmax : 10 ^ 22 ≤ maxWhole := by decide +kernel
  have hpow : 10 ^ e ≤ 10 ^ 22 := Nat.pow_le_pow_right (by decide) h
  exact isNat_ofInt (hunits e (Nat.lt_succ_of_le h)) (Nat.le_trans hpow hmax)

end IsNat

end Double

/-! ### Digits -/

theorem Numeral.coefficient_eq (n : Numeral) :
    n.coefficient = Nat.ofDigitChars 10 (n.fraction.getD []) (Nat.ofDigitChars 10 n.whole 0) :=
  Nat.ofDigitChars_append 0

namespace Json

theorem le_ofDigitChars (cs : List Char) (coefficient : Nat) :
    coefficient ≤ Nat.ofDigitChars 10 cs coefficient := by
  induction cs generalizing coefficient with
  | nil => exact Nat.le_refl _
  | cons c cs ih =>
    have hstep := ih (10 * coefficient + (c.toNat - '0'.toNat))
    rw [Nat.ofDigitChars_cons]
    omega

/-- Digits that fit in 64 bits are all appended. -/
theorem appendDigits_of_lt {cs : List Char} {coefficient : Nat}
    (h : Nat.ofDigitChars 10 cs coefficient < 0x10000000000000000) :
    appendDigits coefficient cs = (Nat.ofDigitChars 10 cs coefficient, []) := by
  induction cs generalizing coefficient with
  | nil => rfl
  | cons c cs ih =>
    rw [Nat.ofDigitChars_cons] at h ⊢
    have hlonger := Nat.lt_of_le_of_lt (le_ofDigitChars cs _) h
    rw [appendDigits, if_pos hlonger, ih h]

/-! ### The nearest double -/

section Nearest

open Double

theorem scaleByTen_ofInt {coefficient : Nat} (hcoefficient : coefficient < 0x20000000000000)
    {exponent : Int} (hexponent : exponent.natAbs ≤ 22) :
    scaleByTen (ofInt coefficient) exponent =
      ofRatio false (coefficient * Nat.pow 10 exponent.toNat) (Nat.pow 10 (-exponent).toNat) := by
  have hdigits := isNat_ofInt_of_lt hcoefficient
  have hpower := isNat_ofInt_pow_ten hexponent
  rw [scaleByTen, if_pos (by omega)]
  dsimp only
  split
  · next hsign =>
    rw [mul_of_isNat hdigits hpower, show exponent.natAbs = exponent.toNat by omega,
      show (-exponent).toNat = 0 by omega]
    rfl
  · next hsign =>
    rw [div_of_isNat hdigits hpower (Nat.ne_of_gt (Nat.pow_pos (by decide))),
      show exponent.natAbs = (-exponent).toNat by omega, show exponent.toNat = 0 by omega]
    exact congrArg (ofRatio false · _) (Nat.mul_one coefficient).symm

variable {n : Numeral}

/-- The nearest double of a short number is rounded from its digits and its power of ten directly. -/
theorem toDouble_eq_ofRatio (hcoefficient : n.coefficient < 0x20000000000000)
    (hscale : n.scale.natAbs ≤ 22) :
    n.toDouble = ofRatio n.negative (n.coefficient * Nat.pow 10 n.scale.toNat)
      (Nat.pow 10 (-n.scale).toNat) := by
  unfold Numeral.toDouble
  dsimp only
  by_cases hzero : n.coefficient = 0
  · rw [if_pos (Or.inl hzero), hzero, Nat.zero_mul, ofRatio, if_pos rfl]
  · have hcount : (Nat.toDigits 10 n.coefficient).length ≤ 16 :=
      (Nat.length_toDigits_le_iff (by decide) (by decide)).mpr (Nat.lt_trans hcoefficient (by decide))
    rw [if_neg (by omega), if_neg (by omega)]

/-- **Short numbers are read as the nearest double.** Digits below `2 ^ 53` are a double, and so is a power
of ten up to `10 ^ 22`, so that only their product or quotient is rounded. -/
theorem readDouble_eq_toDouble (hcoefficient : n.coefficient < 0x20000000000000)
    (hscale : n.scale.natAbs ≤ 22) : readDouble n = n.toDouble := by
  have hdigits := n.coefficient_eq
  have hfraction : Nat.ofDigitChars 10 (n.fraction.getD []) (Nat.ofDigitChars 10 n.whole 0) <
      0x10000000000000000 := by omega
  have hwhole := Nat.lt_of_le_of_lt (le_ofDigitChars _ _) hfraction
  have hexponent : n.exponent.getD 0 + (0 : Nat) + (0 : Nat) - (n.fraction.getD []).length = n.scale := by
    rw [Numeral.scale]
    omega
  rw [readDouble, toDouble_eq_ofRatio hcoefficient hscale, appendDigits_of_lt hwhole]
  dsimp only
  rw [appendDigits_of_lt hfraction]
  dsimp only
  rw [List.length_nil, hexponent, ← hdigits, scaleByTen_ofInt hcoefficient hscale]
  split
  · next hsign => rw [hsign, ← ofRatio_not, Bool.not_false]
  · next hsign => rw [Bool.eq_false_of_not_eq_true hsign]

/-- Greater digits are rounded themselves: the nearest double of 4503599627370495.5 is another one. -/
example :
    let n : Numeral := ⟨false, "4503599627370495".toList, some ['5'], none⟩
    readDouble n = ofInt 4503599627370495 ∧ n.toDouble ≠ ofInt 4503599627370495 := by
  decide +kernel

end Nearest

end Json

end PathQuery
