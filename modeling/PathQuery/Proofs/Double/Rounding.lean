import PathQuery.Double.Basic

/-!
# Rounding within the finite doubles

A whole number up to the largest double is rounded to a finite double. The integers of 64 bits are far
below that, and rounding to a whole number does not leave the finite doubles either.

* `Double.maxWhole` — the largest double, which is a whole number.
* `Double.isFinite_ofRatio_one` — the doubles nearest to smaller whole numbers are finite.
* `Double.isFinite_ceil`, `Double.isFinite_floor` and `Double.isFinite_ofInt` — what follows for the
  operations that make whole numbers.
-/

namespace PathQuery.Double

/-- The largest finite double as a whole number. -/
def maxWhole : Nat := 0x1fffffffffffff * Nat.pow 2 971

section Powers

-- The exponents are variables here, so that no power is computed where one is compared with another.
variable {exponent : Nat}

theorem maxWhole_eq (h : exponent = 971) : maxWhole = 0x1fffffffffffff * Nat.pow 2 exponent := by
  subst h
  decide +kernel

theorem maxWhole_lt (h : exponent = 1024) : maxWhole < Nat.pow 2 exponent := by
  subst h
  decide +kernel

theorem maxWhole_units (h : exponent = 2045) :
    maxWhole * unitsPerOne = 0x1fffffffffffff * Nat.pow 2 exponent := by
  subst h
  decide +kernel

end Powers

/-! ### Significands -/

theorem isFinite_pack {significand : Nat} {exponent : Int} (h : Canonical significand exponent)
    (negative : Bool) : (pack negative significand exponent).isFinite = true := by
  rw [pack, dif_pos h]
  rfl

theorem roundQuotient_cases {den : Nat} (hden : 0 < den) (num : Nat) :
    roundQuotient num den = num / den ∨
      (roundQuotient num den = num / den + 1 ∧ num % den ≠ 0) := by
  unfold roundQuotient
  dsimp only
  split
  · exact Or.inl rfl
  · refine Or.inr ⟨rfl, ?_⟩
    omega

/-- A quotient of 53 bits has a significand of as many, unless it is rounded up to the next power of
two. -/
theorem roundQuotient_bounds {num den : Nat} (hlow : 0x10000000000000 * den ≤ num)
    (hhigh : num < 0x20000000000000 * den) :
    0x10000000000000 ≤ roundQuotient num den ∧ roundQuotient num den ≤ 0x20000000000000 ∧
      (roundQuotient num den = 0x20000000000000 → 0x1fffffffffffff * den < num) := by
  have hden : 0 < den := Nat.pos_of_mul_pos_left (Nat.zero_lt_of_lt hhigh)
  have hquotient : 0x10000000000000 ≤ num / den := (Nat.le_div_iff_mul_le hden).mpr hlow
  have hquotient' : num / den < 0x20000000000000 := (Nat.div_lt_iff_lt_mul hden).mpr hhigh
  rcases roundQuotient_cases hden num with hround | ⟨hround, hremainder⟩
  · rw [hround]
    omega
  · rw [hround]
    refine ⟨by omega, by omega, fun hcarry => ?_⟩
    have hexact : num / den = 0x1fffffffffffff := Nat.succ.inj hcarry
    have hsum := Nat.div_add_mod num den
    rw [hexact, Nat.mul_comm] at hsum
    omega

/-! ### Whole numbers -/

theorem ratioLog_one {num : Nat} (h : num ≠ 0) : ratioLog num 1 = num.log2 := by
  have hlog : ¬ num < 2 ^ num.log2 := Nat.not_lt.mpr (Nat.log2_self_le h)
  have hone : Nat.log2 1 = 0 := by decide
  simp [ratioLog, hone, hlog]

/-- A number shifted so that 53 of its digits stand before the point. -/
theorem shifted_bounds {num up down : Nat} (h : num ≠ 0) (hshift : 52 + down = num.log2 + up) :
    0x10000000000000 * (1 * Nat.pow 2 down) ≤ num * Nat.pow 2 up ∧
      num * Nat.pow 2 up < 0x20000000000000 * (1 * Nat.pow 2 down) := by
  constructor
  · calc 0x10000000000000 * (1 * Nat.pow 2 down) = 2 ^ (52 + down) := by
          rw [Nat.one_mul, Nat.pow_add]
          rfl
      _ = 2 ^ num.log2 * 2 ^ up := by rw [hshift, Nat.pow_add]
      _ ≤ num * Nat.pow 2 up := Nat.mul_le_mul_right _ (Nat.log2_self_le h)
  · calc num * Nat.pow 2 up < 2 ^ (num.log2 + 1) * 2 ^ up :=
          Nat.mul_lt_mul_of_pos_right Nat.lt_log2_self (Nat.two_pow_pos up)
      _ = 2 ^ (53 + down) := by
          rw [← Nat.pow_add]
          congr 1
          omega
      _ = 0x20000000000000 * (1 * Nat.pow 2 down) := by
          rw [Nat.one_mul, Nat.pow_add]
          rfl

/-- **A whole number up to the largest double has a finite double nearest to it.** -/
theorem isFinite_ofRatio_one {num : Nat} (h : num ≤ maxWhole) (negative : Bool) :
    (ofRatio negative num 1).isFinite = true := by
  by_cases hzero : num = 0
  · rw [ofRatio, if_pos hzero]
    rfl
  have hdigits (digits : Nat) (htop : digits = 1024) : num.log2 < digits :=
    (Nat.log2_lt hzero).mpr (Nat.lt_of_le_of_lt h (maxWhole_lt htop))
  have hlog : num.log2 < 1024 := hdigits 1024 rfl
  have hexponent : max (ratioLog num 1 - 52) (-1074) = (num.log2 : Int) - 52 := by
    rw [ratioLog_one hzero]
    omega
  rw [ofRatio, if_neg hzero, hexponent]
  dsimp only
  -- At most one of the two shifts is not zero.
  generalize hup : (-((num.log2 : Int) - 52)).toNat = up
  generalize hdown : ((num.log2 : Int) - 52).toNat = down
  have hshift : 52 + down = num.log2 + up := by omega
  obtain ⟨hlow, hhigh⟩ := shifted_bounds hzero hshift
  obtain ⟨hleast, hmost, hcarry⟩ := roundQuotient_bounds hlow hhigh
  generalize roundQuotient (num * Nat.pow 2 up) (1 * Nat.pow 2 down) = significand at *
  split
  · next hsignificand =>
    -- A carry at the greatest exponent would need more than the largest double.
    have hroom : num.log2 < 1023 := by
      refine Nat.lt_of_le_of_ne (by omega) (fun htop => ?_)
      have habove := hcarry hsignificand
      rw [show up = 0 by omega, show Nat.pow 2 0 = 1 from rfl, Nat.mul_one, Nat.one_mul,
        ← maxWhole_eq (show down = 971 by omega)] at habove
      exact Nat.not_lt.mpr h habove
    exact isFinite_pack ⟨by decide, by omega, by omega, Or.inl (Nat.le_refl _)⟩ negative
  · exact isFinite_pack ⟨by omega, by omega, by omega, Or.inl hleast⟩ negative

/-- The double nearest to an integer is finite up to the largest double. -/
theorem isFinite_ofInt {n : Int} (h : n.natAbs ≤ maxWhole) : (ofInt n).isFinite = true :=
  isFinite_ofRatio_one h _

/-! ### Rounding to a whole number -/

/-- The size of a finite double in units of the smallest one. -/
theorem natAbs_units {negative : Bool} {significand : Nat} {exponent : Int}
    (h : Canonical significand exponent) :
    (finite negative significand exponent h).units.natAbs =
      significand * Nat.pow 2 (exponent + 1074).toNat := by
  cases negative <;> simp [units, Int.natAbs_mul, Int.natAbs_pow]

theorem natAbs_units_le (x : Double) : x.units.natAbs ≤ maxWhole * unitsPerOne := by
  cases x with
  | nan | infinite => exact Nat.zero_le _
  | finite negative significand exponent h =>
    have hsignificand := h.1
    have hexponent := h.2.2.1
    obtain ⟨top, htop⟩ : ∃ top, top = 2045 := ⟨_, rfl⟩
    calc (finite negative significand exponent h).units.natAbs
        = significand * Nat.pow 2 (exponent + 1074).toNat := natAbs_units h
      _ ≤ 0x1fffffffffffff * Nat.pow 2 top :=
          Nat.mul_le_mul (by omega) (Nat.pow_le_pow_right (by decide) (by omega))
      _ = maxWhole * unitsPerOne := (maxWhole_units htop).symm

/-- The whole numbers on both sides of a finite double are not above the largest one. -/
theorem wholePart_le (awayFromZero : Bool) (x : Double) :
    (if awayFromZero && x.units.natAbs % unitsPerOne != 0 then x.units.natAbs / unitsPerOne + 1
      else x.units.natAbs / unitsPerOne) ≤ maxWhole := by
  have hunits := natAbs_units_le x
  split
  · next h =>
    simp only [Bool.and_eq_true, bne_iff_ne] at h
    have hsum := Nat.div_add_mod x.units.natAbs unitsPerOne
    have hlt : x.units.natAbs / unitsPerOne * unitsPerOne < maxWhole * unitsPerOne := by
      rw [Nat.mul_comm]
      omega
    exact Nat.lt_of_mul_lt_mul_right hlt
  · exact Nat.div_le_of_le_mul (Nat.mul_comm maxWhole unitsPerOne ▸ hunits)

@[simp] theorem isFinite_ceil (x : Double) : x.ceil.isFinite = x.isFinite := by
  cases x with
  | nan | infinite => rfl
  | finite negative significand exponent h =>
    exact isFinite_ofRatio_one (wholePart_le (!negative) (finite negative significand exponent h)) negative

@[simp] theorem isFinite_floor (x : Double) : x.floor.isFinite = x.isFinite := by
  cases x with
  | nan | infinite => rfl
  | finite negative significand exponent h =>
    exact isFinite_ofRatio_one (wholePart_le negative (finite negative significand exponent h)) negative

end PathQuery.Double
