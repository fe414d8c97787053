import PathQuery.Proofs.Double.Decimal

/-!
# The order of the doubles nearest to integers

Rounding an integer to a double keeps the order of integers, but it is one to one only up to `2 ^ 53`:
greater integers can have one double nearest to several of them.

* `Double.nearestUnits` — the units of the double nearest to a natural number.
* `Double.nearestUnits_mono` and `Double.nearestUnits_of_lt` — rounding keeps the order, and it is exact
  below `2 ^ 53`.
* `Double.units_ofInt_mono` and `Double.le_natAbs_of_units_ofInt_eq` — what follows for integers.
-/

namespace PathQuery.Double

/-! ### Quotients -/

theorem roundQuotient_one (num : Nat) : roundQuotient num 1 = num := by
  simp [roundQuotient, Nat.mod_one]

/-- A quotient is rounded by half a unit at most. -/
theorem roundQuotient_half {den : Nat} (hden : 0 < den) (num : Nat) :
    2 * (roundQuotient num den * den) ≤ 2 * num + den ∧
      2 * num ≤ 2 * (roundQuotient num den * den) + den := by
  have hsum := Nat.div_add_mod num den
  have hremainder := Nat.mod_lt num hden
  rw [Nat.mul_comm] at hsum
  unfold roundQuotient
  dsimp only
  split
  · omega
  · rw [Nat.add_mul]
    omega

theorem roundQuotient_mono {den : Nat} (hden : 0 < den) {m n : Nat} (h : m ≤ n) :
    roundQuotient m den ≤ roundQuotient n den := by
  refine Nat.not_lt.mp fun hlt => ?_
  have hm := roundQuotient_half hden m
  have hn := roundQuotient_half hden n
  have hstep := Nat.mul_le_mul_right den (Nat.succ_le_of_lt hlt)
  rw [Nat.succ_mul] at hstep
  -- Both are rounded by half a unit, one up and one down, which only one number allows.
  have heq : m = n := by omega
  rw [heq] at hlt
  exact Nat.lt_irrefl _ hlt

/-! ### Natural numbers -/

/-- The units of the double nearest to a natural number. -/
def nearestUnits (n : Nat) : Nat :=
  (ofRatio false n 1).units.natAbs

theorem nearestUnits_zero : nearestUnits 0 = 0 := by
  rw [nearestUnits, ofRatio, if_pos rfl, units_zero]
  rfl

/-- The leading 53 binary digits of a number. -/
def leading (n : Nat) : Nat :=
  roundQuotient (n * 2 ^ (52 - n.log2)) (2 ^ (n.log2 - 52))

theorem leading_bounds {n : Nat} (hn : n ≠ 0) :
    0x10000000000000 ≤ leading n ∧ leading n ≤ 0x20000000000000 := by
  have hshift : 52 + (n.log2 - 52) = n.log2 + (52 - n.log2) := by omega
  obtain ⟨hlow, hhigh⟩ := shifted_bounds hn hshift
  rw [Nat.one_mul] at hlow hhigh
  obtain ⟨hleast, hmost, -⟩ := roundQuotient_bounds hlow hhigh
  exact ⟨hleast, hmost⟩

theorem units_pack {significand : Nat} {exponent : Int} (h : Canonical significand exponent) :
    (pack false significand exponent).units.natAbs = significand * 2 ^ (exponent + 1074).toNat := by
  rw [pack, dif_pos h]
  exact natAbs_units h

/-- A number far below the largest double is rounded to its leading digits. -/
theorem nearestUnits_eq {n : Nat} (hn : n ≠ 0) (hlog : n.log2 < 1000) :
    nearestUnits n = leading n * 2 ^ (n.log2 + 1022) := by
  have hexponent : max (ratioLog n 1 - 52) (-1074) = (n.log2 : Int) - 52 := by
    rw [ratioLog_one hn]
    omega
  have hup : (-((n.log2 : Int) - 52)).toNat = 52 - n.log2 := by omega
  have hdown : ((n.log2 : Int) - 52).toNat = n.log2 - 52 := by omega
  have hleading : roundQuotient (n * Nat.pow 2 (52 - n.log2)) (1 * Nat.pow 2 (n.log2 - 52)) = leading n := by
    rw [Nat.one_mul]
    rfl
  obtain ⟨hleast, hmost⟩ := leading_bounds hn
  rw [nearestUnits, ofRatio, if_neg hn, hexponent]
  dsimp only
  rw [hup, hdown, hleading]
  split
  · next hcarry =>
    have hcanonical : Canonical 0x10000000000000 ((n.log2 : Int) - 52 + 1) :=
      ⟨by decide, by omega, by omega, Or.inl (Nat.le_refl _)⟩
    have hplace : ((n.log2 : Int) - 52 + 1 + 1074).toNat = n.log2 + 1022 + 1 := by omega
    rw [units_pack hcanonical, hplace, hcarry, Nat.pow_succ]
    omega
  · next hcarry =>
    have hcanonical : Canonical (leading n) ((n.log2 : Int) - 52) :=
      ⟨by omega, by omega, by omega, Or.inl hleast⟩
    have hplace : ((n.log2 : Int) - 52 + 1074).toNat = n.log2 + 1022 := by omega
    rw [units_pack hcanonical, hplace]

/-- **Rounding keeps the order.** Of two numbers with equally many digits the leading ones are compared; else
the greater number has a greater power of two. -/
theorem nearestUnits_mono {m n : Nat} (h : m ≤ n) (hlog : n.log2 < 1000) :
    nearestUnits m ≤ nearestUnits n := by
  by_cases hm : m = 0
  · rw [hm, nearestUnits_zero]
    exact Nat.zero_le _
  · have hn : n ≠ 0 := by omega
    have hlogs : m.log2 ≤ n.log2 := (Nat.le_log2 hn).mpr (Nat.le_trans (Nat.log2_self_le hm) h)
    rw [nearestUnits_eq hm (Nat.lt_of_le_of_lt hlogs hlog), nearestUnits_eq hn hlog]
    rcases Nat.lt_or_eq_of_le hlogs with hless | hsame
    · have hdouble : 2 ^ (m.log2 + 1022 + 1) = 2 ^ (m.log2 + 1022) * 2 := Nat.pow_succ _ _
      calc leading m * 2 ^ (m.log2 + 1022)
          ≤ 0x20000000000000 * 2 ^ (m.log2 + 1022) := Nat.mul_le_mul_right _ (leading_bounds hm).2
        _ = 0x10000000000000 * 2 ^ (m.log2 + 1022 + 1) := by
            rw [hdouble]
            omega
        _ ≤ 0x10000000000000 * 2 ^ (n.log2 + 1022) :=
            Nat.mul_le_mul_left _ (Nat.pow_le_pow_right (by decide) (by omega))
        _ ≤ leading n * 2 ^ (n.log2 + 1022) := Nat.mul_le_mul_right _ (leading_bounds hn).1
    · rw [leading, leading, hsame]
      exact Nat.mul_le_mul_right _
        (roundQuotient_mono (Nat.two_pow_pos _) (Nat.mul_le_mul_right _ h))

/-- Numbers of at most 53 digits are doubles. -/
theorem nearestUnits_of_lt {n : Nat} (h : n < 0x20000000000000) : nearestUnits n = n * unitsPerOne := by
  by_cases hn : n = 0
  · rw [hn, nearestUnits_zero, Nat.zero_mul]
  · have hlog : n.log2 < 53 := (Nat.log2_lt hn).mpr h
    have hdown : n.log2 - 52 = 0 := by omega
    obtain ⟨digits, hdigits⟩ : ∃ digits, digits = 1074 := ⟨_, rfl⟩
    rw [nearestUnits_eq hn (by omega), leading, hdown, Nat.pow_zero, roundQuotient_one, Nat.mul_assoc,
      ← Nat.pow_add, unitsPerOne_eq hdigits]
    congr 2
    omega

/-- The first number of 54 digits is a double as well. -/
theorem nearestUnits_two_pow : nearestUnits 0x20000000000000 = 0x20000000000000 * unitsPerOne := by
  have hlog : Nat.log2 0x20000000000000 = 53 := by decide
  obtain ⟨digits, hdigits⟩ : ∃ digits, digits = 1074 := ⟨_, rfl⟩
  have hleading : leading 0x20000000000000 = 0x10000000000000 := by decide
  rw [nearestUnits_eq (by decide) (by rw [hlog]; decide), hleading, hlog, unitsPerOne_eq hdigits,
    show 53 + 1022 = digits + 1 by omega, Nat.pow_succ]
  omega

/-- Only numbers from `2 ^ 53` on share their nearest double with another number. -/
theorem le_of_nearestUnits_eq {m n : Nat} (hm : m.log2 < 1000) (hne : m ≠ n)
    (h : nearestUnits m = nearestUnits n) : 0x20000000000000 ≤ n := by
  refine Nat.not_lt.mp fun hn => ?_
  have hpos := unitsPerOne_pos
  rw [nearestUnits_of_lt hn] at h
  rcases Nat.lt_or_ge m 0x20000000000000 with hlt | hge
  · rw [nearestUnits_of_lt hlt] at h
    exact hne (Nat.eq_of_mul_eq_mul_right hpos h)
  · have hmono := nearestUnits_mono hge hm
    rw [nearestUnits_two_pow, h] at hmono
    exact Nat.not_lt.mpr (Nat.le_of_mul_le_mul_right hmono hpos) hn

/-! ### Integers -/

theorem pack_not (negative : Bool) (significand : Nat) (exponent : Int) :
    pack (!negative) significand exponent = (pack negative significand exponent).neg := by
  unfold pack
  split <;> rfl

theorem ofRatio_not (negative : Bool) (num den : Nat) :
    ofRatio (!negative) num den = (ofRatio negative num den).neg := by
  unfold ofRatio
  split
  · rfl
  · dsimp only
    split <;> exact pack_not negative _ _

theorem units_neg (x : Double) : x.neg.units = -x.units := by
  cases x with
  | nan | infinite => rfl
  | finite negative significand exponent h => cases negative <;> simp [neg, units]

theorem units_ofRatio_nonneg (num den : Nat) : 0 ≤ (ofRatio false num den).units := by
  have hpack (significand : Nat) (exponent : Int) : 0 ≤ (pack false significand exponent).units := by
    unfold pack
    split
    · exact Int.mul_nonneg (Int.natCast_nonneg _) (Int.natCast_nonneg _)
    · exact Int.le_refl 0
  unfold ofRatio
  split
  · exact Int.le_of_eq (units_zero false).symm
  · dsimp only
    split <;> exact hpack _ _

theorem units_ofInt (n : Int) :
    (ofInt n).units = if n < 0 then -(nearestUnits n.natAbs : Int) else nearestUnits n.natAbs := by
  have hnonneg : (nearestUnits n.natAbs : Int) = (ofRatio false n.natAbs 1).units :=
    Int.natAbs_of_nonneg (units_ofRatio_nonneg n.natAbs 1)
  rw [hnonneg, ofInt, ofQuotient]
  split
  · next hneg =>
    rw [decide_eq_true hneg, ← units_neg, ← ofRatio_not]
    rfl
  · next hneg => rw [decide_eq_false hneg]

section Integers

variable {m n : Int}

/-- The doubles nearest to integers have the order of the integers. -/
theorem units_ofInt_mono (h : m ≤ n) (hm : m.natAbs.log2 < 1000) (hn : n.natAbs.log2 < 1000) :
    (ofInt m).units ≤ (ofInt n).units := by
  rw [units_ofInt, units_ofInt]
  split
  · next hneg =>
    split
    · next hneg' =>
      have hmono := nearestUnits_mono (show n.natAbs ≤ m.natAbs by omega) hm
      omega
    · omega
  · next hneg =>
    have hmono := nearestUnits_mono (show m.natAbs ≤ n.natAbs by omega) hn
    rw [if_neg (by omega)]
    omega

theorem nearestUnits_pos {k : Nat} (hk : k ≠ 0) (hlog : k.log2 < 1000) : 0 < nearestUnits k := by
  have hle := nearestUnits_mono (Nat.one_le_iff_ne_zero.mpr hk) hlog
  rw [nearestUnits_of_lt (show 1 < 0x20000000000000 by decide), Nat.one_mul] at hle
  exact Nat.lt_of_lt_of_le unitsPerOne_pos hle

/-- Two integers with one nearest double are both beyond the integers of 53 digits. -/
theorem le_natAbs_of_units_ofInt_eq (hne : m ≠ n) (hm : m.natAbs.log2 < 1000)
    (hn : n.natAbs.log2 < 1000) (h : (ofInt m).units = (ofInt n).units) :
    0x20000000000000 ≤ m.natAbs ∧ 0x20000000000000 ≤ n.natAbs := by
  have hpos (k : Int) (hneg : k < 0) (hk : k.natAbs.log2 < 1000) : 0 < nearestUnits k.natAbs :=
    nearestUnits_pos (by omega) hk
  rw [units_ofInt, units_ofInt] at h
  have hsame : nearestUnits m.natAbs = nearestUnits n.natAbs ∧ m.natAbs ≠ n.natAbs := by
    split at h <;> split at h
    · omega
    · next hneg _ =>
      have hunits := hpos m hneg hm
      omega
    · next hneg =>
      have hunits := hpos n hneg hn
      omega
    · omega
  exact ⟨le_of_nearestUnits_eq hn hsame.2.symm hsame.1.symm, le_of_nearestUnits_eq hm hsame.2 hsame.1⟩

end Integers

end PathQuery.Double
