import Mathlib.Data.Int.Log
import Mathlib.Data.Rat.Floor
import Mathlib.Tactic.FieldSimp
import Mathlib.Tactic.Linarith
import Mathlib.Tactic.NormNum
import Mathlib.Tactic.Positivity
import Mathlib.Tactic.Ring
import PathQuery.Double.Shortest

/-!
# The rationals that round to a double

`Double.rounding` describes the interval around a positive finite double in which every rational is to
round to it. `Double.ofRatio_of_holds` shows that this is so: the quotient of two naturals in the interval
has that double nearest to it.

* `Rounding.Holds` is membership in the interval, and `Rounding.admits_iff_holds` the same for a decimal.
* `Double.ratioLog_eq` and `Double.roundQuotient_eq` say what the two steps of `Double.ofRatio` compute.
-/

namespace PathQuery.Double

/-- A number between two bounds, which are allowed values or not. -/
def Between (closed : Bool) (low v high : ℚ) : Prop :=
  if closed then low ≤ v ∧ v ≤ high else low < v ∧ v < high

namespace Between

variable {closed : Bool} {low v high : ℚ}

theorem le (h : Between closed low v high) : low ≤ v ∧ v ≤ high := by
  cases closed with
  | true => exact h
  | false => exact ⟨le_of_lt h.1, le_of_lt h.2⟩

theorem of_lt (hlow : low < v) (hhigh : v < high) : Between closed low v high := by
  cases closed with
  | true => exact ⟨le_of_lt hlow, le_of_lt hhigh⟩
  | false => exact ⟨hlow, hhigh⟩

theorem widen {low' : ℚ} (h : Between closed low v high) (hlow : low' ≤ low) :
    Between closed low' v high := by
  cases closed with
  | true => exact ⟨le_trans hlow h.1, h.2⟩
  | false => exact ⟨lt_of_le_of_lt hlow h.1, h.2⟩

/-- A change of the unit. -/
theorem mul_iff {c : ℚ} (hc : 0 < c) :
    Between closed (low * c) (v * c) (high * c) ↔ Between closed low v high := by
  cases closed with
  | true => exact and_congr (mul_le_mul_iff_of_pos_right hc) (mul_le_mul_iff_of_pos_right hc)
  | false => exact and_congr (mul_lt_mul_iff_of_pos_right hc) (mul_lt_mul_iff_of_pos_right hc)

end Between

/-! ### Powers with integer exponents -/

section Powers

theorem two_zpow_pos (e : Int) : (0 : ℚ) < 2 ^ e :=
  zpow_pos (by norm_num) e

/-- A power with an integer exponent is the quotient of the two powers with natural exponents that stand
for it in the definitions. -/
theorem zpow_eq_div {base : Nat} (hbase : 0 < base) (e : Int) :
    (base : ℚ) ^ e = (Nat.pow base e.toNat : ℚ) / (Nat.pow base (-e).toNat : ℚ) := by
  have hne : (base : ℚ) ≠ 0 := Nat.cast_ne_zero.mpr (Nat.ne_of_gt hbase)
  have hexponent : e = (e.toNat : Int) - ((-e).toNat : Int) := by omega
  calc (base : ℚ) ^ e = (base : ℚ) ^ ((e.toNat : Int) - ((-e).toNat : Int)) := by rw [← hexponent]
    _ = (base : ℚ) ^ (e.toNat : Int) / (base : ℚ) ^ ((-e).toNat : Int) := zpow_sub₀ hne _ _
    _ = (Nat.pow base e.toNat : ℚ) / (Nat.pow base (-e).toNat : ℚ) := by
      rw [zpow_natCast, zpow_natCast, Nat.pow_eq, Nat.pow_eq, Nat.cast_pow, Nat.cast_pow]

/-- Naturals multiplied by powers so that their quotient is divided by one. -/
theorem shifted_div {base : Nat} (hbase : 0 < base) (num den : Nat) (e : Int) :
    ((num * Nat.pow base (-e).toNat : Nat) : ℚ) / ((den * Nat.pow base e.toNat : Nat) : ℚ) =
      (num : ℚ) / den / (base : ℚ) ^ e := by
  rw [zpow_eq_div hbase, Nat.cast_mul, Nat.cast_mul, div_div_div_eq]

end Powers

/-! ### The steps of rounding -/

/-- The quotient of two naturals lies between the powers that their leading bits give. -/
theorem div_bounds {num den : Nat} (hnum : num ≠ 0) (hden : den ≠ 0) :
    (2 : ℚ) ^ ((num.log2 : Int) - den.log2 - 1) ≤ (num : ℚ) / den ∧
      (num : ℚ) / den < 2 ^ ((num.log2 : Int) - den.log2 + 1) := by
  have hnumLow : (2 : ℚ) ^ (num.log2 : Int) ≤ num := by
    rw [zpow_natCast]
    exact_mod_cast Nat.log2_self_le hnum
  have hnumHigh : (num : ℚ) < 2 ^ ((num.log2 : Int) + 1) := by
    rw [← Nat.cast_succ, zpow_natCast]
    exact_mod_cast Nat.lt_log2_self
  have hdenLow : (2 : ℚ) ^ (den.log2 : Int) ≤ den := by
    rw [zpow_natCast]
    exact_mod_cast Nat.log2_self_le hden
  have hdenHigh : (den : ℚ) ≤ 2 ^ ((den.log2 : Int) + 1) := by
    rw [← Nat.cast_succ, zpow_natCast]
    exact_mod_cast le_of_lt Nat.lt_log2_self
  have hpos : (0 : ℚ) < den := Nat.cast_pos.mpr (Nat.pos_of_ne_zero hden)
  constructor
  · calc (2 : ℚ) ^ ((num.log2 : Int) - den.log2 - 1)
        = 2 ^ (num.log2 : Int) / 2 ^ ((den.log2 : Int) + 1) := by
          rw [← zpow_sub₀ (by norm_num), sub_sub]
      _ ≤ (num : ℚ) / den := div_le_div₀ (Nat.cast_nonneg _) hnumLow hpos hdenHigh
  · calc (num : ℚ) / den < 2 ^ ((num.log2 : Int) + 1) / 2 ^ (den.log2 : Int) :=
          div_lt_div₀ hnumHigh hdenLow (le_of_lt (two_zpow_pos _)) (two_zpow_pos _)
      _ = 2 ^ ((num.log2 : Int) - den.log2 + 1) := by
          rw [← zpow_sub₀ (by norm_num)]
          congr 1
          ring

/-- The floor of a logarithm lies between the exponents of the powers around the number. -/
theorem log_eq {v : ℚ} {e : Int} (hlow : (2 : ℚ) ^ e ≤ v) (hhigh : v < 2 ^ (e + 1)) :
    Int.log 2 v = e := by
  have hv : 0 < v := lt_of_lt_of_le (two_zpow_pos e) hlow
  have hle : e ≤ Int.log 2 v := (Int.zpow_le_iff_le_log (by decide) hv).mp hlow
  have hlt : Int.log 2 v < e + 1 := (Int.lt_zpow_iff_log_lt (by decide) hv).mp hhigh
  omega

/-- The exponent of a quotient is read off its leading bits, with one comparison. -/
theorem ratioLog_eq {num den : Nat} (hnum : num ≠ 0) (hden : den ≠ 0) :
    ratioLog num den = Int.log 2 ((num : ℚ) / den) := by
  obtain ⟨hlow, hhigh⟩ := div_bounds hnum hden
  unfold ratioLog
  dsimp only
  generalize (num.log2 : Int) - den.log2 = guess at hlow hhigh
  have hpos : (0 : ℚ) < den := Nat.cast_pos.mpr (Nat.pos_of_ne_zero hden)
  have hpower : (0 : ℚ) < (Nat.pow 2 (-guess).toNat : Nat) := Nat.cast_pos.mpr (Nat.two_pow_pos _)
  have htest : den * Nat.pow 2 guess.toNat ≤ num * Nat.pow 2 (-guess).toNat ↔
      (2 : ℚ) ^ guess ≤ (num : ℚ) / den := by
    have hpow := zpow_eq_div (show 0 < 2 by decide) guess
    rw [Nat.cast_ofNat] at hpow
    rw [hpow, div_le_div_iff₀ hpower hpos, mul_comm (Nat.cast _) (den : ℚ)]
    exact_mod_cast Iff.rfl
  split
  · next h => exact (log_eq (htest.mp h) hhigh).symm
  · next h =>
    have hbelow : (num : ℚ) / den < 2 ^ (guess - 1 + 1) := by
      rw [sub_add_cancel]
      exact not_le.mp fun hle => h (htest.mpr hle)
    exact (log_eq hlow hbelow).symm

/-- The bounds of a half around a whole number, without fractions. -/
theorem between_half_iff {num den q : Nat} {closed : Bool} (hden : den ≠ 0) :
    Between closed (q - 1 / 2) ((num : ℚ) / den) (q + 1 / 2) ↔
      if closed then 2 * (q * den) ≤ 2 * num + den ∧ 2 * num ≤ 2 * (q * den) + den
      else 2 * (q * den) < 2 * num + den ∧ 2 * num < 2 * (q * den) + den := by
  have hpos : (0 : ℚ) < den := Nat.cast_pos.mpr (Nat.pos_of_ne_zero hden)
  have hlow : ((q : ℚ) - 1 / 2) * (2 * den) = 2 * (q * den) - den := by ring
  have hvalue : (num : ℚ) / den * (2 * den) = 2 * num := by field_simp
  have hhigh : ((q : ℚ) + 1 / 2) * (2 * den) = 2 * (q * den) + den := by ring
  rw [← Between.mul_iff (show (0 : ℚ) < 2 * den by linarith), hlow, hvalue, hhigh]
  cases closed with
  | true =>
    simp only [Between, if_true]
    rw [sub_le_iff_le_add]
    exact_mod_cast Iff.rfl
  | false =>
    simp only [Between, Bool.false_eq_true, if_false]
    rw [sub_lt_iff_lt_add]
    exact_mod_cast Iff.rfl

/-- A quotient is rounded to the whole number that is at most a half away, and to an even one if it is a
half away. -/
theorem roundQuotient_eq {num den q : Nat} (hden : den ≠ 0)
    (h : Between (q % 2 = 0) (q - 1 / 2) ((num : ℚ) / den) (q + 1 / 2)) :
    roundQuotient num den = q := by
  rw [between_half_iff hden] at h
  have hle : 2 * (q * den) ≤ 2 * num + den ∧ 2 * num ≤ 2 * (q * den) + den := by
    split at h <;> omega
  have htie (hhalf : 2 * (q * den) = 2 * num + den ∨ 2 * num = 2 * (q * den) + den) : q % 2 = 0 := by
    by_contra hodd
    simp only [hodd, decide_false, Bool.false_eq_true, if_false] at h
    omega
  have hsum := Nat.div_add_mod num den
  have hremainder : num % den < den := Nat.mod_lt num (Nat.pos_of_ne_zero hden)
  have habove : num / den < q + 1 := by
    rw [Nat.div_lt_iff_lt_mul (Nat.pos_of_ne_zero hden), Nat.add_mul]
    omega
  have hbelow : q < num / den + 2 := by
    refine Nat.lt_of_mul_lt_mul_right (a := den) ?_
    rw [Nat.add_mul, Nat.mul_comm (num / den)]
    omega
  unfold roundQuotient
  dsimp only
  by_cases hq : num / den = q
  · rw [hq, Nat.mul_comm] at hsum
    rw [hq, if_pos (by omega)]
  · have hnext : q = num / den + 1 := by omega
    rw [hnext, Nat.add_mul, Nat.mul_comm (num / den)] at hle htie
    rw [hnext, if_neg (by omega)]

/-! ### The interval of a double -/

/-- The distance from a significand to the lower end of its interval, in quarters: below a power of two
the neighbour is half as far away. -/
def quartersBelow (significand : Nat) (exponent : Int) : Nat :=
  if significand = 0x10000000000000 ∧ exponent ≠ -1074 then 1 else 2

theorem quartersBelow_le (significand : Nat) (exponent : Int) : quartersBelow significand exponent ≤ 2 := by
  unfold quartersBelow
  split <;> decide

theorem one_le_quartersBelow (significand : Nat) (exponent : Int) :
    1 ≤ quartersBelow significand exponent := by
  unfold quartersBelow
  split <;> decide

namespace Rounding

/-- Whether a rational number rounds to the double. -/
def Holds (r : Rounding) (v : ℚ) : Prop :=
  Between r.closed ((r.low : ℚ) / r.den) v ((r.high : ℚ) / r.den)

/-- The decimals that are admitted are those in the interval. -/
theorem admits_iff_holds {r : Rounding} (hden : r.den ≠ 0) (n : Nat) (step : Int) :
    r.admits n step = true ↔ r.Holds (n * 10 ^ step) := by
  have hscale : (0 : ℚ) < r.den * (Nat.pow 10 (-step).toNat : Nat) :=
    mul_pos (Nat.cast_pos.mpr (Nat.pos_of_ne_zero hden)) (Nat.cast_pos.mpr (Nat.pow_pos (by decide)))
  have hpow := zpow_eq_div (show 0 < 10 by decide) step
  rw [Nat.cast_ofNat] at hpow
  have hne : (r.den : ℚ) ≠ 0 := Nat.cast_ne_zero.mpr hden
  have hne' : ((Nat.pow 10 (-step).toNat : Nat) : ℚ) ≠ 0 :=
    Nat.cast_ne_zero.mpr (Nat.ne_of_gt (Nat.pow_pos (by decide)))
  rw [Holds, ← Between.mul_iff hscale, hpow]
  have hend (bound : Nat) : (bound : ℚ) / r.den * (r.den * (Nat.pow 10 (-step).toNat : Nat)) =
      ((bound * Nat.pow 10 (-step).toNat : Nat) : ℚ) := by
    rw [Nat.cast_mul]
    field_simp
  have hpoint : (n : ℚ) * ((Nat.pow 10 step.toNat : Nat) / (Nat.pow 10 (-step).toNat : Nat)) *
      (r.den * (Nat.pow 10 (-step).toNat : Nat)) = ((n * Nat.pow 10 step.toNat * r.den : Nat) : ℚ) := by
    rw [Nat.cast_mul, Nat.cast_mul]
    field_simp
  rw [hend, hend, hpoint]
  unfold admits Between
  dsimp only
  cases r.closed with
  | true => simp only [if_true, Bool.and_eq_true, decide_eq_true_eq, Nat.cast_le]
  | false =>
    simp only [Bool.false_eq_true, if_false, Bool.and_eq_true, decide_eq_true_eq, Nat.cast_lt]

end Rounding

variable {significand : Nat} {exponent : Int}

theorem den_rounding_ne_zero : (rounding significand exponent).den ≠ 0 :=
  Nat.ne_of_gt (Nat.two_pow_pos _)

/-- A bound in quarters of the unit, in the place of a quotient of naturals. -/
theorem quarters_div (n : Nat) :
    ((n * Nat.pow 2 (exponent - 2).toNat : Nat) : ℚ) / (Nat.pow 2 (-(exponent - 2)).toNat : Nat) =
      (n : ℚ) / 4 * 2 ^ exponent := by
  have hpow := zpow_eq_div (show 0 < 2 by decide) (exponent - 2)
  rw [Nat.cast_ofNat, zpow_sub₀ (by norm_num)] at hpow
  rw [Nat.cast_mul, mul_div_assoc, ← hpow]
  ring

/-- A number rounds to a double if, in units of its last place, it is not further from the significand
than the ends of the interval. -/
theorem holds_rounding_iff (hsignificand : significand ≠ 0) (v : ℚ) :
    (rounding significand exponent).Holds v ↔
      Between (significand % 2 = 0) (significand - quartersBelow significand exponent / 4)
        (v / 2 ^ exponent) (significand + 1 / 2) := by
  have hunit : (2 : ℚ) ^ exponent ≠ 0 := ne_of_gt (two_zpow_pos exponent)
  have hbelow : quartersBelow significand exponent ≤ 4 * significand :=
    Nat.le_trans (quartersBelow_le significand exponent) (by omega)
  have hlow : ((rounding significand exponent).low : ℚ) / (rounding significand exponent).den =
      (significand - quartersBelow significand exponent / 4) * 2 ^ exponent := by
    refine Eq.trans (quarters_div (4 * significand - quartersBelow significand exponent)) ?_
    rw [Nat.cast_sub hbelow, Nat.cast_mul, Nat.cast_ofNat]
    ring
  have hhigh : ((rounding significand exponent).high : ℚ) / (rounding significand exponent).den =
      (significand + 1 / 2) * 2 ^ exponent := by
    refine Eq.trans (quarters_div (4 * significand + 2)) ?_
    rw [Nat.cast_add, Nat.cast_mul, Nat.cast_ofNat, Nat.cast_ofNat]
    ring
  have hvalue : v = v / 2 ^ exponent * 2 ^ exponent := (div_mul_cancel₀ v hunit).symm
  rw [Rounding.Holds, hlow, hhigh, hvalue, Between.mul_iff (two_zpow_pos exponent),
    div_mul_cancel₀ _ hunit]
  exact Iff.rfl

/-! ### Rounding inside the interval -/

/-- The double that is packed at an exponent that is known, with a significand that is known. -/
theorem ofRatio_eq {num den q : Nat} {e : Int} {negative : Bool} (hnum : num ≠ 0) (hden : den ≠ 0)
    (hexponent : max (Int.log 2 ((num : ℚ) / den) - 52) (-1074) = e)
    (hround : Between (q % 2 = 0) (q - 1 / 2) ((num : ℚ) / den / 2 ^ e) (q + 1 / 2)) :
    ofRatio negative num den =
      if q = 0x20000000000000 then pack negative 0x10000000000000 (e + 1) else pack negative q e := by
  have hshifted : den * Nat.pow 2 e.toNat ≠ 0 :=
    Nat.mul_ne_zero hden (Nat.ne_of_gt (Nat.two_pow_pos _))
  have hshift := shifted_div (show 0 < 2 by decide) num den e
  rw [Nat.cast_ofNat] at hshift
  rw [← hshift] at hround
  rw [ofRatio, if_neg hnum, ratioLog_eq hnum hden, hexponent]
  dsimp only
  rw [roundQuotient_eq hshifted hround]

theorem pack_eq (h : Canonical significand exponent) (negative : Bool) :
    pack negative significand exponent = .finite negative significand exponent h :=
  dif_pos h

theorem log_lt {v : ℚ} {e digits : Int} (hv : 0 < v) (h : v / 2 ^ e < 2 ^ digits) :
    Int.log 2 v < e + digits := by
  refine (Int.lt_zpow_iff_log_lt (by decide) hv).mp ?_
  rw [Nat.cast_ofNat, add_comm, zpow_add₀ (by norm_num)]
  exact (div_lt_iff₀ (two_zpow_pos e)).mp h

theorem le_log {v : ℚ} {e digits : Int} (hv : 0 < v) (h : 2 ^ digits ≤ v / 2 ^ e) :
    e + digits ≤ Int.log 2 v := by
  refine (Int.zpow_le_iff_le_log (by decide) hv).mp ?_
  rw [Nat.cast_ofNat, add_comm, zpow_add₀ (by norm_num)]
  exact (le_div_iff₀ (two_zpow_pos e)).mp h

/-- **A quotient in the interval of a positive double rounds to it.** -/
theorem ofRatio_of_holds (h : Canonical significand exponent) (hsignificand : significand ≠ 0)
    {num den : Nat} (hden : den ≠ 0)
    (hholds : (rounding significand exponent).Holds ((num : ℚ) / den)) (negative : Bool) :
    ofRatio negative num den = .finite negative significand exponent h := by
  rw [holds_rounding_iff hsignificand] at hholds
  obtain ⟨htop, hleast, -, hnormal⟩ := h
  have hone : (1 : ℚ) ≤ significand := by exact_mod_cast Nat.one_le_iff_ne_zero.mpr hsignificand
  have hmost : (significand : ℚ) ≤ 0x1fffffffffffff := by exact_mod_cast Nat.le_of_lt_succ htop
  have hbelow : (quartersBelow significand exponent : ℚ) ≤ 2 := by
    exact_mod_cast quartersBelow_le significand exponent
  obtain ⟨hlow, hhigh⟩ := hholds.le
  have hunits : 0 < (num : ℚ) / den / 2 ^ exponent := by linarith
  have hv : 0 < (num : ℚ) / den := (div_pos_iff_of_pos_right (two_zpow_pos exponent)).mp hunits
  have hnum : num ≠ 0 := by
    rintro rfl
    rw [Nat.cast_zero, zero_div] at hv
    exact lt_irrefl 0 hv
  have hlog : Int.log 2 ((num : ℚ) / den) < exponent + 53 :=
    log_lt hv (lt_of_le_of_lt hhigh (by norm_num; linarith))
  by_cases hdigits : (0x10000000000000 : ℚ) ≤ (num : ℚ) / den / 2 ^ exponent ∨ exponent = -1074
  · -- The quotient has the exponent of the double, and at most half a unit separates them.
    have hexponent : max (Int.log 2 ((num : ℚ) / den) - 52) (-1074) = exponent := by
      rcases hdigits with hdigits | hdigits
      · have hlog' : exponent + 52 ≤ Int.log 2 ((num : ℚ) / den) :=
          le_log hv (le_trans (by norm_num) hdigits)
        omega
      · omega
    have hhalf : (significand : ℚ) - 1 / 2 ≤ significand - quartersBelow significand exponent / 4 := by
      linarith
    rw [ofRatio_eq hnum hden hexponent (hholds.widen hhalf), if_neg (Nat.ne_of_lt htop)]
    exact pack_eq _ negative
  · -- The quotient is just below a power of two, and is rounded up to it.
    obtain ⟨hdigits, hexponent⟩ := not_or.mp hdigits
    have hpower : significand = 0x10000000000000 := by
      have hlt : (significand : ℚ) < 0x10000000000001 := by linarith
      have hlt' : significand < 0x10000000000001 := by exact_mod_cast hlt
      have hge := hnormal.resolve_right hexponent
      omega
    have hquarter : quartersBelow significand exponent = 1 := if_pos ⟨hpower, hexponent⟩
    rw [hquarter, hpower] at hlow
    have hdouble : (num : ℚ) / den / 2 ^ (exponent - 1) = 2 * ((num : ℚ) / den / 2 ^ exponent) := by
      rw [zpow_sub₀ (by norm_num)]
      field_simp
    have hexponent' : max (Int.log 2 ((num : ℚ) / den) - 52) (-1074) = exponent - 1 := by
      have hlt : Int.log 2 ((num : ℚ) / den) < exponent + 52 :=
        log_lt hv (by norm_num; linarith)
      have hle : exponent + 51 ≤ Int.log 2 ((num : ℚ) / den) :=
        le_log hv (by norm_num at hlow ⊢; linarith)
      omega
    have hround : Between (0x20000000000000 % 2 = 0) ((0x20000000000000 : Nat) - 1 / 2)
        ((num : ℚ) / den / 2 ^ (exponent - 1)) ((0x20000000000000 : Nat) + 1 / 2) := by
      rw [hdouble]
      norm_num at hlow ⊢
      exact ⟨by linarith, by linarith⟩
    subst hpower
    rw [ofRatio_eq hnum hden hexponent' hround, if_pos rfl, sub_add_cancel]
    exact pack_eq _ negative

end PathQuery.Double
