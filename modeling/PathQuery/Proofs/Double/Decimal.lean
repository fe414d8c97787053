import Mathlib.Algebra.Order.Floor.Semifield
import Mathlib.Data.Nat.Cast.Order.Field
import PathQuery.Double.Reading
import PathQuery.Item.Number
import PathQuery.Proofs.Double.Nearest
import PathQuery.Proofs.Double.Rounding

/-!
# Doubles read back from their texts

The text of a finite double without a sign is digits, a point and digits again, and the double is the one
nearest to the number that they denote: `Number.exists_decimal`. The text is a decimal in the interval of the
double, and every such decimal rounds to it.

* `Double.ofDecimal` reads the digits before and after a point.
* `Rounding.shortest_holds` — the digits that are written denote a number in the interval. Seventeen of them
  always suffice: `Double.exists_admitted`.
* `Number.text_of_isNegative` — a negative double has the text of its absolute value behind a minus.
-/

namespace PathQuery

/-! ### Digits -/

theorem digitsValue_toDigits (n : Nat) : digitsValue (Nat.toDigits 10 n) = n :=
  Nat.ofDigitChars_ten_toDigits

theorem digitsValue_replicate_zero_append (count : Nat) (cs : List Char) :
    digitsValue (List.replicate count '0' ++ cs) = digitsValue cs := by
  show Nat.ofDigitChars 10 (List.replicate count '0' ++ cs) 0 = Nat.ofDigitChars 10 cs 0
  rw [Nat.ofDigitChars_append, Nat.ofDigitChars_replicate_zero, Nat.mul_zero]

theorem digitsValue_append_zero (cs : List Char) : digitsValue (cs ++ ['0']) = 10 * digitsValue cs := by
  show Nat.ofDigitChars 10 (cs ++ ['0']) 0 = 10 * Nat.ofDigitChars 10 cs 0
  rw [Nat.ofDigitChars_append]
  rfl

theorem isDigit_of_mem_toDigits {n : Nat} {c : Char} (h : c ∈ Nat.toDigits 10 n) : c.isDigit = true :=
  Nat.isDigit_of_mem_toDigits (by decide) (by decide) h

/-- At least one character, and all of them digits. -/
def AreDigits (cs : List Char) : Prop :=
  cs ≠ [] ∧ ∀ c ∈ cs, c.isDigit = true

theorem areDigits_toDigits (n : Nat) : AreDigits (Nat.toDigits 10 n) :=
  ⟨Nat.toDigits_ne_nil, fun _ => isDigit_of_mem_toDigits⟩

namespace Digits

/-- The number that a decimal denotes. -/
def value (d : Digits) : ℚ :=
  d.digits * 10 ^ d.exponent

theorem value_go (fuel : Nat) (d : Digits) : (strip.go fuel d).value = d.value := by
  induction fuel generalizing d with
  | zero => rfl
  | succ fuel ih =>
    rw [strip.go]
    split
    · next h =>
      have hdigits : (d.digits : ℚ) = 10 * (d.digits / 10 : Nat) := by
        exact_mod_cast (show d.digits = 10 * (d.digits / 10) by omega)
      rw [ih, value, value, hdigits, zpow_add₀ (by norm_num)]
      ring
    · rfl

theorem value_strip (d : Digits) : d.strip.value = d.value :=
  value_go _ d

end Digits

namespace Double

/-- The double nearest to the number that digits before and after a point denote. -/
def ofDecimal (whole fraction : List Char) : Double :=
  ofRatio false (digitsValue (whole ++ fraction)) (Nat.pow 10 fraction.length)

/-! ### The digits that are chosen -/

namespace Rounding

variable {r : Rounding} {tie : TieRule} {step : Int}

/-- A grid has a point in the interval if one of the two next to the double is there, and then it is one of
these. -/
theorem onGrid_eq_some {d : Digits} (h : r.onGrid tie step = some d) :
    d.exponent = step ∧ r.admits d.digits step = true := by
  unfold onGrid at h
  dsimp only at h
  split at h
  · next hbelow habove =>
    cases h
    refine ⟨rfl, ?_⟩
    dsimp only
    split
    · exact hbelow
    · exact habove
  · next hbelow _ =>
    cases h
    exact ⟨rfl, hbelow⟩
  · next _ habove =>
    cases h
    exact ⟨rfl, habove⟩
  · cases h

theorem onGrid_isSome
    (h : let below := r.value * Nat.pow 10 (-step).toNat / (r.den * Nat.pow 10 step.toNat)
      r.admits below step = true ∨ r.admits (below + 1) step = true) :
    (r.onGrid tie step).isSome = true := by
  unfold onGrid
  dsimp only at h ⊢
  split
  · rfl
  · rfl
  · rfl
  · next hbelow habove =>
    rw [hbelow, habove] at h
    exact absurd h (by decide)

/-- If seventeen digits suffice, the digits that are chosen denote a number in the interval. -/
theorem shortest_holds (hden : r.den ≠ 0) (tie : TieRule)
    (hhit : (r.onGrid tie (r.point - 17)).isSome = true) : r.Holds (r.shortest tie).value := by
  obtain ⟨last, hlast⟩ := Option.isSome_iff_exists.mp hhit
  have hsome : ((List.range' 1 17).findSome? fun count => r.onGrid tie (r.point - (count : Nat))).isSome =
      true := by
    rw [List.findSome?_isSome_iff]
    exact ⟨17, by decide, by exact hhit⟩
  obtain ⟨d, hd⟩ := Option.isSome_iff_exists.mp hsome
  obtain ⟨count, -, hgrid⟩ := List.exists_of_findSome?_eq_some hd
  obtain ⟨hexponent, hadmits⟩ := onGrid_eq_some hgrid
  unfold shortest
  dsimp only
  rw [hd, Option.getD_some, Digits.value_strip, Digits.value, hexponent]
  exact (admits_iff_holds hden _ _).mp hadmits

end Rounding

/-! ### Seventeen digits -/

section Seventeen

variable {significand : Nat} {exponent : Int}

theorem value_div_den :
    ((rounding significand exponent).value : ℚ) / (rounding significand exponent).den =
      significand * 2 ^ exponent := by
  refine Eq.trans (quarters_div (4 * significand)) ?_
  rw [Nat.cast_mul, Nat.cast_ofNat]
  ring

/-- Every positive double has a digit within 400 places of the point. -/
theorem den_rounding_le {places : Nat} (hplaces : 359 ≤ places) (h : -1074 ≤ exponent) :
    (rounding significand exponent).den ≤ Nat.pow 10 places :=
  calc (rounding significand exponent).den ≤ Nat.pow 2 (3 * places) :=
        Nat.pow_le_pow_right (by decide) (by omega)
    _ = (2 ^ 3) ^ places := Nat.pow_mul 2 3 places
    _ ≤ Nat.pow 10 places := Nat.pow_le_pow_left (by decide) places

theorem pow_count_le {n : Nat} (h : n ≠ 0) : 10 ^ (Digits.count n - 1) ≤ n := by
  by_cases hone : Digits.count n - 1 = 0
  · rw [hone]
    exact Nat.one_le_iff_ne_zero.mpr h
  · refine Nat.not_lt.mp fun hlt => ?_
    have hcount : Digits.count n ≤ Digits.count n - 1 :=
      (Nat.length_toDigits_le_iff (by decide) (Nat.pos_of_ne_zero hone)).mpr hlt
    omega

/-- The first digit of a double has its place. -/
theorem pow_point_le (hsignificand : significand ≠ 0) (hleast : -1074 ≤ exponent) :
    (10 : ℚ) ^ ((rounding significand exponent).point - 1) ≤ significand * 2 ^ exponent := by
  obtain ⟨r, hr⟩ : ∃ r, r = rounding significand exponent := ⟨_, rfl⟩
  have hvalue : r.value ≠ 0 := by
    rw [hr]
    exact Nat.mul_ne_zero (by omega) (Nat.ne_of_gt (Nat.two_pow_pos _))
  obtain ⟨places, hplaces⟩ : ∃ places, places = 400 := ⟨_, rfl⟩
  have hden : r.den ≤ Nat.pow 10 places := hr ▸ den_rounding_le (by omega) hleast
  have hpos : 0 < r.den := Nat.pos_of_ne_zero (hr ▸ den_rounding_ne_zero)
  rw [← value_div_den, ← hr, Rounding.point, ← hplaces]
  generalize hwhole : r.value * Nat.pow 10 places / r.den = whole
  have hne : whole ≠ 0 := by
    rw [← hwhole]
    refine Nat.ne_of_gt (Nat.div_pos (Nat.le_trans hden ?_) hpos)
    exact Nat.le_mul_of_pos_left _ (Nat.pos_of_ne_zero hvalue)
  have hcount : 0 < Digits.count whole := Nat.length_toDigits_pos
  have hten : (0 : ℚ) < 10 ^ places := by positivity
  have hfloor : (whole : ℚ) ≤ (r.value : ℚ) / r.den * 10 ^ places := by
    have hle : (whole : ℚ) ≤ ((r.value * Nat.pow 10 places : Nat) : ℚ) / r.den :=
      hwhole ▸ Nat.cast_div_le
    rw [Nat.cast_mul, Nat.pow_eq, Nat.cast_pow, Nat.cast_ofNat, mul_div_right_comm] at hle
    exact hle
  calc (10 : ℚ) ^ ((Digits.count whole : Int) - 400 - 1)
      = 10 ^ ((Digits.count whole - 1 : Nat) : Int) / 10 ^ (places : Int) := by
        rw [← zpow_sub₀ (by norm_num)]
        congr 1
        omega
    _ ≤ (whole : ℚ) / 10 ^ places := by
        rw [zpow_natCast, zpow_natCast]
        refine div_le_div_of_nonneg_right ?_ (le_of_lt hten)
        exact_mod_cast pow_count_le hne
    _ ≤ (r.value : ℚ) / r.den := (div_le_iff₀ hten).mpr hfloor

/-- The grid below a double, in units of its last place, is the double without a remainder of less than one
step. -/
theorem grid_bounds (step : Int) :
    let r := rounding significand exponent
    let below := r.value * Nat.pow 10 (-step).toNat / (r.den * Nat.pow 10 step.toNat)
    (below : ℚ) * (10 ^ step / 2 ^ exponent) ≤ significand ∧
      (significand : ℚ) < (below + 1) * (10 ^ step / 2 ^ exponent) := by
  intro r below
  have hten : (0 : ℚ) < 10 ^ step := zpow_pos (by norm_num) _
  have hunit := two_zpow_pos exponent
  have hfloor : below = ⌊(significand * 2 ^ exponent : ℚ) / 10 ^ step⌋₊ := by
    have hshift := shifted_div (show 0 < 10 by decide) r.value r.den step
    rw [Nat.cast_ofNat] at hshift
    rw [← value_div_den, ← hshift, Nat.floor_div_eq_div]
  have hquotient : (0 : ℚ) ≤ significand * 2 ^ exponent / 10 ^ step := by positivity
  rw [hfloor]
  constructor
  · have hle := Nat.floor_le hquotient
    rw [le_div_iff₀ hten] at hle
    rw [← mul_div_assoc, div_le_iff₀ hunit]
    exact hle
  · have hlt := Nat.lt_floor_add_one ((significand * 2 ^ exponent : ℚ) / 10 ^ step)
    rw [div_lt_iff₀ hten] at hlt
    rw [← mul_div_assoc, lt_div_iff₀ hunit]
    exact hlt

/-- **Seventeen digits tell a double from all others.** The distance of the decimals with seventeen digits is
less than the unit of the last place; so the next one above is within half a unit, or the next one below. -/
theorem exists_admitted (h : Canonical significand exponent) (hsignificand : significand ≠ 0)
    (tie : TieRule) :
    let r := rounding significand exponent
    (r.onGrid tie (r.point - 17)).isSome = true := by
  intro r
  obtain ⟨htop, hleast, -, -⟩ := h
  refine Rounding.onGrid_isSome ?_
  dsimp only
  generalize hstep : r.point - 17 = step
  generalize hbelow : r.value * Nat.pow 10 (-step).toNat / (r.den * Nat.pow 10 step.toNat) = below
  obtain ⟨hle, hlt⟩ := @grid_bounds significand exponent step
  rw [show (rounding significand exponent).value * Nat.pow 10 (-step).toNat /
    ((rounding significand exponent).den * Nat.pow 10 step.toNat) = below from hbelow] at hle hlt
  have hunit := two_zpow_pos exponent
  have hgrid : (10 : ℚ) ^ step / 2 ^ exponent * 10 ^ 16 ≤ significand := by
    have hpoint := pow_point_le hsignificand hleast
    rw [show (rounding significand exponent).point - 1 = step + 16 by rw [← hstep]; ring,
      zpow_add₀ (by norm_num)] at hpoint
    rw [div_mul_eq_mul_div, div_le_iff₀ hunit]
    exact_mod_cast hpoint
  have hmost : (significand : ℚ) ≤ 0x1fffffffffffff := by exact_mod_cast Nat.le_of_lt_succ htop
  have hadmits (n : Nat) : r.admits n step = true ↔ Between (significand % 2 = 0)
      (significand - quartersBelow significand exponent / 4) (n * (10 ^ step / 2 ^ exponent))
      (significand + 1 / 2) := by
    rw [Rounding.admits_iff_holds den_rounding_ne_zero, holds_rounding_iff hsignificand, mul_div_assoc]
  rw [hadmits, hadmits, Nat.cast_succ]
  generalize (10 : ℚ) ^ step / 2 ^ exponent = grid at hle hlt hgrid
  norm_num at hgrid
  have hquarters : (0 : ℚ) ≤ quartersBelow significand exponent := Nat.cast_nonneg _
  by_cases habove : (below + 1) * grid < (significand : ℚ) + 1 / 2
  · exact Or.inr (Between.of_lt (by linarith) habove)
  · rw [add_mul, one_mul, not_lt] at habove
    -- The significand is too large here for a power of two.
    have hpower : significand ≠ 0x10000000000000 := by
      rintro rfl
      norm_num at hgrid hle habove
      linarith
    have hquarter : quartersBelow significand exponent = 2 := if_neg fun h => hpower h.1
    rw [hquarter, Nat.cast_ofNat]
    exact Or.inl (Between.of_lt (by linarith) (by linarith))

end Seventeen

/-! ### Whole numbers -/

section Whole

variable {negative : Bool} {significand : Nat} {exponent : Int} (h : Canonical significand exponent)

/-- The exponent is a variable here, so that the power is not computed. -/
theorem unitsPerOne_eq {digits : Nat} (hdigits : digits = 1074) : unitsPerOne = 2 ^ digits := by
  subst hdigits
  decide +kernel

theorem unitsPerOne_pos : 0 < unitsPerOne := by
  obtain ⟨digits, hdigits⟩ : ∃ digits, digits = 1074 := ⟨_, rfl⟩
  rw [unitsPerOne_eq hdigits]
  exact Nat.two_pow_pos digits

/-- The absolute value of a finite double in units of the smallest one. -/
theorem cast_natAbs_units :
    ((finite negative significand exponent h).units.natAbs : ℚ) =
      significand * 2 ^ exponent * unitsPerOne := by
  obtain ⟨digits, hdigits⟩ : ∃ digits, digits = 1074 := ⟨_, rfl⟩
  have hleast := h.2.1
  have hexponent : ((exponent + 1074).toNat : Int) = exponent + digits := by omega
  rw [natAbs_units h, unitsPerOne_eq hdigits, Nat.cast_mul, mul_assoc, Nat.pow_eq, Nat.cast_pow,
    Nat.cast_pow, Nat.cast_ofNat, ← zpow_natCast, ← zpow_natCast, ← zpow_add₀ (by norm_num), hexponent]

/-- A finite double is whole exactly if its absolute value is a natural number. -/
theorem isWhole_iff : (finite negative significand exponent h).isWhole = true ↔
    ∃ n : Nat, (significand : ℚ) * 2 ^ exponent = n := by
  have hunits := @cast_natAbs_units negative significand exponent h
  have hpos : (unitsPerOne : ℚ) ≠ 0 := Nat.cast_ne_zero.mpr (Nat.ne_of_gt unitsPerOne_pos)
  generalize hsize : (finite negative significand exponent h).units.natAbs = size at hunits
  have hwhole : (finite negative significand exponent h).isWhole = true ↔ size % unitsPerOne = 0 := by
    rw [isWhole, hsize, isFinite, Bool.true_and, decide_eq_true_eq]
  rw [hwhole]
  constructor
  · intro hmod
    obtain ⟨n, hn⟩ := Nat.dvd_of_mod_eq_zero hmod
    refine ⟨n, mul_right_cancel₀ hpos ?_⟩
    rw [← hunits, hn, Nat.cast_mul, mul_comm]
  · rintro ⟨n, hn⟩
    rw [hn, ← Nat.cast_mul] at hunits
    rw [Nat.cast_injective hunits, Nat.mul_mod_left]

/-- The natural number that a whole double is, up to its sign. -/
theorem div_unitsPerOne (hwhole : (finite negative significand exponent h).isWhole = true) :
    (significand : ℚ) * 2 ^ exponent =
      ((finite negative significand exponent h).units.natAbs / unitsPerOne : Nat) := by
  obtain ⟨n, hn⟩ := (isWhole_iff h).mp hwhole
  have hunits := @cast_natAbs_units negative significand exponent h
  rw [hn, ← Nat.cast_mul] at hunits
  rw [Nat.cast_injective hunits, Nat.mul_div_cancel _ unitsPerOne_pos, hn]

/-- A double whose interval has a whole number in it is whole. -/
theorem isWhole_of_holds (hsignificand : significand ≠ 0) {n : Nat}
    (hholds : (rounding significand exponent).Holds n) :
    (finite negative significand exponent h).isWhole = true := by
  rw [isWhole_iff]
  by_cases hexponent : 0 ≤ exponent
  · refine ⟨significand * 2 ^ exponent.toNat, ?_⟩
    rw [Nat.cast_mul, Nat.cast_pow, Nat.cast_ofNat, ← zpow_natCast, Int.toNat_of_nonneg hexponent]
  · refine ⟨n, ?_⟩
    obtain ⟨hlow, hhigh⟩ := ((holds_rounding_iff hsignificand _).mp hholds).le
    have hquarters : (quartersBelow significand exponent : ℚ) ≤ 2 := by
      exact_mod_cast quartersBelow_le significand exponent
    have hunit : (n : ℚ) / 2 ^ exponent = (n * 2 ^ (-exponent).toNat : Nat) := by
      rw [Nat.cast_mul, Nat.cast_pow, Nat.cast_ofNat, ← zpow_natCast,
        Int.toNat_of_nonneg (by omega), zpow_neg, div_eq_mul_inv]
    rw [hunit] at hlow hhigh
    generalize hm : n * 2 ^ (-exponent).toNat = m at hunit hlow hhigh
    have hbelow : (significand : ℚ) < m + 1 := by linarith
    have habove : (m : ℚ) < significand + 1 := by linarith
    have hle : significand ≤ m := Nat.le_of_lt_succ (by exact_mod_cast hbelow)
    have hge : m ≤ significand := Nat.le_of_lt_succ (by exact_mod_cast habove)
    have hexact : significand = m := Nat.le_antisymm hle hge
    rw [hexact, ← hunit, div_mul_cancel₀ _ (ne_of_gt (two_zpow_pos exponent))]

end Whole

/-! ### Reading the digits -/

/-- A positive double is in its own interval. -/
theorem holds_self {significand : Nat} {exponent : Int} (hsignificand : significand ≠ 0) :
    (rounding significand exponent).Holds (significand * 2 ^ exponent) := by
  have hquarters : (1 : ℚ) ≤ quartersBelow significand exponent := by
    exact_mod_cast one_le_quartersBelow significand exponent
  rw [holds_rounding_iff hsignificand, mul_div_cancel_right₀ _ (ne_of_gt (two_zpow_pos exponent))]
  exact Between.of_lt (by linarith) (by linarith)

/-- Digits in the interval of a positive double read as this double. -/
theorem ofDecimal_of_holds {significand : Nat} {exponent : Int} (h : Canonical significand exponent)
    (hsignificand : significand ≠ 0) {whole fraction : List Char}
    (hholds : (rounding significand exponent).Holds
      ((digitsValue (whole ++ fraction) : ℚ) / 10 ^ fraction.length)) :
    ofDecimal whole fraction = .finite false significand exponent h := by
  refine ofRatio_of_holds h hsignificand (Nat.ne_of_gt (Nat.pow_pos (by decide))) ?_ false
  rw [Nat.cast_pow, Nat.cast_ofNat]
  exact hholds

theorem ofDecimal_whole {significand : Nat} {exponent : Int} (h : Canonical significand exponent)
    (hwhole : (finite false significand exponent h).isWhole = true) :
    ofDecimal (Nat.toDigits 10 ((finite false significand exponent h).units.natAbs / unitsPerOne)) ['0'] =
      .finite false significand exponent h := by
  have hdigits := div_unitsPerOne h hwhole
  generalize (finite false significand exponent h).units.natAbs / unitsPerOne = n at hdigits
  have hvalue : digitsValue (Nat.toDigits 10 n ++ ['0']) = 10 * n := by
    rw [digitsValue_append_zero, digitsValue_toDigits]
  by_cases hsignificand : significand = 0
  · have hexponent : exponent = -1074 := h.2.2.2.resolve_left (by omega)
    rw [hsignificand, Nat.cast_zero, zero_mul] at hdigits
    have hn : n = 0 := (Nat.cast_eq_zero.mp hdigits.symm)
    subst hsignificand hexponent
    rw [ofDecimal, hvalue, hn]
    rfl
  · refine ofDecimal_of_holds h hsignificand ?_
    rw [hvalue, Nat.cast_mul, ← hdigits, List.length_singleton, pow_one, Nat.cast_ofNat,
      mul_div_cancel_left₀ _ (by norm_num)]
    exact holds_self hsignificand

/-- The digits of a double that is not a whole number denote a number in its interval, and some of them stand
behind the point: a whole number in the interval would be the double. -/
theorem shortest_of_not_isWhole {negative : Bool} {significand : Nat} {exponent : Int}
    (h : Canonical significand exponent)
    (hwhole : ¬ (finite negative significand exponent h).isWhole = true) (tie : TieRule) :
    significand ≠ 0 ∧ ((finite negative significand exponent h).shortest tie).exponent < 0 ∧
      (rounding significand exponent).Holds
        ((finite negative significand exponent h).shortest tie).value := by
  have hsignificand : significand ≠ 0 := by
    rintro rfl
    exact hwhole ((isWhole_iff h).mpr ⟨0, by rw [Nat.cast_zero, zero_mul]⟩)
  have hholds := Rounding.shortest_holds den_rounding_ne_zero tie (exists_admitted h hsignificand tie)
  rw [shortest, if_neg hsignificand]
  refine ⟨hsignificand, ?_, hholds⟩
  by_contra hexponent
  generalize (rounding significand exponent).shortest tie = d at hholds hexponent
  have hwholeDigits : d.value = (d.digits * 10 ^ d.exponent.toNat : Nat) := by
    rw [Digits.value, Nat.cast_mul, Nat.cast_pow, Nat.cast_ofNat, ← zpow_natCast,
      Int.toNat_of_nonneg (by omega)]
  exact hwhole (isWhole_of_holds h hsignificand (hwholeDigits ▸ hholds))

end Double

/-- Digits with a negative exponent are written with a point, and at least one digit on either side. -/
theorem Digits.positional_eq (d : Digits) (h : d.exponent < 0) :
    ∃ whole fraction, d.positional.toList = whole ++ '.' :: fraction ∧ AreDigits whole ∧
      AreDigits fraction ∧ (digitsValue (whole ++ fraction) : ℚ) / 10 ^ fraction.length = d.value := by
  obtain ⟨places, hplaces⟩ : ∃ places : Nat, d.exponent = -(places : Int) :=
    ⟨(-d.exponent).toNat, by omega⟩
  generalize hdigits : Nat.toDigits 10 d.digits = digits
  generalize hpadded : List.replicate (places + 1 - digits.length) '0' ++ digits = padded
  have hlength : places < padded.length := by
    rw [← hpadded, List.length_append, List.length_replicate]
    omega
  have hvalue : digitsValue padded = d.digits := by
    rw [← hpadded, digitsValue_replicate_zero_append, ← hdigits, digitsValue_toDigits]
  have hall : ∀ c ∈ padded, c.isDigit = true := by
    intro c hc
    rw [← hpadded, List.mem_append] at hc
    rcases hc with hc | hc
    · rw [List.eq_of_mem_replicate hc]
      rfl
    · exact isDigit_of_mem_toDigits (hdigits ▸ hc)
  have hfraction : (padded.drop (padded.length - places)).length = places := by
    rw [List.length_drop]
    omega
  refine ⟨padded.take (padded.length - places), padded.drop (padded.length - places),
    ?_, ⟨?_, ?_⟩, ⟨?_, ?_⟩, ?_⟩
  · rw [positional, if_neg (by omega), hdigits]
    simp only [hplaces, Int.neg_neg, Int.toNat_natCast, hpadded, String.toList_ofList]
  · refine List.ne_nil_of_length_pos ?_
    rw [List.length_take]
    omega
  · exact fun c hc => hall c (List.mem_of_mem_take hc)
  · refine List.ne_nil_of_length_pos ?_
    omega
  · exact fun c hc => hall c (List.mem_of_mem_drop hc)
  · rw [List.take_append_drop, hfraction, hvalue, value, hplaces, zpow_neg, zpow_natCast, div_eq_mul_inv]

namespace Number

variable {x : Double}

/-- The text of a whole number of doubles: its digits, and one zero after the point. -/
theorem toList_text_of_isWhole (hwhole : x.isWhole = true) (hsign : x.isNegative = false) :
    (Number.float x).text.toList =
      Nat.toDigits 10 (x.units.natAbs / Double.unitsPerOne) ++ '.' :: ['0'] := by
  rw [text, if_pos hwhole, Double.wholeText, Double.signed, hsign, if_neg Bool.false_ne_true,
    String.toList_append, Nat.toString_eq_ofList_toDigits, String.toList_ofList]
  rfl

/-- **A finite double without a sign reads back from its text**, which is digits, a point and digits. -/
theorem exists_decimal (hfinite : x.isFinite = true) (hsign : x.isNegative = false) :
    ∃ whole fraction, (Number.float x).text.toList = whole ++ '.' :: fraction ∧ AreDigits whole ∧
      AreDigits fraction ∧ Double.ofDecimal whole fraction = x := by
  cases x with
  | nan | infinite => cases hfinite
  | finite negative significand exponent h =>
    cases hsign
    by_cases hwhole : (Double.finite false significand exponent h).isWhole = true
    · have hzero : AreDigits ['0'] := ⟨List.cons_ne_nil _ _, List.forall_mem_singleton.mpr rfl⟩
      exact ⟨_, _, toList_text_of_isWhole hwhole rfl, areDigits_toDigits _, hzero,
        Double.ofDecimal_whole h hwhole⟩
    · have hplain : (Number.float (.finite false significand exponent h)).text =
          ((Double.finite false significand exponent h).shortest .up).positional := by
        rw [text, if_neg hwhole]
        rfl
      obtain ⟨hsignificand, hexponent, hholds⟩ := Double.shortest_of_not_isWhole h hwhole .up
      obtain ⟨whole, fraction, htext, hdigits, hdigits', hvalue⟩ := Digits.positional_eq _ hexponent
      refine ⟨whole, fraction, hplain ▸ htext, hdigits, hdigits', ?_⟩
      exact Double.ofDecimal_of_holds h hsignificand (hvalue ▸ hholds)

/-- The text of a negative double is that of its absolute value behind a minus. -/
theorem text_of_isNegative (hsign : x.isNegative = true) :
    (Number.float x).text = "-" ++ (Number.float x.neg).text := by
  have hwhole : x.neg.isWhole = x.isWhole := by
    cases x with
    | nan | infinite => rfl
    | finite negative significand exponent h =>
      cases negative <;> simp [Double.isWhole, Double.neg, Double.isFinite, Double.units]
  have hunits : x.neg.units.natAbs = x.units.natAbs := by
    cases x with
    | nan | infinite => rfl
    | finite negative significand exponent h => cases negative <;> simp [Double.neg, Double.units]
  have hsign' : x.neg.isNegative = false := by
    cases x with
    | nan => cases hsign
    | infinite negative | finite negative =>
      cases hsign
      rfl
  rw [text, text, hwhole]
  split
  · rw [Double.wholeText, Double.wholeText, hunits, Double.signed, Double.signed, if_pos hsign, hsign',
      if_neg Bool.false_ne_true]
  · cases x with
    | nan => cases hsign
    | infinite negative | finite negative =>
      cases hsign
      rfl

end Number

end PathQuery
