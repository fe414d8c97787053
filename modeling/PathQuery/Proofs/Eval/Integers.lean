import PathQuery.Eval.Basic

/-!
# Exact arithmetic on integers

An operation on 64-bit integers gives its exact result where there is one of 64 bits, and an arithmetic
error otherwise. Only the remainder of the least integer by -1 is refused although it exists: it is zero,
but the quotient that belongs to it is out of range.

* `ArithmeticOp.Exact` — the exact results of an operation; a division by zero has none.
* `ArithmeticOp.onInt64?_eq_some_iff` — the results that are computed.
* `Node.integer_arithmetic_exact` — what trees compute from integers.
* `Node.remainder_of_least_integer_fails` — the remainder that is not computed.
-/

namespace PathQuery

/-! ### Exact results -/

/-- A quotient and a remainder of integers: the remainder is smaller than the divisor and does not have the
sign opposite to that of the dividend. -/
structure TruncatedDivision (a b quotient remainder : Int) : Prop where
  sum_eq : remainder + b * quotient = a
  smaller : remainder.natAbs < b.natAbs
  nonneg : 0 ≤ a → 0 ≤ remainder
  nonpos : a ≤ 0 → remainder ≤ 0

theorem truncatedDivision_iff {a b quotient remainder : Int} :
    TruncatedDivision a b quotient remainder ↔
      b ≠ 0 ∧ a.tdiv b = quotient ∧ a.tmod b = remainder := by
  constructor
  · rintro ⟨hsum, hsmaller, hnonneg, hnonpos⟩
    have hb : b ≠ 0 := by omega
    refine ⟨hb, ?_⟩
    rcases Int.le_total 0 a with ha | ha
    · have hremainder := hnonneg ha
      exact (Int.tdiv_tmod_unique ha hb).mpr ⟨hsum, hremainder, by omega⟩
    · have hremainder := hnonpos ha
      exact (Int.tdiv_tmod_unique' ha hb).mpr ⟨hsum, by omega, hremainder⟩
  · rintro ⟨hb, hquotient, hremainder⟩
    rcases Int.le_total 0 a with ha | ha
    · obtain ⟨hsum, hlow, hhigh⟩ := (Int.tdiv_tmod_unique ha hb).mp ⟨hquotient, hremainder⟩
      have hzero (hnonpos : a ≤ 0) : remainder = 0 := by
        rw [← hremainder, Int.le_antisymm hnonpos ha, Int.zero_tmod]
      exact ⟨hsum, by omega, fun _ => hlow, fun hnonpos => Int.le_of_eq (hzero hnonpos)⟩
    · obtain ⟨hsum, hlow, hhigh⟩ := (Int.tdiv_tmod_unique' ha hb).mp ⟨hquotient, hremainder⟩
      have hzero (hnonneg : 0 ≤ a) : remainder = 0 := by
        rw [← hremainder, Int.le_antisymm ha hnonneg, Int.zero_tmod]
      exact ⟨hsum, by omega, fun hnonneg => Int.le_of_eq (hzero hnonneg).symm, fun _ => hhigh⟩

namespace ArithmeticOp

/-- The exact result of an operation on two integers. -/
inductive Exact : ArithmeticOp → Int → Int → Int → Prop
  | add {a b : Int} : Exact .add a b (a + b)
  | subtract {a b : Int} : Exact .subtract a b (a - b)
  | multiply {a b : Int} : Exact .multiply a b (a * b)
  | divide {a b quotient remainder : Int} (h : TruncatedDivision a b quotient remainder) :
      Exact .divide a b quotient
  | modulus {a b quotient remainder : Int} (h : TruncatedDivision a b quotient remainder) :
      Exact .modulus a b remainder

theorem exact_iff {op : ArithmeticOp} {a b n : Int} :
    op.Exact a b n ↔ (op.divides = true → b ≠ 0) ∧ op.onInt a b = n := by
  constructor
  · intro h
    cases h with
    | add | subtract | multiply => exact ⟨fun h => (by cases h), rfl⟩
    | divide h =>
      obtain ⟨hb, hquotient, -⟩ := truncatedDivision_iff.mp h
      exact ⟨fun _ => hb, hquotient⟩
    | modulus h =>
      obtain ⟨hb, -, hremainder⟩ := truncatedDivision_iff.mp h
      exact ⟨fun _ => hb, hremainder⟩
  · rintro ⟨hb, rfl⟩
    cases op with
    | add => exact .add
    | subtract => exact .subtract
    | multiply => exact .multiply
    | divide => exact .divide (truncatedDivision_iff.mpr ⟨hb rfl, rfl, rfl⟩)
    | modulus => exact .modulus (truncatedDivision_iff.mpr ⟨hb rfl, rfl, rfl⟩)

/-- The one remainder of 64 bits whose quotient is out of range. -/
def Overreaches (op : ArithmeticOp) (a b : Int64) : Prop :=
  op = .modulus ∧ a = Int64.minValue ∧ b = -1

end ArithmeticOp

/-! ### Results of 64 bits -/

theorem int64?_eq_some_iff {n : Int} {i : Int64} : int64? n = some i ↔ i.toInt = n := by
  refine ⟨int64?_eq_some, ?_⟩
  rintro rfl
  exact int64?_toInt i

theorem int64?_eq_none_iff {n : Int} :
    int64? n = none ↔ n < -0x8000000000000000 ∨ 0x8000000000000000 ≤ n := by
  unfold int64?
  split
  · next h =>
    simp only [reduceCtorEq, false_iff]
    omega
  · next h =>
    simp only [true_iff]
    omega

/-- The only quotient that is out of range is that of the least integer by -1. -/
theorem int64?_tdiv_eq_none_iff {a b : Int64} :
    int64? (a.toInt.tdiv b.toInt) = none ↔ a = Int64.minValue ∧ b = -1 := by
  constructor
  · intro h
    have hlow := a.le_toInt
    have hhigh := a.toInt_lt
    have hsize := Int.natAbs_tdiv_le_natAbs a.toInt b.toInt
    have hquotient : a.toInt.tdiv b.toInt = 0x8000000000000000 := by
      have hrange := int64?_eq_none_iff.mp h
      omega
    have ha : a.toInt = -0x8000000000000000 := by omega
    have hdivisor : b.toInt ≠ 0 := by
      intro hzero
      rw [hzero, Int.tdiv_zero] at hquotient
      cases hquotient
    have hdivision := truncatedDivision_iff.mpr ⟨hdivisor, hquotient, rfl⟩
    have hb : b.toInt = -1 := by
      have hsum := hdivision.sum_eq
      have hsmaller := hdivision.smaller
      omega
    exact ⟨Int64.toInt.inj ha, Int64.toInt.inj hb⟩
  · rintro ⟨rfl, rfl⟩
    decide

namespace ArithmeticOp

variable {op : ArithmeticOp} {a b : Int64}

/-- The results that are computed are the exact ones, but for one remainder. -/
theorem onInt64?_eq_some_iff {n : Int64} :
    op.onInt64? a b = some n ↔ ¬ op.Overreaches a b ∧ n.toInt = op.onInt a.toInt b.toInt := by
  cases op with
  | modulus =>
    have hreaches : Overreaches .modulus a b ↔ int64? (a.toInt.tdiv b.toInt) = none := by
      rw [int64?_tdiv_eq_none_iff]
      exact and_iff_right rfl
    rw [hreaches, onInt64?]
    cases int64? (a.toInt.tdiv b.toInt) with
    | none => simp
    | some quotient =>
      show int64? (a.toInt.tmod b.toInt) = some n ↔ _
      rw [int64?_eq_some_iff]
      simp [onInt]
  | _ =>
    show int64? _ = some n ↔ _
    rw [int64?_eq_some_iff, Overreaches]
    simp

end ArithmeticOp

/-! ### Numbers -/

namespace Number

variable {op : ArithmeticOp} {a b : Int64}

theorem arithmetic_int_eq_ok_iff {v : Number} :
    (Number.int a).arithmetic op (.int b) = .ok v ↔
      ∃ n : Int64, (¬ op.Overreaches a b ∧ op.Exact a.toInt b.toInt n.toInt) ∧ v = .int n := by
  have hzero : b = 0 ↔ b.toInt = 0 := by
    rw [← Int64.toInt_inj]
    rfl
  simp only [ArithmeticOp.exact_iff, arithmetic]
  split
  · next h =>
    simp only [Bool.and_eq_true, decide_eq_true_eq] at h
    simp only [reduceCtorEq, false_iff]
    rintro ⟨n, ⟨-, hexact, -⟩, -⟩
    exact hexact h.1 (hzero.mp h.2)
  · next h =>
    simp only [Bool.and_eq_true, decide_eq_true_eq, not_and] at h
    have hdefined : op.divides = true → b.toInt ≠ 0 := fun hop hb => h hop (hzero.mpr hb)
    cases hresult : op.onInt64? a b with
    | some n =>
      obtain ⟨hreaches, hn⟩ := ArithmeticOp.onInt64?_eq_some_iff.mp hresult
      constructor
      · intro hv
        cases hv
        exact ⟨n, ⟨hreaches, hdefined, hn.symm⟩, rfl⟩
      · rintro ⟨m, ⟨-, -, hm⟩, rfl⟩
        rw [Int64.toInt.inj (hm.symm.trans hn.symm)]
    | none =>
      simp only [reduceCtorEq, false_iff]
      rintro ⟨n, ⟨hreaches, -, hn⟩, -⟩
      rw [ArithmeticOp.onInt64?_eq_some_iff.mpr ⟨hreaches, hn.symm⟩] at hresult
      cases hresult

/-- An operation on integers fails for a divisor that is zero or for a result that is out of range. -/
theorem arithmetic_int_eq_error {e : EvalError}
    (h : (Number.int a).arithmetic op (.int b) = .error e) :
    e = .divisionByZero ∧ op.divides = true ∧ b = 0 ∨ e = .integerOverflow op a b := by
  simp only [arithmetic] at h
  split at h
  · next hzero =>
    cases h
    simp only [Bool.and_eq_true, decide_eq_true_eq] at hzero
    exact Or.inl ⟨rfl, hzero⟩
  · cases hresult : op.onInt64? a b with
    | some n =>
      rw [hresult] at h
      cases h
    | none =>
      rw [hresult] at h
      cases h
      exact Or.inr rfl

theorem signed_minus_int_eq_ok_iff {v : Number} :
    (Number.int a).signed .minus = .ok v ↔ ∃ n : Int64, n.toInt = -a.toInt ∧ v = .int n := by
  simp only [signed, ← int64?_eq_some_iff]
  cases int64? (-a.toInt) with
  | some n => simp [eq_comm]
  | none => simp

theorem signed_minus_int_eq_error {e : EvalError} (h : (Number.int a).signed .minus = .error e) :
    e = .negationOverflow a := by
  simp only [signed] at h
  cases hresult : int64? (-a.toInt) with
  | some n =>
    rw [hresult] at h
    cases h
  | none =>
    rw [hresult] at h
    cases h
    rfl

end Number

theorem Item.abs_int_eq_ok_iff {a : Int64} {s : Sequence} :
    (Item.int a).abs = .ok s ↔ ∃ n : Int64, n.toInt = a.toInt.natAbs ∧ s = [.int n] := by
  have habs : max a.toInt (-a.toInt) = a.toInt.natAbs := by omega
  rw [← habs]
  simp only [← int64?_eq_some_iff]
  cases hn : int64? (max a.toInt (-a.toInt)) with
  | some n =>
    have hvalue : (Item.int a).abs = .ok [.int n] := by simp only [Item.int, Item.abs, hn]
    rw [hvalue]
    simp [eq_comm]
  | none =>
    have hvalue : (Item.int a).abs = .error (.absOverflow a) := by simp only [Item.int, Item.abs, hn]
    rw [hvalue]
    simp

theorem Item.abs_int_eq_error {a : Int64} {e : EvalError} (h : (Item.int a).abs = .error e) :
    e = .absOverflow a := by
  simp only [Item.int, Item.abs] at h
  split at h
  · cases h
  · cases h
    rfl

/-! ### Trees -/

/-- A tree has one integer as its sequence; in lax mode the integer may stand in an array. -/
def Node.Yields (scope : Scope) (n : Node) (a : Int64) : Prop :=
  ∃ s, n.eval scope = .ok s ∧ s.unwrap scope.mode = [.int a]

/-- A result is the exact one, if it is an integer of 64 bits, and an arithmetic error otherwise. -/
structure ExactOrFails (exact : Int → Prop) (r : Except EvalError Sequence) : Prop where
  ok_iff : ∀ s, r = .ok s ↔ ∃ n : Int64, exact n.toInt ∧ s = [.int n]
  error_kind : ∀ e, r = .error e → e.kind = .arithmetic

/-- A computation with one number as its result. -/
theorem ExactOrFails.of_number {exact : Int → Prop} {r : Except EvalError Number}
    (hok : ∀ v, r = .ok v ↔ ∃ n : Int64, exact n.toInt ∧ v = .int n)
    (herror : ∀ e, r = .error e → e.kind = .arithmetic) :
    ExactOrFails exact (do return [.number (← r)]) where
  ok_iff s := by
    cases r with
    | error e =>
      have hnone (n : Int64) : ¬ exact n.toInt := by
        intro hn
        cases (hok (.int n)).mpr ⟨n, hn, rfl⟩
      constructor
      · intro h
        cases h
      · rintro ⟨n, hn, -⟩
        exact absurd hn (hnone n)
    | ok v =>
      obtain ⟨m, hm, rfl⟩ := (hok v).mp rfl
      constructor
      · intro h
        cases h
        exact ⟨m, hm, rfl⟩
      · rintro ⟨n, hn, rfl⟩
        cases (hok (.int n)).mpr ⟨n, hn, rfl⟩
        rfl
  error_kind e h := by
    cases r with
    | error e' =>
      cases h
      exact herror e rfl
    | ok v => cases h

namespace Node

variable {scope : Scope} {left right : Node} {a b : Int64}

theorem eval_binary (hleft : left.Yields scope a) (hright : right.Yields scope b)
    (op : ArithmeticOp) :
    (Form.binary op left right).eval scope =
      do return [.number (← (Number.int a).arithmetic op (.int b))] := by
  obtain ⟨l, hl, hlunwrap⟩ := hleft
  obtain ⟨r, hr, hrunwrap⟩ := hright
  rw [Form.eval, hl, hr]
  show (l.number scope.mode .leftOperand >>= fun m => r.number scope.mode .rightOperand >>= fun n =>
    (do return [.number (← m.arithmetic op n)] : Except EvalError Sequence)) = _
  rw [Sequence.number, hlunwrap, Sequence.number, hrunwrap]
  rfl

theorem eval_unary (hleft : left.Yields scope a) (sign : Sign) :
    (Form.unary sign left).eval scope = do return [.number (← (Number.int a).signed sign)] := by
  obtain ⟨l, hl, hunwrap⟩ := hleft
  rw [Form.eval, hl]
  show (l.number scope.mode .unaryOperand >>= fun n =>
    (do return [.number (← n.signed sign)] : Except EvalError Sequence)) = _
  rw [Sequence.number, hunwrap]
  rfl

theorem eval_abs (hleft : left.Yields scope a) :
    (Form.method left .abs).eval scope = (Item.int a).abs := by
  obtain ⟨l, hl, hunwrap⟩ := hleft
  rw [Form.eval, hl]
  show (l.unwrap scope.mode).collect Item.abs = _
  rw [hunwrap, Sequence.collect]
  cases (Item.int a).abs with
  | error e => rfl
  | ok s => exact congrArg Except.ok (List.append_nil s)

/-- **Integer arithmetic is exact or fails.** For trees that yield integers of 64 bits, the sum, the
difference, the product, the truncated quotient, the remainder, the negation and the absolute value are the
exact ones where these exist and have 64 bits, and arithmetic errors otherwise. The remainder of the least
integer by -1 is an overflow. -/
theorem integer_arithmetic_exact (hleft : left.Yields scope a) (hright : right.Yields scope b) :
    (∀ op, ¬ op.Overreaches a b →
      ExactOrFails (op.Exact a.toInt b.toInt) ((Form.binary op left right).eval scope)) ∧
    (∀ op, op.Overreaches a b →
      (Form.binary op left right).eval scope = .error (.integerOverflow op a b)) ∧
    ExactOrFails (· = -a.toInt) ((Form.unary .minus left).eval scope) ∧
    ExactOrFails (· = a.toInt.natAbs) ((Form.method left .abs).eval scope) := by
  refine ⟨fun op hreaches => ?_, fun op hreaches => ?_, ?_, ?_⟩
  · rw [eval_binary hleft hright]
    refine ExactOrFails.of_number (fun v => ?_) (fun e h => ?_)
    · rw [Number.arithmetic_int_eq_ok_iff]
      simp only [hreaches, not_false_eq_true, true_and]
    · rcases Number.arithmetic_int_eq_error h with ⟨rfl, -⟩ | rfl <;> rfl
  · rw [eval_binary hleft hright]
    obtain ⟨rfl, rfl, rfl⟩ := hreaches
    rfl
  · rw [eval_unary hleft]
    refine ExactOrFails.of_number (fun v => Number.signed_minus_int_eq_ok_iff) (fun e h => ?_)
    rw [Number.signed_minus_int_eq_error h]
    rfl
  · rw [eval_abs hleft]
    refine ⟨fun s => Item.abs_int_eq_ok_iff, fun e h => ?_⟩
    rw [Item.abs_int_eq_error h]
    rfl

/-- The least integer, in an array, and -1: the quotient, the negation and the absolute value are out of
range, and so is the quotient that belongs to the remainder. -/
theorem integer_arithmetic_exact_of_least_integer :
    let scope : Scope := .initial .lax (.array [.int Int64.minValue]) .empty
    let least := Node.context
    let minusOne := Node.literal (.int (-1))
    least.Yields scope Int64.minValue ∧ minusOne.Yields scope (-1) ∧
      ExactOrFails (ArithmeticOp.divide.Exact (-0x8000000000000000) (-1))
        ((Form.binary .divide least minusOne).eval scope) ∧
      (Form.binary .modulus least minusOne).eval scope =
        .error (.integerOverflow .modulus Int64.minValue (-1)) ∧
      ExactOrFails (· = 0x8000000000000000) ((Form.unary .minus least).eval scope) ∧
      ExactOrFails (· = 0x8000000000000000) ((Form.method least .abs).eval scope) := by
  intro scope least minusOne
  have hleast : least.Yields scope Int64.minValue := ⟨_, rfl, rfl⟩
  have hminusOne : minusOne.Yields scope (-1) := ⟨_, rfl, rfl⟩
  obtain ⟨hexact, hoverflow, hneg, habs⟩ := integer_arithmetic_exact hleast hminusOne
  refine ⟨hleast, hminusOne, hexact .divide ?_, hoverflow .modulus ⟨rfl, rfl, rfl⟩, hneg, habs⟩
  rintro ⟨hop, -⟩
  cases hop

/-- The remainder of the least integer by -1 is zero, but its computation is an overflow. -/
theorem remainder_of_least_integer_fails :
    let remainder (a b : Int64) := Node.arithmetic .modulus (.literal (.int a)) (.literal (.int b))
    ArithmeticOp.modulus.Exact Int64.minValue.toInt (-1) 0 ∧
      (remainder Int64.minValue (-1)).evaluate .lax .null .empty =
        .error (.integerOverflow .modulus Int64.minValue (-1)) ∧
      ¬ ∀ a b : Int64, ExactOrFails (ArithmeticOp.modulus.Exact a.toInt b.toInt)
        ((remainder a b).evaluate .lax .null .empty) := by
  intro remainder
  have hexact : ArithmeticOp.modulus.Exact Int64.minValue.toInt (-1) 0 :=
    .modulus (truncatedDivision_iff.mpr ⟨by decide, rfl, by decide⟩)
  refine ⟨hexact, rfl, fun hall => ?_⟩
  cases ((hall Int64.minValue (-1)).ok_iff [.int 0]).mpr ⟨0, hexact, rfl⟩

end Node

end PathQuery
