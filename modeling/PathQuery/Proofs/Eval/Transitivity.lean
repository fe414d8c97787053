import PathQuery.Proofs.Double.Order
import PathQuery.Proofs.Eval.Comparison

/-!
# How far comparisons are transitive

Items of one kind are compared by a linear order, and so are two integers, or two numbers through their
doubles. The two orders of integers differ: several integers from `2 ^ 53` on have one nearest double, and
each of them is equal to it. With the double between two of these integers the comparison is not transitive,
and this is the only case in which it is not.

* `ComparisonOp.Accepts` — the outcomes that satisfy an operator.
* `Number.accepts_trans` — numbers, with the exception.
* `Item.comparison_transitive` — all items.
* `Item.comparison_intransitive` — the double between two integers.
-/

namespace PathQuery

/-! ### Operators -/

namespace ComparisonOp

/-- The operators of an order and of an equality. -/
def IsTransitive (op : ComparisonOp) : Prop :=
  op = .lessOrEqual ∨ op = .equal

theorem admits_trans {α : Type} [Ord α] [Std.TransOrd α] {op : ComparisonOp} (hop : op.IsTransitive)
    {x y z : α} (hxy : op.admits (compare x y) = true) (hyz : op.admits (compare y z) = true) :
    op.admits (compare x z) = true := by
  have hle (o : Ordering) : ComparisonOp.lessOrEqual.admits o = o.isLE := by cases o <;> rfl
  rcases hop with rfl | rfl
  · rw [hle] at *
    exact Std.TransCmp.isLE_trans hxy hyz
  · simp only [admits, beq_iff_eq] at *
    exact Std.TransCmp.eq_trans hxy hyz

theorem admits_lessOrEqual_iff {p q : Int} :
    ComparisonOp.lessOrEqual.admits (compare p q) = true ↔ p ≤ q := by
  rw [← Int.isLE_compare]
  cases compare p q <;> decide

theorem admits_equal_iff {p q : Int} : ComparisonOp.equal.admits (compare p q) = true ↔ p = q := by
  simp [admits]

/-- Whether two values are comparable in the way that an operator asks for. -/
def Accepts (op : ComparisonOp) (outcome : Option Ordering) : Prop :=
  ∃ o ∈ outcome, op.admits o = true

variable {op : ComparisonOp}

@[simp] theorem accepts_some {o : Ordering} : op.Accepts (some o) ↔ op.admits o = true := by
  simp [Accepts]

@[simp] theorem not_accepts_none : ¬ op.Accepts none := by
  simp [Accepts]

end ComparisonOp

open ComparisonOp (IsTransitive)

variable {op : ComparisonOp}

theorem Item.compareBy_eq_true_iff {a b : Item} :
    a.compareBy op b = .true ↔ op.Accepts (a.order? op b) := by
  unfold compareBy
  cases a.order? op b with
  | none => simp
  | some o => cases h : op.admits o <;> simp [Truth.ofBool, h]

/-! ### Numbers -/

theorem Double.accepts_compare?_iff {x y : Double} :
    op.Accepts (x.compare? y) ↔
      ∃ p q, x.rank = some p ∧ y.rank = some q ∧ op.admits (compare p q) = true := by
  unfold compare?
  cases x.rank <;> cases y.rank <;> simp

theorem Double.accepts_trans (hop : op.IsTransitive) {x y z : Double} (hxy : op.Accepts (x.compare? y))
    (hyz : op.Accepts (y.compare? z)) : op.Accepts (x.compare? z) := by
  obtain ⟨p, q, hp, hq, hpq⟩ := accepts_compare?_iff.mp hxy
  obtain ⟨q', r, hq', hr, hqr⟩ := accepts_compare?_iff.mp hyz
  obtain rfl : q = q' := Option.some.inj (hq.symm.trans hq')
  exact accepts_compare?_iff.mpr ⟨p, r, hp, hr, ComparisonOp.admits_trans hop hpq hqr⟩

namespace Number

theorem log2_natAbs_lt (n : Int64) : n.toInt.natAbs.log2 < 1000 := by
  have hlow := n.le_toInt
  have hhigh := n.toInt_lt
  by_cases hzero : n.toInt.natAbs = 0
  · rw [hzero]
    decide
  · have hlog : n.toInt.natAbs.log2 < 64 := (Nat.log2_lt hzero).mpr (by omega)
    omega

/-- The double nearest to an integer has its units as its rank. -/
theorem rank_ofInt (n : Int64) : (Double.ofInt n.toInt).rank = some (Double.ofInt n.toInt).units := by
  have hfinite : (Double.ofInt n.toInt).isFinite = true := by
    refine Double.isFinite_ofInt (Nat.le_trans (?_ : _ ≤ 0x8000000000000000) (by decide +kernel))
    have hlow := n.le_toInt
    have hhigh := n.toInt_lt
    omega
  cases hx : Double.ofInt n.toInt with
  | nan | infinite =>
    rw [hx] at hfinite
    cases hfinite
  | finite => rfl

theorem units_mono {m n : Int64} (h : m.toInt ≤ n.toInt) :
    (Double.ofInt m.toInt).units ≤ (Double.ofInt n.toInt).units :=
  Double.units_ofInt_mono h (log2_natAbs_lt m) (log2_natAbs_lt n)

/-- Integers compare as doubles where they compare as integers. -/
theorem accepts_toDouble (hop : op.IsTransitive) {a b : Number} (h : op.Accepts (a.compare? b)) :
    op.Accepts (a.toDouble.compare? b.toDouble) := by
  cases a with
  | float x => exact h
  | int m =>
    cases b with
    | float y => exact h
    | int n =>
      refine Double.accepts_compare?_iff.mpr ⟨_, _, rank_ofInt m, rank_ofInt n, ?_⟩
      have hmn := ComparisonOp.accepts_some.mp h
      rcases hop with rfl | rfl
      · rw [ComparisonOp.admits_lessOrEqual_iff] at *
        exact units_mono hmn
      · rw [ComparisonOp.admits_equal_iff] at *
        rw [hmn]

/-- Two different integers and a double that is the nearest one to both. -/
structure MeetIn (m : Int64) (x : Double) (n : Int64) : Prop where
  ne : m ≠ n
  left : x.rank = some (Double.ofInt m.toInt).units
  right : x.rank = some (Double.ofInt n.toInt).units

/-- Integers that meet in a double have more than 53 binary digits, or are the first number of 54. -/
theorem MeetIn.le_natAbs {m n : Int64} {x : Double} (h : MeetIn m x n) :
    0x20000000000000 ≤ m.toInt.natAbs ∧ 0x20000000000000 ≤ n.toInt.natAbs :=
  Double.le_natAbs_of_units_ofInt_eq (fun heq => h.ne (Int64.toInt.inj heq)) (log2_natAbs_lt m)
    (log2_natAbs_lt n) (Option.some.inj (h.left.symm.trans h.right))

/-- A double is equal to an integer exactly if it is the nearest one. -/
theorem compare?_int_float_eq_iff {m : Int64} {x : Double} :
    (int m).compare? (.float x) = some .eq ↔ x.rank = some (Double.ofInt m.toInt).units := by
  show Double.compare? _ _ = _ ↔ _
  rw [Double.compare?, toDouble, toDouble, rank_ofInt]
  cases x.rank with
  | none => simp
  | some p =>
    simp only [Option.some.injEq, Std.LawfulEqCmp.compare_eq_iff_eq]
    exact eq_comm

/-- Integers on the two sides of a double that are not compared as the double lets one expect. -/
theorem meetIn_of_accepts (hop : op.IsTransitive) {m n : Int64} {x : Double}
    (hleft : op.Accepts ((int m).compare? (.float x))) (hright : op.Accepts ((float x).compare? (.int n)))
    (hmn : ¬ op.Accepts ((int m).compare? (.int n))) : MeetIn m x n := by
  obtain ⟨p, q, hp, hq, hpq⟩ := Double.accepts_compare?_iff.mp hleft
  obtain ⟨q', r, hq', hr, hqr⟩ := Double.accepts_compare?_iff.mp hright
  obtain rfl : q = q' := Option.some.inj (hq.symm.trans hq')
  obtain rfl : (Double.ofInt m.toInt).units = p := Option.some.inj ((rank_ofInt m).symm.trans hp)
  obtain rfl : (Double.ofInt n.toInt).units = r := Option.some.inj ((rank_ofInt n).symm.trans hr)
  have hexact : ¬ op.admits (compare m.toInt n.toInt) = true := fun h =>
    hmn (ComparisonOp.accepts_some.mpr h)
  have hne : m ≠ n := by
    rintro rfl
    rcases hop with rfl | rfl <;> simp [ComparisonOp.admits] at hexact
  rcases hop with rfl | rfl
  · -- The integers are in the other order, so rounding keeps them apart from the double on no side.
    rw [ComparisonOp.admits_lessOrEqual_iff] at hpq hqr hexact
    have hmono := units_mono (Int.le_of_lt (Int.not_le.mp hexact))
    obtain rfl : q = (Double.ofInt m.toInt).units := by omega
    obtain hsame : (Double.ofInt m.toInt).units = (Double.ofInt n.toInt).units := by omega
    exact ⟨hne, hq, hq.trans (congrArg some hsame)⟩
  · rw [ComparisonOp.admits_equal_iff] at hpq hqr
    exact ⟨hne, hq.trans (congrArg some hpq.symm), hq.trans (congrArg some hqr)⟩

/-- **Numbers compare transitively, but for integers that meet in the double between them.** -/
theorem accepts_trans (hop : op.IsTransitive) {a b c : Number} (hab : op.Accepts (a.compare? b))
    (hbc : op.Accepts (b.compare? c)) :
    op.Accepts (a.compare? c) ∨ ∃ m x n, a = .int m ∧ b = .float x ∧ c = .int n ∧ MeetIn m x n := by
  have hdouble := Double.accepts_trans hop (accepts_toDouble hop hab) (accepts_toDouble hop hbc)
  cases a with
  | float x => exact Or.inl hdouble
  | int m =>
    cases c with
    | float x => exact Or.inl hdouble
    | int n =>
      cases b with
      | int k =>
        exact Or.inl (ComparisonOp.accepts_some.mpr (ComparisonOp.admits_trans hop
          (ComparisonOp.accepts_some.mp hab) (ComparisonOp.accepts_some.mp hbc)))
      | float x =>
        by_cases hmn : op.Accepts ((int m).compare? (.int n))
        · exact Or.inl hmn
        · exact Or.inr ⟨m, x, n, rfl, rfl, rfl, meetIn_of_accepts hop hab hbc hmn⟩

end Number

/-! ### Other items -/

/-- A number that orders the dates and times of one type. -/
def DateTime.key : DateTime → Int
  | .date d => d.dayNumber
  | .time t => t.key
  | .timestamp t => t.key
  | .zoned t => t.key

theorem DateTime.compare?_eq (a b : DateTime) :
    a.compare? b = if a.type = b.type then some (compare a.key b.key) else none := by
  cases a <;> cases b <;> rfl

theorem DateTime.accepts_compare?_iff {a b : DateTime} :
    op.Accepts (a.compare? b) ↔ a.type = b.type ∧ op.admits (compare a.key b.key) = true := by
  rw [compare?_eq]
  split <;> simp [*]

theorem DateTime.accepts_trans (hop : op.IsTransitive) {a b c : DateTime}
    (hab : op.Accepts (a.compare? b)) (hbc : op.Accepts (b.compare? c)) : op.Accepts (a.compare? c) := by
  rw [accepts_compare?_iff] at *
  exact ⟨hab.1.trans hbc.1, ComparisonOp.admits_trans hop hab.2 hbc.2⟩

theorem accepts_compareText_trans (hop : op.IsTransitive) {s t u : String}
    (hst : op.Accepts (some (compareOfLessAndEq s t))) (htu : op.Accepts (some (compareOfLessAndEq t u))) :
    op.Accepts (some (compareOfLessAndEq s u)) := by
  have hst' : op.admits (compare s t) = true := ComparisonOp.accepts_some.mp hst
  have htu' : op.admits (compare t u) = true := ComparisonOp.accepts_some.mp htu
  exact ComparisonOp.accepts_some.mpr (ComparisonOp.admits_trans hop hst' htu')

theorem accepts_compareBool_trans (hop : op.IsTransitive) {p q r : Bool}
    (hpq : op.Accepts (if op.isEquality then some (compareBool p q) else none))
    (hqr : op.Accepts (if op.isEquality then some (compareBool q r) else none)) :
    op.Accepts (if op.isEquality then some (compareBool p r) else none) := by
  cases hequality : op.isEquality with
  | false =>
    rw [hequality] at hpq
    exact absurd hpq ComparisonOp.not_accepts_none
  | true =>
    simp only [hequality, if_true, ComparisonOp.accepts_some] at *
    exact ComparisonOp.admits_trans hop hpq hqr

/-! ### Items -/

namespace Item

/-- Two comparable items are of one kind, and each kind has an order of its own. -/
theorem accepts_trans (hop : op.IsTransitive) {a b c : Item} (hab : op.Accepts (a.order? op b))
    (hbc : op.Accepts (b.order? op c)) :
    op.Accepts (a.order? op c) ∨
      ∃ m x n, a = .int m ∧ b = .float x ∧ c = .int n ∧ Number.MeetIn m x n := by
  cases a with
  | number i =>
    cases b with
    | number j =>
      cases c with
      | number k =>
        refine (Number.accepts_trans hop hab hbc).imp_right ?_
        rintro ⟨m, x, n, rfl, rfl, rfl, hmeet⟩
        exact ⟨m, x, n, rfl, rfl, rfl, hmeet⟩
      | _ => exact absurd hbc ComparisonOp.not_accepts_none
    | _ => exact absurd hab ComparisonOp.not_accepts_none
  | string s =>
    cases b with
    | string t =>
      cases c with
      | string u => exact Or.inl (accepts_compareText_trans hop hab hbc)
      | _ => exact absurd hbc ComparisonOp.not_accepts_none
    | _ => exact absurd hab ComparisonOp.not_accepts_none
  | boolean p =>
    cases b with
    | boolean q =>
      cases c with
      | boolean r => exact Or.inl (accepts_compareBool_trans hop hab hbc)
      | _ => exact absurd hbc ComparisonOp.not_accepts_none
    | _ => exact absurd hab ComparisonOp.not_accepts_none
  | datetime d =>
    cases b with
    | datetime e =>
      cases c with
      | datetime f => exact Or.inl (DateTime.accepts_trans hop hab hbc)
      | _ => exact absurd hbc ComparisonOp.not_accepts_none
    | _ => exact absurd hab ComparisonOp.not_accepts_none
  | null | array | object | failure => exact absurd hab ComparisonOp.not_accepts_none

theorem order?_int_float (op : ComparisonOp) {m n : Int64} {x : Double} (h : Number.MeetIn m x n) :
    (Item.int m).order? op (.float x) = some .eq ∧ (Item.float x).order? op (.int n) = some .eq := by
  refine ⟨Number.compare?_int_float_eq_iff.mpr h.left, ?_⟩
  show (Number.float x).compare? (.int n) = some .eq
  rw [Number.compare?_swap, Number.compare?_int_float_eq_iff.mpr h.right]
  rfl

/-- **Comparisons are transitive, but for integers that meet in the double between them.** Both of these
are from `2 ^ 53` on, both are equal to the double, and they are compared as the different integers that
they are. -/
theorem comparison_transitive :
    (∀ op : ComparisonOp, op = .lessOrEqual ∨ op = .equal → ∀ a b c : Item,
      a.compareBy op b = .true → b.compareBy op c = .true →
        a.compareBy op c = .true ∨
          ∃ m x n, a = .int m ∧ b = .float x ∧ c = .int n ∧ Number.MeetIn m x n) ∧
    ∀ m x n, Number.MeetIn m x n →
      (0x20000000000000 ≤ m.toInt.natAbs ∧ 0x20000000000000 ≤ n.toInt.natAbs) ∧
      (∀ op : ComparisonOp, op = .lessOrEqual ∨ op = .equal →
        (Item.int m).compareBy op (.float x) = .true ∧ (Item.float x).compareBy op (.int n) = .true) ∧
      (Item.int m).compareBy .equal (.int n) = .false ∧
      ((Item.int m).compareBy .lessOrEqual (.int n) = .true ↔ m < n) := by
  constructor
  · intro op hop a b c hab hbc
    rw [compareBy_eq_true_iff] at *
    exact accepts_trans hop hab hbc
  · intro m x n hmeet
    have hne : m.toInt ≠ n.toInt := fun heq => hmeet.ne (Int64.toInt.inj heq)
    refine ⟨hmeet.le_natAbs, fun op hop => ?_, ?_, ?_⟩
    · obtain ⟨hleft, hright⟩ := order?_int_float op hmeet
      have hadmits : op.admits .eq = true := by rcases hop with rfl | rfl <;> rfl
      rw [compareBy_eq_true_iff, compareBy_eq_true_iff, hleft, hright]
      exact ⟨ComparisonOp.accepts_some.mpr hadmits, ComparisonOp.accepts_some.mpr hadmits⟩
    · have hadmits : ComparisonOp.equal.admits (compare m.toInt n.toInt) = false := by
        rw [← Bool.not_eq_true, ComparisonOp.admits_equal_iff]
        exact hne
      show Truth.ofBool (ComparisonOp.equal.admits (compare m.toInt n.toInt)) = .false
      rw [hadmits]
      rfl
    · rw [compareBy_eq_true_iff]
      show ComparisonOp.lessOrEqual.Accepts (some (compare m.toInt n.toInt)) ↔ _
      rw [ComparisonOp.accepts_some, ComparisonOp.admits_lessOrEqual_iff, Int64.lt_iff_toInt_lt]
      omega

/-- An integer below a double below an integer; and the first two integers that meet in a double. -/
theorem comparison_transitive_of_integers_and_doubles :
    let one := Item.int 1
    let three := Item.float (.ofInt 3)
    let four := Item.int 4
    let x := Double.ofInt 0x20000000000000
    (one.compareBy .lessOrEqual three = .true ∧ three.compareBy .lessOrEqual four = .true ∧
      (one.compareBy .lessOrEqual four = .true ∨
        ∃ m y n, one = .int m ∧ three = .float y ∧ four = .int n ∧ Number.MeetIn m y n)) ∧
    Number.MeetIn 0x20000000000000 x 0x20000000000001 ∧
      (Item.int 0x20000000000000).compareBy .lessOrEqual (.int 0x20000000000001) = .true := by
  intro one three four x
  have hlow : one.compareBy .lessOrEqual three = .true := by decide +kernel
  have hhigh : three.compareBy .lessOrEqual four = .true := by decide +kernel
  have hmeet : Number.MeetIn 0x20000000000000 x 0x20000000000001 :=
    ⟨by decide, by decide +kernel, by decide +kernel⟩
  obtain ⟨htrans, hexcept⟩ := comparison_transitive
  exact ⟨⟨hlow, hhigh, htrans .lessOrEqual (Or.inl rfl) one three four hlow hhigh⟩, hmeet,
    (hexcept _ x _ hmeet).2.2.2.mpr (by decide)⟩

/-- The integers `2 ^ 53 + 1` and `2 ^ 53` are both equal to the double `2 ^ 53`, but not to each other. -/
theorem comparison_intransitive :
    let a := Item.int 0x20000000000001
    let b := Item.float (.ofInt 0x20000000000000)
    let c := Item.int 0x20000000000000
    (a.compareBy .lessOrEqual b = .true ∧ b.compareBy .lessOrEqual c = .true ∧
      a.compareBy .lessOrEqual c = .false) ∧
    (a.compareBy .equal b = .true ∧ b.compareBy .equal c = .true ∧ a.compareBy .equal c = .false) := by
  decide +kernel

end Item

end PathQuery
