import PathQuery.Eval.Basic

/-!
# Laws of truth values

* `Truth.Below` — the order of information: unknown says less than true and false. The connectives keep it.
* `Truth.andThen_ok` and `Truth.orElse_ok` — where both operands have a truth value, the short circuits
  are those of the connectives.
* `Truth.ofPrefixes_strict` and `Truth.ofPrefixes_lax` — `starts with` by the truth values of all its
  candidates, in whatever order they come.
-/

namespace PathQuery.Truth

/-! ### The order of information -/

/-- A truth value says no more than another: it is unknown, or the same. -/
def Below (a b : Truth) : Prop :=
  a = .unknown ∨ a = b

theorem Below.refl (a : Truth) : a.Below a := Or.inr rfl

theorem Below.and {a a' b b' : Truth} (ha : a.Below a') (hb : b.Below b') :
    (a.and b).Below (a'.and b') := by
  rcases ha with rfl | rfl
  · cases b with
    | false =>
      rcases hb with h | rfl
      · cases h
      · exact Or.inr (and_comm a' .false).symm
    | true | unknown => exact Or.inl rfl
  · rcases hb with rfl | rfl
    · cases a with
      | false => exact Or.inr rfl
      | true | unknown => exact Or.inl rfl
    · exact Below.refl _

theorem Below.not {a b : Truth} (h : a.Below b) : a.not.Below b.not := by
  rcases h with rfl | rfl
  · exact Or.inl rfl
  · exact Below.refl _

theorem Below.or {a a' b b' : Truth} (ha : a.Below a') (hb : b.Below b') :
    (a.or b).Below (a'.or b') := by
  -- A disjunction is the negation of a conjunction of negations.
  have h := (ha.not.and hb.not).not
  rwa [not_and, not_and, not_not, not_not, not_not, not_not] at h

theorem Below.eq_of_ne_unknown {a b : Truth} (h : a.Below b) (ha : a ≠ .unknown) : b = a :=
  (h.resolve_left ha).symm

/-! ### What makes a truth value true -/

theorem not_eq_true_iff {t : Truth} : t.not = .true ↔ t = .false := by
  cases t <;> simp [not]

theorem ofBool_eq_true_iff {b : Bool} : ofBool b = .true ↔ b = Bool.true := by
  cases b <;> simp [ofBool]

/-! ### Connectives on results -/

theorem andThen_ok (a b : Truth) : andThen (.ok a) (fun _ => .ok b) = .ok (a.and b) := by
  cases a <;> cases b <;> rfl

theorem orElse_ok (a b : Truth) : orElse (.ok a) (fun _ => .ok b) = .ok (a.or b) := by
  cases a <;> cases b <;> rfl

/-! ### Beginnings -/

theorem ofPrefixes_go_strict (text : String) (soFar : Truth) (xs : List Item) :
    ofPrefixes.go .strict text soFar xs =
      if ∃ x ∈ xs, x.startsWith text = .unknown then .unknown
      else if ∃ x ∈ xs, x.startsWith text = .true then .true
      else soFar := by
  induction xs generalizing soFar with
  | nil => simp [ofPrefixes.go]
  | cons x xs ih =>
    unfold ofPrefixes.go
    cases hx : x.startsWith text with
    | true => simp [hx, ih .true]
    | false => simp [hx, ih soFar]
    | unknown => simp [hx]

theorem ofPrefixes_go_lax (text : String) (soFar : Truth) (xs : List Item) :
    ofPrefixes.go .lax text soFar xs =
      if ∃ x ∈ xs, x.startsWith text = .true then .true
      else if ∃ x ∈ xs, x.startsWith text = .unknown then .unknown
      else soFar := by
  induction xs generalizing soFar with
  | nil => simp [ofPrefixes.go]
  | cons x xs ih =>
    unfold ofPrefixes.go
    cases hx : x.startsWith text with
    | true => simp [hx]
    | false => simp [hx, ih soFar]
    | unknown => simp [hx, ih .unknown]

/-- In strict mode one candidate that is unknown makes the whole unknown. -/
theorem ofPrefixes_strict (text : String) (xs : List Item) :
    ofPrefixes .strict text xs =
      if ∃ x ∈ xs, x.startsWith text = .unknown then .unknown
      else if ∃ x ∈ xs, x.startsWith text = .true then .true
      else .false :=
  ofPrefixes_go_strict text .false xs

/-- In lax mode one candidate that is true makes the whole true. -/
theorem ofPrefixes_lax (text : String) (xs : List Item) :
    ofPrefixes .lax text xs =
      if ∃ x ∈ xs, x.startsWith text = .true then .true
      else if ∃ x ∈ xs, x.startsWith text = .unknown then .unknown
      else .false :=
  ofPrefixes_go_lax text .false xs

end PathQuery.Truth
