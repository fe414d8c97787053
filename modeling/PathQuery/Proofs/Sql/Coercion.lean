import PathQuery.Sql.Coercion

/-!
# Converted values are of their type

* `SqlValue.Fits` — a value is of a type; a text also keeps to the limit of its type.
* `Coercion.toInteger_eq_ok_iff` — the integers that items stand for, and the ones that a type has.
* `Coercion.standard_fits` — a conversion to a type gives nothing but values of it.
-/

namespace PathQuery

/-- The type without its limit, which no value shows. -/
def SqlType.unlimited : SqlType → SqlType
  | .varchar _ => .varchar none
  | t => t

/-- The greatest number of characters of a text. -/
def SqlType.maxLength : SqlType → Option UInt32
  | .varchar limit => limit
  | _ => none

namespace SqlValue

/-- A value is of a type. -/
structure Fits (v : SqlValue) (t : SqlType) : Prop where
  type_eq : v.type = t.unlimited
  length_le : ∀ n ∈ t.maxLength, v.text.length ≤ n.toNat

variable {v : SqlValue} {t : SqlType}

/-- Only texts have limits to keep to. -/
theorem fits_of_type_eq (h : v.type = t) (ht : t.maxLength = none) : v.Fits t where
  type_eq := by
    cases t with
    | varchar limit =>
      cases ht
      exact h
    | _ => exact h
  length_le n hn := by
    rw [ht] at hn
    cases hn

theorem fits_varchar_iff {limit : Option UInt32} :
    v.Fits (.varchar limit) ↔ ∃ s, v = .varchar s ∧ ∀ n ∈ limit, s.length ≤ n.toNat := by
  constructor
  · rintro ⟨htype, hlength⟩
    cases v with
    | varchar s => exact ⟨s, rfl, hlength⟩
    | _ => cases htype
  · rintro ⟨s, rfl, hlength⟩
    exact ⟨rfl, hlength⟩

/-- The JSON form of a text with a limit is a string that keeps to it. -/
theorem Fits.toJson_eq_string {n : UInt32} (h : v.Fits (.varchar (some n))) :
    ∃ s, v.toJson = .string s ∧ s.length ≤ n.toNat := by
  obtain ⟨s, rfl, hlength⟩ := fits_varchar_iff.mp h
  exact ⟨s, rfl, hlength n rfl⟩

end SqlValue

namespace Coercion

variable {x : Item} {v : SqlValue} {t : SqlType}

/-! ### What items stand for -/

/-- The truth value that an item stands for. -/
def truth? : Item → Option Bool
  | .boolean b => some b
  | .number n => some !n.toDouble.isZero
  | .string s => boolean? s
  | _ => none

/-- The 64-bit integer that an item stands for. -/
def wholeNumber? : Item → Option Int64
  | .boolean b => some (if b then 1 else 0)
  | .number n => n.toInt?
  | .string s => integer? s
  | _ => none

/-- The double that an item stands for; a text is a finite one. -/
def double? : Item → Option Double
  | .number n => some n.toDouble
  | .string s => (Double.ofText? (Text.trim s)).filter Double.isFinite
  | _ => none

/-- A value, or else the error that the item has none. -/
def orInvalid (x : Item) (t : SqlType) : Option SqlValue → Except CoercionError SqlValue
  | some v => .ok v
  | none => .error (.invalidCast (describe x) t)

theorem orInvalid_eq_ok_iff {o : Option SqlValue} : orInvalid x t o = .ok v ↔ o = some v := by
  cases o <;> simp [orInvalid]

/-! ### Conversions that succeed -/

theorem standard_boolean (x : Item) :
    standard x .boolean = orInvalid x .boolean ((truth? x).map .boolean) := by
  cases x with
  | string s =>
    -- Its equations are costly for Lean to state, so the definition is opened as it is.
    delta standard
    dsimp only [truth?]
    cases boolean? s <;> rfl
  | _ => rfl

theorem standard_integer (x : Item) : standard x .integer = toInteger x .integer := rfl

theorem standard_bigInt (x : Item) : standard x .bigInt = toInteger x .bigInt := rfl

theorem standard_double (x : Item) :
    standard x .double = orInvalid x .double ((double? x).map .double) := by
  cases x with
  | string s =>
    delta standard
    dsimp only [double?]
    cases (Double.ofText? (Text.trim s)).filter Double.isFinite <;> rfl
  | _ => rfl

theorem standard_date (x : Item) :
    standard x .date = orInvalid x .date (((datetime? x).bind date?).map .date) := rfl

theorem standard_timestamp (x : Item) :
    standard x .timestamp = orInvalid x .timestamp (((datetime? x).bind timestamp?).map .timestamp) :=
  rfl

theorem standard_varchar (x : Item) (limit : Option UInt32) :
    standard x (.varchar limit) =
      match text? x with
      | none => .error (.invalidCast (describe x) (.varchar limit))
      | some s =>
          if limit.any fun n => n.toNat < s.length then .error (.tooLong s.length (.varchar limit))
          else .ok (.varchar s) := rfl

theorem toInteger_eq_ok_iff :
    toInteger x t = .ok v ↔ ∃ n, wholeNumber? x = some n ∧ narrow? t n = some v := by
  cases x with
  | boolean b =>
    simp only [toInteger, wholeNumber?]
    cases hv : narrow? t (if b then 1 else 0) <;> simp [hv]
  | number n =>
    simp only [toInteger, wholeNumber?]
    cases n.toInt? with
    | none => simp
    | some i => cases hv : narrow? t i <;> simp [hv]
  | string s =>
    simp only [toInteger, wholeNumber?]
    cases integer? s with
    | none => simp
    | some i => cases hv : narrow? t i <;> simp [hv]
  | _ => simp [toInteger, wholeNumber?]

theorem standard_varchar_eq_ok_iff {limit : Option UInt32} :
    standard x (.varchar limit) = .ok v ↔
      ∃ s, text? x = some s ∧ (∀ n ∈ limit, s.length ≤ n.toNat) ∧ .varchar s = v := by
  rw [standard_varchar]
  cases text? x with
  | none => simp
  | some s =>
    cases limit with
    | none => simp
    | some n =>
      rcases Nat.lt_or_ge n.toNat s.length with hlong | hlength
      · simp [hlong, Nat.not_le.mpr hlong]
      · simp [hlength, Nat.not_lt.mpr hlength]

/-! ### Types -/

theorem narrow?_integer_type {n : Int64} (h : narrow? .integer n = some v) : v.type = .integer := by
  simp only [narrow?] at h
  split at h
  · cases h
    rfl
  · cases h

theorem narrow?_bigInt_type {n : Int64} (h : narrow? .bigInt n = some v) : v.type = .bigInt := by
  cases h
  rfl

/-- **A converted value is of the type that it is converted to.** -/
theorem standard_fits (h : standard x t = .ok v) : v.Fits t := by
  cases t with
  | boolean =>
    rw [standard_boolean, orInvalid_eq_ok_iff] at h
    obtain ⟨b, -, rfl⟩ := Option.map_eq_some_iff.mp h
    exact SqlValue.fits_of_type_eq rfl rfl
  | integer =>
    rw [standard_integer, toInteger_eq_ok_iff] at h
    obtain ⟨n, -, hn⟩ := h
    exact SqlValue.fits_of_type_eq (narrow?_integer_type hn) rfl
  | bigInt =>
    rw [standard_bigInt, toInteger_eq_ok_iff] at h
    obtain ⟨n, -, hn⟩ := h
    exact SqlValue.fits_of_type_eq (narrow?_bigInt_type hn) rfl
  | double =>
    rw [standard_double, orInvalid_eq_ok_iff] at h
    obtain ⟨y, -, rfl⟩ := Option.map_eq_some_iff.mp h
    exact SqlValue.fits_of_type_eq rfl rfl
  | varchar limit =>
    obtain ⟨s, -, hlength, rfl⟩ := standard_varchar_eq_ok_iff.mp h
    exact SqlValue.fits_varchar_iff.mpr ⟨s, rfl, hlength⟩
  | date =>
    rw [standard_date, orInvalid_eq_ok_iff] at h
    obtain ⟨d, -, rfl⟩ := Option.map_eq_some_iff.mp h
    exact SqlValue.fits_of_type_eq rfl rfl
  | timestamp =>
    rw [standard_timestamp, orInvalid_eq_ok_iff] at h
    obtain ⟨d, -, rfl⟩ := Option.map_eq_some_iff.mp h
    exact SqlValue.fits_of_type_eq rfl rfl

end Coercion

end PathQuery
