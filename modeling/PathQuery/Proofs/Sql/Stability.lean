import PathQuery.Proofs.DateTime.RoundTrip
import PathQuery.Proofs.Sql.Coercion

/-!
# Conversions through texts and between the integer types

* `Text.trim_eq_self` — a text without blank characters at its ends is not trimmed.
* `Coercion.standard_text` — a value that is not a double is what its text converts to.
* `Coercion.standard_integer_cases` — an item has one reading as an integer, for both integer types.
* `Coercion.standard_stable` — both facts about every conversion that succeeds.
-/

namespace PathQuery

/-- The same error about a conversion to another type. -/
def CoercionError.withTarget (target : SqlType) : CoercionError → CoercionError
  | .invalidCast described _ => .invalidCast described target
  | .outOfRange value _ => .outOfRange value target
  | .tooLong length _ => .tooLong length target
  | .unknownType name => .unknownType name

/-! ### Texts that are not trimmed -/

namespace Text

theorem trim_eq_self {s : String} (hfirst : ∀ c ∈ s.toList.head?, isBlank c = false)
    (hlast : ∀ c ∈ s.toList.getLast?, isBlank c = false) : trim s = s := by
  rw [← List.head?_reverse] at hlast
  rw [trim, trimLeft_of_head hfirst, trimLeft_of_head hlast, List.reverse_reverse, String.ofList_toList]

theorem trim_of_forall {s : String} (h : ∀ c ∈ s.toList, isBlank c = false) : trim s = s :=
  trim_eq_self (fun c hc => h c (List.mem_of_mem_head? hc)) (fun c hc => h c (List.mem_of_mem_getLast? hc))

end Text

theorem not_isBlank_zeroPadded {width n : Nat} :
    ∀ c ∈ (zeroPadded width n).toList, Text.isBlank c = false :=
  fun c hc => isBlank_of_isDigit ((areDigits_zeroPadded width n).2 c hc)

theorem Date.not_isBlank_text (d : Date) : ∀ c ∈ d.text.toList, Text.isBlank c = false := by
  have hmark : Text.isBlank '-' = false := rfl
  have hyear : ∀ c ∈ (yearText d.year).toList, Text.isBlank c = false := by
    rw [toList_yearText]
    split
    · exact not_isBlank_zeroPadded
    · refine List.forall_mem_cons.mpr ⟨?_, not_isBlank_zeroPadded⟩
      split <;> rfl
  rw [d.toList_text]
  simp only [List.forall_mem_append, List.forall_mem_cons]
  exact ⟨hyear, hmark, not_isBlank_zeroPadded, hmark, not_isBlank_zeroPadded⟩

theorem Time.not_isBlank_text (t : Time) : ∀ c ∈ t.text.toList, Text.isBlank c = false := by
  have hmark : Text.isBlank ':' = false := rfl
  have hfraction : ∀ c ∈ (fractionText t.nanosecond).toList, Text.isBlank c = false := by
    have hpointed {width n : Nat} :
        ∀ c ∈ ("." ++ zeroPadded width n).toList, Text.isBlank c = false := by
      rw [String.toList_append]
      exact List.forall_mem_cons.mpr ⟨rfl, not_isBlank_zeroPadded⟩
    unfold fractionText
    split
    · exact List.forall_mem_nil _
    · split
      · exact hpointed
      · split <;> exact hpointed
  rw [t.toList_text]
  simp only [List.forall_mem_append, List.forall_mem_cons]
  exact ⟨not_isBlank_zeroPadded, hmark, not_isBlank_zeroPadded, hmark, not_isBlank_zeroPadded, hfraction⟩

theorem Timestamp.trim_textWith (t : Timestamp) (separator : String) :
    Text.trim (t.textWith separator) = t.textWith separator := by
  have hdate : t.date.text.toList ≠ [] := by
    rw [t.date.toList_text]
    exact List.append_ne_nil_of_right_ne_nil _ (List.cons_ne_nil _ _)
  have htime : t.time.text.toList ≠ [] := by
    rw [t.time.toList_text]
    exact List.append_ne_nil_of_right_ne_nil _ (List.cons_ne_nil _ _)
  have htext : (t.textWith separator).toList =
      t.date.text.toList ++ (separator.toList ++ t.time.text.toList) := by
    simp [Timestamp.textWith]
  refine Text.trim_eq_self ?_ ?_
  · rw [htext, List.head?_append_of_ne_nil _ hdate]
    exact fun c hc => t.date.not_isBlank_text c (List.mem_of_mem_head? hc)
  · rw [htext, ← List.append_assoc, List.getLast?_append_of_ne_nil _ htime]
    exact fun c hc => t.time.not_isBlank_text c (List.mem_of_mem_getLast? hc)

namespace Coercion

variable {v : SqlValue} {t : SqlType}

/-! ### Values and their texts -/

theorem toList_toString_int (i : Int) :
    (toString i).toList =
      if i < 0 then '-' :: Nat.toDigits 10 i.natAbs else Nat.toDigits 10 i.natAbs := by
  cases i with
  | ofNat n =>
    rw [if_neg (Int.not_lt.mpr (Int.natCast_nonneg n) : ¬ Int.ofNat n < 0)]
    exact Nat.toList_repr
  | negSucc n =>
    rw [if_pos (Int.negSucc_lt_zero n)]
    show ("-" ++ toString (n + 1)).toList = _
    rw [String.toList_append]
    exact congrArg ('-' :: ·) Nat.toList_repr

theorem integer?_of_areDigits {ds : List Char} (h : AreDigits ds) :
    Numeral.integer? ds = some (digitsValue ds : Int) ∧
      Numeral.integer? ('-' :: ds) = some (-(digitsValue ds : Int)) := by
  obtain ⟨hne, hdigits⟩ := h
  have hread : ¬ (ds.isEmpty || !ds.all Char.isDigit) = true := by
    rw [List.all_eq_true.mpr hdigits, Bool.not_true, Bool.or_false, List.isEmpty_iff]
    exact hne
  constructor
  · unfold Numeral.integer?
    split
    · cases hdigits '+' List.mem_cons_self
    · cases hdigits '-' List.mem_cons_self
    · dsimp only
      rw [if_neg hread]
      rfl
  · simp only [Numeral.integer?]
    rw [if_neg hread]
    rfl

theorem integer?_toString (n : Int64) : integer? (toString n.toInt) = some n := by
  have htrim : Text.trim (toString n.toInt) = toString n.toInt := by
    have hdigits (k : Nat) : ∀ c ∈ Nat.toDigits 10 k, Text.isBlank c = false :=
      fun c hc => isBlank_of_isDigit (isDigit_of_mem_toDigits hc)
    refine Text.trim_of_forall ?_
    rw [toList_toString_int]
    split
    · exact List.forall_mem_cons.mpr ⟨rfl, hdigits _⟩
    · exact hdigits _
  have hread : Numeral.integer? (toString n.toInt).toList = some n.toInt := by
    obtain ⟨hplain, hsigned⟩ := integer?_of_areDigits (areDigits_toDigits n.toInt.natAbs)
    rw [digitsValue_toDigits] at hplain hsigned
    rw [toList_toString_int]
    split
    case isTrue hnegative => rw [hsigned, Int.ofNat_natAbs_of_nonpos (le_of_lt hnegative), neg_neg]
    case isFalse hpositive => rw [hplain, Int.natAbs_of_nonneg (not_lt.mp hpositive)]
  rw [integer?, htrim, hread, Option.bind_some, int64?_toInt]

theorem narrow?_integer_eq_some_iff {m : Int64} {n : Int32} :
    narrow? .integer m = some (.integer n) ↔ m.toInt = n.toInt := by
  rw [narrow?]
  constructor
  · intro h
    split at h
    case isTrue hbounds =>
      cases h
      exact (Int32.toInt_ofInt_of_le hbounds.1 hbounds.2).symm
    case isFalse => cases h
  · intro h
    have hleast := n.le_toInt
    have hmost := n.toInt_lt
    rw [h, if_pos (by omega), Int32.ofInt_toInt]

theorem narrow?_integer_eq_none {m : Int64} (h : m.toInt < -0x80000000 ∨ 0x80000000 ≤ m.toInt) :
    narrow? .integer m = none :=
  if_neg (by omega)

/-- A value that is not a double is what its text converts to. -/
theorem standard_text (h : v.Fits t) (ht : t ≠ .double) : standard (.string v.text) t = .ok v := by
  obtain ⟨htype, hlength⟩ := h
  cases t with
  | double => exact absurd rfl ht
  | boolean =>
    cases v with
    | boolean b =>
      have hread : truth? (.string (SqlValue.boolean b).text) = some b := by
        cases b <;> decide +kernel
      rw [standard_boolean, hread]
      rfl
    | _ => cases htype
  | integer =>
    cases v with
    | integer n =>
      have hvalue : n.toInt64.toInt = n.toInt := n.toInt_toInt64
      rw [standard_integer, toInteger_eq_ok_iff]
      refine ⟨n.toInt64, ?_, narrow?_integer_eq_some_iff.mpr hvalue⟩
      rw [← integer?_toString, hvalue]
      rfl
    | _ => cases htype
  | bigInt =>
    cases v with
    | bigInt n =>
      rw [standard_bigInt, toInteger_eq_ok_iff]
      exact ⟨n, integer?_toString n, rfl⟩
    | _ => cases htype
  | varchar limit =>
    cases v with
    | varchar s => exact standard_varchar_eq_ok_iff.mpr ⟨s, rfl, hlength, rfl⟩
    | _ => cases htype
  | date =>
    cases v with
    | date d =>
      have htrim : Text.trim d.text = d.text := Text.trim_of_forall d.not_isBlank_text
      have hread : datetime? (.string d.text) = some (.date d) := by
        rw [datetime?, htrim, DateTime.ofIso?_date]
      rw [standard_date, SqlValue.text, hread]
      rfl
    | _ => cases htype
  | timestamp =>
    cases v with
    | timestamp t =>
      have hread : datetime? (.string (t.textWith " ")) = some (.timestamp t) := by
        rw [datetime?, t.trim_textWith, DateTime.ofIso?_timestamp_blank]
      rw [standard_timestamp, SqlValue.text, hread]
      rfl
    | _ => cases htype

/-! ### The two integer types -/

/-- An integer of 64 bits as one of 32 bits, or the error that it is beyond them. -/
def narrowed (shown : String) (m : Int64) : Except CoercionError SqlValue :=
  match narrow? .integer m with
  | some v => .ok v
  | none => .error (.outOfRange shown .integer)

/-- An item has one reading as an integer; the types differ in their ranges and in their names. -/
theorem standard_integer_cases (x : Item) :
    (∃ e : CoercionError, standard x .bigInt = .error e ∧
      standard x .integer = .error (e.withTarget .integer)) ∨
    ∃ (m : Int64) (shown : String), standard x .bigInt = .ok (.bigInt m) ∧
      standard x .integer = narrowed shown m := by
  rw [standard_bigInt, standard_integer]
  cases x with
  | boolean b => exact .inr ⟨_, booleanText b, rfl, rfl⟩
  | number n =>
    simp only [toInteger]
    cases n.toInt? with
    | some m => exact .inr ⟨m, n.text, rfl, rfl⟩
    | none => exact .inl ⟨_, rfl, rfl⟩
  | string s =>
    simp only [toInteger]
    cases integer? s with
    | some m => exact .inr ⟨m, s, rfl, rfl⟩
    | none => exact .inl ⟨_, rfl, rfl⟩
  | _ => exact .inl ⟨_, rfl, rfl⟩

/-- An item converts to an integer of 32 bits exactly if it converts to the same number of 64 bits. -/
theorem standard_integer_iff (x : Item) (v : SqlValue) :
    standard x .integer = .ok v ↔ ∃ (n : Int32) (m : Int64),
      v = .integer n ∧ standard x .bigInt = .ok (.bigInt m) ∧ m.toInt = n.toInt := by
  rcases standard_integer_cases x with ⟨e, hbig, hinteger⟩ | ⟨m, shown, hbig, hinteger⟩
  · rw [hbig, hinteger]
    simp
  · rw [hbig, hinteger]
    constructor
    · intro h
      cases hv : narrow? .integer m with
      | none =>
        rw [narrowed, hv] at h
        cases h
      | some w =>
        rw [narrowed, hv] at h
        cases h
        cases v with
        | integer n => exact ⟨n, m, rfl, rfl, narrow?_integer_eq_some_iff.mp hv⟩
        | _ => cases narrow?_integer_type hv
    · rintro ⟨n, m', rfl, hm, hn⟩
      cases hm
      rw [narrowed, narrow?_integer_eq_some_iff.mpr hn]

theorem standard_bigInt_ok {x : Item} {v : SqlValue} (h : standard x .bigInt = .ok v) :
    ∃ m, v = .bigInt m ∧ (m.toInt < -0x80000000 ∨ 0x80000000 ≤ m.toInt →
      ∃ shown, standard x .integer = .error (.outOfRange shown .integer)) := by
  rcases standard_integer_cases x with ⟨e, hbig, -⟩ | ⟨m, shown, hbig, hinteger⟩
  · cases hbig.symm.trans h
  · cases hbig.symm.trans h
    refine ⟨m, rfl, fun hrange => ⟨shown, ?_⟩⟩
    rw [hinteger, narrowed, narrow?_integer_eq_none hrange]

theorem standard_bigInt_error {x : Item} {e : CoercionError} (h : standard x .bigInt = .error e) :
    standard x .integer = .error (e.withTarget .integer) := by
  rcases standard_integer_cases x with ⟨e', hbig, hinteger⟩ | ⟨m, shown, hbig, -⟩
  · cases hbig.symm.trans h
    exact hinteger
  · cases hbig.symm.trans h

/-- **Conversions are stable.** What an item converts to is also what the text of the result converts to,
doubles left out. The conversions to the two integer types give the same number where it is in the range of
both; where it is not, only the narrower type refuses it, and where the wider type refuses an item, the
narrower one does so for the same reason. -/
theorem standard_stable :
    (∀ (x : Item) (t : SqlType) (v : SqlValue), t ≠ .double → standard x t = .ok v →
      standard (.string v.text) t = .ok v) ∧
    (∀ (x : Item) (v : SqlValue), standard x .integer = .ok v ↔ ∃ (n : Int32) (m : Int64),
      v = .integer n ∧ standard x .bigInt = .ok (.bigInt m) ∧ m.toInt = n.toInt) ∧
    (∀ (x : Item) (v : SqlValue), standard x .bigInt = .ok v →
      ∃ m, v = .bigInt m ∧ (m.toInt < -0x80000000 ∨ 0x80000000 ≤ m.toInt →
        ∃ shown, standard x .integer = .error (.outOfRange shown .integer))) ∧
    (∀ (x : Item) (e : CoercionError), standard x .bigInt = .error e →
      standard x .integer = .error (e.withTarget .integer)) :=
  ⟨fun _ _ _ ht h => standard_text (standard_fits h) ht, standard_integer_iff,
    fun _ _ => standard_bigInt_ok, fun _ _ => standard_bigInt_error⟩

/-- A text with blanks, a sign and zeros; a timestamp with an offset; an integer of 64 bits; and a word. -/
theorem standard_stable_of_texts :
    let leap : Timestamp := ⟨⟨-1, 2, 28, by decide⟩, ⟨23, 59, 60, 500000000, by decide⟩⟩
    (standard (.string " +0042 ") .integer = .ok (.integer 42) ∧
      standard (.string "42") .integer = .ok (.integer 42)) ∧
    (standard (.string "-0001-02-28T23:59:60.5-05:30") .timestamp = .ok (.timestamp leap) ∧
      standard (.string "-0001-02-28 23:59:60.500") .timestamp = .ok (.timestamp leap)) ∧
    (standard (.string "2147483648") .bigInt = .ok (.bigInt 2147483648) ∧
      ∃ shown, standard (.string "2147483648") .integer = .error (.outOfRange shown .integer)) ∧
    (standard (.string "x") .bigInt = .error (.invalidCast "string 'x'" .bigInt) ∧
      standard (.string "x") .integer = .error (.invalidCast "string 'x'" .integer)) := by
  intro leap
  have hinteger : standard (.string " +0042 ") .integer = .ok (.integer 42) := by decide +kernel
  have htimestamp : standard (.string "-0001-02-28T23:59:60.5-05:30") .timestamp =
      .ok (.timestamp leap) := by decide +kernel
  have hbig : standard (.string "2147483648") .bigInt = .ok (.bigInt 2147483648) := by decide +kernel
  have hword : standard (.string "x") .bigInt = .error (.invalidCast "string 'x'" .bigInt) := by
    decide +kernel
  have hforty : (SqlValue.integer 42).text = "42" := by decide +kernel
  have hleap : (SqlValue.timestamp leap).text = "-0001-02-28 23:59:60.500" := by decide +kernel
  obtain ⟨htexts, -, hrange, herror⟩ := standard_stable
  refine ⟨⟨hinteger, ?_⟩, ⟨htimestamp, ?_⟩, ⟨hbig, ?_⟩, hword, ?_⟩
  · rw [← hforty]
    exact htexts _ .integer _ (by decide) hinteger
  · rw [← hleap]
    exact htexts _ .timestamp _ (by decide) htimestamp
  · obtain ⟨m, hm, hout⟩ := hrange _ _ hbig
    cases hm
    exact hout (.inr (by decide))
  · exact herror _ _ hword

end Coercion

end PathQuery
