import PathQuery.DateTime.Template
import PathQuery.Proofs.Double.Decimal
import PathQuery.Proofs.Path.Tokens

/-!
# What directives take off the front of a text

Each part that is written into a date or a time is read back from its characters, in front of everything
that can stand behind it.

* `NoNumber` and `NoFraction` hold of the texts that can stand behind a number and behind a time of day.
* `Directive.Reads` — a directive takes these characters for the value of a field.
* `Directive.reads_number` and `Directive.reads_digits` — numbers of a fixed width; `Directive.ReadsPairs`
  holds of the directives that take two digits.
* `Directive.reads_year` — years with and without a sign.
* `Directive.take?_fraction`, `Directive.take?_offset` and `Directive.take?_strictOffset` — fractions and
  offsets.
-/

namespace PathQuery

/-! ### Digits -/

theorem toList_zeroPadded (width n : Nat) :
    (zeroPadded width n).toList =
      List.replicate (width - (Nat.toDigits 10 n).length) '0' ++ Nat.toDigits 10 n := by
  rw [zeroPadded, String.toList_ofList]

theorem areDigits_zeroPadded (width n : Nat) : AreDigits (zeroPadded width n).toList := by
  obtain ⟨hne, hdigits⟩ := areDigits_toDigits n
  rw [toList_zeroPadded]
  refine ⟨List.append_ne_nil_of_right_ne_nil _ hne, fun c hc => ?_⟩
  rcases List.mem_append.mp hc with hzero | hdigit
  · rw [List.eq_of_mem_replicate hzero]
    rfl
  · exact hdigits c hdigit

theorem digitsValue_zeroPadded (width n : Nat) : digitsValue (zeroPadded width n).toList = n := by
  rw [toList_zeroPadded, digitsValue_replicate_zero_append, digitsValue_toDigits]

theorem length_zeroPadded {width n : Nat} (hwidth : 0 < width) (h : n < 10 ^ width) :
    (zeroPadded width n).toList.length = width := by
  have hlength : (Nat.toDigits 10 n).length ≤ width :=
    (Nat.length_toDigits_le_iff (by decide) hwidth).mpr h
  rw [toList_zeroPadded, List.length_append, List.length_replicate]
  omega

/-- A number of two digits, the first of which is small when the number is one of minutes. -/
theorem exists_zeroPadded_pair {n : Nat} (h : n < 100) :
    ∃ a b : Char, (zeroPadded 2 n).toList = [a, b] ∧ a.isDigit = true ∧ b.isDigit = true ∧
      digitsValue [a, b] = n ∧ (n < 60 → (decide ('0' ≤ a) && decide (a ≤ '5')) = true) := by
  obtain ⟨a, b, hpair⟩ := List.length_eq_two.mp (length_zeroPadded (by decide) h)
  have hdigits := (areDigits_zeroPadded 2 n).2
  have hvalue := digitsValue_zeroPadded 2 n
  rw [hpair] at hdigits hvalue
  have ha := hdigits a List.mem_cons_self
  refine ⟨a, b, hpair, ha, hdigits b (List.mem_cons_of_mem a List.mem_cons_self), hvalue, fun hsmall => ?_⟩
  have hleast : '0' ≤ a := of_decide_eq_true (Bool.and_eq_true_iff.mp ha).1
  have hsum : 10 * (10 * 0 + (a.toNat - 48)) + (b.toNat - 48) = n := hvalue
  have hgreatest : a ≤ '5' := by
    show a.toNat ≤ 53
    omega
  rw [decide_eq_true hleast, decide_eq_true hgreatest]
  rfl

theorem toList_yearText (year : Int) :
    (yearText year).toList =
      if 0 ≤ year ∧ year ≤ 9999 then (zeroPadded 4 year.natAbs).toList
      else (if year < 0 then '-' else '+') :: (zeroPadded 4 year.natAbs).toList := by
  unfold yearText
  split
  · rfl
  · split <;> rw [String.toList_append] <;> rfl

theorem toList_offsetText (minutes : Int) :
    (offsetText minutes).toList = (if minutes < 0 then '-' else '+') ::
      ((zeroPadded 2 (minutes.natAbs / 60)).toList ++
        ':' :: (zeroPadded 2 (minutes.natAbs % 60)).toList) := by
  unfold offsetText
  split <;> simp

theorem head_offsetText (minutes : Int) (r : List Char) :
    ∀ c ∈ ((offsetText minutes).toList ++ r).head?,
      (c ≠ '.' ∧ c.isDigit = false) ∧ Text.isBlank c = false := by
  rw [toList_offsetText]
  split <;> exact Reader.forall_mem_head (by decide)

/-! ### What stands behind a part -/

/-- A text does not go on with a number. -/
def NoNumber (r : List Char) : Prop :=
  ∀ c ∈ r.head?, c.isDigit = false ∧ Text.isBlank c = false

/-- A text does not go on with a fraction, nor with more digits of one. -/
def NoFraction (r : List Char) : Prop :=
  ∀ c ∈ r.head?, c ≠ '.' ∧ c.isDigit = false

theorem noNumber_nil : NoNumber [] := fun _ hc => nomatch hc

theorem noFraction_nil : NoFraction [] := fun _ hc => nomatch hc

theorem noFraction_offsetText (minutes : Int) (r : List Char) :
    NoFraction ((offsetText minutes).toList ++ r) :=
  fun c hc => (head_offsetText minutes r c hc).1

theorem isBlank_of_isDigit {c : Char} (h : c.isDigit = true) : Text.isBlank c = false := by
  have hbounds := Bool.and_eq_true_iff.mp h
  have hleast : 0x30 ≤ c.toNat := of_decide_eq_true hbounds.1
  have hgreatest : c.toNat ≤ 0x39 := of_decide_eq_true hbounds.2
  simp only [Text.isBlank]
  grind

theorem head_of_areDigits {p : Char → Prop} {ds : List Char} (h : AreDigits ds)
    (hp : ∀ c : Char, c.isDigit = true → p c) (r : List Char) : ∀ c ∈ (ds ++ r).head?, p c := by
  obtain ⟨d, hd, hdigit⟩ := Reader.exists_digit_head h r
  intro c hc
  exact Option.mem_unique hd hc ▸ hp d hdigit

/-- Blank characters are taken off only where there are some. -/
theorem Text.trimLeft_of_head {cs : List Char} (h : ∀ c ∈ cs.head?, isBlank c = false) :
    trimLeft cs = cs := by
  have hnone : ∀ c ∈ ([] : List Char), isBlank c = true := fun _ hc => nomatch hc
  exact (Reader.span_append hnone h).2

theorem trimLeft_zeroPadded (width n : Nat) (r : List Char) :
    Text.trimLeft ((zeroPadded width n).toList ++ r) = (zeroPadded width n).toList ++ r :=
  Text.trimLeft_of_head (head_of_areDigits (areDigits_zeroPadded width n) (fun _ => isBlank_of_isDigit) r)

namespace Directive

variable {r : List Char} {field : Field} {width n : Nat}

/-! ### Numbers -/

theorem leadingDigits_full {ds : List Char} (h : ∀ c ∈ ds, c.isDigit = true) :
    leadingDigits (some ds.length) (ds ++ r) = ds := by
  simp only [leadingDigits]
  rw [List.takeWhile_append_of_pos h, List.take_left]

theorem leadingDigits_append {ds : List Char} (most : Option Nat) (h : ∀ c ∈ ds, c.isDigit = true)
    (hmost : ∀ n ∈ most, ds.length ≤ n) (hr : ∀ c ∈ r.head?, c.isDigit = false) :
    leadingDigits most (ds ++ r) = ds := by
  unfold leadingDigits
  rw [(Reader.span_append h hr).1]
  cases most with
  | none => rfl
  | some n => exact List.take_of_length_le (hmost n rfl)

theorem leadingDigits_eq_nil {most : Option Nat} (hr : ∀ c ∈ r.head?, c.isDigit = false) :
    leadingDigits most r = [] := by
  have hnone : ∀ c ∈ ([] : List Char), c.isDigit = true := fun _ hc => nomatch hc
  exact leadingDigits_append most hnone (fun _ _ => Nat.zero_le _) hr

theorem takeNumber?_of_leadingDigits {least : Nat} {most : Option Nat} {ds : List Char}
    (hlead : leadingDigits most (ds ++ r) = ds) (hds : ds ≠ []) (hleast : least ≤ ds.length)
    (hvalue : digitsValue ds < 2 ^ 63) :
    takeNumber? least most (ds ++ r) = some ((digitsValue ds : Int), r) := by
  have hadmitted : ¬ (ds.length < least ∨ ds.isEmpty = true ∨ 0x8000000000000000 ≤ digitsValue ds) := by
    rw [List.isEmpty_iff]
    rintro (hshort | hnil | hlarge)
    · exact Nat.not_lt.mpr hleast hshort
    · exact hds hnil
    · exact Nat.not_lt.mpr hlarge hvalue
  simp only [takeNumber?, hlead]
  rw [if_neg hadmitted, List.drop_left]

theorem takeNumber?_zeroPadded {least : Nat} (hleast : least ≤ width) (hwidth : 0 < width)
    (hwide : width ≤ 18) (h : n < 10 ^ width) :
    takeNumber? least (some width) ((zeroPadded width n).toList ++ r) = some ((n : Int), r) := by
  have hlength := length_zeroPadded hwidth h
  have hvalue : digitsValue (zeroPadded width n).toList < 2 ^ 63 := by
    rw [digitsValue_zeroPadded]
    calc n < 10 ^ width := h
      _ ≤ 10 ^ 18 := Nat.pow_le_pow_right (by decide) hwide
      _ < 2 ^ 63 := by norm_num
  have hlead := leadingDigits_full (r := r) (areDigits_zeroPadded width n).2
  rw [hlength] at hlead
  rw [takeNumber?_of_leadingDigits hlead (areDigits_zeroPadded width n).1
    (hleast.trans_eq hlength.symm) hvalue, digitsValue_zeroPadded]

theorem takeNumber?_eq_none {least : Nat} {most : Option Nat} (hr : ∀ c ∈ r.head?, c.isDigit = false) :
    takeNumber? least most r = none := by
  rw [takeNumber?, leadingDigits_eq_nil hr]
  exact if_pos (.inr (.inl rfl))

/-! ### Fields -/

/-- Reading a value and adding it is reading it and then changing the fields. -/
theorem addRead_eq {α : Type} (read : Option (α × List Char)) (add : α → Option Fields) :
    (do
      let (a, rest) ← read
      return (← add a, rest)) = read.bind fun p => (add p.1).map fun fs => (fs, p.2) := by
  cases read with
  | none => rfl
  | some p => cases hadd : add p.1 <;> simp [hadd]

/-- A directive takes these characters for the value of a field, whatever is known so far. -/
def Reads (d : Directive) (field : Field) (n : Int) (cs r : List Char) : Prop :=
  ∀ fs, d.take? fs (cs ++ r) = (fs.put? field n).map fun fs => (fs, r)

theorem takeField?_of_unsigned (hsigned : field.signed = false) (cs : List Char) :
    takeField? field cs = takeNumber? 1 field.width cs := by
  unfold takeField?
  rw [hsigned]

theorem takeField?_of_digit {cs : List Char} (h : ∀ c ∈ cs.head?, c.isDigit = true) (field : Field) :
    takeField? field cs = takeNumber? 1 field.width cs := by
  unfold takeField?
  split
  · cases h '-' rfl
  · cases h '+' rfl
  · rfl

theorem takeField?_minus (cs : List Char) :
    takeField? .year ('-' :: cs) = (takeNumber? 1 none cs).map fun p => (-p.1, p.2) := rfl

theorem takeField?_plus (cs : List Char) : takeField? .year ('+' :: cs) = takeNumber? 1 none cs := rfl

theorem take?_number (field : Field) (fs : Fields) (cs : List Char) :
    (number field).take? fs cs =
      (takeField? field (Text.trimLeft cs)).bind fun p => (fs.put? field p.1).map fun fs => (fs, p.2) := by
  rw [take?]
  exact addRead_eq _ (fs.put? field)

theorem reads_number (hsigned : field.signed = false) (hfield : field.width = some width)
    (hwidth : 0 < width) (hwide : width ≤ 18) (h : n < 10 ^ width) :
    (number field).Reads field n (zeroPadded width n).toList r := by
  intro fs
  rw [take?_number, trimLeft_zeroPadded, takeField?_of_unsigned hsigned, hfield,
    takeNumber?_zeroPadded hwidth hwidth hwide h]
  rfl

theorem reads_digits (hwidth : 0 < width) (hwide : width ≤ 18) (h : n < 10 ^ width) :
    (digits field width).Reads field n (zeroPadded width n).toList r := by
  intro fs
  rw [take?, takeNumber?_zeroPadded (Nat.le_refl width) hwidth hwide h]
  exact addRead_eq _ (fs.put? field)

/-- A directive takes two digits for the value of a field. -/
def ReadsPairs (d : Directive) (field : Field) : Prop :=
  ∀ (n : Nat) (r : List Char), n < 100 → d.Reads field n (zeroPadded 2 n).toList r

theorem readsPairs_number (hsigned : field.signed = false) (hfield : field.width = some 2) :
    (number field).ReadsPairs field :=
  fun _ _ h => reads_number hsigned hfield (by decide) (by decide) h

theorem readsPairs_digits (field : Field) : (digits field 2).ReadsPairs field :=
  fun _ _ h => reads_digits (by decide) (by decide) h

theorem takeNumber?_unlimited (h : n < 2 ^ 63) (hr : ∀ c ∈ r.head?, c.isDigit = false) :
    takeNumber? 1 none ((zeroPadded width n).toList ++ r) = some ((n : Int), r) := by
  obtain ⟨hne, hdigits⟩ := areDigits_zeroPadded width n
  have hlead := leadingDigits_append none hdigits (fun _ hn => nomatch hn) hr
  rw [takeNumber?_of_leadingDigits hlead hne (List.length_pos_of_ne_nil hne)
    (by rw [digitsValue_zeroPadded]; exact h), digitsValue_zeroPadded]

/-- Years are read back with and without a sign; behind a sign the digits go on to the next character that
is none. -/
theorem reads_year {year : Int} (h : year.natAbs < 2 ^ 63) (hr : ∀ c ∈ r.head?, c.isDigit = false) :
    (number .year).Reads .year year (yearText year).toList r := by
  intro fs
  rw [take?_number, toList_yearText]
  split
  case isTrue hplain =>
    have hfour : year.natAbs < 10 ^ 4 := by omega
    have hdigit := head_of_areDigits (p := fun c => c.isDigit = true) (areDigits_zeroPadded 4 year.natAbs)
      (fun _ hc => hc) r
    rw [trimLeft_zeroPadded, takeField?_of_digit hdigit, Field.width,
      takeNumber?_zeroPadded (by decide) (by decide) (by decide) hfour, Int.natAbs_of_nonneg hplain.1]
    rfl
  case isFalse =>
    split
    case isTrue hnegative =>
      have hvalue : -(year.natAbs : Int) = year := by omega
      rw [List.cons_append, Text.trimLeft_of_head (Reader.forall_mem_head rfl), takeField?_minus,
        takeNumber?_unlimited h hr]
      simp only [Option.map_some, Option.bind_some, hvalue]
    case isFalse hpositive =>
      have hvalue : (year.natAbs : Int) = year := by omega
      rw [List.cons_append, Text.trimLeft_of_head (Reader.forall_mem_head rfl), takeField?_plus,
        takeNumber?_unlimited h hr]
      simp only [Option.bind_some, hvalue]

/-! ### Texts without the number -/

theorem take?_number_eq_none (fs : Fields) (hsigned : field.signed = false)
    (hr : NoNumber r) : (number field).take? fs r = none := by
  rw [take?_number, Text.trimLeft_of_head fun c hc => (hr c hc).2, takeField?_of_unsigned hsigned,
    takeNumber?_eq_none fun c hc => (hr c hc).1]
  rfl

theorem take?_digits_eq_none (fs : Fields) (field : Field)
    (hshort : (leadingDigits (some width) r).length < width) : (digits field width).take? fs r = none := by
  have hnone : takeNumber? width (some width) r = none := if_pos (.inl hshort)
  rw [take?, hnone]
  rfl

/-! ### Fractions -/

theorem takeFraction?_zeroPadded (hwidth : 0 < width) (hwide : width ≤ 9) (h : n < 10 ^ width)
    (hr : ∀ c ∈ r.head?, c.isDigit = false) :
    takeFraction? ((zeroPadded width n).toList ++ r) = some (((n * 10 ^ (9 - width) : Nat) : Int), r) := by
  obtain ⟨hne, hdigits⟩ := areDigits_zeroPadded width n
  have hlength := length_zeroPadded hwidth h
  have hlead := leadingDigits_append (some 9) hdigits
    (fun _ hn => Option.some.inj hn ▸ hlength.trans_le hwide) hr
  simp only [takeFraction?, hlead]
  rw [(Reader.span_append hdigits hr).2, digitsValue_zeroPadded, hlength]
  exact if_neg (by rw [List.isEmpty_iff]; exact hne)

theorem take?_fraction_absent (fs : Fields) (hr : ∀ c ∈ r.head?, c ≠ '.') :
    fraction.take? fs r = some (fs, r) := by
  rw [take?]
  rintro rest rfl
  exact hr '.' rfl rfl

/-- A fraction is read back from its 3, 6 or 9 digits, and zero from none. -/
theorem take?_fraction (fs : Fields) (h : n < 10 ^ 9) (hr : NoFraction r) :
    fraction.take? fs ((fractionText n).toList ++ r) =
      if n = 0 then some (fs, r) else (fs.put? .nanosecond n).map fun fs => (fs, r) := by
  have hdigit : ∀ c ∈ r.head?, c.isDigit = false := fun c hc => (hr c hc).2
  have hpointed {width value : Nat} (hwidth : 0 < width) (hwide : width ≤ 9) (hvalue : value < 10 ^ width)
      (hn : value * 10 ^ (9 - width) = n) :
      fraction.take? fs (("." ++ zeroPadded width value).toList ++ r) =
        (fs.put? .nanosecond n).map fun fs => (fs, r) := by
    rw [String.toList_append]
    show fraction.take? fs ('.' :: ((zeroPadded width value).toList ++ r)) = _
    rw [take?, takeFraction?_zeroPadded hwidth hwide hvalue hdigit, hn]
    exact addRead_eq _ (fs.put? .nanosecond)
  unfold fractionText
  split
  case isTrue hzero => exact take?_fraction_absent fs fun c hc => (hr c hc).1
  case isFalse hzero =>
    split
    case isTrue hmilli => exact hpointed (by decide) (by decide) (by omega) (by omega)
    case isFalse =>
      split
      case isTrue hmicro => exact hpointed (by decide) (by decide) (by omega) (by omega)
      case isFalse => exact hpointed (by decide) (by decide) h (by omega)

end Directive

/-! ### Offsets -/

namespace Directive.OffsetForm

variable {r : List Char}

theorem afterHours?_colon (form : OffsetForm) {c : Char} (hc : c.isDigit = true) :
    form.afterHours? (':' :: c :: r) = some (c :: r) := by
  have hblank := isBlank_of_isDigit hc
  have hcolon : c ≠ ':' := by
    rintro rfl
    cases hc
  unfold afterHours?
  split
  · rfl
  · simp [List.dropWhile, hblank, hcolon]

/-- An offset is read back from its sign, hours and minutes. -/
theorem take?_offsetText (form : OffsetForm) {minutes : Int} (h : minutes.natAbs < 1440) :
    form.take? ((offsetText minutes).toList ++ r) = some (minutes * 60, r) := by
  obtain ⟨a, b, hhours, ha, hb, hhour, -⟩ :=
    exists_zeroPadded_pair (n := minutes.natAbs / 60) (by omega)
  obtain ⟨c, d, hminutes, hc, hd, hminute, hsmall⟩ :=
    exists_zeroPadded_pair (n := minutes.natAbs % 60) (by omega)
  have hfive := hsmall (Nat.mod_lt _ (by decide))
  have hrest := form.afterHours?_colon (r := d :: r) hc
  rw [toList_offsetText, hhours, hminutes]
  split
  case isTrue hnegative =>
    have hvalue : -1 * ((minutes.natAbs / 60 : Nat) * 3600 + (minutes.natAbs % 60 : Nat) * 60 : Int) =
        minutes * 60 := by omega
    simp only [take?, List.cons_append, List.nil_append, ha, hb, hrest, hhour, hminute, hfive, hd, hvalue,
      Bool.and_self, if_true, Option.bind_some]
  case isFalse hpositive =>
    have hvalue : 1 * ((minutes.natAbs / 60 : Nat) * 3600 + (minutes.natAbs % 60 : Nat) * 60 : Int) =
        minutes * 60 := by omega
    simp only [take?, List.cons_append, List.nil_append, ha, hb, hrest, hhour, hminute, hfive, hd, hvalue,
      Bool.and_self, if_true, Option.bind_some]

end Directive.OffsetForm

namespace Directive

variable {r : List Char} {minutes : Int}

theorem take?_offset (fs : Fields) (h : minutes.natAbs < 1440) :
    offset.take? fs ((offsetText minutes).toList ++ r) =
      (fs.putOffset? (minutes * 60)).map fun fs => (fs, r) := by
  have hhead : ∀ c ∈ ((offsetText minutes).toList ++ r).head?, Text.isBlank c = false :=
    fun c hc => (head_offsetText minutes r c hc).2
  rw [take?, Text.trimLeft_of_head hhead, OffsetForm.take?_offsetText _ h]
  exact addRead_eq _ fs.putOffset?

theorem take?_strictOffset (fs : Fields) (h : minutes.natAbs < 1440) :
    strictOffset.take? fs ((offsetText minutes).toList ++ r) =
      (fs.putOffset? (minutes * 60)).map fun fs => (fs, r) := by
  have hday : decide ((minutes * 60).natAbs < 86400) = true := decide_eq_true (by omega)
  have hfilter : (some (minutes * 60, r)).filter (fun p => decide (p.1.natAbs < 86400)) =
      some (minutes * 60, r) := if_pos hday
  rw [take?, OffsetForm.take?_offsetText _ h, hfilter]
  exact addRead_eq _ fs.putOffset?

/-! ### Marks -/

theorem take?_literal (fs : Fields) (c : Char) : (literal [c]).take? fs (c :: r) = some (fs, r) := by
  simp [take?]

theorem take?_literal_eq_none (fs : Fields) {c : Char} (hr : r.head? ≠ some c) :
    (literal [c]).take? fs r = none := by
  cases r with
  | nil => rfl
  | cons d r =>
    have hd : c ≠ d := fun h => hr (congrArg some h.symm)
    simp [take?, hd]

end Directive

end PathQuery
