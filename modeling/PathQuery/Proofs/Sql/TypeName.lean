import Mathlib.Data.List.TakeWhile
import PathQuery.Proofs.Sql.Stability

/-!
# Names of types

The name that is written for a type is read as this type, also with other cases of its letters and with blank
characters around it.

* `Text.IsVariant` — a text in any case of its letters, with any blank characters around it.
* `SqlType.ofText?_of_isVariant` — a text and its variants name the same type, or none.
* `SqlType.ofText?_text` — the name of a type is read as the type; for a text type with a limit this is
  `SqlType.limit?_toDigits` and `SqlType.parenthesised?_append`.
* `SqlType.names_read_back` — both together.
-/

namespace PathQuery

namespace Text

/-! ### Case and blank characters -/

/-- A second text is the first one in any case of its ASCII letters, with any blank characters around it. -/
def IsVariant (s t : String) : Prop :=
  ∃ before cs after, t.toList = before ++ cs ++ after ∧ (∀ c ∈ before, isBlank c = true) ∧
    (∀ c ∈ after, isBlank c = true) ∧ cs.map Char.toLower = s.toList.map Char.toLower

/-- Only the capital letters of ASCII are changed. -/
theorem toLower_eq_self {c : Char} (h : c.toNat < 0x41 ∨ 0x5A < c.toNat) : c.toLower = c := by
  refine dif_neg fun hupper => ?_
  have hleast : 0x41 ≤ c.toNat := UInt32.le_iff_toNat_le.mp hupper.1
  have hmost : c.toNat ≤ 0x5A := UInt32.le_iff_toNat_le.mp hupper.2
  omega

theorem isBlank_toLower (c : Char) : isBlank c.toLower = isBlank c := by
  have hall : ∀ n ≤ 0x5A, isBlank (Char.ofNat n).toLower = isBlank (Char.ofNat n) := by decide +kernel
  rcases Nat.lt_or_ge 0x5A c.toNat with h | h
  · rw [toLower_eq_self (.inr h)]
  · simpa only [Char.ofNat_toNat] using hall c.toNat h

/-- The characters that are left when blank ones are taken off both ends. -/
theorem toList_trim (s : String) :
    (trim s).toList = (trimLeft (trimLeft s.toList).reverse).reverse :=
  String.toList_ofList

theorem trimLeft_of_forall {cs : List Char} (h : ∀ c ∈ cs, isBlank c = true) : trimLeft cs = [] :=
  List.dropWhile_eq_nil_iff.mpr h

theorem map_toLower_trimLeft (cs : List Char) :
    (trimLeft cs).map Char.toLower = trimLeft (cs.map Char.toLower) := by
  have hblank : isBlank ∘ Char.toLower = isBlank := funext isBlank_toLower
  rw [trimLeft, trimLeft, List.dropWhile_map, hblank]

theorem map_toLower_trim (s : String) :
    (trim s).toList.map Char.toLower =
      (trimLeft (trimLeft (s.toList.map Char.toLower)).reverse).reverse := by
  rw [toList_trim, List.map_reverse, map_toLower_trimLeft, List.map_reverse, map_toLower_trimLeft]

/-- Blank characters around a text are taken off with its own. -/
theorem trimLeft_padded {before cs after : List Char} (hbefore : ∀ c ∈ before, isBlank c = true)
    (hafter : ∀ c ∈ after, isBlank c = true) :
    trimLeft (trimLeft (before ++ cs ++ after)).reverse = trimLeft (trimLeft cs).reverse := by
  have hreverse : ∀ c ∈ after.reverse, isBlank c = true :=
    fun c hc => hafter c (List.mem_reverse.mp hc)
  rw [List.append_assoc, trimLeft, trimLeft, List.dropWhile_append_of_pos hbefore, List.dropWhile_append]
  -- Of a text that is all blank nothing is left, and the blank characters behind it go from the front.
  split
  case isTrue hempty =>
    have hcs : trimLeft cs = [] := List.isEmpty_iff.mp hempty
    have hrest : List.dropWhile isBlank after = [] := trimLeft_of_forall hafter
    rw [hrest, hcs]
    rfl
  case isFalse =>
    rw [List.reverse_append, List.dropWhile_append_of_pos hreverse]
    rfl

theorem map_toLower_trim_of_isVariant {s t : String} (h : IsVariant s t) :
    (trim t).toList.map Char.toLower = (trim s).toList.map Char.toLower := by
  obtain ⟨before, cs, after, ht, hbefore, hafter, hcs⟩ := h
  have hblank {padding : List Char} (hpadding : ∀ c ∈ padding, isBlank c = true) :
      ∀ c ∈ padding.map Char.toLower, isBlank c = true := by
    rw [List.forall_mem_map]
    exact fun c hc => (isBlank_toLower c).trans (hpadding c hc)
  rw [map_toLower_trim, map_toLower_trim, ht, List.map_append, List.map_append,
    trimLeft_padded (hblank hbefore) (hblank hafter), hcs]

end Text

namespace SqlType

/-- A text and its variants name the same type, or none. -/
theorem ofText?_of_isVariant {s s' : String} (h : Text.IsVariant s s') : ofText? s' = ofText? s := by
  unfold ofText?
  rw [Text.map_toLower_trim_of_isVariant h]

/-! ### Limits -/

/-- A number of 32 bits is read back from its digits. -/
theorem limit?_toDigits (n : UInt32) : limit? (Nat.toDigits 10 n.toNat) = some n := by
  obtain ⟨hne, hdigits⟩ := areDigits_toDigits n.toNat
  have hsign : (Nat.toDigits 10 n.toNat).head? ≠ some '+' := by
    intro hhead
    exact absurd (hdigits '+' (List.mem_of_mem_head? hhead)) (by decide)
  have hempty : (Nat.toDigits 10 n.toNat).isEmpty = false := by
    rw [Bool.eq_false_iff, ne_eq, List.isEmpty_iff]
    exact hne
  have hbound : ¬ 0x100000000 ≤ n.toNat := Nat.not_le.mpr n.toNat_lt
  rw [limit?, if_neg hsign, digitsValue_toDigits, hempty, List.all_eq_true.mpr hdigits,
    decide_eq_false hbound]
  exact congrArg some UInt32.ofNat_toNat

theorem parenthesised?_append (inner : List Char) :
    parenthesised? ("varchar(".toList ++ (inner ++ [')'])) = some inner := by
  have hopening : "varchar(".toList.isPrefixOf ("varchar(".toList ++ (inner ++ [')'])) = true :=
    List.isPrefixOf_iff_prefix.mpr (List.prefix_append _ _)
  have hlast : ("varchar(".toList ++ (inner ++ [')'])).getLast? = some ')' := by
    rw [← List.append_assoc, List.getLast?_concat]
  rw [parenthesised?, hopening, hlast, List.drop_left, List.dropLast_concat]
  simp

theorem toList_text_limit (n : UInt32) :
    (SqlType.varchar (some n)).text.toList =
      "varchar(".toList ++ (Nat.toDigits 10 n.toNat ++ [')']) := by
  show ("varchar(" ++ n.toNat.repr ++ ")").toList = _
  rw [String.toList_append, String.toList_append, Nat.toList_repr, List.append_assoc]
  rfl

theorem map_toLower_toDigits (n : Nat) :
    (Nat.toDigits 10 n).map Char.toLower = Nat.toDigits 10 n := by
  have hsame : ∀ c ∈ Nat.toDigits 10 n, c.toLower = c := by
    intro c hc
    have hmost : c.toNat ≤ 0x39 :=
      of_decide_eq_true (Bool.and_eq_true_iff.mp (isDigit_of_mem_toDigits hc)).2
    exact Text.toLower_eq_self (.inl (by omega))
  exact (List.map_congr_left hsame).trans (List.map_id _)

theorem not_isBlank_toDigits (n : Nat) : ∀ c ∈ Nat.toDigits 10 n, Text.isBlank c = false :=
  fun _ hc => isBlank_of_isDigit (isDigit_of_mem_toDigits hc)

theorem trim_text_limit (n : UInt32) :
    Text.trim (SqlType.varchar (some n)).text = (SqlType.varchar (some n)).text := by
  have hopening : "varchar(".toList.any Text.isBlank = false := by decide
  have hclosing : Text.isBlank ')' = false := by decide
  refine Text.trim_of_forall ?_
  rw [toList_text_limit]
  refine List.forall_mem_append.mpr ⟨fun c hc => ?_, List.forall_mem_append.mpr ⟨?_, ?_⟩⟩
  · exact Bool.eq_false_iff.mpr (List.any_eq_false.mp hopening c hc)
  · exact not_isBlank_toDigits n.toNat
  · exact List.forall_mem_singleton.mpr hclosing

theorem ofText?_limit (n : UInt32) :
    ofText? (SqlType.varchar (some n)).text = some (.varchar (some n)) := by
  have hlower : ("varchar(".toList ++ (Nat.toDigits 10 n.toNat ++ [')'])).map Char.toLower =
      "varchar(".toList ++ (Nat.toDigits 10 n.toNat ++ [')']) := by
    rw [List.map_append, List.map_append, map_toLower_toDigits]
    rfl
  -- No other name ends with a parenthesis.
  have hname {word : String} (hword : word.toList.getLast? ≠ some ')') :
      String.ofList ("varchar(".toList ++ (Nat.toDigits 10 n.toNat ++ [')'])) ≠ word := by
    rintro rfl
    rw [String.toList_ofList, ← List.append_assoc, List.getLast?_concat] at hword
    exact hword rfl
  have hinner : Text.trim (String.ofList (Nat.toDigits 10 n.toNat)) =
      String.ofList (Nat.toDigits 10 n.toNat) := by
    refine Text.trim_of_forall ?_
    rw [String.toList_ofList]
    exact not_isBlank_toDigits n.toNat
  unfold ofText?
  rw [trim_text_limit, toList_text_limit, hlower]
  dsimp only
  split
  case h_10 =>
    rw [parenthesised?_append, Option.bind_some, hinner, String.toList_ofList, limit?_toDigits]
    rfl
  all_goals next h => exact absurd h (hname (by decide))

/-! ### All types -/

theorem ofText?_text (t : SqlType) : ofText? t.text = some t := by
  cases t with
  | varchar limit =>
    cases limit with
    | none => decide +kernel
    | some n => exact ofText?_limit n
  | _ => decide +kernel

/-- **Names of types read back.** The text of a type is read as this type, whatever its limit, and so is every
text that differs from it only in the case of ASCII letters and in blank characters at the ends. -/
theorem names_read_back (t : SqlType) :
    ofText? t.text = some t ∧ ∀ s, Text.IsVariant t.text s → ofText? s = some t :=
  ⟨ofText?_text t, fun _ h => (ofText?_of_isVariant h).trans (ofText?_text t)⟩

/-- The greatest limit, behind a blank character of another script and with a line end behind it. -/
theorem names_read_back_of_greatest_limit :
    let t : SqlType := .varchar (some 4294967295)
    let s := "\u3000 VarChar(4294967295)\n"
    Text.IsVariant t.text s ∧ ofText? s = some t := by
  intro t s
  have hbefore : ['\u3000', ' '].all Text.isBlank = true := by decide
  have hafter : ['\n'].all Text.isBlank = true := by decide
  have h : Text.IsVariant t.text s :=
    ⟨['\u3000', ' '], "VarChar(4294967295)".toList, ['\n'], by decide, List.all_eq_true.mp hbefore,
      List.all_eq_true.mp hafter, by decide +kernel⟩
  exact ⟨h, (names_read_back t).2 s h⟩

end SqlType

end PathQuery
