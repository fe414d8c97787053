import PathQuery.Proofs.Path.Reader

/-!
# The tokens of path texts

Each token that is written into a path is read back from its characters, in front of everything that can
stand behind it.

* `Reader.follows`, `Reader.stops` and `Reader.ends` hold of the texts that can stand behind a target, an
  operand and a whole node.
* `Reader.quoted?_append` and `Reader.key?_append` — quoted texts and keys.
* `Reader.step?_member` and `Reader.step?_method` — a name behind a point is a method only with its
  parentheses.
* `Reader.isAtom_literal`, with its siblings — the nodes without parts.
* `Reader.infix?_append` — operators between operands.
* `Reader.step?_of_stops` and `Reader.infix?_of_ends` — where no step and no operator goes on.
-/

namespace PathQuery

namespace Reader

/-! ### What can stand behind a node -/

/-- What can stand behind a target: not a digit after a point, which would go on with a number. -/
def follows : List Char → Bool
  | [] | ')' :: _ | ']' :: _ | ',' :: _ | '[' :: _ => true
  | '.' :: c :: _ => !c.isDigit
  | ' ' :: c :: _ => c != 'i'
  | _ => false

/-- What can stand behind an operand: no step. -/
def stops : List Char → Bool
  | [] | ')' :: _ | ']' :: _ | ',' :: _ => true
  | ' ' :: c :: _ => c != 'i' && c != '?'
  | _ => false

/-- What can stand behind a whole node: no infix operator either. -/
def ends : List Char → Bool
  | [] | ')' :: _ | ']' :: _ | ',' :: _ => true
  | ' ' :: c :: _ => c = 't'
  | _ => false

variable {r : List Char}

theorem stops_of_ends (h : ends r = true) : stops r = true := by
  unfold ends at h
  split at h
  · rfl
  · rfl
  · rfl
  · rfl
  · next c cs =>
    rw [of_decide_eq_true h]
    rfl
  · cases h

theorem follows_of_stops (h : stops r = true) : follows r = true := by
  unfold stops at h
  split at h
  · rfl
  · rfl
  · rfl
  · rfl
  · next c cs => exact (Bool.and_eq_true_iff.mp h).1
  · cases h

/-- The characters that texts behind a target begin with. -/
def marks : List Char :=
  [')', ']', ',', '[', '.', ' ']

theorem head_mem_marks (h : follows r = true) : ∀ c ∈ r.head?, c ∈ marks := by
  unfold follows at h
  split at h
  · exact fun _ hc => nomatch hc
  all_goals first
    | exact fun c hc => (Option.some.inj hc) ▸ by decide
    | cases h

theorem forall_mem_head {p : Char → Prop} {c : Char} {cs : List Char} (h : p c) :
    ∀ d ∈ (c :: cs).head?, p d := by
  intro d hd
  cases hd
  exact h

/-- A text cut behind the last character of a kind. -/
theorem span_append {p : Char → Bool} {cs : List Char} (hcs : ∀ c ∈ cs, p c = true)
    (hr : ∀ c ∈ r.head?, p c = false) : (cs ++ r).takeWhile p = cs ∧ (cs ++ r).dropWhile p = r := by
  rw [List.takeWhile_append_of_pos hcs, List.dropWhile_append_of_pos hcs]
  cases r with
  | nil => exact ⟨List.append_nil cs, rfl⟩
  | cons c r =>
    have hc : ¬ p c = true := by rw [hr c rfl]; decide
    rw [List.takeWhile_cons_of_neg hc, List.dropWhile_cons_of_neg hc, List.append_nil]
    exact ⟨rfl, rfl⟩

theorem not_isNameChar_of_follows (h : follows r = true) : ∀ c ∈ r.head?, isNameChar c = false := by
  have hmarks : marks.any isNameChar = false := by decide +kernel
  exact fun c hc => Bool.eq_false_iff.mpr (List.any_eq_false.mp hmarks c (head_mem_marks h c hc))

theorem not_isDigit_of_follows (h : follows r = true) : ∀ c ∈ r.head?, c.isDigit = false := by
  have hmarks : marks.any Char.isDigit = false := by decide
  exact fun c hc => Bool.eq_false_iff.mpr (List.any_eq_false.mp hmarks c (head_mem_marks h c hc))

/-! ### Names -/

theorem isNameChar_of_isIdentifier {cs : List Char} (h : isIdentifier cs = true) :
    cs ≠ [] ∧ ∀ c ∈ cs, isNameChar c = true := by
  cases cs with
  | nil => cases h
  | cons c cs =>
    obtain ⟨hfirst, hrest⟩ := Bool.and_eq_true_iff.mp h
    refine ⟨List.cons_ne_nil c cs, List.forall_mem_cons.mpr ⟨?_, List.all_eq_true.mp hrest⟩⟩
    rcases Bool.or_eq_true_iff.mp hfirst with hletter | hline
    · rw [isNameChar, hletter]
      rfl
    · rw [isNameChar, hline, Bool.or_true]

theorem name_append {s : String} (hs : isIdentifier s.toList = true)
    (hr : ∀ c ∈ r.head?, isNameChar c = false) : name (s.toList ++ r) = (s, r) := by
  obtain ⟨htake, hdrop⟩ := span_append (isNameChar_of_isIdentifier hs).2 hr
  rw [name, htake, hdrop, String.ofList_toList]

/-- No identifier begins with a digit. -/
theorem head_of_isIdentifier {c : Char} {cs : List Char} (h : isIdentifier (c :: cs) = true) :
    c.isDigit = false := by
  have hfirst := (Bool.and_eq_true_iff.mp h).1
  have hall : ∀ n ≤ 0x39, 0x30 ≤ n → Text.inRanges Text.letterRanges n = false := by decide +kernel
  by_contra hdigit
  have hdigit : c.isDigit = true := by simpa using hdigit
  have hbounds : 0x30 ≤ c.toNat ∧ c.toNat ≤ 0x39 := by
    simpa [Char.isDigit, UInt32.le_iff_toNat_le] using hdigit
  rw [Text.isLetter, hall c.toNat hbounds.2 hbounds.1, Bool.false_or, decide_eq_true_eq] at hfirst
  rw [hfirst] at hdigit
  exact absurd hdigit (by decide)

/-! ### Quoted texts -/

theorem toList_quoted (s : String) :
    (Text.quoted s).toList = '"' :: (s.toList.flatMap Text.escapeChar ++ ['"']) :=
  String.toList_ofList

theorem hexUnit?_of_isControl {c : Char} (h : Text.isControl c = true) :
    Json.hexUnit? '0' '0' (Nat.digitChar (c.toNat / 16)) (Nat.digitChar (c.toNat % 16)) =
      some c.toNat := by
  have hall : ∀ n < 0xA0,
      Json.hexUnit? '0' '0' (Nat.digitChar (n / 16)) (Nat.digitChar (n % 16)) = some n := by
    decide +kernel
  refine hall c.toNat ?_
  simp only [Text.isControl, Bool.or_eq_true, Bool.and_eq_true, decide_eq_true_eq] at h
  omega

/-- An escape is read as the character that it stands for. -/
theorem stringBody?_escapeChar (read : List Nat) (c : Char) (rest : List Char) :
    Json.stringBody? read (Text.escapeChar c ++ rest) = Json.stringBody? (c.toNat :: read) rest := by
  unfold Text.escapeChar
  split
  · next h =>
    rw [h, Json.stringBody?.eq_def]
    rfl
  split
  · next h =>
    rw [h, Json.stringBody?.eq_def]
    rfl
  split
  · next h =>
    rw [h, Json.stringBody?.eq_def]
    rfl
  split
  · next h =>
    rw [h, Json.stringBody?.eq_def]
    rfl
  split
  · next h =>
    rw [Json.stringBody?.eq_def]
    simp [Text.controlEscape, hexUnit?_of_isControl h]
  · next hquote hslash _ _ hcontrol =>
    have hlow : ¬ c.toNat < 0x20 := by
      intro hlow
      exact hcontrol (by simp [Text.isControl, hlow])
    rw [List.singleton_append, Json.stringBody?.eq_def]
    dsimp only
    rw [if_neg hquote, if_neg hslash, if_neg hlow]

theorem stringBody?_append (read : List Nat) (cs : List Char) :
    Json.stringBody? read (cs.flatMap Text.escapeChar ++ '"' :: r) =
      some (read.reverse ++ cs.map Char.toNat, r) := by
  induction cs generalizing read with
  | nil =>
    rw [List.map_nil, List.append_nil, List.flatMap_nil, List.nil_append, Json.stringBody?.eq_def]
    rfl
  | cons c cs ih =>
    rw [List.flatMap_cons, List.append_assoc, stringBody?_escapeChar, ih, List.reverse_cons,
      List.append_assoc]
    rfl

/-- A quoted text is read behind its first quote. -/
theorem quoted?_append (s : String) :
    quoted? (s.toList.flatMap Text.escapeChar ++ '"' :: r) = some (s, r) := by
  have hback : (s.toList.map Char.toNat).map Char.ofNat = s.toList := by
    rw [List.map_map]
    exact (List.map_congr_left fun c _ => Char.ofNat_toNat c).trans (List.map_id _)
  rw [quoted?, stringBody?_append, List.reverse_nil, List.nil_append, Option.map_some]
  dsimp only
  rw [hback, String.ofList_toList]

/-! ### Keys and methods -/

theorem key?_append (key : String) (hr : ∀ c ∈ r.head?, isNameChar c = false) :
    key? ((keyText key).toList ++ r) = some (key, r) := by
  unfold keyText
  split
  · next hkey =>
    have hname := name_append hkey hr
    have hquote : ('"' : Char) ∉ key.toList := fun hmem =>
      absurd ((isNameChar_of_isIdentifier hkey).2 _ hmem) (by decide +kernel)
    generalize key.toList = cs at hkey hname hquote
    cases cs with
    | nil => cases hkey
    | cons c cs =>
      unfold key?
      split
      · next heq =>
        cases heq
        exact absurd List.mem_cons_self hquote
      · rw [hname]
  · rw [toList_quoted, List.cons_append, List.append_assoc]
    exact quoted?_append key

/-- A name behind a point is a member, if no parenthesis goes on from it. -/
theorem memberOrMethod?_of_follows (name : String) (hr : follows r = true) :
    memberOrMethod? name r = some (.member name, r) := by
  have hmarks := head_mem_marks hr
  unfold memberOrMethod?
  split
  · exact absurd (hmarks _ rfl) (by decide)
  · exact absurd (hmarks _ rfl) (by decide)
  · rfl

section Steps

variable (operand : List Char → Option (Node × List Char))

theorem step?_name {c : Char} {cs : List Char} (hc : isNameChar c = true) :
    step? operand ('.' :: c :: cs) = memberOrMethod? (name (c :: cs)).1 (name (c :: cs)).2 := by
  have hmarks : ∀ d ∈ ['.', '*', '"'], c ≠ d := by
    have hnot : ['.', '*', '"'].any isNameChar = false := by decide +kernel
    rintro d hd rfl
    exact List.any_eq_false.mp hnot c hd hc
  unfold step?
  split
  · next heq => exact absurd (List.cons.inj (List.cons.inj heq).2).1 (hmarks _ (by decide))
  · next heq => exact absurd (List.cons.inj (List.cons.inj heq).2).1 (hmarks _ (by decide))
  · next heq => exact absurd (List.cons.inj (List.cons.inj heq).2).1 (hmarks _ (by decide))
  · next heq =>
    rw [← (List.cons.inj heq).2]
  · next heq => exact absurd (List.cons.inj heq).1 (by decide)
  · next heq => exact absurd (List.cons.inj heq).1 (by decide)
  · next hname _ _ => exact absurd rfl (hname _)

theorem step?_member (key : String) (hr : follows r = true) :
    step? operand ('.' :: ((keyText key).toList ++ r)) = some (.member key, r) := by
  unfold keyText
  split
  · next hkey =>
    have hname := name_append hkey (not_isNameChar_of_follows hr)
    have hchars := (isNameChar_of_isIdentifier hkey).2
    generalize key.toList = cs at hkey hname hchars
    cases cs with
    | nil => cases hkey
    | cons c cs =>
      rw [List.cons_append, step?_name operand (hchars c List.mem_cons_self), ← List.cons_append, hname]
      exact memberOrMethod?_of_follows key hr
  · rw [toList_quoted, List.cons_append, List.append_assoc]
    show (quoted? _).map _ = _
    rw [List.singleton_append, quoted?_append]
    rfl

theorem isIdentifier_name (m : Method) : isIdentifier m.name.toList = true := by
  have hdatetime : isIdentifier "datetime".toList = true := by decide +kernel
  cases m with
  | datetime => exact hdatetime
  | _ => decide +kernel

/-- No number goes on with a key behind its point. -/
theorem follows_key (key : String) (r : List Char) :
    follows ('.' :: (keyText key).toList ++ r) = true := by
  unfold keyText
  split
  · next hkey =>
    generalize key.toList = cs at hkey
    cases cs with
    | nil => cases hkey
    | cons c cs =>
      show (!c.isDigit) = true
      rw [head_of_isIdentifier hkey]
      rfl
  · rw [toList_quoted]
    rfl

theorem follows_method (m : Method) (r : List Char) : follows ('.' :: m.text.toList ++ r) = true := by
  cases m with
  | datetime template =>
    cases template with
    | none => rfl
    | some template =>
      rw [Method.text, String.toList_append, String.toList_append]
      rfl
  | _ => rfl

theorem step?_method (m : Method) : step? operand ('.' :: (m.text.toList ++ r)) = some (.method m, r) := by
  have hparenthesis : isNameChar '(' = false := by decide +kernel
  have hread (cs : List Char) :
      step? operand ('.' :: (m.name.toList ++ '(' :: cs)) = memberOrMethod? m.name ('(' :: cs) := by
    have hkey := isIdentifier_name m
    have hname := name_append (r := '(' :: cs) hkey (forall_mem_head hparenthesis)
    have hchars := (isNameChar_of_isIdentifier hkey).2
    generalize m.name.toList = name at hkey hname hchars
    cases name with
    | nil => cases hkey
    | cons c name =>
      rw [List.cons_append, step?_name operand (hchars c List.mem_cons_self), ← List.cons_append, hname]
  cases m with
  | datetime template =>
    cases template with
    | none => exact hread (')' :: r)
    | some template =>
      have htext : (Method.datetime (some template)).text.toList ++ r =
          (Method.datetime (some template)).name.toList ++ '(' :: '"' :: (template.toList.flatMap Text.escapeChar ++ '"' :: ')' :: r) := by
        simp only [Method.text, String.toList_append, toList_quoted]
        simp [Method.name]
      rw [htext, hread, memberOrMethod?, quoted?_append]
      rfl
  | _ => exact hread (')' :: r)

end Steps

/-! ### Numbers -/

theorem fraction?_of_follows (hr : follows r = true) : fraction? r = none := by
  unfold fraction?
  split
  · exact if_neg (by simpa [follows] using hr)
  · rfl

/-- Digits that no fraction follows are an integer, if there is one. -/
theorem number?_whole (n : Nat) (hr : follows r = true) :
    number? (Nat.toDigits 10 n ++ r) = (int64? n).map fun i => (.int i, r) := by
  obtain ⟨htake, hdrop⟩ := span_append (areDigits_toDigits n).2 (not_isDigit_of_follows hr)
  rw [number?, htake, hdrop, fraction?_of_follows hr, digitsValue_toDigits]

theorem number?_fraction {whole fraction : List Char} (hwhole : AreDigits whole)
    (hfraction : AreDigits fraction) (hr : follows r = true) :
    number? (whole ++ '.' :: (fraction ++ r)) = some (.float (.ofDecimal whole fraction), r) := by
  have hpoint : ('.' : Char).isDigit = false := rfl
  obtain ⟨htake, hdrop⟩ := span_append (r := '.' :: (fraction ++ r)) hwhole.2 (forall_mem_head hpoint)
  obtain ⟨htake', hdrop'⟩ := span_append hfraction.2 (not_isDigit_of_follows hr)
  have hread : fraction? ('.' :: (fraction ++ r)) = some (fraction, r) := by
    obtain ⟨hne, hdigits⟩ := hfraction
    cases fraction with
    | nil => exact absurd rfl hne
    | cons c fraction =>
      have hc := hdigits c List.mem_cons_self
      rw [List.cons_append, List.takeWhile_cons_of_pos hc] at htake'
      rw [List.cons_append, List.dropWhile_cons_of_pos hc] at hdrop'
      rw [List.cons_append, fraction?, if_pos hc, htake', hdrop']
  rw [number?, htake, hdrop, hread]

/-! ### Atoms -/

/-- The characters that an operator in front of its operand, or a parenthesis, begins with. -/
def openers : List Char :=
  ['+', '-', '!', '(', 'e']

/-- A text that reads as a form without parts. -/
structure IsAtom (form : Form) (cs : List Char) : Prop where
  head : ∀ c ∈ cs.head?, c ∉ openers
  read : ∀ r, follows r = true → atom? (cs ++ r) = some (form, r)

theorem atom?_digit {c : Char} {cs : List Char} (hc : c.isDigit = true) :
    atom? (c :: cs) = (number? (c :: cs)).map fun (value, rest) => (.literal value, rest) := by
  unfold atom?
  split
  · next heq => cases heq; exact absurd hc (by decide)
  · next heq => cases heq; exact absurd hc (by decide)
  · next heq => cases heq; exact absurd hc (by decide)
  · next heq => cases heq; exact absurd hc (by decide)
  · next heq => cases heq; exact if_pos hc
  · next heq => cases heq

/-- A number without a sign is an atom. -/
theorem IsAtom.number {cs : List Char} {value : Literal} (hcs : ∃ c ∈ cs.head?, c.isDigit = true)
    (hread : ∀ r, follows r = true → number? (cs ++ r) = some (value, r)) :
    IsAtom (.literal value) cs := by
  obtain ⟨c, hc, hdigit⟩ := hcs
  cases cs with
  | nil => cases hc
  | cons d cs =>
    cases hc
    have hopeners : openers.any Char.isDigit = false := by decide
    refine ⟨forall_mem_head fun hmem => ?_, fun r hr => ?_⟩
    · exact List.any_eq_false.mp hopeners _ hmem hdigit
    · rw [List.cons_append, atom?_digit hdigit, ← List.cons_append, hread r hr]
      rfl

theorem exists_digit_head {cs : List Char} (h : AreDigits cs) (r : List Char) :
    ∃ c ∈ (cs ++ r).head?, c.isDigit = true := by
  obtain ⟨hne, hdigits⟩ := h
  cases cs with
  | nil => exact absurd rfl hne
  | cons c cs => exact ⟨c, rfl, hdigits c List.mem_cons_self⟩

theorem toList_text_int {n : Int64} (h : 0 ≤ n.toInt) :
    (Literal.int n).text.toList = Nat.toDigits 10 n.toInt.toNat := by
  obtain ⟨k, hk⟩ := Int.eq_ofNat_of_zero_le h
  rw [Literal.text, hk, Int.toNat_natCast]
  exact Nat.toList_repr

/-- A literal that is not negative is an atom. -/
theorem isAtom_literal {v : Literal} (hv : v.isNegative = false) : IsAtom (.literal v) v.text.toList := by
  cases v with
  | string s =>
    rw [Literal.text, toList_quoted]
    refine ⟨forall_mem_head (by decide), fun r _ => ?_⟩
    rw [List.cons_append, List.append_assoc]
    show (quoted? _).map _ = _
    rw [List.singleton_append, quoted?_append]
    rfl
  | int n =>
    have hn : 0 ≤ n.toInt := by simpa [Literal.isNegative] using hv
    rw [toList_text_int hn]
    have hhead := exists_digit_head (areDigits_toDigits n.toInt.toNat) []
    rw [List.append_nil] at hhead
    refine IsAtom.number hhead fun r hr => ?_
    rw [number?_whole _ hr, Int.toNat_of_nonneg hn, int64?_toInt]
    rfl
  | float x =>
    cases hfinite : x.isFinite with
    | true =>
      obtain ⟨whole, fraction, htext, hwhole, hfraction, hread⟩ := Number.exists_decimal hfinite hv
      rw [Literal.text, htext]
      refine IsAtom.number (exists_digit_head hwhole _) fun r hr => ?_
      rw [List.append_assoc, List.cons_append, number?_fraction hwhole hfraction hr, hread]
    | false =>
      cases x with
      | nan => exact ⟨forall_mem_head (by decide), fun _ _ => rfl⟩
      | infinite negative =>
        cases hv
        exact ⟨forall_mem_head (by decide), fun _ _ => rfl⟩
      | finite => cases hfinite
  | bool b => cases b <;> exact ⟨forall_mem_head (by decide), fun _ _ => rfl⟩
  | null => exact ⟨forall_mem_head (by decide), fun _ _ => rfl⟩

theorem atom?_dollar {cs : List Char} (h : ∀ c ∈ cs.head?, c ≠ '<') :
    atom? ('$' :: cs) = some (if (name cs).1 = "" then .context else .named (name cs).1, (name cs).2) := by
  unfold atom?
  split
  · next heq =>
    cases heq
    exact absurd rfl (h _ rfl)
  · next heq =>
    cases heq
    rfl
  · next heq => exact absurd (List.cons.inj heq).1 (by decide)
  · next heq => exact absurd (List.cons.inj heq).1 (by decide)
  · next hdollar _ _ heq => exact (hdollar (List.cons.inj heq).1.symm).elim
  · next heq => cases heq

theorem isAtom_context : IsAtom .context ['$'] := by
  refine ⟨forall_mem_head (by decide), fun r hr => ?_⟩
  obtain ⟨htake, hdrop⟩ := span_append (List.forall_mem_nil _) (not_isNameChar_of_follows hr)
  have hmarks := head_mem_marks hr
  rw [List.singleton_append, atom?_dollar fun c hc heq => absurd (heq ▸ hmarks c hc) (by decide)]
  rw [List.nil_append] at htake hdrop
  rw [name, htake, hdrop]
  rfl

theorem isAtom_named {s : String} (hs : isIdentifier s.toList = true) :
    IsAtom (.named s) ('$' :: s.toList) := by
  obtain ⟨hne, hchars⟩ := isNameChar_of_isIdentifier hs
  refine ⟨forall_mem_head (by decide), fun r hr => ?_⟩
  have hangle : ∀ c ∈ (s.toList ++ r).head?, c ≠ '<' := by
    have hnot : isNameChar '<' = false := by decide +kernel
    generalize s.toList = cs at hne hchars
    cases cs with
    | nil => exact absurd rfl hne
    | cons c cs =>
      refine forall_mem_head fun heq => ?_
      have hc := hchars c List.mem_cons_self
      rw [heq, hnot] at hc
      cases hc
  have hnonempty : s ≠ "" := by
    rintro rfl
    exact hne rfl
  rw [List.cons_append, atom?_dollar hangle, name_append hs (not_isNameChar_of_follows hr)]
  dsimp only
  rw [if_neg hnonempty]

theorem isAtom_positional (position : Nat) :
    IsAtom (.positional position) ('$' :: '<' :: (Nat.toDigits 10 position ++ ['>'])) := by
  refine ⟨forall_mem_head (by decide), fun r _ => ?_⟩
  have hend : ('>' : Char).isDigit = false := rfl
  obtain ⟨htake, hdrop⟩ :=
    span_append (r := '>' :: r) (areDigits_toDigits position).2 (forall_mem_head hend)
  rw [List.cons_append, List.cons_append, List.append_assoc, List.singleton_append, atom?, htake, hdrop,
    digitsValue_toDigits]
  rfl

theorem isAtom_current : IsAtom .current ['@'] :=
  ⟨forall_mem_head (by decide), fun _ _ => rfl⟩

theorem isAtom_last : IsAtom .last "last".toList :=
  ⟨forall_mem_head (by decide), fun _ _ => rfl⟩

/-! ### Infix operators -/

theorem infix?_append (i : Infix) (cs : List Char) : infix? (i.text.toList ++ cs) = some (i, cs) := by
  cases i with
  | arithmetic op => cases op <;> rfl
  | comparison op => cases op <;> rfl
  | conjunction | disjunction | startsWith => rfl

theorem infix?_of_ends (hr : ends r = true) : infix? r = none := by
  unfold ends at hr
  split at hr
  · rfl
  · rfl
  · rfl
  · rfl
  · next c cs =>
    rw [of_decide_eq_true hr]
    rfl
  · cases hr

/-! ### What is not there -/

theorem step?_of_stops (operand : List Char → Option (Node × List Char)) (hr : stops r = true) :
    step? operand r = none := by
  unfold stops at hr
  split at hr
  · rfl
  · rfl
  · rfl
  · rfl
  · next c cs =>
    have hc : c ≠ '?' := by simpa using (Bool.and_eq_true_iff.mp hr).2
    unfold step?
    split
    · next heq => exact absurd (List.cons.inj heq).1 (by decide)
    · next heq => exact absurd (List.cons.inj heq).1 (by decide)
    · next heq => exact absurd (List.cons.inj heq).1 (by decide)
    · next heq => exact absurd (List.cons.inj heq).1 (by decide)
    · next heq => exact absurd (List.cons.inj heq).1 (by decide)
    · next heq => exact absurd (List.cons.inj (List.cons.inj heq).2).1 hc
    · rfl
  · cases hr

theorem behind?_isUnknown (hr : follows r = true) : behind? " is unknown" r = none := by
  unfold follows at hr
  split at hr
  · rfl
  · rfl
  · rfl
  · rfl
  · rfl
  · rfl
  · next c cs =>
    have hc : ¬ ('i' == c) = true := by
      rw [beq_iff_eq]
      rintro rfl
      exact absurd hr (by decide)
    have hword : " is unknown".toList = ' ' :: 'i' :: "s unknown".toList := rfl
    rw [behind?, hword, List.isPrefixOf?, if_pos (by decide), List.isPrefixOf?, if_neg hc]
  · cases hr

end Reader

end PathQuery
