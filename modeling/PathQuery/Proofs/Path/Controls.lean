import PathQuery.Proofs.Path.Tokens
import PathQuery.Proofs.Sql.Stability

/-!
# Control characters in path texts

A path is written into messages, so that a control character in its text can break a line or steer a
terminal. String literals, keys and templates are escaped, but the name of a variable is written as it is.

* `Text.controls` — the control characters of a text.
* `Text.controls_quoted` and `controls_keyText` — escaping and quoting leave none.
* `Literal.controls_text` and `Method.controls_text` — nor do literals and methods have any.
* `Node.controls_text_eq_flatMap_forms` — what each form of a tree adds to its text.
* `Node.text_controls` — the control characters in the text of a tree are those in the names of its
  variables.
* `Node.text_breaks_lines` — a name with a line end in it.
-/

namespace PathQuery

namespace Text

/-- The control characters of a text in order. -/
def controls (s : String) : List Char :=
  s.toList.filter isControl

variable {s : String}

theorem controls_eq_nil_iff : controls s = [] ↔ ∀ c ∈ s.toList, isControl c = false := by
  simp only [controls, List.filter_eq_nil_iff, Bool.not_eq_true]

@[simp] theorem controls_append (s t : String) : controls (s ++ t) = controls s ++ controls t := by
  rw [controls, String.toList_append, List.filter_append, controls, controls]

@[simp] theorem controls_parenthesised (needed : Bool) (s : String) :
    controls (parenthesised needed s) = controls s := by
  have hopen : controls "(" = [] := by decide
  have hclose : controls ")" = [] := by decide
  unfold parenthesised
  split
  · rw [controls_append, controls_append, hopen, hclose, List.nil_append, List.append_nil]
  · rfl

/-- A separator without control characters brings none between the texts. -/
theorem controls_intercalate {separator : String} (h : controls separator = []) (texts : List String) :
    controls (String.intercalate separator texts) = texts.flatMap controls := by
  have hseparator : separator.toList.filter isControl = [] := h
  rw [controls, String.toList_intercalate]
  induction texts with
  | nil => rfl
  | cons s texts ih =>
    cases texts with
    | nil => simp [controls]
    | cons t texts =>
      rw [List.map_cons] at ih
      rw [List.map_cons, List.map_cons, List.intercalate_cons_cons, List.filter_append,
        List.filter_append, hseparator, List.append_nil, ih, List.flatMap_cons]
      rfl

/-! ### Letters, digits and escapes -/

/-- No range of letters or numerals meets the control characters. -/
theorem not_isControl_of_inRanges {ranges : List (Nat × Nat)}
    (hranges : ∀ r ∈ ranges, (0x20 ≤ r.1 ∧ r.2 < 0x7F) ∨ 0xA0 ≤ r.1) {c : Char}
    (h : inRanges ranges c.toNat = true) : isControl c = false := by
  obtain ⟨r, hr, hbounds⟩ := List.any_eq_true.mp h
  simp only [Bool.and_eq_true, decide_eq_true_eq] at hbounds
  have hrange := hranges r hr
  simp only [isControl, Bool.or_eq_false_iff, Bool.and_eq_false_iff, decide_eq_false_iff_not]
  omega

theorem not_isControl_of_isNameChar {c : Char} (h : Reader.isNameChar c = true) :
    isControl c = false := by
  have hletters : ∀ r ∈ letterRanges, (0x20 ≤ r.1 ∧ r.2 < 0x7F) ∨ 0xA0 ≤ r.1 := by decide +kernel
  have hnumerals : ∀ r ∈ numeralRanges, (0x20 ≤ r.1 ∧ r.2 < 0x7F) ∨ 0xA0 ≤ r.1 := by decide +kernel
  rw [Reader.isNameChar, Bool.or_eq_true, Bool.or_eq_true, decide_eq_true_eq] at h
  rcases h with (hletter | hnumeral) | rfl
  · exact not_isControl_of_inRanges hletters hletter
  · exact not_isControl_of_inRanges hnumerals hnumeral
  · decide

theorem not_isControl_of_isDigit {c : Char} (h : c.isDigit = true) : isControl c = false := by
  refine not_isControl_of_isNameChar ?_
  rw [Reader.isNameChar, isNumeral_of_isDigit h, Bool.or_true, Bool.true_or]

theorem any_isControl_escapeChar (c : Char) : (escapeChar c).any isControl = false := by
  unfold escapeChar
  split
  · decide
  split
  · decide
  split
  · decide
  split
  · decide
  split
  case isTrue hcontrol =>
    have hbound : c.toNat < 0xA0 := by
      simp only [isControl, Bool.or_eq_true, Bool.and_eq_true, decide_eq_true_eq] at hcontrol
      omega
    have hall : ∀ n < 0xA0, ['\\', 'u', '0', '0', Nat.digitChar (n / 16), Nat.digitChar (n % 16)].any
        isControl = false := by decide +kernel
    exact hall c.toNat hbound
  case isFalse hcontrol => simpa using hcontrol

/-- **A quoted text has no control characters**, whatever is quoted. -/
@[simp] theorem controls_quoted (s : String) : controls (quoted s) = [] := by
  have hquote : isControl '"' = false := by decide
  rw [controls_eq_nil_iff, Reader.toList_quoted]
  refine List.forall_mem_cons.mpr ⟨hquote, List.forall_mem_append.mpr ⟨?_, ?_⟩⟩
  · intro d hd
    obtain ⟨c, -, hd⟩ := List.mem_flatMap.mp hd
    exact Bool.eq_false_iff.mpr (List.any_eq_false.mp (any_isControl_escapeChar c) d hd)
  · exact List.forall_mem_singleton.mpr hquote

end Text

open Text (controls)

/-! ### Keys, methods and operators -/

@[simp] theorem controls_keyText (key : String) : controls (keyText key) = [] := by
  unfold keyText
  split
  · next hkey =>
    rw [Text.controls_eq_nil_iff]
    exact fun c hc => Text.not_isControl_of_isNameChar ((Reader.isNameChar_of_isIdentifier hkey).2 c hc)
  · exact Text.controls_quoted key

@[simp] theorem Method.controls_text (m : Method) : controls m.text = [] := by
  cases m with
  | datetime template =>
    cases template with
    | none => decide
    | some template =>
      have hopen : controls "datetime(" = [] := by decide
      have hclose : controls ")" = [] := by decide
      simp [Method.text, hopen, hclose]
  | _ => decide

@[simp] theorem Sign.controls_text (sign : Sign) : controls sign.text = [] := by
  cases sign <;> decide

@[simp] theorem ArithmeticOp.controls_text (op : ArithmeticOp) : controls op.text = [] := by
  cases op <;> decide

@[simp] theorem ComparisonOp.controls_text (op : ComparisonOp) : controls op.text = [] := by
  cases op <;> decide

/-! ### Literals -/

theorem AreDigits.not_isControl {cs : List Char} (h : AreDigits cs) :
    ∀ c ∈ cs, Text.isControl c = false :=
  fun c hc => Text.not_isControl_of_isDigit (h.2 c hc)

theorem controls_toString_int (i : Int) : controls (toString i) = [] := by
  have hminus : Text.isControl '-' = false := by decide
  have hdigits := (areDigits_toDigits i.natAbs).not_isControl
  rw [Text.controls_eq_nil_iff, Coercion.toList_toString_int]
  split
  · exact List.forall_mem_cons.mpr ⟨hminus, hdigits⟩
  · exact hdigits

@[simp] theorem controls_repr (n : Nat) : controls n.repr = [] :=
  controls_toString_int n

theorem controls_float_of_not_isNegative {x : Double} (h : x.isNegative = false) :
    controls (Literal.float x).text = [] := by
  cases hfinite : x.isFinite with
  | true =>
    have hpoint : Text.isControl '.' = false := by decide
    obtain ⟨whole, fraction, htext, hwhole, hfraction, -⟩ := Number.exists_decimal hfinite h
    rw [Literal.text, Text.controls_eq_nil_iff, htext]
    exact List.forall_mem_append.mpr ⟨hwhole.not_isControl,
      List.forall_mem_cons.mpr ⟨hpoint, hfraction.not_isControl⟩⟩
  | false =>
    cases x with
    | nan => decide
    | infinite negative =>
      cases h
      decide
    | finite => cases hfinite

@[simp] theorem Literal.controls_text (v : Literal) : controls v.text = [] := by
  cases v with
  | string s => exact Text.controls_quoted s
  | int n => exact controls_toString_int n.toInt
  | float x =>
    cases hsign : x.isNegative with
    | false => exact controls_float_of_not_isNegative hsign
    | true =>
      have hminus : controls "-" = [] := by decide
      obtain ⟨htext, hopposite⟩ := Literal.text_of_isNegative (v := .float x) hsign rfl
      rw [htext, Text.controls_append, hminus, controls_float_of_not_isNegative hopposite]
      rfl
  | bool b => cases b <;> decide
  | null => decide

/-! ### Trees -/

/-- The name that a form is written with, if it is a variable. -/
def Form.variables : Form → List String
  | .named name => [name]
  | _ => []

/-- The names of all variables of a tree, in the order in which they are written. -/
def Node.variables (n : Node) : List String :=
  n.forms.flatMap Form.variables

/-- The control characters that the names of variables have. -/
def Form.controls (f : Form) : List Char :=
  f.variables.flatMap Text.controls

theorem Subscript.controls_texts {ss : List Subscript}
    (hss : ∀ s ∈ ss, ∀ n ∈ s.positions, Text.controls n.text = n.forms.flatMap Form.controls) :
    (Subscript.texts ss).flatMap Text.controls = (Subscript.innerAll ss).flatMap Form.controls := by
  induction ss with
  | nil => rfl
  | cons s ss ih =>
    obtain ⟨hs, hss⟩ := List.forall_mem_cons.mp hss
    have htext : Text.controls s.text = s.inner.flatMap Form.controls := by
      have hmarks : Text.controls " to " = [] ∧ Text.controls "last" = [] ∧ Text.controls "*" = [] := by
        decide
      cases s <;> simp_all [Subscript.text, Subscript.inner, Subscript.positions]
    rw [Subscript.texts, Subscript.innerAll, List.flatMap_cons, List.flatMap_append, htext, ih hss]

/-- What stands around the parts of a node has no control characters. -/
theorem controls_marks :
    (controls "." = [] ∧ controls ".*" = [] ∧ controls ".." = [] ∧ controls "[" = [] ∧
      controls ", " = [] ∧ controls "]" = [] ∧ controls " ? (" = []) ∧
    (controls "$" = [] ∧ controls "$<" = [] ∧ controls ">" = [] ∧ controls "@" = [] ∧
      controls "last" = []) ∧
    (controls " " = [] ∧ controls " && " = [] ∧ controls " || " = [] ∧ controls " starts with " = []) ∧
    controls "!(" = [] ∧ controls "exists (" = [] ∧ controls "(" = [] ∧ controls ")" = [] ∧
      controls ") is unknown" = [] := by decide

/-- One case for each form: only that of a variable with a name adds something to its parts. -/
theorem Node.controls_text_eq_flatMap_forms (n : Node) :
    Text.controls n.text = n.forms.flatMap Form.controls := by
  induction n with
  | literal | context | current | last | named | positional =>
    simp [Node.text, Form.text, Node.forms, Form.inner, Form.controls, Form.variables, controls_marks]
  | elements target subscripts ih ihs =>
    simp [Node.text, Form.text, Node.forms, Form.inner, Form.controls, Form.variables, controls_marks,
      Text.controls_intercalate, Subscript.controls_texts ihs, ih]
  | member _ _ ih | wildcardMember _ ih | descendant _ _ ih | method _ _ ih | unary _ _ ih
  | negation _ ih | existence _ ih | isUnknown _ ih =>
    simp [Node.text, Form.text, Node.forms, Form.inner, Form.controls, Form.variables, controls_marks, ih]
  | filter _ _ ih ih' | binary _ _ _ ih ih' | comparison _ _ _ ih ih' | conjunction _ _ ih ih'
  | disjunction _ _ ih ih' | startsWith _ _ ih ih' =>
    simp [Node.text, Form.text, Node.forms, Form.inner, Form.controls, Form.variables, controls_marks,
      ih, ih']

/-- **Only the names of variables bring control characters into a path text.** Whatever its literals, keys and
templates contain, the control characters in the text of a tree are those in the names of its variables, in
their order. So a text has none exactly if no such name has one. -/
theorem Node.text_controls (n : Node) :
    n.text.toList.filter Text.isControl =
      n.variables.flatMap (fun name => name.toList.filter Text.isControl) ∧
    ((∀ c ∈ n.text.toList, Text.isControl c = false) ↔
      ∀ name ∈ n.variables, ∀ c ∈ name.toList, Text.isControl c = false) := by
  have hcontrols : Text.controls n.text = n.variables.flatMap Text.controls := by
    rw [n.controls_text_eq_flatMap_forms, Node.variables, List.flatMap_assoc]
    rfl
  refine ⟨hcontrols, ?_⟩
  rw [← Text.controls_eq_nil_iff, hcontrols, List.flatMap_eq_nil_iff]
  simp only [Text.controls_eq_nil_iff]

/-- The name of a variable is not escaped, so that a line end in it breaks the line. -/
theorem Node.text_breaks_lines :
    ¬ ∀ n : Node, ∀ c ∈ n.text.toList, Text.isControl c = false :=
  fun h => absurd (h (.named "a\nb") '\n' (by decide)) (by decide)

end PathQuery
