import PathQuery.Proofs.Path.Tokens

/-!
# Texts tell trees apart

`Node.ofPathText?` reads from the text of a tree the tree that the text spells, whatever its size. So two trees
with one text spell the same: they are the same tree up to declared types if both are spelled out, and they
evaluate alike if both have the meaning that their texts spell.

* `Node.Reads` — a node is read in all its places, as an operand, as a whole and as the target of a step;
  there is one lemma for each kind of node, and `Node.reads` puts them together.
* `Node.ofPathText?_text` — a text reads as the tree that it spells.
* `Node.text_identifies_tree` and `Node.text_determines_meaning` are what follows for two trees, and
  `Node.text_hides_meaning` shows two that one text does not tell apart.
-/

namespace PathQuery

open Reader

/-! ### The characters of a node -/

namespace Node

def chars (n : Node) : List Char :=
  n.text.toList

/-- The characters of a node as an operand. -/
def operandChars (n : Node) : List Char :=
  (parenthesised n.form.isLooseOperand n.text).toList

/-- The characters of a node as the target of a step. -/
def targetChars (n : Node) : List Char :=
  (parenthesised n.form.isLooseTarget n.text).toList

variable {n : Node}

theorem toList_parenthesised (text : String) :
    (parenthesised true text).toList = '(' :: (text.toList ++ [')']) := by
  rw [parenthesised, if_pos rfl, String.toList_append, String.toList_append]
  rfl

theorem operandChars_of_loose (h : n.form.isLooseOperand = true) :
    n.operandChars = '(' :: (n.chars ++ [')']) := by
  rw [operandChars, h, toList_parenthesised, chars]

theorem operandChars_of_not_loose (h : n.form.isLooseOperand = false) : n.operandChars = n.chars := by
  rw [operandChars, h]
  rfl

theorem targetChars_of_loose (h : n.form.isLooseTarget = true) :
    n.targetChars = '(' :: (n.chars ++ [')']) := by
  rw [targetChars, h, toList_parenthesised, chars]

theorem targetChars_of_not_loose (h : n.form.isLooseTarget = false) : n.targetChars = n.chars := by
  rw [targetChars, h]
  rfl

/-! ### Reading a node in its places -/

/-- A node is read as an operand from its characters, in front of all that can stand behind it. -/
def ReadsOperand (n : Node) (cs : List Char) : Prop :=
  ∀ depth, cs.length < depth → ∀ r, stops r = true →
    Reader.operand depth (cs ++ r) = some (n.spelled, r)

def ReadsWhole (n : Node) : Prop :=
  ∀ depth, n.chars.length < depth → ∀ r, ends r = true →
    wholeWith (Reader.operand depth) (n.chars ++ r) = some (n.spelled, r)

/-- A node is read up to the steps behind it, and as many of these as there can be are still to be read. -/
def ReadsTarget (n : Node) (cs : List Char) : Prop :=
  ∀ depth, cs.length ≤ depth → ∀ r, follows r = true → ∃ count, r.length ≤ count ∧
    operandWith (Reader.operand depth) (cs ++ r) = chain (Reader.operand depth) count n.spelled r

/-- A node is read in all its places. The text of a negative number is none of a target. -/
structure Reads (n : Node) : Prop where
  operand : n.ReadsOperand n.operandChars
  whole : n.ReadsWhole
  target : n.form.isNegativeNumber = false → n.ReadsTarget n.targetChars

theorem chain_of_stops {operand : List Char → Option (Node × List Char)} {r : List Char}
    (hr : stops r = true) (count : Nat) : chain operand count n r = some (n, r) := by
  cases count with
  | zero => rfl
  | succ count => rw [chain, step?_of_stops operand hr]

/-- A whole node is read up to the parenthesis behind it. -/
theorem ReadsWhole.enclosed (h : n.ReadsWhole) (depth : Nat) (hdepth : n.chars.length < depth)
    (r : List Char) :
    Reader.enclosed (Reader.operand depth) (n.chars ++ ')' :: r) = some (n.spelled, r) := by
  rw [Reader.enclosed, h depth hdepth (')' :: r) rfl]
  rfl

/-- In parentheses every node can be a target. -/
theorem ReadsWhole.parenthesised (h : n.ReadsWhole) : n.ReadsTarget ('(' :: (n.chars ++ [')'])) := by
  intro depth hdepth r hr
  refine ⟨r.length, Nat.le_refl _, ?_⟩
  have hlength : n.chars.length < depth := by
    simp only [List.length_cons, List.length_append, List.length_nil] at hdepth
    omega
  rw [List.cons_append, List.append_assoc, List.singleton_append, operandWith, h.enclosed depth hlength r]
  dsimp only
  rw [behind?_isUnknown hr]

/-- A target that no step follows is an operand. -/
theorem ReadsTarget.operand {cs : List Char} (h : n.ReadsTarget cs) : n.ReadsOperand cs := by
  intro depth hdepth r hr
  obtain ⟨depth, rfl⟩ : ∃ k, depth = k + 1 := ⟨depth - 1, by omega⟩
  obtain ⟨count, -, hread⟩ := h depth (Nat.le_of_lt_succ hdepth) r (follows_of_stops hr)
  rw [Reader.operand, hread, chain_of_stops hr]

/-- An operand that no infix operator follows is a whole node. -/
theorem ReadsOperand.whole (h : n.ReadsOperand n.chars) : n.ReadsWhole := by
  intro depth hdepth r hr
  rw [wholeWith, h depth hdepth r (stops_of_ends hr)]
  dsimp only
  rw [infix?_of_ends hr]

/-- A node that needs parentheses in both places. -/
theorem Reads.of_whole (hoperand : n.form.isLooseOperand = true) (htarget : n.form.isLooseTarget = true)
    (h : n.ReadsWhole) : n.Reads := by
  refine ⟨?_, h, fun _ => ?_⟩
  · rw [operandChars_of_loose hoperand]
    exact h.parenthesised.operand
  · rw [targetChars_of_loose htarget]
    exact h.parenthesised

/-- A node that needs parentheses only in front of a step. -/
theorem Reads.of_operand (hoperand : n.form.isLooseOperand = false)
    (htarget : n.form.isNegativeNumber = false → n.form.isLooseTarget = true)
    (h : n.ReadsOperand n.chars) : n.Reads := by
  refine ⟨?_, h.whole, fun hpositive => ?_⟩
  · rw [operandChars_of_not_loose hoperand]
    exact h
  · rw [targetChars_of_loose (htarget hpositive)]
    exact h.whole.parenthesised

/-- A node that needs no parentheses. -/
theorem Reads.of_target (hoperand : n.form.isLooseOperand = false)
    (htarget : n.form.isLooseTarget = false) (h : n.ReadsTarget n.chars) : n.Reads := by
  refine ⟨?_, h.operand.whole, fun _ => ?_⟩
  · rw [operandChars_of_not_loose hoperand]
    exact h.operand
  · rw [targetChars_of_not_loose htarget]
    exact h

/-! ### Atoms -/

theorem operandWith_atom {operand : List Char → Option (Node × List Char)} {form : Form}
    {cs r : List Char} (h : IsAtom form cs) (hr : follows r = true) :
    operandWith operand (cs ++ r) = chain operand r.length (ofForm form) r := by
  have hread := h.read r hr
  have hhead := h.head
  cases cs with
  | nil => cases h.read [] rfl
  | cons c cs =>
    have hc : c ∉ openers := hhead c rfl
    rw [List.cons_append] at hread ⊢
    unfold operandWith
    split
    · next heq => exact absurd ((List.cons.inj heq).1 ▸ by decide) hc
    · next heq => exact absurd ((List.cons.inj heq).1 ▸ by decide) hc
    · next heq => exact absurd ((List.cons.inj heq).1 ▸ by decide) hc
    · next heq => exact absurd ((List.cons.inj heq).1 ▸ by decide) hc
    · next heq => exact absurd ((List.cons.inj heq).1 ▸ by decide) hc
    · rw [hread]
      rfl

/-- A node that is an atom. -/
theorem Reads.of_atom {form : Form} {declared : Option SqlType} (hform : form.spelled = form)
    (hoperand : form.isLooseOperand = false) (htarget : form.isLooseTarget = false)
    (h : IsAtom form form.text.toList) : (Node.mk form declared).Reads := by
  refine Reads.of_target hoperand htarget fun depth _ r hr => ⟨r.length, Nat.le_refl _, ?_⟩
  rw [Node.spelled, hform]
  exact operandWith_atom h hr

theorem reads_of_not_isNegative {v : Literal} (hv : v.isNegative = false) (declared : Option SqlType) :
    (Node.mk (.literal v) declared).Reads :=
  Reads.of_atom (Literal.spelled_of_not_isNegative hv) rfl rfl (isAtom_literal hv)

/-- The digits of the least integer are no operand. -/
theorem operand_leastDigits (depth : Nat) {r : List Char} (hr : follows r = true) :
    Reader.operand depth ("9223372036854775808".toList ++ r) = none := by
  have hdigits : "9223372036854775808".toList = Nat.toDigits 10 9223372036854775808 := by decide +kernel
  have hread : atom? ("9223372036854775808".toList ++ r) = none := by
    show atom? ('9' :: _) = none
    rw [atom?_digit (by decide)]
    show Option.map _ (number? ("9223372036854775808".toList ++ r)) = none
    rw [hdigits, number?_whole _ hr]
    rfl
  cases depth with
  | zero => rfl
  | succ depth =>
    show (atom? ("9223372036854775808".toList ++ r)).bind _ = none
    rw [hread]
    rfl

/-- A negative integer without an opposite is the least one. -/
theorem eq_minValue_of_opposite? {n : Int64} (hn : (Literal.int n).isNegative = true)
    (hopposite : (Literal.int n).opposite? = none) : n = Int64.minValue := by
  have hnegative : n.toInt < 0 := of_decide_eq_true hn
  have hleast := n.le_toInt
  have hrange := Option.map_eq_none_iff.mp hopposite
  rw [int64?] at hrange
  have hvalue : n.toInt = Int64.minValue.toInt := by
    split at hrange
    · cases hrange
    · next h =>
      rw [Int64.toInt_minValue]
      omega
  exact Int64.toInt_inj.mp hvalue

/-- The least integer is read as itself: its digits alone are no operand. -/
theorem readsOperand_minValue (declared : Option SqlType) :
    (Node.mk (.literal (.int Int64.minValue)) declared).ReadsOperand
      ('-' :: "9223372036854775808".toList) := by
  intro depth hdepth r hr
  obtain ⟨depth, rfl⟩ : ∃ k, depth = k + 1 := ⟨depth - 1, by omega⟩
  show negative (Reader.operand depth) ("9223372036854775808".toList ++ r) = _
  rw [negative, operand_leastDigits depth (follows_of_stops hr)]
  rfl

/-- Any other negative number is read as its opposite behind a minus. -/
theorem readsOperand_opposite {v w : Literal} (hv : v.isNegative = true) (hw : v.opposite? = some w)
    (declared : Option SqlType) : (Node.mk (.literal v) declared).ReadsOperand v.text.toList := by
  obtain ⟨htext, hpositive⟩ := Literal.text_of_isNegative hv hw
  have hchars : v.text.toList = '-' :: (Node.literal w).operandChars := by
    rw [htext, String.toList_append]
    rfl
  have hspelled : (Node.mk (.literal v) declared).spelled = .signed .minus (Node.literal w).spelled := by
    rw [Node.spelled, Form.spelled, Literal.spelled, if_pos hv, hw, Node.literal, ofForm, Node.spelled,
      Form.spelled, Literal.spelled_of_not_isNegative hpositive]
    rfl
  intro depth hdepth r hr
  rw [hchars, List.length_cons] at hdepth
  obtain ⟨depth, rfl⟩ : ∃ k, depth = k + 1 := ⟨depth - 1, by omega⟩
  have hread :=
    (reads_of_not_isNegative hpositive none).operand depth (Nat.lt_of_succ_lt_succ hdepth) r hr
  rw [hchars, hspelled]
  show negative (Reader.operand depth) ((Node.literal w).operandChars ++ r) = _
  rw [negative, Node.literal, ofForm, hread]

/-- A literal is read as what its text spells. -/
theorem reads_literal (v : Literal) (declared : Option SqlType) : (Node.mk (.literal v) declared).Reads := by
  cases hv : v.isNegative with
  | false => exact reads_of_not_isNegative hv declared
  | true =>
    refine Reads.of_operand rfl (fun hpositive => ?_) ?_
    · have hnegative : v.isNegative = false := hpositive
      rw [hv] at hnegative
      cases hnegative
    cases hw : v.opposite? with
    | some w => exact readsOperand_opposite hv hw declared
    | none =>
      cases v with
      | int n =>
        rw [eq_minValue_of_opposite? hv hw]
        have hchars : (Node.mk (.literal (.int Int64.minValue)) declared).chars =
            '-' :: "9223372036854775808".toList := by
          show (toString Int64.minValue.toInt).toList = _
          decide +kernel
        rw [hchars]
        exact readsOperand_minValue declared
      | float => cases hw
      | string | bool | null => cases hv

/-! ### Steps -/

/-- A step behind a target: what its characters are read as. -/
theorem Reads.of_step (step : Step) (cs : List Char) {target : Node} {form : Form}
    {declared : Option SqlType}
    (hoperand : form.isLooseOperand = false) (htarget : form.isLooseTarget = false)
    (hplain : target.form.isNegativeNumber = false) (h : target.Reads)
    (hchars : (Node.mk form declared).chars = target.targetChars ++ cs)
    (hspelled : form.spelled = step.form target.spelled)
    (hne : cs ≠ []) (hfollows : ∀ r, follows (cs ++ r) = true)
    (hread : ∀ depth, cs.length ≤ depth → ∀ r, follows r = true →
      step? (Reader.operand depth) (cs ++ r) = some (step, r)) : (Node.mk form declared).Reads := by
  refine Reads.of_target hoperand htarget ?_
  rw [hchars]
  intro depth hdepth r hr
  rw [List.length_append] at hdepth
  obtain ⟨count, hcount, htargetRead⟩ := h.target hplain depth (by omega) (cs ++ r) (hfollows r)
  have hlength := List.length_pos_iff.mpr hne
  rw [List.length_append] at hcount
  obtain ⟨count, rfl⟩ : ∃ k, count = k + 1 := ⟨count - 1, by omega⟩
  refine ⟨count, by omega, ?_⟩
  rw [List.append_assoc, htargetRead, chain, hread depth (by omega) r hr, Node.spelled, hspelled]
  rfl

section Steps

variable {target : Node} (htarget : target.form.isNegativeNumber = false) (h : target.Reads)
  (declared : Option SqlType)

include htarget h

theorem reads_member (name : String) : (Node.mk (.member target name) declared).Reads := by
  refine Reads.of_step (.member name) ('.' :: (keyText name).toList) rfl rfl htarget h ?_ rfl
    (List.cons_ne_nil _ _) (follows_key name) fun _ _ r hr => step?_member _ name hr
  simp only [chars, Node.text, Form.text, String.toList_append, List.append_assoc, targetChars]
  rfl

theorem reads_wildcardMember : (Node.mk (.wildcardMember target) declared).Reads := by
  refine Reads.of_step .wildcardMember ['.', '*'] rfl rfl htarget h ?_ rfl
    (List.cons_ne_nil _ _) (fun _ => rfl) fun _ _ _ _ => rfl
  simp only [chars, Node.text, Form.text, String.toList_append, targetChars]
  rfl

theorem reads_descendant (name : String) : (Node.mk (.descendant target name) declared).Reads := by
  refine Reads.of_step (.descendant name) ('.' :: '.' :: (keyText name).toList) rfl rfl htarget h
    ?_ rfl (List.cons_ne_nil _ _) (fun _ => rfl) fun depth _ r hr => ?_
  · simp only [chars, Node.text, Form.text, String.toList_append, List.append_assoc, targetChars]
    rfl
  · show (key? ((keyText name).toList ++ r)).map _ = _
    rw [key?_append name (not_isNameChar_of_follows hr)]
    rfl

theorem reads_method (m : Method) : (Node.mk (.method target m) declared).Reads := by
  refine Reads.of_step (.method m) ('.' :: m.text.toList) rfl rfl htarget h ?_ rfl
    (List.cons_ne_nil _ _) (follows_method m) fun depth _ r hr => step?_method _ m
  simp only [chars, Node.text, Form.text, String.toList_append, List.append_assoc, targetChars]
  rfl

theorem reads_filter {predicate : Node} (hp : predicate.Reads) :
    (Node.mk (.filter target predicate) declared).Reads := by
  refine Reads.of_step (.filter predicate.spelled)
    (' ' :: '?' :: ' ' :: '(' :: (predicate.chars ++ [')'])) rfl rfl htarget h
    ?_ rfl (List.cons_ne_nil _ _) (fun _ => rfl) fun depth hdepth r hr => ?_
  · simp only [chars, Node.text, Form.text, String.toList_append, List.append_assoc, targetChars]
    rfl
  · have hlength : predicate.chars.length < depth := by
      simp only [List.length_cons, List.length_append, List.length_nil] at hdepth
      omega
    have henclosed := hp.whole.enclosed depth hlength r
    simp only [List.cons_append, List.append_assoc, List.nil_append, step?, henclosed]
    rfl

end Steps

/-! ### Subscripts -/

theorem reads_last (declared : Option SqlType) : (Node.mk .last declared).Reads :=
  Reads.of_atom rfl rfl rfl isAtom_last

end Node

namespace Subscript

def chars (s : Subscript) : List Char :=
  s.text.toList

/-- The characters of several subscripts with commas between them. -/
def charsAll (ss : List Subscript) : List Char :=
  (String.intercalate ", " (texts ss)).toList

/-- What can stand behind a subscript. -/
def closes : List Char → Bool
  | ',' :: _ | ']' :: _ => true
  | _ => false

theorem ends_of_closes {r : List Char} (hr : closes r = true) : ends r = true ∧ behind? " to " r = none := by
  unfold closes at hr
  split at hr
  · exact ⟨rfl, rfl⟩
  · exact ⟨rfl, rfl⟩
  · cases hr

theorem subscript_append {s : Subscript} (hs : ∀ n ∈ s.positions, n.Reads) {depth : Nat}
    (hdepth : s.chars.length < depth) {r : List Char} (hr : closes r = true) :
    subscript (Reader.operand depth) (s.chars ++ r) = some (s.spelled, r) := by
  obtain ⟨hends, hto⟩ := ends_of_closes hr
  cases s with
  | index position =>
    have hposition := (hs position (by simp [positions])).whole depth hdepth r hends
    rw [show (Subscript.index position).chars = position.chars from rfl, subscript, hposition]
    dsimp only
    rw [hto, spelled]
  | range first final =>
    have hchars : (Subscript.range first final).chars =
        first.chars ++ (' ' :: 't' :: 'o' :: ' ' :: final.chars) := by
      simp only [chars, text, String.toList_append, List.append_assoc, Node.chars]
      rfl
    rw [hchars, List.length_append] at hdepth
    simp only [List.length_cons] at hdepth
    have hfirst := (hs first (by simp [positions])).whole depth (by omega)
      (' ' :: 't' :: 'o' :: ' ' :: (final.chars ++ r)) rfl
    have hfinal := (hs final (by simp [positions])).whole depth (by omega) r hends
    rw [hchars, List.append_assoc, subscript]
    simp only [List.cons_append, hfirst]
    show Option.map _ (wholeWith (Reader.operand depth) (final.chars ++ r)) = _
    rw [hfinal]
    rfl
  | last =>
    have hlast := (Node.reads_last none).whole depth hdepth r hends
    rw [show Subscript.last.chars = (Node.mk .last none).chars from rfl, subscript, hlast]
    dsimp only
    rw [hto]
    rfl
  | wildcard =>
    obtain ⟨depth, rfl⟩ : ∃ k, depth = k + 1 := ⟨depth - 1, by omega⟩
    rfl

theorem charsAll_cons (s s' : Subscript) (ss : List Subscript) :
    charsAll (s :: s' :: ss) = s.chars ++ (',' :: ' ' :: charsAll (s' :: ss)) := by
  rw [charsAll, texts, texts, String.intercalate_cons_cons, String.toList_append, String.toList_append,
    List.append_assoc]
  rfl

theorem charsAll_singleton (s : Subscript) : charsAll [s] = s.chars := by
  rw [charsAll, texts, texts, String.intercalate_singleton, chars]

/-- Subscripts are read one after another up to the bracket behind them. -/
theorem subscripts_append {ss : List Subscript} (hss : ∀ s ∈ ss, ∀ n ∈ s.positions, n.Reads) (depth : Nat)
    (hdepth : (charsAll ss).length < depth) (r : List Char) (count : Nat)
    (hcount : (charsAll ss).length < count) :
    subscripts (Reader.operand depth) count (charsAll ss ++ ']' :: r) = some (spelledAll ss, r) := by
  induction ss generalizing count with
  | nil =>
    obtain ⟨count, rfl⟩ : ∃ k, count = k + 1 := ⟨count - 1, by omega⟩
    obtain ⟨depth, rfl⟩ : ∃ k, depth = k + 1 := ⟨depth - 1, by omega⟩
    rfl
  | cons s ss ih =>
    obtain ⟨count, rfl⟩ : ∃ k, count = k + 1 := ⟨count - 1, by omega⟩
    obtain ⟨hs, hss⟩ := List.forall_mem_cons.mp hss
    cases ss with
    | nil =>
      rw [charsAll_singleton] at hdepth ⊢
      rw [subscripts, subscript_append hs hdepth rfl]
      rfl
    | cons s' ss =>
      rw [charsAll_cons, List.length_append, List.length_cons, List.length_cons] at hdepth hcount
      have hrest := ih hss (by omega) count (by omega)
      rw [charsAll_cons, List.append_assoc, List.cons_append, List.cons_append, subscripts,
        subscript_append hs (by omega) rfl]
      show Option.map _ (subscripts (Reader.operand depth) count (charsAll (s' :: ss) ++ ']' :: r)) = _
      rw [hrest]
      rfl

end Subscript

namespace Node

theorem reads_elements {target : Node} (htarget : target.form.isNegativeNumber = false) (h : target.Reads)
    (declared : Option SqlType) {subscripts : List Subscript}
    (hsubscripts : ∀ s ∈ subscripts, ∀ n ∈ s.positions, n.Reads) :
    (Node.mk (.elements target subscripts) declared).Reads := by
  refine Reads.of_step (.elements (Subscript.spelledAll subscripts))
    ('[' :: (Subscript.charsAll subscripts ++ [']'])) rfl rfl htarget h
    ?_ rfl (List.cons_ne_nil _ _) (fun _ => rfl) fun depth hdepth r hr => ?_
  · simp only [chars, Node.text, Form.text, String.toList_append, List.append_assoc, targetChars]
    rfl
  · simp only [List.length_cons, List.length_append, List.length_nil] at hdepth
    have hcount : (Subscript.charsAll subscripts).length <
        (Subscript.charsAll subscripts ++ ']' :: r).length := by
      rw [List.length_append, List.length_cons]
      omega
    have hread := Subscript.subscripts_append hsubscripts depth (by omega) r _ hcount
    simp only [List.cons_append, List.append_assoc, List.nil_append, step?, hread]
    rfl

/-! ### Operators in front of an operand -/

theorem reads_unary (sign : Sign) {operand : Node} (h : operand.Reads) (declared : Option SqlType) :
    (Node.mk (.unary sign operand) declared).Reads := by
  refine Reads.of_operand rfl (fun _ => rfl) fun depth hdepth r hr => ?_
  have hchars : (Node.mk (.unary sign operand) declared).chars =
      sign.text.toList ++ operand.operandChars := by
    simp only [chars, Node.text, Form.text, String.toList_append, operandChars]
  obtain ⟨depth, rfl⟩ : ∃ k, depth = k + 1 := ⟨depth - 1, by omega⟩
  rw [hchars, List.length_append] at hdepth
  rw [hchars]
  cases sign with
  | plus =>
    have hread := h.operand depth (Nat.lt_of_succ_lt_succ (Nat.one_add _ ▸ hdepth)) r hr
    show Option.map _ (Reader.operand depth (operand.operandChars ++ r)) = _
    rw [hread]
    rfl
  | minus =>
    have hread := h.operand depth (Nat.lt_of_succ_lt_succ (Nat.one_add _ ▸ hdepth)) r hr
    show negative (Reader.operand depth) (operand.operandChars ++ r) = _
    rw [negative, hread]
    rfl

/-- A node between an opening text and a parenthesis, with the end of its operator behind it. -/
theorem Reads.of_enclosed (before after : List Char) {operand : Node} (h : operand.Reads) {form : Form}
    {declared : Option SqlType} (hoperand : form.isLooseOperand = false)
    (htarget : form.isLooseTarget = true)
    (hchars : (Node.mk form declared).chars = before ++ (operand.chars ++ ')' :: after))
    (hbefore : before ≠ [])
    (hread : ∀ inner r, Reader.enclosed inner (operand.chars ++ ')' :: (after ++ r)) =
        some (operand.spelled, after ++ r) →
      operandWith inner (before ++ (operand.chars ++ ')' :: (after ++ r))) =
        some (.ofForm form.spelled, r)) :
    (Node.mk form declared).Reads := by
  refine Reads.of_operand hoperand (fun _ => htarget) fun depth hdepth r _ => ?_
  obtain ⟨depth, rfl⟩ : ∃ k, depth = k + 1 := ⟨depth - 1, by omega⟩
  have hlength := List.length_pos_iff.mpr hbefore
  rw [hchars, List.length_append, List.length_append] at hdepth
  have henclosed := h.whole.enclosed depth (by omega) (after ++ r)
  have hall := hread _ r henclosed
  rw [hchars, List.append_assoc, List.append_assoc, List.cons_append]
  exact hall

theorem reads_negation {operand : Node} (h : operand.Reads) (declared : Option SqlType) :
    (Node.mk (.negation operand) declared).Reads := by
  refine Reads.of_enclosed ['!', '('] [] h rfl rfl ?_ (List.cons_ne_nil _ _)
    fun inner r hread => ?_
  · simp only [chars, Node.text, Form.text, String.toList_append, List.append_assoc]
    rfl
  · show Option.map _ (Reader.enclosed inner (operand.chars ++ ')' :: r)) = _
    rw [List.nil_append] at hread
    rw [hread]
    rfl

theorem reads_existence {operand : Node} (h : operand.Reads) (declared : Option SqlType) :
    (Node.mk (.existence operand) declared).Reads := by
  refine Reads.of_enclosed "exists (".toList [] h rfl rfl ?_ (by decide)
    fun inner r hread => ?_
  · simp only [chars, Node.text, Form.text, String.toList_append, List.append_assoc]
    rfl
  · show Option.map _ (Reader.enclosed inner (operand.chars ++ ')' :: r)) = _
    rw [List.nil_append] at hread
    rw [hread]
    rfl

theorem reads_isUnknown {operand : Node} (h : operand.Reads) (declared : Option SqlType) :
    (Node.mk (.isUnknown operand) declared).Reads := by
  refine Reads.of_enclosed ['('] " is unknown".toList h rfl rfl ?_
    (List.cons_ne_nil _ _) fun inner r hread => ?_
  · simp only [chars, Node.text, Form.text, String.toList_append, List.append_assoc]
    rfl
  · rw [List.singleton_append, operandWith, hread]
    rfl

/-! ### Operators between two operands -/

theorem stops_infix_append (i : Infix) (cs : List Char) : stops (i.text.toList ++ cs) = true := by
  cases i with
  | arithmetic op => cases op <;> rfl
  | comparison op => cases op <;> rfl
  | conjunction | disjunction | startsWith => rfl

theorem reads_infix_form (i : Infix) {left right : Node} (hl : left.Reads) (hr : right.Reads)
    (declared : Option SqlType) : (Node.mk (i.form left right) declared).Reads := by
  have hchars : (Node.mk (i.form left right) declared).chars =
      left.operandChars ++ (i.text.toList ++ right.operandChars) := by
    cases i with
    | arithmetic | comparison | conjunction | disjunction | startsWith =>
      simp only [chars, Node.text, Infix.form, Form.text, String.toList_append, List.append_assoc,
        operandChars, Infix.text]
  have hspelled : (Node.mk (i.form left right) declared).spelled =
      .ofForm (i.form left.spelled right.spelled) := by
    cases i <;> rfl
  have hwhole : (Node.mk (i.form left right) declared).ReadsWhole := by
    intro depth hdepth r hends
    rw [hchars, List.length_append, List.length_append] at hdepth
    rw [hchars, hspelled, List.append_assoc, List.append_assoc, wholeWith,
      hl.operand depth (by omega) _ (stops_infix_append i _)]
    dsimp only
    rw [infix?_append]
    dsimp only
    rw [hr.operand depth (by omega) r (stops_of_ends hends)]
    rfl
  refine Reads.of_whole ?_ ?_ hwhole
  · cases i <;> rfl
  · cases i <;> rfl

/-! ### All nodes -/

/-- **Every node is read in all its places.** -/
theorem reads (n : Node) (hn : ∀ f ∈ n.forms, f.isReadable = true) : n.Reads := by
  have htarget {target : Node} (h : (!target.form.isNegativeNumber) = true) :
      target.form.isNegativeNumber = false := by simpa using h
  induction n with
  | literal v declared => exact reads_literal v declared
  | context declared => exact Reads.of_atom rfl rfl rfl isAtom_context
  | current declared => exact Reads.of_atom rfl rfl rfl isAtom_current
  | last declared => exact reads_last declared
  | named name declared =>
    have hname := (Bool.and_eq_true_iff.mp (Node.forall_forms.mp hn).1).1
    refine Reads.of_atom rfl rfl rfl ?_
    have hchars : (Form.named name).text.toList = '$' :: name.toList := by
      rw [Form.text, String.toList_append]
      rfl
    rw [hchars]
    exact isAtom_named hname
  | positional position declared =>
    refine Reads.of_atom rfl rfl rfl ?_
    have hchars : (Form.positional position).text.toList =
        '$' :: '<' :: (Nat.toDigits 10 position ++ ['>']) := by
      rw [Form.text, String.toList_append, String.toList_append,
        show (toString position).toList = Nat.toDigits 10 position from Nat.toList_repr]
      rfl
    rw [hchars]
    exact isAtom_positional position
  | member target name ih declared =>
    obtain ⟨hform, hinner⟩ := Node.forall_forms.mp hn
    exact reads_member (htarget hform) (ih hinner) declared name
  | wildcardMember target ih declared =>
    obtain ⟨hform, hinner⟩ := Node.forall_forms.mp hn
    exact reads_wildcardMember (htarget hform) (ih hinner) declared
  | descendant target name ih declared =>
    obtain ⟨hform, hinner⟩ := Node.forall_forms.mp hn
    exact reads_descendant (htarget hform) (ih hinner) declared name
  | elements target subscripts ih ihs declared =>
    obtain ⟨hform, hinner⟩ := Node.forall_forms.mp hn
    simp only [Form.inner, List.forall_mem_append, Subscript.forall_innerAll] at hinner
    exact reads_elements (htarget hform) (ih hinner.1) declared
      fun s hs n hmem => ihs s hs n hmem (hinner.2 s hs n hmem)
  | filter target predicate ih ihp declared =>
    obtain ⟨hform, hinner⟩ := Node.forall_forms.mp hn
    obtain ⟨ht, hp⟩ := List.forall_mem_append.mp hinner
    exact reads_filter (htarget hform) (ih ht) declared (ihp hp)
  | method target m ih declared =>
    obtain ⟨hform, hinner⟩ := Node.forall_forms.mp hn
    exact reads_method (htarget hform) (ih hinner) declared m
  | unary sign operand ih declared =>
    exact reads_unary sign (ih (Node.forall_forms.mp hn).2) declared
  | negation operand ih declared => exact reads_negation (ih (Node.forall_forms.mp hn).2) declared
  | existence operand ih declared => exact reads_existence (ih (Node.forall_forms.mp hn).2) declared
  | isUnknown operand ih declared => exact reads_isUnknown (ih (Node.forall_forms.mp hn).2) declared
  | binary op left right ihl ihr declared =>
    obtain ⟨hl, hr⟩ := List.forall_mem_append.mp (Node.forall_forms.mp hn).2
    exact reads_infix_form (.arithmetic op) (ihl hl) (ihr hr) declared
  | comparison op left right ihl ihr declared =>
    obtain ⟨hl, hr⟩ := List.forall_mem_append.mp (Node.forall_forms.mp hn).2
    exact reads_infix_form (.comparison op) (ihl hl) (ihr hr) declared
  | conjunction left right ihl ihr declared =>
    obtain ⟨hl, hr⟩ := List.forall_mem_append.mp (Node.forall_forms.mp hn).2
    exact reads_infix_form .conjunction (ihl hl) (ihr hr) declared
  | disjunction left right ihl ihr declared =>
    obtain ⟨hl, hr⟩ := List.forall_mem_append.mp (Node.forall_forms.mp hn).2
    exact reads_infix_form .disjunction (ihl hl) (ihr hr) declared
  | startsWith whole initial ihl ihr declared =>
    obtain ⟨hl, hr⟩ := List.forall_mem_append.mp (Node.forall_forms.mp hn).2
    exact reads_infix_form .startsWith (ihl hl) (ihr hr) declared

/-- **A text reads as the tree that it spells.** -/
theorem ofPathText?_text (n : Node) (hn : ∀ f ∈ n.forms, f.isReadable = true) :
    ofPathText? n.text = some n.spelled := by
  have hlength : n.chars.length < n.text.length + 1 :=
    Nat.lt_succ_of_le (Nat.le_of_eq String.length_toList)
  have hread := (n.reads hn).whole (n.text.length + 1) hlength [] rfl
  rw [List.append_nil, chars] at hread
  rw [ofPathText?, hread]

/-! ### Two trees with one text -/

/-- Trees with one text spell the same tree. -/
theorem spelled_eq_of_text_eq {n m : Node} (hn : ∀ f ∈ n.forms, f.isReadable = true)
    (hm : ∀ f ∈ m.forms, f.isReadable = true) (h : n.text = m.text) : n.spelled = m.spelled := by
  have hread := n.ofPathText?_text hn
  rw [h, m.ofPathText?_text hm] at hread
  exact (Option.some.inj hread).symm

/-- **Texts tell trees apart.** Two trees that are spelled out have the same text exactly if they differ in
nothing but declared types. -/
theorem text_identifies_tree {n m : Node} (hn : ∀ f ∈ n.forms, f.isSpelledOut = true)
    (hm : ∀ f ∈ m.forms, f.isSpelledOut = true) : n.text = m.text ↔ n.bare = m.bare := by
  constructor
  · intro h
    have hspelled :=
      spelled_eq_of_text_eq (n.isReadable_of_isSpelledOut hn) (m.isReadable_of_isSpelledOut hm) h
    rw [n.spelled_eq_bare hn, m.spelled_eq_bare hm] at hspelled
    exact hspelled
  · intro h
    rw [← n.text_bare, h, m.text_bare]

/-- A sign in front of a target and a sign in front of the whole path. -/
theorem text_identifies_tree_of_signs :
    let n := signed .minus (member "b c" (member "a" (named "x")))
    let typed := (signed .minus (member "b c" ((member "a" (named "x")).withDeclared .date))).withDeclared .double
    let m := member "b c" (signed .minus (member "a" (named "x")))
    (∀ f ∈ n.forms, f.isSpelledOut = true) ∧ (∀ f ∈ typed.forms, f.isSpelledOut = true) ∧
      (∀ f ∈ m.forms, f.isSpelledOut = true) ∧
      n.text = typed.text ∧ n.bare = typed.bare ∧ n.bare ≠ m.bare ∧ n.text ≠ m.text := by
  intro n typed m
  have hn : ∀ f ∈ n.forms, f.isSpelledOut = true := by decide +kernel
  have htyped : ∀ f ∈ typed.forms, f.isSpelledOut = true := by decide +kernel
  have hm : ∀ f ∈ m.forms, f.isSpelledOut = true := by decide +kernel
  have htext : n.text = typed.text := by decide +kernel
  have hbare : n.bare ≠ m.bare := fun h => by cases h
  exact ⟨hn, htyped, hm, htext, (text_identifies_tree hn htyped).mp htext, hbare,
    fun h => hbare ((text_identifies_tree hn hm).mp h)⟩

/-- **Texts determine meanings.** Two trees with one text have the same sequence and the same truth value in
every scope, and so the same result for every mode, input and parameters. Their variables must have
identifiers for names, no step may go on from a number with a minus in front, and the last index by itself
must not be a subscript. -/
theorem text_determines_meaning {n m : Node} (hn : ∀ f ∈ n.forms, f.isFaithful = true)
    (hm : ∀ f ∈ m.forms, f.isFaithful = true) (h : n.text = m.text) :
    (∀ scope, n.eval scope = m.eval scope ∧ n.truth scope = m.truth scope) ∧
      ∀ mode input bindings, n.evaluate mode input bindings = m.evaluate mode input bindings := by
  have hspelled : n.spelled = m.spelled :=
    spelled_eq_of_text_eq (fun f hf => Form.isReadable_of_isFaithful (hn f hf))
      (fun f hf => Form.isReadable_of_isFaithful (hm f hf)) h
  have heval : ∀ scope, n.eval scope = m.eval scope := by
    intro scope
    rw [← n.eval_spelled.1 hn scope, hspelled, m.eval_spelled.1 hm scope]
  have htruth : ∀ scope, n.truth scope = m.truth scope := by
    intro scope
    rw [← n.eval_spelled.2 hn scope, hspelled, m.eval_spelled.2 hm scope]
  refine ⟨fun scope => ⟨heval scope, htruth scope⟩, fun mode input bindings => ?_⟩
  rw [Node.evaluate, heval, Node.evaluate]

/-- A negative double and an integer behind a minus, in the filter of an array. -/
theorem text_determines_meaning_of_negative_numbers :
    let minusHalf : Double := .finite true 0x10000000000000 (-53) (by decide)
    let n := (filter context (compared .less (literal (.int (-5))) current)).withDeclared .date
    let m := filter context (compared .less (signed .minus (literal (.int 5))) current)
    let n' := arithmetic .add (literal (.float minusHalf)) (literal (.int 1))
    let m' := arithmetic .add (signed .minus (literal (.float minusHalf.neg))) (literal (.int 1))
    (∀ f ∈ n.forms, f.isFaithful = true) ∧ (∀ f ∈ m.forms, f.isFaithful = true) ∧
      n.text = m.text ∧ n.spelled = m.bare ∧ n.bare ≠ m.bare ∧
      (∀ input, n.evaluate .lax input .empty = m.evaluate .lax input .empty) ∧
      n'.text = "-0.5 + 1" ∧ n'.evaluate .lax .null .empty = m'.evaluate .lax .null .empty := by
  intro minusHalf n m n' m'
  have hn : ∀ f ∈ n.forms, f.isFaithful = true := by decide +kernel
  have hm : ∀ f ∈ m.forms, f.isFaithful = true := by decide +kernel
  have hn' : ∀ f ∈ n'.forms, f.isFaithful = true := by decide +kernel
  have hm' : ∀ f ∈ m'.forms, f.isFaithful = true := by decide +kernel
  have htext : n.text = m.text := by decide +kernel
  have htext' : n'.text = "-0.5 + 1" ∧ m'.text = "-0.5 + 1" := by decide +kernel
  have hsame := (text_determines_meaning hn hm htext).2
  have hsame' := (text_determines_meaning hn' hm' (htext'.1.trans htext'.2.symm)).2
  refine ⟨hn, hm, htext, by rfl, fun h => ?_, fun input => hsame .lax input .empty, htext'.1, hsame' ..⟩
  cases h

/-- A step that goes on from a number with a minus in front has the text of a minus in front of the whole
path, which means something else. -/
theorem text_hides_meaning :
    let n := method .abs (literal (.int (-5)))
    let m := signed .minus (method .abs (literal (.int 5)))
    n.text = "-5.abs()" ∧ m.text = "-5.abs()" ∧
      n.evaluate .lax .null .empty = .ok [.int 5] ∧ m.evaluate .lax .null .empty = .ok [.int (-5)] ∧
      ¬ ∀ n m : Node, (∀ f ∈ n.forms ++ m.forms, f.hasIdentifier = true ∧ f.mentionsLast = false) →
        n.text = m.text →
        ∀ mode input bindings, n.evaluate mode input bindings = m.evaluate mode input bindings := by
  intro n m
  have hn : n.text = "-5.abs()" := by decide +kernel
  have hm : m.text = "-5.abs()" := by decide +kernel
  have hn' : n.evaluate .lax .null .empty = .ok [.int 5] := by rfl
  have hm' : m.evaluate .lax .null .empty = .ok [.int (-5)] := by rfl
  refine ⟨hn, hm, hn', hm', fun hall => ?_⟩
  have hsame := hall n m (by decide +kernel) (hn.trans hm.symm) .lax .null .empty
  rw [hn', hm'] at hsame
  cases hsame

end Node

end PathQuery
