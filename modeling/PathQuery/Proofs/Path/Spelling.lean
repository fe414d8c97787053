import PathQuery.Eval.Basic
import PathQuery.Proofs.Double.Decimal
import PathQuery.Proofs.Path.Bare

/-!
# The tree that a text spells

Some trees are written alike. A negative number is written as its opposite behind a minus, the last index as
a subscript is written as the last element is, and declared types are not written. `Node.spelled` takes of
all trees with one text the same one.

* `Node.spelled_eq_bare` — a tree without negative numbers and without such subscripts only loses its
  declared types.
* `Node.text_spelled` — the text stays the same, unless a step goes on from a negative number: there the
  minus would apply to the result of the step.
* `Node.eval_spelled` — so does the sequence, unless the last index is a subscript.
-/

namespace PathQuery

/-! ### Numbers -/

namespace Literal

/-- Whether a literal is written with a minus in front. -/
def isNegative : Literal → Bool
  | .int n => n.toInt < 0
  | .float x => x.isNegative
  | _ => false

/-- The number with the other sign. The least integer has none. -/
def opposite? : Literal → Option Literal
  | .int n => (int64? (-n.toInt)).map .int
  | .float x => some (.float x.neg)
  | _ => none

/-- What the text of a literal spells. -/
def spelled (v : Literal) : Form :=
  if v.isNegative then
    match v.opposite? with
    | some w => .unary .minus (.literal w)
    | none => .literal v
  else .literal v

variable {v w : Literal}

theorem spelled_of_not_isNegative (h : v.isNegative = false) : v.spelled = .literal v := by
  rw [spelled, h]
  rfl

/-- The text of a negative number is that of the opposite behind a minus. -/
theorem text_of_isNegative (hv : v.isNegative = true) (hw : v.opposite? = some w) :
    v.text = "-" ++ w.text ∧ w.isNegative = false := by
  cases v with
  | string | bool | null => cases hv
  | int n =>
    obtain ⟨m, hm, rfl⟩ := Option.map_eq_some_iff.mp hw
    have hneg : n.toInt < 0 := of_decide_eq_true hv
    have hopposite : m.toInt = -n.toInt := int64?_eq_some hm
    rw [text, text, isNegative, hopposite]
    refine ⟨?_, decide_eq_false (by omega)⟩
    obtain ⟨k, hk⟩ := Int.eq_negSucc_of_lt_zero hneg
    rw [hk]
    rfl
  | float x =>
    cases hw
    refine ⟨Number.text_of_isNegative hv, ?_⟩
    cases x with
    | nan => cases hv
    | infinite negative | finite negative =>
      cases hv
      rfl

theorem spelled_cases (v : Literal) :
    v.spelled = .literal v ∨ ∃ w, v.isNegative = true ∧ v.opposite? = some w ∧
      v.spelled = .unary .minus (.literal w) := by
  unfold spelled
  split
  · next hv =>
    split
    · next w hw => exact Or.inr ⟨w, hv, hw, rfl⟩
    · exact Or.inl rfl
  · exact Or.inl rfl

/-- A number is the opposite of its opposite. -/
theorem signed_of_opposite? (hw : v.opposite? = some w) :
    ∃ a b : Number, w.item = .number a ∧ v.item = .number b ∧ a.signed .minus = .ok b := by
  cases v with
  | string | bool | null => cases hw
  | int n =>
    obtain ⟨m, hm, rfl⟩ := Option.map_eq_some_iff.mp hw
    have hback : int64? (-m.toInt) = some n := by
      rw [int64?_eq_some hm, Int.neg_neg, int64?_toInt]
    refine ⟨.int m, .int n, rfl, rfl, ?_⟩
    rw [Number.signed, hback]
  | float x =>
    cases hw
    refine ⟨.float x.neg, .float x, rfl, rfl, ?_⟩
    rw [Number.signed, Double.neg_neg]

/-- A literal has the value that its text spells. -/
theorem eval_spelled (v : Literal) (scope : Scope) : v.spelled.eval scope = .ok [v.item] := by
  rcases v.spelled_cases with h | ⟨w, -, hw, h⟩
  · rw [h]
    rfl
  · obtain ⟨a, b, ha, hb, hsigned⟩ := signed_of_opposite? hw
    have hnumber : Sequence.number scope.mode .unaryOperand [w.item] = .ok a := by
      rw [ha, Sequence.number]
      cases scope.mode <;> rfl
    have hoperand : (Node.literal w).eval scope = .ok [w.item] := rfl
    rw [h, hb]
    simp only [Form.eval, hoperand, bind, Except.bind, hnumber, hsigned]
    rfl

end Literal

/-- A subscript that a node denotes: the last index by itself is the last element. -/
def Subscript.ofNode : Node → Subscript
  | .mk .last _ => .last
  | position => .index position

mutual

/-- The tree that the text of a tree spells. -/
def Node.spelled : Node → Node
  | .mk form _ => .mk form.spelled none

def Form.spelled : Form → Form
  | .literal value => value.spelled
  | .context => .context
  | .current => .current
  | .last => .last
  | .named name => .named name
  | .positional position => .positional position
  | .member target name => .member target.spelled name
  | .wildcardMember target => .wildcardMember target.spelled
  | .descendant target name => .descendant target.spelled name
  | .elements target subscripts => .elements target.spelled (Subscript.spelledAll subscripts)
  | .filter target predicate => .filter target.spelled predicate.spelled
  | .unary sign operand => .unary sign operand.spelled
  | .binary op left right => .binary op left.spelled right.spelled
  | .method target m => .method target.spelled m
  | .comparison op left right => .comparison op left.spelled right.spelled
  | .conjunction left right => .conjunction left.spelled right.spelled
  | .disjunction left right => .disjunction left.spelled right.spelled
  | .negation operand => .negation operand.spelled
  | .existence operand => .existence operand.spelled
  | .isUnknown operand => .isUnknown operand.spelled
  | .startsWith whole initial => .startsWith whole.spelled initial.spelled

def Subscript.spelled : Subscript → Subscript
  | .index position => .ofNode position.spelled
  | .range first final => .range first.spelled final.spelled
  | .last => .last
  | .wildcard => .wildcard

def Subscript.spelledAll : List Subscript → List Subscript
  | [] => []
  | s :: ss => s.spelled :: Subscript.spelledAll ss

end

/-! ### Kinds of nodes -/

/-- Whether a form is a number with a minus in front. -/
def Form.isNegativeNumber : Form → Bool
  | .literal value => value.isNegative
  | _ => false

/-- Whether a form is no variable, or one with an identifier for its name. -/
def Form.hasIdentifier : Form → Bool
  | .named name => isIdentifier name.toList
  | _ => true

/-- Whether a form is a step that goes on from a number with a minus in front. -/
def Form.goesOnFromMinus : Form → Bool
  | .member target _ | .wildcardMember target | .descendant target _ | .elements target _
  | .filter target _ | .method target _ => target.form.isNegativeNumber
  | _ => false

/-- Whether a form can be told from its text. -/
def Form.isReadable (f : Form) : Bool :=
  f.hasIdentifier && !f.goesOnFromMinus

/-- Whether a subscript is the last index by itself. -/
def Subscript.isLastIndex : Subscript → Bool
  | .index (.mk .last _) => true
  | _ => false

/-- Whether the last index by itself is a subscript of a form. -/
def Form.hasLastIndex : Form → Bool
  | .elements _ subscripts => subscripts.any Subscript.isLastIndex
  | _ => false

/-- Whether a form is the last index or takes the last element. -/
def Form.mentionsLast : Form → Bool
  | .last => true
  | .elements _ subscripts => subscripts.any fun | .last => true | _ => false
  | _ => false

@[simp] theorem Node.form_spelled (n : Node) : n.spelled.form = n.form.spelled := by
  cases n
  rfl

@[simp] theorem Form.isPredicate_spelled (f : Form) : f.spelled.isPredicate = f.isPredicate := by
  cases f with
  | literal v =>
    rw [Form.spelled]
    rcases v.spelled_cases with h | ⟨w, -, -, h⟩
    · rw [h]
    · rw [h]
      rfl
  | _ => rfl

@[simp] theorem Form.isLooseOperand_spelled (f : Form) : f.spelled.isLooseOperand = f.isLooseOperand := by
  cases f with
  | literal v =>
    rw [Form.spelled]
    rcases v.spelled_cases with h | ⟨w, -, -, h⟩
    · rw [h]
    · rw [h]
      rfl
  | _ => rfl

/-- A number with a minus needs parentheses in front of a step. -/
theorem Form.isLooseTarget_spelled {f : Form} (h : f.isNegativeNumber = false) :
    f.spelled.isLooseTarget = f.isLooseTarget := by
  cases f with
  | literal v => rw [Form.spelled, Literal.spelled_of_not_isNegative h]
  | _ => rfl

/-! ### Text -/

theorem Subscript.text_ofNode (position : Node) : (Subscript.ofNode position).text = position.text := by
  obtain ⟨form, declared⟩ := position
  cases form with
  | last => rfl
  | _ => rfl

theorem Subscript.texts_spelledAll {ss : List Subscript}
    (hss : ∀ s ∈ ss, ∀ n ∈ s.positions, n.spelled.text = n.text) :
    Subscript.texts (Subscript.spelledAll ss) = Subscript.texts ss := by
  induction ss with
  | nil => rfl
  | cons s ss ih =>
    obtain ⟨hs, hss⟩ := List.forall_mem_cons.mp hss
    have htext : s.spelled.text = s.text := by
      cases s <;> simp_all [Subscript.spelled, Subscript.text, Subscript.positions, Subscript.text_ofNode]
    rw [Subscript.spelledAll, Subscript.texts, htext, ih hss, Subscript.texts]

theorem Literal.text_spelled (v : Literal) : v.spelled.text = v.text := by
  rcases v.spelled_cases with h | ⟨w, hv, hw, h⟩
  · rw [h, Form.text]
  · rw [h, (Literal.text_of_isNegative hv hw).1]
    rfl

/-- A step has a target that its text goes on from. -/
theorem Node.isLooseTarget_spelled {target : Node} (h : (!target.form.isNegativeNumber) = true) :
    target.spelled.form.isLooseTarget = target.form.isLooseTarget := by
  rw [Node.form_spelled, Form.isLooseTarget_spelled (by simpa using h)]

/-- **A tree is written as the tree that its text spells.** -/
theorem Node.text_spelled (n : Node) (hn : ∀ f ∈ n.forms, f.isReadable = true) :
    n.spelled.text = n.text := by
  induction n with
  | literal value => exact value.text_spelled
  | context | current | last | named | positional => rfl
  | elements target subscripts ih ihs =>
    obtain ⟨hform, hinner⟩ := Node.forall_forms.mp hn
    simp only [Form.inner, List.forall_mem_append, Subscript.forall_innerAll] at hinner
    have hsubscripts := Subscript.texts_spelledAll fun s hs n hmem =>
      ihs s hs n hmem (hinner.2 s hs n hmem)
    simp only [Node.spelled, Form.spelled, Node.text, Form.text, Node.isLooseTarget_spelled hform,
      ih hinner.1, hsubscripts]
  | member _ _ ih | wildcardMember _ ih | descendant _ _ ih | method _ _ ih =>
    obtain ⟨hform, hinner⟩ := Node.forall_forms.mp hn
    simp only [Node.spelled, Form.spelled, Node.text, Form.text, Node.isLooseTarget_spelled hform,
      ih hinner]
  | unary _ _ ih | negation _ ih | existence _ ih | isUnknown _ ih =>
    obtain ⟨-, hinner⟩ := Node.forall_forms.mp hn
    simp only [Node.spelled, Form.spelled, Node.text, Form.text, Node.form_spelled,
      Form.isLooseOperand_spelled, ih hinner]
  | filter _ _ ih ih' =>
    obtain ⟨hform, hinner⟩ := Node.forall_forms.mp hn
    simp only [Form.inner, List.forall_mem_append] at hinner
    simp only [Node.spelled, Form.spelled, Node.text, Form.text, Node.isLooseTarget_spelled hform,
      ih hinner.1, ih' hinner.2]
  | binary _ _ _ ih ih' | comparison _ _ _ ih ih' | conjunction _ _ ih ih' | disjunction _ _ ih ih'
  | startsWith _ _ ih ih' =>
    obtain ⟨-, hinner⟩ := Node.forall_forms.mp hn
    simp only [Form.inner, List.forall_mem_append] at hinner
    simp only [Node.spelled, Form.spelled, Node.text, Form.text, Node.form_spelled,
      Form.isLooseOperand_spelled, ih hinner.1, ih' hinner.2]

/-! ### Evaluation -/

/-- Whether a form has the meaning that its text spells. -/
def Form.isFaithful (f : Form) : Bool :=
  f.isReadable && !f.hasLastIndex

theorem Form.isReadable_of_isFaithful {f : Form} (h : f.isFaithful = true) : f.isReadable = true :=
  (Bool.and_eq_true_iff.mp h).1

theorem Subscript.spelled_index {position : Node} (h : (Subscript.index position).isLastIndex = false) :
    (Subscript.index position).spelled = .index position.spelled := by
  obtain ⟨form, declared⟩ := position
  cases form with
  | last => cases h
  | literal v =>
    rw [Subscript.spelled, Node.spelled, Form.spelled]
    rcases v.spelled_cases with h | ⟨w, -, -, h⟩
    · rw [h]
      rfl
    · rw [h]
      rfl
  | _ => rfl

theorem Subscript.choose_spelled {scope : Scope} (elements : List Item) {s : Subscript}
    (hlast : s.isLastIndex = false) (hs : ∀ n ∈ s.positions, n.spelled.eval scope = n.eval scope) :
    s.spelled.choose scope elements = s.choose scope elements := by
  cases s with
  | index position =>
    have hposition := hs position (by simp [Subscript.positions])
    rw [Subscript.spelled_index hlast, Subscript.choose, hposition, Subscript.choose]
  | range first final =>
    have hfirst := hs first (by simp [Subscript.positions])
    have hfinal := hs final (by simp [Subscript.positions])
    rw [Subscript.spelled, Subscript.choose, hfirst, hfinal, Subscript.choose]
  | last | wildcard => rfl

theorem Subscript.chooseAll_spelledAll {scope : Scope} (elements : List Item) {ss : List Subscript}
    (hlast : ∀ s ∈ ss, s.isLastIndex = false)
    (hss : ∀ s ∈ ss, ∀ n ∈ s.positions, n.spelled.eval scope = n.eval scope) :
    Subscript.chooseAll scope elements (Subscript.spelledAll ss) =
      Subscript.chooseAll scope elements ss := by
  induction ss with
  | nil => rfl
  | cons s ss ih =>
    obtain ⟨hs, hss⟩ := List.forall_mem_cons.mp hss
    obtain ⟨hlast, hlasts⟩ := List.forall_mem_cons.mp hlast
    rw [Subscript.spelledAll, Subscript.chooseAll, Subscript.choose_spelled elements hlast hs,
      ih hlasts hss, Subscript.chooseAll]

/-- **A tree has the meaning that its text spells.** The error of a node without a truth value quotes the
text of the node, which is the same. -/
theorem Node.eval_spelled (n : Node) :
    ((∀ f ∈ n.forms, f.isFaithful = true) → ∀ scope, n.spelled.eval scope = n.eval scope) ∧
      ((∀ f ∈ n.forms, f.isFaithful = true) → ∀ scope, n.spelled.truth scope = n.truth scope) := by
  refine Node.evaluation_induction
    (E := fun n => (∀ f ∈ n.forms, f.isFaithful = true) → ∀ scope, n.spelled.eval scope = n.eval scope)
    (T := fun n => (∀ f ∈ n.forms, f.isFaithful = true) → ∀ scope, n.spelled.truth scope = n.truth scope)
    ?literal ?context ?current ?last ?named ?positional ?member ?wildcardMember ?descendant
    ?elements ?filter ?unary ?binary ?method ?comparison ?conjunction ?disjunction ?negation
    ?existence ?isUnknown ?startsWith ?predicate ?other n
  case literal => exact fun value _ _ scope => value.eval_spelled scope
  case named | positional => exact fun _ _ _ _ => rfl
  case context | current | last => exact fun _ _ _ => rfl
  case wildcardMember =>
    intro target ih declared hn scope
    have hinner := (Node.forall_forms.mp hn).2
    simp only [Node.spelled, Form.spelled, Node.eval, Form.eval, ih hinner]
  case member | descendant | method =>
    intro target _ ih declared hn scope
    have hinner := (Node.forall_forms.mp hn).2
    simp only [Node.spelled, Form.spelled, Node.eval, Form.eval, ih hinner]
  case unary =>
    intro sign operand ih declared hn scope
    have hinner := (Node.forall_forms.mp hn).2
    simp only [Node.spelled, Form.spelled, Node.eval, Form.eval, ih hinner]
  case binary =>
    intro op left right ihl ihr declared hn scope
    have hinner := List.forall_mem_append.mp (Node.forall_forms.mp hn).2
    simp only [Node.spelled, Form.spelled, Node.eval, Form.eval, ihl hinner.1, ihr hinner.2]
  case elements =>
    intro target subscripts ih ihs declared hn scope
    obtain ⟨hform, hinner⟩ := Node.forall_forms.mp hn
    simp only [Form.inner, List.forall_mem_append, Subscript.forall_innerAll] at hinner
    have hlast : ∀ s ∈ subscripts, s.isLastIndex = false := by
      simpa [Form.isFaithful, Form.hasLastIndex] using (Bool.and_eq_true_iff.mp hform).2
    have hchoose : ∀ (inner : Scope) (elements : List Item),
        Subscript.chooseAll inner elements (Subscript.spelledAll subscripts) =
          Subscript.chooseAll inner elements subscripts := fun inner elements =>
      Subscript.chooseAll_spelledAll elements hlast fun s hs n hmem =>
        ihs s hs n hmem (hinner.2 s hs n hmem) inner
    simp only [Node.spelled, Form.spelled, Node.eval, Form.eval, ih hinner.1, hchoose]
  case filter =>
    intro target predicate ih ihp declared hn scope
    have hinner := List.forall_mem_append.mp (Node.forall_forms.mp hn).2
    simp only [Node.spelled, Form.spelled, Node.eval, Form.eval, ih hinner.1, ihp hinner.2]
  case comparison =>
    intro op left right ihl ihr declared hn scope
    have hinner := List.forall_mem_append.mp (Node.forall_forms.mp hn).2
    simp only [Node.spelled, Form.spelled, Node.truth, Form.truth, ihl hinner.1, ihr hinner.2]
  case conjunction | disjunction | startsWith =>
    intro left right ihl ihr declared hn scope
    have hinner := List.forall_mem_append.mp (Node.forall_forms.mp hn).2
    simp only [Node.spelled, Form.spelled, Node.truth, Form.truth, ihl hinner.1, ihr hinner.2]
  case negation | existence | isUnknown =>
    intro operand ih declared hn scope
    have hinner := (Node.forall_forms.mp hn).2
    simp only [Node.spelled, Form.spelled, Node.truth, Form.truth, ih hinner]
  case predicate =>
    intro p hp ih hn scope
    have hp' : p.spelled.isPredicate = true := by
      rw [Node.isPredicate, Node.form_spelled, Form.isPredicate_spelled]
      exact hp
    rw [Node.eval_of_isPredicate hp', Node.eval_of_isPredicate hp, ih hn]
  case other =>
    intro p hp hn scope
    have hp' : p.spelled.isPredicate = false := by
      rw [Node.isPredicate, Node.form_spelled, Form.isPredicate_spelled]
      exact hp
    have htext := p.text_spelled fun f hf => Form.isReadable_of_isFaithful (hn f hf)
    rw [Node.truth_of_not_isPredicate hp', Node.truth_of_not_isPredicate hp, htext]

/-! ### Trees that are spelled out -/

/-- Whether a form is the only one with its text: a variable has an identifier for its name, a number is an
integer without a minus, and no subscript is the last index by itself. -/
def Form.isSpelledOut : Form → Bool
  | .named name => isIdentifier name.toList
  | .literal (.float _) => false
  | .literal (.int n) => 0 ≤ n.toInt
  | .elements _ subscripts => !subscripts.any Subscript.isLastIndex
  | _ => true

theorem Literal.not_isNegative_of_isSpelledOut {v : Literal} (h : (Form.literal v).isSpelledOut = true) :
    v.isNegative = false := by
  cases v with
  | int n =>
    have hn : 0 ≤ n.toInt := of_decide_eq_true h
    exact decide_eq_false (by omega)
  | float => cases h
  | _ => rfl

theorem Node.not_isNegativeNumber {n : Node} (hn : ∀ f ∈ n.forms, f.isSpelledOut = true) :
    (!n.form.isNegativeNumber) = true := by
  obtain ⟨form, declared⟩ := n
  cases form with
  | literal v =>
    have hv := Literal.not_isNegative_of_isSpelledOut (Node.forall_forms.mp hn).1
    rw [Node.form, Form.isNegativeNumber, hv]
    rfl
  | _ => rfl

theorem Subscript.spelledAll_eq_bareAll {ss : List Subscript}
    (hlast : ∀ s ∈ ss, s.isLastIndex = false)
    (hss : ∀ s ∈ ss, ∀ n ∈ s.positions, n.spelled = n.bare) :
    Subscript.spelledAll ss = Subscript.bareAll ss := by
  induction ss with
  | nil => rfl
  | cons s ss ih =>
    obtain ⟨hs, hss⟩ := List.forall_mem_cons.mp hss
    obtain ⟨hlast, hlasts⟩ := List.forall_mem_cons.mp hlast
    have hspelled : s.spelled = s.bare := by
      cases s with
      | index position =>
        rw [Subscript.spelled_index hlast, hs position (by simp [Subscript.positions]), Subscript.bare]
      | range first final => simp_all [Subscript.spelled, Subscript.bare, Subscript.positions]
      | last | wildcard => rfl
    rw [Subscript.spelledAll, hspelled, ih hlasts hss, Subscript.bareAll]

theorem Form.not_isLastIndex {target : Node} {subscripts : List Subscript}
    (h : (Form.elements target subscripts).isSpelledOut = true) :
    ∀ s ∈ subscripts, s.isLastIndex = false := by
  simpa [Form.isSpelledOut] using h

/-- A tree that is spelled out only loses its declared types. -/
theorem Node.spelled_eq_bare (n : Node) (hn : ∀ f ∈ n.forms, f.isSpelledOut = true) :
    n.spelled = n.bare := by
  induction n with
  | literal v =>
    have hv := Literal.not_isNegative_of_isSpelledOut (Node.forall_forms.mp hn).1
    rw [Node.spelled, Form.spelled, Literal.spelled_of_not_isNegative hv]
    rfl
  | context | current | last | named | positional => rfl
  | elements target subscripts ih ihs =>
    obtain ⟨hform, hinner⟩ := Node.forall_forms.mp hn
    simp only [Form.inner, List.forall_mem_append, Subscript.forall_innerAll] at hinner
    have hsubscripts := Subscript.spelledAll_eq_bareAll (Form.not_isLastIndex hform)
      fun s hs n hmem => ihs s hs n hmem (hinner.2 s hs n hmem)
    rw [Node.spelled, Form.spelled, ih hinner.1, hsubscripts, Node.bare, Form.bare]
  | member _ _ ih | wildcardMember _ ih | descendant _ _ ih | method _ _ ih | unary _ _ ih
  | negation _ ih | existence _ ih | isUnknown _ ih =>
    have hinner := (Node.forall_forms.mp hn).2
    rw [Node.spelled, Form.spelled, ih hinner, Node.bare, Form.bare]
  | filter _ _ ih ih' | binary _ _ _ ih ih' | comparison _ _ _ ih ih' | conjunction _ _ ih ih'
  | disjunction _ _ ih ih' | startsWith _ _ ih ih' =>
    have hinner := List.forall_mem_append.mp (Node.forall_forms.mp hn).2
    rw [Node.spelled, Form.spelled, ih hinner.1, ih' hinner.2, Node.bare, Form.bare]

/-- A tree that is spelled out can be told from its text. -/
theorem Node.isReadable_of_isSpelledOut (n : Node) (hn : ∀ f ∈ n.forms, f.isSpelledOut = true) :
    ∀ f ∈ n.forms, f.isReadable = true := by
  induction n with
  | literal | context | current | last | positional =>
    exact Node.forall_forms.mpr ⟨rfl, List.forall_mem_nil _⟩
  | named name =>
    have hname : isIdentifier name.toList = true := (Node.forall_forms.mp hn).1
    refine Node.forall_forms.mpr ⟨?_, List.forall_mem_nil _⟩
    rw [Form.isReadable, Form.hasIdentifier, hname]
    rfl
  | elements target subscripts ih ihs =>
    have hinner := (Node.forall_forms.mp hn).2
    simp only [Form.inner, List.forall_mem_append, Subscript.forall_innerAll] at hinner
    refine Node.forall_forms.mpr ⟨Node.not_isNegativeNumber hinner.1, ?_⟩
    simp only [Form.inner, List.forall_mem_append, Subscript.forall_innerAll]
    exact ⟨ih hinner.1, fun s hs n hmem => ihs s hs n hmem (hinner.2 s hs n hmem)⟩
  | member _ _ ih | wildcardMember _ ih | descendant _ _ ih | method _ _ ih =>
    have hinner := (Node.forall_forms.mp hn).2
    exact Node.forall_forms.mpr ⟨Node.not_isNegativeNumber hinner, ih hinner⟩
  | unary _ _ ih | negation _ ih | existence _ ih | isUnknown _ ih =>
    exact Node.forall_forms.mpr ⟨rfl, ih (Node.forall_forms.mp hn).2⟩
  | filter _ _ ih ih' =>
    have hinner := List.forall_mem_append.mp (Node.forall_forms.mp hn).2
    exact Node.forall_forms.mpr ⟨Node.not_isNegativeNumber hinner.1,
      List.forall_mem_append.mpr ⟨ih hinner.1, ih' hinner.2⟩⟩
  | binary _ _ _ ih ih' | comparison _ _ _ ih ih' | conjunction _ _ ih ih' | disjunction _ _ ih ih'
  | startsWith _ _ ih ih' =>
    have hinner := List.forall_mem_append.mp (Node.forall_forms.mp hn).2
    exact Node.forall_forms.mpr ⟨rfl, List.forall_mem_append.mpr ⟨ih hinner.1, ih' hinner.2⟩⟩

end PathQuery
