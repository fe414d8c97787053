import PathQuery.Proofs.Eval.Failure
import PathQuery.Proofs.Eval.Truth

/-!
# Lax mode refines strict mode

Lax mode forgives where strict mode fails, and changes nothing where strict mode succeeds. What lax mode
adds, the unwrapping of arrays and the dropping of what is missing, comes to nothing on sequences that
strict mode accepts.

* `Refines` — each success of one result is the same success of another.
* `Node.eval_refines` — trees without filters and predicates: a sequence in strict mode is the sequence in
  lax mode.
* `Node.truth_below` — predicates over such trees: the truth value in strict mode says no more than the one
  in lax mode.
-/

namespace PathQuery

/-- Each success of a result is the same success of another. -/
def Refines {ε α : Type} (r r' : Except ε α) : Prop :=
  ∀ a, r = .ok a → r' = .ok a

section Results

variable {ε α β : Type}

theorem Refines.refl (r : Except ε α) : Refines r r := fun _ h => h

theorem Refines.error (e : ε) (r : Except ε α) : Refines (.error e) r := by
  intro a h
  cases h

theorem Refines.bind {r r' : Except ε α} {f g : α → Except ε β} (hr : Refines r r')
    (hfg : ∀ a, Refines (f a) (g a)) : Refines (r >>= f) (r' >>= g) := by
  cases r with
  | error e => exact Refines.error e _
  | ok a =>
    rw [hr a rfl]
    exact hfg a

theorem Refines.map {r r' : Except ε α} (f : α → β) (hr : Refines r r') :
    Refines (r.map f) (r'.map f) := by
  cases r with
  | error e => exact Refines.error e _
  | ok a =>
    rw [hr a rfl]
    exact Refines.refl _

variable {f g : Item → Except ε Sequence}

theorem Refines.collect (hfg : ∀ x, Refines (f x) (g x)) (s : Sequence) :
    Refines (s.collect f) (s.collect g) := by
  induction s with
  | nil => exact Refines.refl _
  | cons x s ih =>
    simp only [Sequence.collect]
    cases hx : f x with
    | error e => exact Refines.error e _
    | ok ys =>
      rw [hfg x ys hx]
      exact ih.map _

/-- A step that fails on arrays has met none where it succeeds, so unwrapping changes nothing. -/
theorem Refines.collect_unwrap (hfg : ∀ x, Refines (f x) (g x))
    (harray : ∀ elements, ∃ e, f (.array elements) = .error e) (s : Sequence) :
    Refines ((s.unwrap .strict).collect f) ((s.unwrap .lax).collect g) := by
  rw [Sequence.unwrap_strict]
  induction s with
  | nil => exact Refines.refl _
  | cons x s ih =>
    cases hx : x.isArray with
    | true =>
      obtain ⟨elements, rfl⟩ : ∃ elements, x = .array elements := by
        cases x <;> simp_all [Item.isArray]
      obtain ⟨e, he⟩ := harray elements
      rw [Sequence.collect, he]
      exact Refines.error e _
    | false =>
      rw [Sequence.unwrap_lax, List.flatMap_cons, ← Sequence.unwrap_lax,
        Item.spread_of_not_isArray hx, List.singleton_append]
      simp only [Sequence.collect]
      cases hf : f x with
      | error e => exact Refines.error e _
      | ok ys =>
        rw [hfg x ys hf]
        exact ih.map _

/-- The case of a step that is the same in both modes. -/
theorem Refines.collect_unwrap_self (step : Item → Except ε Sequence)
    (harray : ∀ elements, ∃ e, step (.array elements) = .error e) (s : Sequence) :
    Refines ((s.unwrap .strict).collect step) ((s.unwrap .lax).collect step) :=
  Refines.collect_unwrap (fun _ => Refines.refl _) harray s

end Results

/-! ### Steps -/

theorem Item.member_refines (name : String) (x : Item) :
    Refines (x.member .strict name) (x.member .lax name) := by
  cases x with
  | object members =>
    simp only [Item.member]
    cases Entries.get? name members with
    | none => exact Refines.error _ _
    | some y => exact Refines.refl _
  | _ => exact Refines.error _ _

theorem Item.wildcardMember_refines (x : Item) :
    Refines (x.wildcardMember .strict) (x.wildcardMember .lax) := by
  cases x with
  | object members => exact Refines.refl _
  | _ => exact Refines.error _ _

theorem Item.size_refines (x : Item) : Refines (x.size .strict) (x.size .lax) := by
  cases x with
  | array elements => exact Refines.refl _
  | _ => exact Refines.error _ _

section Steps

variable (s : Sequence)

theorem Sequence.member_refines (name : String) :
    Refines (s.member .strict name) (s.member .lax name) :=
  Refines.collect_unwrap (Item.member_refines name) (fun _ => ⟨_, rfl⟩) s

theorem Sequence.wildcardMember_refines :
    Refines (s.wildcardMember .strict) (s.wildcardMember .lax) :=
  Refines.collect_unwrap Item.wildcardMember_refines (fun _ => ⟨_, rfl⟩) s

theorem Sequence.number_refines (place : NumberPlace) :
    Refines (s.number .strict place) (s.number .lax place) := by
  intro n h
  have hs : s = [.number n] := by
    unfold Sequence.number at h
    rw [Sequence.unwrap_strict] at h
    split at h
    · cases h
      rfl
    · cases h
    · cases h
  rw [hs]
  rfl

theorem Sequence.position_refines : Refines (s.position .strict) (s.position .lax) :=
  Refines.bind (s.number_refines .subscript) fun n => Refines.refl n.position

theorem Sequence.keyValues_refines (id : Nat) :
    Refines (Sequence.keyValues id s) (Sequence.keyValues id (s.unwrap .lax)) := by
  induction s generalizing id with
  | nil => exact Refines.refl _
  | cons x s ih =>
    cases x with
    | object members =>
      rw [Sequence.unwrap_lax, List.flatMap_cons, ← Sequence.unwrap_lax]
      exact (ih (id + 1)).map _
    | _ => exact Refines.error _ _

theorem Sequence.method_refines (m : Method) :
    Refines (s.method .strict m) (s.method .lax m) := by
  cases m with
  | type => exact Refines.refl _
  | size => exact Refines.collect Item.size_refines s
  | double => exact Refines.collect_unwrap_self Item.double (fun _ => ⟨_, rfl⟩) s
  | ceiling => exact Refines.collect_unwrap_self (Item.rounded _ _) (fun _ => ⟨_, rfl⟩) s
  | floor => exact Refines.collect_unwrap_self (Item.rounded _ _) (fun _ => ⟨_, rfl⟩) s
  | abs => exact Refines.collect_unwrap_self Item.abs (fun _ => ⟨_, rfl⟩) s
  | keyValue => exact s.keyValues_refines 0
  | datetime template =>
    exact Refines.collect_unwrap_self (Item.readDatetime template) (fun _ => ⟨_, rfl⟩) s

theorem Sequence.elements_refines {choose choose' : List Item → Except EvalError Sequence}
    (h : ∀ elements, Refines (choose elements) (choose' elements)) :
    Refines (s.elements .strict choose) (s.elements .lax choose') := by
  refine Refines.collect (fun x => ?_) s
  cases x with
  | array elements => exact h elements
  | _ => exact Refines.error _ _

end Steps

section Elements

variable (elements : List Item)

theorem Item.element_refines (position : Nat) :
    Refines (Item.element .strict elements position) (Item.element .lax elements position) := by
  unfold Item.element
  cases elements[position]? with
  | some x => exact Refines.refl _
  | none => exact Refines.error _ _

theorem Item.elementRange_refines (first final : Nat) :
    Refines (Item.elementRange .strict elements first final)
      (Item.elementRange .lax elements first final) := by
  intro ys h
  unfold Item.elementRange at h ⊢
  split at h
  · cases h
  · rw [if_neg (by simp)]
    exact h

theorem Item.lastElement_refines :
    Refines (Item.lastElement .strict elements) (Item.lastElement .lax elements) := by
  unfold Item.lastElement
  cases elements.getLast? with
  | some x => exact Refines.refl _
  | none => exact Refines.error _ _

end Elements

/-! ### Trees without conditions -/

/-- The same scope in another mode. -/
def Scope.inMode (scope : Scope) (mode : Mode) : Scope :=
  { scope with mode := mode }

/-- The subscripts of one accessor refine if their positions do. -/
theorem Subscript.choose_refines {scope : Scope} (elements : List Item) {s : Subscript}
    (h : ∀ n ∈ s.positions, Refines (n.eval (scope.inMode .strict)) (n.eval (scope.inMode .lax))) :
    Refines (s.choose (scope.inMode .strict) elements) (s.choose (scope.inMode .lax) elements) := by
  cases s with
  | index position =>
    simp only [Subscript.choose]
    refine Refines.bind (h position (by simp [Subscript.positions])) (fun r => ?_)
    refine Refines.bind r.position_refines (fun i => ?_)
    exact Item.element_refines elements i
  | range first final =>
    simp only [Subscript.choose]
    refine Refines.bind (h first (by simp [Subscript.positions])) (fun r => ?_)
    refine Refines.bind r.position_refines (fun i => ?_)
    refine Refines.bind (h final (by simp [Subscript.positions])) (fun r => ?_)
    refine Refines.bind r.position_refines (fun j => ?_)
    exact Item.elementRange_refines elements i j
  | last => exact Item.lastElement_refines elements
  | wildcard => exact Refines.refl _

theorem Subscript.chooseAll_refines (scope : Scope) (elements : List Item) {ss : List Subscript}
    (h : ∀ s ∈ ss, ∀ n ∈ s.positions,
      Refines (n.eval (scope.inMode .strict)) (n.eval (scope.inMode .lax))) :
    Refines (Subscript.chooseAll (scope.inMode .strict) elements ss)
      (Subscript.chooseAll (scope.inMode .lax) elements ss) := by
  induction ss with
  | nil => exact Refines.refl _
  | cons s ss ih =>
    obtain ⟨hs, hss⟩ := List.forall_mem_cons.mp h
    simp only [Subscript.chooseAll]
    refine Refines.bind (Subscript.choose_refines elements hs) (fun xs => ?_)
    exact Refines.bind (ih hss) (fun ys => Refines.refl _)

/-- Whether a form is a filter. -/
def Form.isFilter : Form → Bool
  | .filter .. => true
  | _ => false

/-- No truth value is asked for anywhere in a tree: it has no filters and no predicates. -/
def Node.IsUnconditional (n : Node) : Prop :=
  ∀ f ∈ n.forms, f.isFilter = false ∧ f.isPredicate = false

instance (n : Node) : Decidable n.IsUnconditional :=
  inferInstanceAs (Decidable (∀ f ∈ n.forms, f.isFilter = false ∧ f.isPredicate = false))

/-- **Lax mode refines strict mode on trees without conditions.** -/
theorem Node.eval_refines (n : Node) (hn : n.IsUnconditional) (scope : Scope) :
    Refines (n.eval (scope.inMode .strict)) (n.eval (scope.inMode .lax)) := by
  induction n generalizing scope with
  | member target name ih declared =>
    exact Refines.bind (ih (Node.forall_forms.mp hn).2 scope) fun s => s.member_refines name
  | wildcardMember target ih declared =>
    exact Refines.bind (ih (Node.forall_forms.mp hn).2 scope) fun s => s.wildcardMember_refines
  | descendant target name ih declared =>
    exact Refines.bind (ih (Node.forall_forms.mp hn).2 scope) fun s => Refines.refl _
  | elements target subscripts iht ihs declared =>
    obtain ⟨ht, hs⟩ := List.forall_mem_append.mp (Node.forall_forms.mp hn).2
    refine Refines.bind (iht ht scope) (fun s => ?_)
    refine s.elements_refines (fun elements => ?_)
    refine Subscript.chooseAll_refines { scope with last := _ } elements ?_
    exact fun s hmem m hpos =>
      ihs s hmem m hpos ((Subscript.forall_innerAll _).mp hs s hmem m hpos) _
  | unary sign operand ih declared =>
    refine Refines.bind (ih (Node.forall_forms.mp hn).2 scope) (fun s => ?_)
    exact Refines.bind (s.number_refines _) fun a => Refines.refl _
  | binary op left right ihl ihr declared =>
    obtain ⟨hl, hr⟩ := List.forall_mem_append.mp (Node.forall_forms.mp hn).2
    refine Refines.bind (ihl hl scope) (fun s => ?_)
    refine Refines.bind (s.number_refines _) (fun a => ?_)
    refine Refines.bind (ihr hr scope) (fun s => ?_)
    exact Refines.bind (s.number_refines _) fun b => Refines.refl _
  | method target m ih declared =>
    exact Refines.bind (ih (Node.forall_forms.mp hn).2 scope) fun s => s.method_refines m
  | literal | context | current | last | named | positional => exact Refines.refl _
  | filter => exact absurd (Node.forall_forms.mp hn).1.1 (by simp [Form.isFilter])
  | _ => exact absurd (Node.forall_forms.mp hn).1.2 (by simp [Form.isPredicate])

/-! ### Conditions -/

/-- An array compares with nothing. -/
theorem Item.isArray_of_compareBy {op : ComparisonOp} {a b : Item}
    (h : a.compareBy op b ≠ .unknown) : a.isArray = false ∧ b.isArray = false := by
  constructor
  · cases a with
    | array elements => exact absurd rfl h
    | _ => rfl
  · cases b with
    | array elements => cases a <;> exact absurd rfl h
    | _ => rfl

/-- Unwrapping changes nothing about a comparison that has an answer. -/
theorem Truth.ofOperands_unwrap {op : ComparisonOp} {l r : Sequence}
    (h : Truth.ofOperands op l r ≠ .unknown) :
    Truth.ofOperands op (l.unwrap .lax) (r.unwrap .lax) = Truth.ofOperands op l r := by
  have hempty : ∀ s : Sequence, Truth.ofOperands op s [] = .false := by
    intro s
    cases s <;> rfl
  match l, r, h with
  | [], r, _ => rfl
  | a :: l, [], _ => rw [Sequence.unwrap_nil, hempty, hempty]
  | [a], [b], h =>
    obtain ⟨ha, hb⟩ := Item.isArray_of_compareBy h
    rw [Sequence.unwrap_eq_self (by simpa using ha), Sequence.unwrap_eq_self (by simpa using hb)]
  | [a], b :: b' :: r, h => exact absurd rfl h
  | a :: a' :: l, b :: r, h => cases r <;> exact absurd rfl h

/-- Unwrapping changes nothing about beginnings where all candidates are texts. -/
theorem Truth.ofPrefixes_unwrap {text : String} {s : Sequence}
    (h : Truth.ofPrefixes .strict text s ≠ .unknown) :
    Truth.ofPrefixes .lax text (s.unwrap .lax) = Truth.ofPrefixes .strict text s := by
  have hknown : ¬ ∃ x ∈ s, x.startsWith text = .unknown := by
    intro hx
    rw [Truth.ofPrefixes_strict, if_pos hx] at h
    exact h rfl
  have harray : ∀ x ∈ s, x.isArray = Bool.false := by
    intro x hx
    cases x with
    | array elements => exact absurd ⟨_, hx, rfl⟩ hknown
    | _ => rfl
  rw [Sequence.unwrap_eq_self harray, Truth.ofPrefixes_lax, Truth.ofPrefixes_strict,
    if_neg hknown, if_neg hknown]

section Answers

variable {l l' r r' : Except EvalError Sequence} {t : Truth}

/-- An operand that gives an answer other than unknown has not failed. -/
theorem exists_of_tolerate_bind {f : Sequence → Except EvalError Truth}
    (h : (tolerate l >>= fun a => match a with
      | none => pure .unknown
      | some a => f a) = .ok t) (ht : t ≠ .unknown) : ∃ a, l = .ok a ∧ f a = .ok t := by
  cases l with
  | ok a => exact ⟨a, rfl, h⟩
  | error e =>
    unfold tolerate at h
    cases he : e.isDataError with
    | true =>
      simp only [he, if_true] at h
      cases h
      exact absurd rfl ht
    | false =>
      simp only [he] at h
      cases h

theorem Truth.compare_refines {op : ComparisonOp} (hl : Refines l l') (hr : Refines r r')
    (h : Truth.compare .strict op l (fun _ => r) = .ok t) (ht : t ≠ .unknown) :
    Truth.compare .lax op l' (fun _ => r') = .ok t := by
  obtain ⟨a, ha, h⟩ := exists_of_tolerate_bind h ht
  obtain ⟨b, hb, h⟩ := exists_of_tolerate_bind h ht
  have hab : Truth.ofOperands op a b = t := Except.ok.inj h
  rw [hl a ha, hr b hb]
  show Except.ok (Truth.ofOperands op (a.unwrap .lax) (b.unwrap .lax)) = .ok t
  rw [Truth.ofOperands_unwrap (by rwa [hab]), hab]

theorem Truth.ofExistence_refines (hl : Refines l l') (h : Truth.ofExistence l = .ok t)
    (ht : t ≠ .unknown) : Truth.ofExistence l' = .ok t := by
  obtain ⟨a, ha, h⟩ := exists_of_tolerate_bind h ht
  rw [hl a ha]
  exact h

theorem Truth.startsWith_refines (hl : Refines l l') (hr : Refines r r')
    (h : Truth.startsWith .strict l (fun _ => r) = .ok t) (ht : t ≠ .unknown) :
    Truth.startsWith .lax l' (fun _ => r') = .ok t := by
  obtain ⟨a, ha, h⟩ := exists_of_tolerate_bind h ht
  rw [Sequence.unwrap_strict] at h
  split at h
  · next text =>
    obtain ⟨b, hb, h⟩ := exists_of_tolerate_bind h ht
    have htext : Truth.ofPrefixes .strict text b = t := Except.ok.inj h
    rw [hl _ ha, hr b hb]
    show Except.ok (Truth.ofPrefixes .lax text (b.unwrap .lax)) = .ok t
    rw [Truth.ofPrefixes_unwrap (by rwa [htext]), htext]
  · cases h
    exact absurd rfl ht

end Answers

/-- A predicate over trees without conditions: comparisons, `exists` and `starts with`, joined by
connectives. -/
inductive Node.IsPlainCondition : Node → Prop
  | comparison {op : ComparisonOp} {left right : Node} {declared : Option SqlType} :
      left.IsUnconditional → right.IsUnconditional →
      IsPlainCondition (.mk (.comparison op left right) declared)
  | existence {operand : Node} {declared : Option SqlType} :
      operand.IsUnconditional → IsPlainCondition (.mk (.existence operand) declared)
  | startsWith {whole initial : Node} {declared : Option SqlType} :
      whole.IsUnconditional → initial.IsUnconditional →
      IsPlainCondition (.mk (.startsWith whole initial) declared)
  | conjunction {left right : Node} {declared : Option SqlType} :
      left.IsPlainCondition → right.IsPlainCondition →
      IsPlainCondition (.mk (.conjunction left right) declared)
  | disjunction {left right : Node} {declared : Option SqlType} :
      left.IsPlainCondition → right.IsPlainCondition →
      IsPlainCondition (.mk (.disjunction left right) declared)
  | negation {operand : Node} {declared : Option SqlType} :
      operand.IsPlainCondition → IsPlainCondition (.mk (.negation operand) declared)

theorem Node.IsPlainCondition.isLogical {p : Node} (hp : p.IsPlainCondition) :
    p.isLogical = true := by
  induction hp with
  | comparison | existence | startsWith => rfl
  | conjunction _ _ hl hr => exact Bool.and_eq_true_iff.mpr ⟨hl, hr⟩
  | disjunction _ _ hl hr => exact Bool.and_eq_true_iff.mpr ⟨hl, hr⟩
  | negation _ h => exact h

/-- Where all variables are bound, it is enough to carry over the answers other than unknown. -/
theorem Node.truth_below_of_refines {p : Node} (hlog : p.isLogical = true) (scope : Scope)
    (hbound : p.BoundIn scope.bindings)
    (h : ∀ t, p.truth (scope.inMode .strict) = .ok t → t ≠ .unknown →
      p.truth (scope.inMode .lax) = .ok t) :
    ∃ t t', p.truth (scope.inMode .strict) = .ok t ∧ p.truth (scope.inMode .lax) = .ok t' ∧
      t.Below t' := by
  obtain ⟨t, ht⟩ := Node.exists_truth_of_boundIn (scope.inMode .strict) hlog hbound
  obtain ⟨t', ht'⟩ := Node.exists_truth_of_boundIn (scope.inMode .lax) hlog hbound
  refine ⟨t, t', ht, ht', ?_⟩
  by_cases hunknown : t = .unknown
  · exact Or.inl hunknown
  · rw [h t ht hunknown] at ht'
    exact Or.inr (Except.ok.inj ht')

/-- **Lax mode says no less than strict mode about a condition.** Both modes have a truth value, and the
one in strict mode is unknown or the same. -/
theorem Node.truth_below {p : Node} (hp : p.IsPlainCondition) (scope : Scope)
    (hbound : p.BoundIn scope.bindings) :
    ∃ t t', p.truth (scope.inMode .strict) = .ok t ∧ p.truth (scope.inMode .lax) = .ok t' ∧
      t.Below t' := by
  induction hp with
  | comparison hl hr =>
    refine Node.truth_below_of_refines rfl scope hbound (fun t h ht => ?_)
    exact Truth.compare_refines (Node.eval_refines _ hl scope) (Node.eval_refines _ hr scope) h ht
  | existence ho =>
    refine Node.truth_below_of_refines rfl scope hbound (fun t h ht => ?_)
    exact Truth.ofExistence_refines (Node.eval_refines _ ho scope) h ht
  | startsWith hw hi =>
    refine Node.truth_below_of_refines rfl scope hbound (fun t h ht => ?_)
    exact Truth.startsWith_refines (Node.eval_refines _ hi scope) (Node.eval_refines _ hw scope) h ht
  | conjunction hl hr ihl ihr =>
    obtain ⟨hboundl, hboundr⟩ := List.forall_mem_append.mp (Node.forall_forms.mp hbound).2
    obtain ⟨a, a', ha, ha', hbelowa⟩ := ihl hboundl
    obtain ⟨b, b', hb, hb', hbelowb⟩ := ihr hboundr
    refine ⟨a.and b, a'.and b', ?_, ?_, hbelowa.and hbelowb⟩
    · simp only [Node.truth, Form.truth, ha, hb, Truth.andThen_ok]
    · simp only [Node.truth, Form.truth, ha', hb', Truth.andThen_ok]
  | disjunction hl hr ihl ihr =>
    obtain ⟨hboundl, hboundr⟩ := List.forall_mem_append.mp (Node.forall_forms.mp hbound).2
    obtain ⟨a, a', ha, ha', hbelowa⟩ := ihl hboundl
    obtain ⟨b, b', hb, hb', hbelowb⟩ := ihr hboundr
    refine ⟨a.or b, a'.or b', ?_, ?_, hbelowa.or hbelowb⟩
    · simp only [Node.truth, Form.truth, ha, hb, Truth.orElse_ok]
    · simp only [Node.truth, Form.truth, ha', hb', Truth.orElse_ok]
  | negation h ih =>
    obtain ⟨a, a', ha, ha', hbelow⟩ := ih (Node.forall_forms.mp hbound).2
    refine ⟨a.not, a'.not, ?_, ?_, hbelow.not⟩
    · simp only [Node.truth, Form.truth, ha, Except.map]
    · simp only [Node.truth, Form.truth, ha', Except.map]

/-- **Lax mode refines strict mode.** A tree without conditions that has a sequence in strict mode has the
same sequence in lax mode. A condition over such trees that is true or false in strict mode is so in lax
mode too, also as a whole path. -/
theorem Node.lax_refines_strict :
    (∀ n : Node, n.IsUnconditional → ∀ (input : Item) (bindings : Bindings) (s : Sequence),
      n.evaluate .strict input bindings = .ok s → n.evaluate .lax input bindings = .ok s) ∧
    ∀ p : Node, p.IsPlainCondition →
      (∀ scope : Scope, p.BoundIn scope.bindings → ∀ t : Truth, t ≠ .unknown →
        p.truth (scope.inMode .strict) = .ok t → p.truth (scope.inMode .lax) = .ok t) ∧
      ∀ (input : Item) (bindings : Bindings), p.BoundIn bindings → ∀ b : Bool,
        p.evaluate .strict input bindings = .ok [.boolean b] →
        p.evaluate .lax input bindings = .ok [.boolean b] := by
  have htruth : ∀ p : Node, p.IsPlainCondition → ∀ scope : Scope, p.BoundIn scope.bindings →
      ∀ t : Truth, t ≠ .unknown → p.truth (scope.inMode .strict) = .ok t →
      p.truth (scope.inMode .lax) = .ok t := by
    intro p hp scope hbound t hunknown ht
    obtain ⟨a, a', ha, ha', hbelow⟩ := Node.truth_below hp scope hbound
    rw [ht] at ha
    cases ha
    rw [ha', hbelow.eq_of_ne_unknown hunknown]
  refine ⟨?_, fun p hp => ⟨htruth p hp, ?_⟩⟩
  · intro n hn input bindings s h
    cases hclean : failedConversion? input bindings with
    | some e =>
      rw [Node.evaluate, hclean] at h
      cases h
    | none =>
      rw [Node.evaluate_of_clean hclean] at h ⊢
      exact Node.eval_refines n hn (.initial .strict input bindings) s h
  · intro input bindings hbound b h
    have hpred := Node.isPredicate_of_isLogical hp.isLogical
    cases hclean : failedConversion? input bindings with
    | some e =>
      rw [Node.evaluate, hclean] at h
      cases h
    | none =>
      rw [Node.evaluate_of_clean hclean, Node.eval_of_isPredicate hpred] at h ⊢
      obtain ⟨t, ht⟩ :=
        Node.exists_truth_of_boundIn (.initial .strict input bindings) hp.isLogical hbound
      rw [ht] at h
      have hitem : t.item = .boolean b := by simpa [Except.map, Truth.sequence] using h
      have hunknown : t ≠ .unknown := by
        rintro rfl
        cases hitem
      have hlax : p.truth (.initial .lax input bindings) = .ok t :=
        htruth p hp (.initial .strict input bindings) hbound t hunknown ht
      rw [hlax]
      exact h

/-- A sum of an element, and a comparison of it, that strict mode accepts. -/
theorem Node.lax_refines_strict_of_sum :
    let element := index 0 (member "a" context)
    let sum := arithmetic .add element (literal (.int 1))
    let input := Item.object [("a", .array [.int 41])]
    sum.IsUnconditional ∧ sum.evaluate .strict input .empty = .ok [.int 42] ∧
      sum.evaluate .lax input .empty = .ok [.int 42] ∧
      (negated (compared .less sum (literal (.int 0)))).evaluate .lax input .empty =
        .ok [.boolean true] := by
  intro element sum input
  have hsum : sum.IsUnconditional := by decide
  have hstrict : sum.evaluate .strict input .empty = .ok [.int 42] := by rfl
  refine ⟨hsum, hstrict, Node.lax_refines_strict.1 sum hsum input .empty _ hstrict, ?_⟩
  have hp : (negated (compared .less sum (literal (.int 0)))).IsPlainCondition :=
    .negation (.comparison hsum (by decide))
  exact (Node.lax_refines_strict.2 _ hp).2 input .empty (by decide) true rfl

end PathQuery
