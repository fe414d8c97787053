import PathQuery.Eval.Basic
import PathQuery.Proofs.Path.Tree

/-!
# Substitution for `@` and `last`

Filters give `@` a value and subscripts give one to `last`, each for the part of a tree that it
encloses. Elsewhere in a tree both stand for what the scope around the tree holds, so that a parameter
can be written for `@` there and a number for `last`.

* `Node.substitute` — replace `@` outside of filters and `last` outside of subscripts.
* `Scope.Substitutes` — a scope in which what is put in has the value of what it replaces.
* `Node.eval_substitute` — the tree after substitution has the same result in such a scope.
* `Node.lexical_scoping` — the cases of a number for `last` and of a new parameter for `@`.
-/

namespace PathQuery

/-! ### Trees -/

/-- What is put in for `@` and for `last`. Where there is nothing, they stay. -/
structure Substitution where
  /-- The name of a parameter that holds the item. -/
  current : Option String
  /-- The index. -/
  last : Option Int64

namespace Substitution

def nothing : Substitution := ⟨none, none⟩

/-- In its predicate a filter has an `@` of its own. -/
def inFilter (σ : Substitution) : Substitution := { σ with current := none }

/-- A subscript has a `last` of its own. -/
def inSubscript (σ : Substitution) : Substitution := { σ with last := none }

end Substitution

mutual

/-- The tree with a parameter for each `@` that is not in the predicate of a filter, and a number for each
`last` that is not in a subscript. -/
def Node.substitute (σ : Substitution) : Node → Node
  | .mk form declared => .mk (form.substitute σ) declared

def Form.substitute (σ : Substitution) : Form → Form
  | .literal value => .literal value
  | .context => .context
  | .named name => .named name
  | .positional position => .positional position
  | .current =>
      match σ.current with
      | some name => .named name
      | none => .current
  | .last =>
      match σ.last with
      | some n => .literal (.int n)
      | none => .last
  | .member target name => .member (target.substitute σ) name
  | .wildcardMember target => .wildcardMember (target.substitute σ)
  | .descendant target name => .descendant (target.substitute σ) name
  | .elements target subscripts =>
      .elements (target.substitute σ) (Subscript.substituteAll σ.inSubscript subscripts)
  | .filter target predicate => .filter (target.substitute σ) (predicate.substitute σ.inFilter)
  | .unary sign operand => .unary sign (operand.substitute σ)
  | .binary op left right => .binary op (left.substitute σ) (right.substitute σ)
  | .method target m => .method (target.substitute σ) m
  | .comparison op left right => .comparison op (left.substitute σ) (right.substitute σ)
  | .conjunction left right => .conjunction (left.substitute σ) (right.substitute σ)
  | .disjunction left right => .disjunction (left.substitute σ) (right.substitute σ)
  | .negation operand => .negation (operand.substitute σ)
  | .existence operand => .existence (operand.substitute σ)
  | .isUnknown operand => .isUnknown (operand.substitute σ)
  | .startsWith whole initial => .startsWith (whole.substitute σ) (initial.substitute σ)

def Subscript.substitute (σ : Substitution) : Subscript → Subscript
  | .index position => .index (position.substitute σ)
  | .range first final => .range (first.substitute σ) (final.substitute σ)
  | .last => .last
  | .wildcard => .wildcard

def Subscript.substituteAll (σ : Substitution) : List Subscript → List Subscript
  | [] => []
  | s :: ss => s.substitute σ :: Subscript.substituteAll σ ss

end

theorem Node.isPredicate_substitute (σ : Substitution) (n : Node) :
    (n.substitute σ).isPredicate = n.isPredicate := by
  obtain ⟨form, declared⟩ := n
  cases form with
  | current => simp only [Node.substitute, Form.substitute]; cases σ.current <;> rfl
  | last => simp only [Node.substitute, Form.substitute]; cases σ.last <;> rfl
  | _ => rfl

mutual

/-- Where nothing is put in, a tree stays as it is; so do the subscripts and filters that have both `@`
and `last` of their own. -/
theorem Node.substitute_nothing : ∀ n : Node, n.substitute .nothing = n
  | .mk form declared => by rw [Node.substitute, form.substitute_nothing]

theorem Form.substitute_nothing : ∀ form : Form, form.substitute .nothing = form
  | .literal _ | .context | .named _ | .positional _ | .current | .last => rfl
  | .member target _ | .wildcardMember target | .descendant target _ | .method target _
  | .unary _ target | .existence target | .negation target | .isUnknown target => by
    simp only [Form.substitute, target.substitute_nothing]
  | .binary _ left right | .comparison _ left right | .startsWith left right
  | .conjunction left right | .disjunction left right => by
    simp only [Form.substitute, left.substitute_nothing, right.substitute_nothing]
  | .elements target subscripts => by
    rw [Form.substitute, target.substitute_nothing]
    exact congrArg _ (Subscript.substituteAll_nothing subscripts)
  | .filter target predicate => by
    rw [Form.substitute, target.substitute_nothing]
    exact congrArg _ predicate.substitute_nothing

theorem Subscript.substitute_nothing : ∀ s : Subscript, s.substitute .nothing = s
  | .index position => by rw [Subscript.substitute, position.substitute_nothing]
  | .range first final => by
    rw [Subscript.substitute, first.substitute_nothing, final.substitute_nothing]
  | .last | .wildcard => rfl

theorem Subscript.substituteAll_nothing :
    ∀ ss : List Subscript, Subscript.substituteAll .nothing ss = ss
  | [] => rfl
  | s :: ss => by
    rw [Subscript.substituteAll, s.substitute_nothing, Subscript.substituteAll_nothing ss]

end

/-! ### Scopes -/

/-- A scope in which what is put in for `@` and `last` has the values that these have in another scope.
Under `idle` nothing is put in. -/
structure Scope.Substitutes (idle : Prop) (σ : Substitution) (scope scope' : Scope) : Prop where
  root : scope'.root = scope.root
  mode : scope'.mode = scope.mode
  current : ∀ name, σ.current = some name →
    ∃ x, scope.current = some x ∧ scope'.bindings.get name = .ok x
  current_none : σ.current = none → scope'.current = scope.current
  last : ∀ n, σ.last = some n → scope.last = some n
  last_none : σ.last = none → scope'.last = scope.last
  nothing : idle → σ = .nothing

namespace Scope.Substitutes

variable {idle : Prop} {σ : Substitution} {scope scope' : Scope}
  (h : Substitutes idle σ scope scope')

include h

theorem inFilter (x : Item) :
    Substitutes idle σ.inFilter { scope with current := some x }
      { scope' with current := some x } where
  root := h.root
  mode := h.mode
  current _ hname := nomatch hname
  current_none _ := rfl
  last := h.last
  last_none := h.last_none
  nothing hidle := congrArg Substitution.inFilter (h.nothing hidle)

theorem inSubscript (n : Int64) :
    Substitutes idle σ.inSubscript { scope with last := some n }
      { scope' with last := some n } where
  root := h.root
  mode := h.mode
  current := h.current
  current_none := h.current_none
  last _ hn := nomatch hn
  last_none _ := rfl
  nothing hidle := congrArg Substitution.inSubscript (h.nothing hidle)

end Scope.Substitutes

/-! ### Evaluation -/

theorem Subscript.choose_substitute {σ : Substitution} {scope scope' : Scope}
    (hmode : scope'.mode = scope.mode) (elements : List Item) {s : Subscript}
    (hs : ∀ n ∈ s.positions, (n.substitute σ).eval scope' = n.eval scope) :
    (s.substitute σ).choose scope' elements = s.choose scope elements := by
  cases s with
  | index position =>
    have hposition := hs position (by simp [Subscript.positions])
    simp only [Subscript.substitute, Subscript.choose, hposition, hmode]
  | range first final =>
    have hfirst := hs first (by simp [Subscript.positions])
    have hfinal := hs final (by simp [Subscript.positions])
    simp only [Subscript.substitute, Subscript.choose, hfirst, hfinal, hmode]
  | last => simp only [Subscript.substitute, Subscript.choose, hmode]
  | wildcard => rfl

theorem Subscript.chooseAll_substitute {σ : Substitution} {scope scope' : Scope}
    (hmode : scope'.mode = scope.mode) (elements : List Item) {ss : List Subscript}
    (hss : ∀ s ∈ ss, ∀ n ∈ s.positions, (n.substitute σ).eval scope' = n.eval scope) :
    Subscript.chooseAll scope' elements (Subscript.substituteAll σ ss) =
      Subscript.chooseAll scope elements ss := by
  induction ss with
  | nil => rfl
  | cons s ss ih =>
    obtain ⟨hs, hss⟩ := List.forall_mem_cons.mp hss
    simp only [Subscript.substituteAll, Subscript.chooseAll,
      Subscript.choose_substitute hmode elements hs, ih hss]

/-- A form looks up the same in both rows of parameters, and what it asks for a truth value is a
predicate. A node that is none would be quoted by the error, so that it may stand there only where nothing
is put in. -/
structure Form.Fits (idle : Prop) (bindings bindings' : Bindings) (f : Form) : Prop where
  lookup : f.lookup bindings' = f.lookup bindings
  asked : ∀ p ∈ f.asked, idle ∨ p.isPredicate = true

/-- **Substitution.** A tree has the same result in a scope as the tree after substitution has in a scope
that substitutes. -/
theorem Node.eval_substitute {idle : Prop} (n : Node) :
    (∀ σ scope scope', Scope.Substitutes idle σ scope scope' →
      (∀ f ∈ n.forms, f.Fits idle scope.bindings scope'.bindings) →
      (n.substitute σ).eval scope' = n.eval scope) ∧
    (∀ σ scope scope', Scope.Substitutes idle σ scope scope' →
      (∀ f ∈ n.forms, f.Fits idle scope.bindings scope'.bindings) → idle ∨ n.isPredicate = true →
      (n.substitute σ).truth scope' = n.truth scope) := by
  refine Node.evaluation_induction
    (E := fun n => ∀ σ scope scope', Scope.Substitutes idle σ scope scope' →
      (∀ f ∈ n.forms, f.Fits idle scope.bindings scope'.bindings) →
      (n.substitute σ).eval scope' = n.eval scope)
    (T := fun n => ∀ σ scope scope', Scope.Substitutes idle σ scope scope' →
      (∀ f ∈ n.forms, f.Fits idle scope.bindings scope'.bindings) → idle ∨ n.isPredicate = true →
      (n.substitute σ).truth scope' = n.truth scope)
    ?literal ?context ?current ?last ?named ?positional ?member ?wildcardMember ?descendant
    ?elements ?filter ?unary ?binary ?method ?comparison ?conjunction ?disjunction ?negation
    ?existence ?isUnknown ?startsWith ?predicate ?other n
  case literal => exact fun _ _ _ _ _ _ _ => rfl
  case context =>
    intro declared σ scope scope' h _
    show Except.ok [scope'.root] = .ok [scope.root]
    rw [h.root]
  case current =>
    intro declared σ scope scope' h _
    cases hσ : σ.current with
    | none => simp only [Node.substitute, Form.substitute, hσ, Node.eval, Form.eval, h.current_none hσ]
    | some name =>
      obtain ⟨x, hx, hname⟩ := h.current name hσ
      simp only [Node.substitute, Form.substitute, hσ, Node.eval, Form.eval, hx, hname, ofBinding]
  case last =>
    intro declared σ scope scope' h _
    cases hσ : σ.last with
    | none => simp only [Node.substitute, Form.substitute, hσ, Node.eval, Form.eval, h.last_none hσ]
    | some k =>
      simp only [Node.substitute, Form.substitute, hσ, Node.eval, Form.eval, h.last k hσ]
      rfl
  case named =>
    intro name declared σ scope scope' h hfits
    have hlookup := (Node.forall_forms.mp hfits).1.lookup
    simp only [Form.lookup, Option.some.injEq] at hlookup
    simp only [Node.substitute, Form.substitute, Node.eval, Form.eval, hlookup]
  case positional =>
    intro position declared σ scope scope' h hfits
    have hlookup := (Node.forall_forms.mp hfits).1.lookup
    simp only [Form.lookup, Option.some.injEq] at hlookup
    simp only [Node.substitute, Form.substitute, Node.eval, Form.eval, hlookup]
  case member =>
    intro target name ih declared σ scope scope' h hfits
    show ((target.substitute σ).eval scope' >>= fun s => s.member scope'.mode name) = _
    rw [ih σ scope scope' h (Node.forall_forms.mp hfits).2, h.mode]
    rfl
  case wildcardMember =>
    intro target ih declared σ scope scope' h hfits
    show ((target.substitute σ).eval scope' >>= fun s => s.wildcardMember scope'.mode) = _
    rw [ih σ scope scope' h (Node.forall_forms.mp hfits).2, h.mode]
    rfl
  case descendant =>
    intro target name ih declared σ scope scope' h hfits
    show ((target.substitute σ).eval scope' >>= fun s => Except.ok (s.descendants name)) = _
    rw [ih σ scope scope' h (Node.forall_forms.mp hfits).2]
    rfl
  case elements =>
    intro target subscripts ih ihs declared σ scope scope' h hfits
    obtain ⟨htarget, hsubscripts⟩ := List.forall_mem_append.mp (Node.forall_forms.mp hfits).2
    have hchoose : (fun elements => Subscript.chooseAll
          { scope' with last := some (lastIndex elements) } elements
          (Subscript.substituteAll σ.inSubscript subscripts)) = fun elements =>
        Subscript.chooseAll { scope with last := some (lastIndex elements) } elements subscripts := by
      funext elements
      have hinner := h.inSubscript (lastIndex elements)
      refine Subscript.chooseAll_substitute hinner.mode elements (fun s hs n hmem => ?_)
      exact ihs s hs n hmem _ _ _ hinner
        ((Subscript.forall_innerAll subscripts).mp hsubscripts s hs n hmem)
    show ((target.substitute σ).eval scope' >>= fun s => s.elements scope'.mode fun elements =>
      Subscript.chooseAll { scope' with last := some (lastIndex elements) } elements
        (Subscript.substituteAll σ.inSubscript subscripts)) = _
    rw [hchoose, ih σ scope scope' h htarget, h.mode]
    rfl
  case filter =>
    intro target predicate ih ihp declared σ scope scope' h hfits
    obtain ⟨hown, hinner⟩ := Node.forall_forms.mp hfits
    obtain ⟨htarget, hpredicate⟩ := List.forall_mem_append.mp hinner
    have hasked := hown.asked predicate (List.mem_singleton.mpr rfl)
    have hselect : (fun x =>
          (predicate.substitute σ.inFilter).truth { scope' with current := some x }) =
        fun x => predicate.truth { scope with current := some x } := by
      funext x
      exact ihp _ _ _ (h.inFilter x) hpredicate hasked
    show ((target.substitute σ).eval scope' >>= fun s => (s.unwrap scope'.mode).select fun x =>
      (predicate.substitute σ.inFilter).truth { scope' with current := some x }) = _
    rw [hselect, ih σ scope scope' h htarget, h.mode]
    rfl
  case unary =>
    intro sign operand ih declared σ scope scope' h hfits
    show ((operand.substitute σ).eval scope' >>= fun s => s.number scope'.mode .unaryOperand >>=
      fun n => n.signed sign >>= fun m => Except.ok [Item.number m]) = _
    rw [ih σ scope scope' h (Node.forall_forms.mp hfits).2, h.mode]
    rfl
  case binary =>
    intro op left right ihl ihr declared σ scope scope' h hfits
    obtain ⟨hleft, hright⟩ := List.forall_mem_append.mp (Node.forall_forms.mp hfits).2
    show ((left.substitute σ).eval scope' >>= fun l => l.number scope'.mode .leftOperand >>= fun a =>
      (right.substitute σ).eval scope' >>= fun r => r.number scope'.mode .rightOperand >>= fun b =>
      a.arithmetic op b >>= fun c => Except.ok [Item.number c]) = _
    rw [ihl σ scope scope' h hleft, ihr σ scope scope' h hright, h.mode]
    rfl
  case method =>
    intro target m ih declared σ scope scope' h hfits
    show ((target.substitute σ).eval scope' >>= fun s => s.method scope'.mode m) = _
    rw [ih σ scope scope' h (Node.forall_forms.mp hfits).2, h.mode]
    rfl
  case comparison =>
    intro op left right ihl ihr declared σ scope scope' h hfits _
    obtain ⟨hleft, hright⟩ := List.forall_mem_append.mp (Node.forall_forms.mp hfits).2
    show Truth.compare scope'.mode op ((left.substitute σ).eval scope')
      (fun _ => (right.substitute σ).eval scope') = _
    rw [ihl σ scope scope' h hleft, ihr σ scope scope' h hright, h.mode]
    rfl
  case startsWith =>
    intro whole initial ihw ihi declared σ scope scope' h hfits _
    obtain ⟨hwhole, hinitial⟩ := List.forall_mem_append.mp (Node.forall_forms.mp hfits).2
    show Truth.startsWith scope'.mode ((initial.substitute σ).eval scope')
      (fun _ => (whole.substitute σ).eval scope') = _
    rw [ihi σ scope scope' h hinitial, ihw σ scope scope' h hwhole, h.mode]
    rfl
  case conjunction =>
    intro left right ihl ihr declared σ scope scope' h hfits _
    obtain ⟨hown, hinner⟩ := Node.forall_forms.mp hfits
    obtain ⟨hleft, hright⟩ := List.forall_mem_append.mp hinner
    have haskedl := hown.asked left (by simp [Form.asked, Form.connected])
    have haskedr := hown.asked right (by simp [Form.asked, Form.connected])
    show Truth.andThen ((left.substitute σ).truth scope')
      (fun _ => (right.substitute σ).truth scope') = _
    rw [ihl σ scope scope' h hleft haskedl, ihr σ scope scope' h hright haskedr]
    rfl
  case disjunction =>
    intro left right ihl ihr declared σ scope scope' h hfits _
    obtain ⟨hown, hinner⟩ := Node.forall_forms.mp hfits
    obtain ⟨hleft, hright⟩ := List.forall_mem_append.mp hinner
    have haskedl := hown.asked left (by simp [Form.asked, Form.connected])
    have haskedr := hown.asked right (by simp [Form.asked, Form.connected])
    show Truth.orElse ((left.substitute σ).truth scope')
      (fun _ => (right.substitute σ).truth scope') = _
    rw [ihl σ scope scope' h hleft haskedl, ihr σ scope scope' h hright haskedr]
    rfl
  case negation =>
    intro operand ih declared σ scope scope' h hfits _
    obtain ⟨hown, hinner⟩ := Node.forall_forms.mp hfits
    have hasked := hown.asked operand (List.mem_singleton.mpr rfl)
    show ((operand.substitute σ).truth scope').map Truth.not = _
    rw [ih σ scope scope' h hinner hasked]
    rfl
  case isUnknown =>
    intro operand ih declared σ scope scope' h hfits _
    obtain ⟨hown, hinner⟩ := Node.forall_forms.mp hfits
    have hasked := hown.asked operand (List.mem_singleton.mpr rfl)
    show ((operand.substitute σ).truth scope').map (fun t => Truth.ofBool (t = .unknown)) = _
    rw [ih σ scope scope' h hinner hasked]
    rfl
  case existence =>
    intro operand ih declared σ scope scope' h hfits _
    show Truth.ofExistence ((operand.substitute σ).eval scope') = _
    rw [ih σ scope scope' h (Node.forall_forms.mp hfits).2]
    rfl
  case predicate =>
    intro p hp ih σ scope scope' h hfits
    rw [Node.eval_of_isPredicate ((p.isPredicate_substitute σ).trans hp),
      Node.eval_of_isPredicate hp, ih σ scope scope' h hfits (Or.inr hp)]
  case other =>
    -- Such a node is asked only where nothing is put in, so that the error quotes the same text.
    intro p hp σ scope scope' h _ hasked
    have hidle : idle := hasked.resolve_right (by simp [hp])
    rw [h.nothing hidle, p.substitute_nothing, Node.truth_of_not_isPredicate hp,
      Node.truth_of_not_isPredicate hp]

/-! ### A new parameter -/

/-- Only a variable that means the new parameter looks up something else. -/
theorem Form.lookup_insert {bindings : Bindings} {name : String}
    (hname : name ∉ Entries.keys bindings.entries) {f : Form} (hnamed : f ≠ .named name)
    (hpositional : f ≠ .positional bindings.size) (x : Item) :
    f.lookup (bindings.insert name x) = f.lookup bindings := by
  cases f with
  | named other =>
    have hne : other ≠ name := fun h => hnamed (congrArg Form.named h)
    exact congrArg some (bindings.get_insert_of_ne hne x)
  | positional position =>
    have hne : position ≠ bindings.size := fun h => hpositional (congrArg Form.positional h)
    exact congrArg some (bindings.getIndex_insert_of_ne hname hne x)
  | _ => rfl

/-! ### Lexical scoping -/

/-- **Lexical scoping.** In a tree that asks only predicates for truth values, `last` outside of
subscripts can be written as the number that it is, and `@` outside of filters as a new parameter that
holds its item; what `last` and `@` are in the scope does not matter then. The parameter is added at the
end of the row, with a name and a position that the tree does not use. -/
theorem Node.lexical_scoping (e : Node) (he : e.AsksPredicates) (scope : Scope) :
    (∀ (n : Int64) (last : Option Int64),
      e.eval { scope with last := some n } =
        (e.substitute { current := none, last := some n }).eval { scope with last := last }) ∧
    ∀ (x : Item) (current : Option Item) (name : String), .named name ∉ e.forms →
      name ∉ Entries.keys scope.bindings.entries → .positional scope.bindings.size ∉ e.forms →
      e.eval { scope with current := some x } =
        (e.substitute { current := some name, last := none }).eval
          { scope with current := current, bindings := scope.bindings.insert name x } := by
  constructor
  · intro n last
    have hsubstitutes : Scope.Substitutes False { current := none, last := some n }
        { scope with last := some n } { scope with last := last } :=
      { root := rfl
        mode := rfl
        current := fun _ hname => nomatch hname
        current_none := fun _ => rfl
        last := fun _ hn => hn
        last_none := fun hn => nomatch hn
        nothing := False.elim }
    refine (e.eval_substitute.1 _ _ _ hsubstitutes fun f hf => ?_).symm
    exact ⟨rfl, fun p hp => Or.inr (he f hf p hp)⟩
  · intro x current name hnamed hname hpositional
    have hsubstitutes : Scope.Substitutes False { current := some name, last := none }
        { scope with current := some x }
        { scope with current := current, bindings := scope.bindings.insert name x } :=
      { root := rfl
        mode := rfl
        current := by
          intro other hother
          cases hother
          exact ⟨x, rfl, scope.bindings.get_insert_self name x⟩
        current_none := fun hcurrent => nomatch hcurrent
        last := fun _ hn => nomatch hn
        last_none := fun _ => rfl
        nothing := False.elim }
    refine (e.eval_substitute.1 _ _ _ hsubstitutes fun f hf => ?_).symm
    have hlookup : f.lookup (scope.bindings.insert name x) = f.lookup scope.bindings :=
      Form.lookup_insert hname (fun h => hnamed (h ▸ hf)) (fun h => hpositional (h ▸ hf)) x
    exact ⟨hlookup, fun p hp => Or.inr (he f hf p hp)⟩

/-- A filter and a subscript with an `@` and a `last` of their own, beside those of the scope. -/
theorem Node.lexical_scoping_of_filter_and_subscript :
    let e := arithmetic .add (arithmetic .add (filter current (compared .less current last)) last)
      (subscripted [.index last] context)
    let scope : Scope :=
      { root := .array [.int 1, .int 2, .int 5], current := some (.int 3), last := some 7,
        bindings := .empty, mode := .strict }
    e.AsksPredicates ∧ .named "v" ∉ e.forms ∧ "v" ∉ Entries.keys scope.bindings.entries ∧
      .positional scope.bindings.size ∉ e.forms ∧
      (e.substitute { current := none, last := some 7 }).eval { scope with last := none } =
        .ok [.int 15] ∧
      (e.substitute { current := some "v", last := none }).eval
          { scope with current := none, bindings := scope.bindings.insert "v" (.int 3) } =
        .ok [.int 15] := by
  intro e scope
  have he : e.AsksPredicates := by decide
  have hnamed : .named "v" ∉ e.forms := by
    simp [e, Node.forms, Form.inner, Subscript.innerAll, Subscript.inner, arithmetic, filter, compared,
      subscripted, current, last, context, ofForm]
  have hpositional : .positional scope.bindings.size ∉ e.forms := by
    simp [e, Node.forms, Form.inner, Subscript.innerAll, Subscript.inner, arithmetic, filter, compared,
      subscripted, current, last, context, ofForm]
  have hfresh : "v" ∉ Entries.keys scope.bindings.entries := List.not_mem_nil
  have heval : e.eval scope = .ok [.int 15] := by rfl
  obtain ⟨hlast, hcurrent⟩ := Node.lexical_scoping e he scope
  exact ⟨he, hnamed, hfresh, hpositional, (hlast 7 none).symm.trans heval,
    (hcurrent (.int 3) none "v" hnamed hfresh hpositional).symm.trans heval⟩

end PathQuery
