import PathQuery.Proofs.Eval.Failure
import PathQuery.Proofs.Item.Parts

/-!
# What results are made of

Steps take items apart and make a few new ones: numbers, truth values, texts, dates and times, and the
entries of `keyvalue`. A property that passes from items to their contents and that the new items have is
therefore kept by evaluation as a whole.

* `YieldsOnly` — the value of a result has a property if there is one.
* `Item.Hereditary` — a property that passes to contents; accessors and filters keep it.
* `Item.Kept` — a hereditary property of all items that arithmetic and methods make.
* `Node.eval_each` — where the literals of a tree, the input, the item of the filter and the parameters
  have a kept property, the tree yields only items that have it. `Node.evaluate_each` is the same for an
  evaluation as a whole.
* `Node.evaluate_contains_failures` — failed conversions end the evaluation of every tree, nothing else
  gives their kind of error, and no result has one in it.
-/

namespace PathQuery

/-- The value of a result, if it has one, has a property. -/
def YieldsOnly {ε α : Type} (P : α → Prop) (r : Except ε α) : Prop :=
  ∀ a, r = .ok a → P a

/-- All items of a sequence have a property. -/
def Sequence.Each (G : Item → Prop) (s : Sequence) : Prop :=
  ∀ x ∈ s, G x

section Results

variable {ε α β : Type} {P : α → Prop} {Q : β → Prop}

theorem YieldsOnly.ok {a : α} (h : P a) : YieldsOnly P (.ok a : Except ε α) := by
  intro b hb
  cases hb
  exact h

theorem YieldsOnly.error (e : ε) : YieldsOnly P (.error e : Except ε α) := by
  intro a h
  cases h

theorem YieldsOnly.bind {r : Except ε α} {f : α → Except ε β} (hr : YieldsOnly P r)
    (hf : ∀ a, P a → YieldsOnly Q (f a)) : YieldsOnly Q (r >>= f) := by
  cases r with
  | error e => exact YieldsOnly.error e
  | ok a => exact hf a (hr a rfl)

/-- The case in which it does not matter what comes first. -/
theorem YieldsOnly.after (r : Except ε α) {f : α → Except ε β} (hf : ∀ a, YieldsOnly Q (f a)) :
    YieldsOnly Q (r >>= f) := by
  cases r with
  | error e => exact YieldsOnly.error e
  | ok a => exact hf a

theorem YieldsOnly.map {r : Except ε α} {f : α → β} (hr : YieldsOnly P r)
    (hf : ∀ a, P a → Q (f a)) : YieldsOnly Q (r.map f) := by
  cases r with
  | error e => exact YieldsOnly.error e
  | ok a => exact YieldsOnly.ok (hf a (hr a rfl))

theorem YieldsOnly.collect {G : Item → Prop} {step : Item → Except ε Sequence} {s : Sequence}
    (h : ∀ x ∈ s, YieldsOnly (Sequence.Each G) (step x)) :
    YieldsOnly (Sequence.Each G) (s.collect step) := by
  induction s with
  | nil => exact YieldsOnly.ok (List.forall_mem_nil G)
  | cons x s ih =>
    obtain ⟨hx, hs⟩ := List.forall_mem_cons.mp h
    simp only [Sequence.collect]
    cases hstep : step x with
    | error e => exact YieldsOnly.error e
    | ok ys =>
      exact (ih hs).map fun zs hzs => List.forall_mem_append.mpr ⟨hx ys hstep, hzs⟩

end Results

/-! ### Accessors and filters -/

/-- A property that arrays and objects hand on to their contents. -/
structure Item.Hereditary (G : Item → Prop) : Prop where
  element {elements : List Item} : G (.array elements) → ∀ x ∈ elements, G x
  member {members : List (String × Item)} : G (.object members) → ∀ m ∈ members, G m.2

theorem Mode.orError_each {G : Item → Prop} (mode : Mode) (e : EvalError) :
    YieldsOnly (Sequence.Each G) (mode.orError e) := by
  cases mode with
  | lax => exact YieldsOnly.ok (List.forall_mem_nil G)
  | strict => exact YieldsOnly.error e

section Accessors

variable {G : Item → Prop} (hG : Item.Hereditary G) (mode : Mode)

include hG

theorem Item.spread_each {x : Item} (hx : G x) : Sequence.Each G x.spread := by
  cases x with
  | array elements => exact hG.element hx
  | _ => exact List.forall_mem_singleton.mpr hx

theorem Sequence.unwrap_each {s : Sequence} (hs : s.Each G) : (s.unwrap mode).Each G := by
  cases mode with
  | strict => exact hs
  | lax =>
    intro y hy
    rw [Sequence.unwrap_lax] at hy
    obtain ⟨x, hx, hy⟩ := List.mem_flatMap.mp hy
    exact Item.spread_each hG (hs x hx) y hy

/-- A step that keeps the property on items keeps it on sequences that are unwrapped first. -/
theorem Sequence.collect_unwrap_each {step : Item → Except EvalError Sequence}
    (hstep : ∀ x, G x → YieldsOnly (Sequence.Each G) (step x)) {s : Sequence} (hs : s.Each G) :
    YieldsOnly (Sequence.Each G) ((s.unwrap mode).collect step) :=
  YieldsOnly.collect fun x hx => hstep x (Sequence.unwrap_each hG mode hs x hx)

theorem Sequence.member_each (name : String) {s : Sequence} (hs : s.Each G) :
    YieldsOnly (Sequence.Each G) (s.member mode name) := by
  refine Sequence.collect_unwrap_each hG mode (fun x hx => ?_) hs
  cases x with
  | object members =>
    simp only [Item.member]
    cases hget : Entries.get? name members with
    | none => exact mode.orError_each _
    | some y =>
      have hy : G y := hG.member hx (name, y) (Entries.mem_of_get? hget)
      exact YieldsOnly.ok (List.forall_mem_singleton.mpr hy)
  | _ => exact mode.orError_each _

theorem Sequence.wildcardMember_each {s : Sequence} (hs : s.Each G) :
    YieldsOnly (Sequence.Each G) (s.wildcardMember mode) := by
  refine Sequence.collect_unwrap_each hG mode (fun x hx => ?_) hs
  cases x with
  | object members =>
    refine YieldsOnly.ok (fun y hy => ?_)
    obtain ⟨m, hm, rfl⟩ := List.mem_map.mp hy
    exact hG.member hx m hm
  | _ => exact mode.orError_each _

omit hG in
theorem Item.elementDescendants_each {name : String} {elements : List Item}
    (h : ∀ x ∈ elements, Sequence.Each G (x.descendants name)) :
    Sequence.Each G (Item.elementDescendants name elements) := by
  induction elements with
  | nil => exact List.forall_mem_nil G
  | cons x xs ih =>
    obtain ⟨hx, hxs⟩ := List.forall_mem_cons.mp h
    exact List.forall_mem_append.mpr ⟨hx, ih hxs⟩

omit hG in
theorem Item.memberDescendants_each {name : String} {members : List (String × Item)}
    (h : ∀ m ∈ members, G m.2 ∧ Sequence.Each G (m.2.descendants name)) :
    Sequence.Each G (Item.memberDescendants name members) := by
  induction members with
  | nil => exact List.forall_mem_nil G
  | cons m ms ih =>
    obtain ⟨⟨hm, hinner⟩, hms⟩ := List.forall_mem_cons.mp h
    have hown : Sequence.Each G (if m.1 = name then [m.2] else []) := by
      split
      · exact List.forall_mem_singleton.mpr hm
      · exact List.forall_mem_nil G
    exact List.forall_mem_append.mpr ⟨List.forall_mem_append.mpr ⟨hown, hinner⟩, ih hms⟩

theorem Item.descendants_each (name : String) {x : Item} (hx : G x) :
    Sequence.Each G (x.descendants name) := by
  induction x with
  | array elements ih =>
    exact Item.elementDescendants_each fun y hy => ih y hy (hG.element hx y hy)
  | object members ih =>
    exact Item.memberDescendants_each fun m hm =>
      ⟨hG.member hx m hm, ih m hm (hG.member hx m hm)⟩
  | _ => exact List.forall_mem_nil G

theorem Sequence.descendants_each (name : String) {s : Sequence} (hs : s.Each G) :
    (s.descendants name).Each G := by
  intro y hy
  obtain ⟨x, hx, hy⟩ := List.mem_flatMap.mp hy
  exact Item.descendants_each hG name (hs x hx) y hy

theorem Item.elements?_each {x : Item} {elements : List Item} (hx : G x)
    (h : x.elements? mode = some elements) : Sequence.Each G elements := by
  cases x with
  | array inner =>
    cases h
    exact hG.element hx
  | _ =>
    cases mode with
    | lax =>
      cases h
      exact List.forall_mem_singleton.mpr hx
    | strict => cases h

theorem Sequence.elements_each {choose : List Item → Except EvalError Sequence}
    (hchoose : ∀ elements, Sequence.Each G elements → YieldsOnly (Sequence.Each G) (choose elements))
    {s : Sequence} (hs : s.Each G) : YieldsOnly (Sequence.Each G) (s.elements mode choose) := by
  refine YieldsOnly.collect (fun x hx => ?_)
  cases helements : x.elements? mode with
  | none => exact YieldsOnly.error _
  | some elements => exact hchoose elements (Item.elements?_each hG mode (hs x hx) helements)

end Accessors

section Elements

variable {G : Item → Prop} (mode : Mode) {elements : List Item} (helements : Sequence.Each G elements)

include helements

theorem Item.element_each (position : Nat) :
    YieldsOnly (Sequence.Each G) (Item.element mode elements position) := by
  unfold Item.element
  cases hget : elements[position]? with
  | none => exact mode.orError_each _
  | some x =>
    have hx : G x := helements x (List.mem_of_getElem? hget)
    exact YieldsOnly.ok (List.forall_mem_singleton.mpr hx)

theorem Item.elementRange_each (first final : Nat) :
    YieldsOnly (Sequence.Each G) (Item.elementRange mode elements first final) := by
  unfold Item.elementRange
  split
  · exact YieldsOnly.error _
  · refine YieldsOnly.ok (fun x hx => ?_)
    have htaken : x ∈ elements.take (final + 1) := List.mem_of_mem_drop hx
    exact helements x (List.mem_of_mem_take htaken)

theorem Item.lastElement_each : YieldsOnly (Sequence.Each G) (Item.lastElement mode elements) := by
  unfold Item.lastElement
  cases hlast : elements.getLast? with
  | none => exact mode.orError_each _
  | some x =>
    have hx : G x := helements x (List.mem_of_getLast? hlast)
    exact YieldsOnly.ok (List.forall_mem_singleton.mpr hx)

/-- Subscripts choose among the elements, whatever their positions come from. -/
theorem Subscript.choose_each (scope : Scope) (s : Subscript) :
    YieldsOnly (Sequence.Each G) (s.choose scope elements) := by
  cases s with
  | index position =>
    refine YieldsOnly.after _ (fun r => YieldsOnly.after _ (fun i => ?_))
    exact Item.element_each scope.mode helements i
  | range first final =>
    refine YieldsOnly.after _ (fun r => YieldsOnly.after _ (fun i => ?_))
    refine YieldsOnly.after _ (fun r' => YieldsOnly.after _ (fun j => ?_))
    exact Item.elementRange_each scope.mode helements i j
  | last => exact Item.lastElement_each scope.mode helements
  | wildcard => exact YieldsOnly.ok helements

theorem Subscript.chooseAll_each (scope : Scope) (ss : List Subscript) :
    YieldsOnly (Sequence.Each G) (Subscript.chooseAll scope elements ss) := by
  induction ss with
  | nil => exact YieldsOnly.ok (List.forall_mem_nil G)
  | cons s ss ih =>
    simp only [Subscript.chooseAll]
    refine YieldsOnly.bind (Subscript.choose_each helements scope s) (fun xs hxs => ?_)
    refine YieldsOnly.bind ih (fun ys hys => ?_)
    exact YieldsOnly.ok (List.forall_mem_append.mpr ⟨hxs, hys⟩)

end Elements

theorem Sequence.select_each {G : Item → Prop} (predicate : Item → Except EvalError Truth)
    {s : Sequence} (hs : s.Each G) : YieldsOnly (Sequence.Each G) (s.select predicate) := by
  refine YieldsOnly.collect (fun x hx => ?_)
  split
  · exact YieldsOnly.ok (List.forall_mem_singleton.mpr (hs x hx))
  · exact YieldsOnly.ok (List.forall_mem_nil G)
  · exact YieldsOnly.error _

/-! ### Arithmetic and methods -/

/-- A hereditary property of the items that arithmetic, methods and predicates make. -/
structure Item.Kept (G : Item → Prop) : Prop extends Item.Hereditary G where
  null : G .null
  boolean (b : Bool) : G (.boolean b)
  string (s : String) : G (.string s)
  datetime (d : DateTime) : G (.datetime d)
  int (n : Int64) : G (.number (.int n))
  /-- Arithmetic and `double` check that their results are finite. -/
  float (x : Double) : x.isFinite = true → G (.number (.float x))
  neg {x : Double} : G (.number (.float x)) → G (.number (.float x.neg))
  ceil {x : Double} : G (.number (.float x)) → G (.number (.float x.ceil))
  floor {x : Double} : G (.number (.float x)) → G (.number (.float x.floor))
  abs {x : Double} : G (.number (.float x)) → G (.number (.float x.abs))
  /-- An entry that `keyvalue` makes of a member. -/
  entry {value : Item} (key : String) (id : Int64) : G value →
    G (.object [("key", .string key), ("value", value), ("id", .number (.int id))])

/-- Of the three members of an entry only the value can have parts of its own. -/
theorem Item.PartOf.of_entry {part value : Item} {key : String} {id : Int64}
    (h : PartOf part (.object [("key", .string key), ("value", value), ("id", .number (.int id))])) :
    part = .object [("key", .string key), ("value", value), ("id", .number (.int id))] ∨
      part = .string key ∨ part = .number (.int id) ∨ PartOf part value := by
  cases h with
  | self => exact Or.inl rfl
  | member hm hpart =>
    simp only [List.mem_cons, List.not_mem_nil, or_false] at hm
    rcases hm with rfl | rfl | rfl
    · cases hpart
      exact Or.inr (Or.inl rfl)
    · exact Or.inr (Or.inr (Or.inr hpart))
    · cases hpart
      exact Or.inr (Or.inr (Or.inl rfl))

section Values

variable {G : Item → Prop} (hG : Item.Kept G) (mode : Mode)

include hG

theorem Sequence.number_each (place : NumberPlace) {s : Sequence} (hs : s.Each G) :
    YieldsOnly (fun n => G (.number n)) (s.number mode place) := by
  have hunwrapped := Sequence.unwrap_each hG.toHereditary mode hs
  unfold Sequence.number
  split
  · next n hn =>
    rw [hn] at hunwrapped
    exact YieldsOnly.ok (List.forall_mem_singleton.mp hunwrapped)
  · exact YieldsOnly.error _
  · exact YieldsOnly.error _

theorem Number.signed_each (sign : Sign) {n : Number} (hn : G (.number n)) :
    YieldsOnly (fun m => G (.number m)) (n.signed sign) := by
  unfold Number.signed
  split
  · exact YieldsOnly.ok hn
  · split
    · exact YieldsOnly.ok (hG.int _)
    · exact YieldsOnly.error _
  · exact YieldsOnly.ok (hG.neg hn)

theorem Number.arithmetic_each (op : ArithmeticOp) (a b : Number) :
    YieldsOnly (fun c => G (.number c)) (a.arithmetic op b) := by
  unfold Number.arithmetic
  split
  · split
    · exact YieldsOnly.error _
    · split
      · exact YieldsOnly.ok (hG.int _)
      · exact YieldsOnly.error _
  · split
    · exact YieldsOnly.error _
    · dsimp only
      split
      · next hfinite => exact YieldsOnly.ok (hG.float _ hfinite)
      · exact YieldsOnly.error _

theorem Item.size_each (x : Item) : YieldsOnly (Sequence.Each G) (x.size mode) := by
  have hint : ∀ n : Int64, YieldsOnly (Sequence.Each G) (.ok [.int n] : Except EvalError Sequence) :=
    fun n => YieldsOnly.ok (List.forall_mem_singleton.mpr (hG.int n))
  cases x with
  | array elements => exact hint _
  | _ =>
    cases mode with
    | lax => exact hint 1
    | strict => exact YieldsOnly.error _

theorem Item.double_each (x : Item) : YieldsOnly (Sequence.Each G) x.double := by
  have hfinite : ∀ d : Double, YieldsOnly (Sequence.Each G) (Item.double.finite d) := by
    intro d
    unfold Item.double.finite
    split
    · next hd => exact YieldsOnly.ok (List.forall_mem_singleton.mpr (hG.float d hd))
    · exact YieldsOnly.error _
  unfold Item.double
  split
  · exact hfinite _
  · split
    · exact hfinite _
    · exact YieldsOnly.error _
  · exact YieldsOnly.error _

/-- A rounding keeps the property if its function on doubles does. -/
theorem Item.rounded_each (m : Method) {f : Double → Double}
    (hf : ∀ d, G (.number (.float d)) → G (.number (.float (f d)))) {x : Item} (hx : G x) :
    YieldsOnly (Sequence.Each G) (x.rounded m f) := by
  unfold Item.rounded
  split
  · exact YieldsOnly.ok (List.forall_mem_singleton.mpr (hG.int _))
  · exact YieldsOnly.ok (List.forall_mem_singleton.mpr (hf _ hx))
  · exact YieldsOnly.error _

theorem Item.abs_each {x : Item} (hx : G x) : YieldsOnly (Sequence.Each G) x.abs := by
  unfold Item.abs
  split
  · split
    · exact YieldsOnly.ok (List.forall_mem_singleton.mpr (hG.int _))
    · exact YieldsOnly.error _
  · exact YieldsOnly.ok (List.forall_mem_singleton.mpr (hG.abs hx))
  · exact YieldsOnly.error _

theorem Item.readDatetime_each (template : Option String) (x : Item) :
    YieldsOnly (Sequence.Each G) (x.readDatetime template) := by
  unfold Item.readDatetime
  split
  · dsimp only
    split
    · exact YieldsOnly.ok (List.forall_mem_singleton.mpr (hG.datetime _))
    · exact YieldsOnly.error _
  · exact YieldsOnly.error _

theorem Item.keyValues_each (id : Nat) {x : Item} (hx : G x) :
    YieldsOnly (Sequence.Each G) (x.keyValues id) := by
  cases x with
  | object members =>
    refine YieldsOnly.ok (fun y hy => ?_)
    obtain ⟨m, hm, rfl⟩ := List.mem_map.mp hy
    exact hG.entry m.1 _ (hG.member hx m hm)
  | _ => exact YieldsOnly.error _

theorem Sequence.keyValues_each (id : Nat) {s : Sequence} (hs : s.Each G) :
    YieldsOnly (Sequence.Each G) (s.keyValues id) := by
  induction s generalizing id with
  | nil => exact YieldsOnly.ok (List.forall_mem_nil G)
  | cons x s ih =>
    obtain ⟨hx, hs⟩ := List.forall_mem_cons.mp hs
    simp only [Sequence.keyValues]
    cases hentries : x.keyValues id with
    | error e => exact YieldsOnly.error e
    | ok entries =>
      have hhead : Sequence.Each G entries := Item.keyValues_each hG id hx entries hentries
      exact (ih (id + 1) hs).map fun rest hrest => List.forall_mem_append.mpr ⟨hhead, hrest⟩

theorem Sequence.method_each (m : Method) {s : Sequence} (hs : s.Each G) :
    YieldsOnly (Sequence.Each G) (s.method mode m) := by
  have hcollect : ∀ {step : Item → Except EvalError Sequence},
      (∀ x, G x → YieldsOnly (Sequence.Each G) (step x)) →
      YieldsOnly (Sequence.Each G) ((s.unwrap mode).collect step) :=
    fun hstep => Sequence.collect_unwrap_each hG.toHereditary mode hstep hs
  cases m with
  | type =>
    refine YieldsOnly.ok (fun y hy => ?_)
    obtain ⟨x, -, rfl⟩ := List.mem_map.mp hy
    exact hG.string _
  | size => exact YieldsOnly.collect fun x _ => Item.size_each hG mode x
  | double => exact hcollect fun x _ => Item.double_each hG x
  | ceiling => exact hcollect fun x hx => Item.rounded_each hG .ceiling (fun _ => hG.ceil) hx
  | floor => exact hcollect fun x hx => Item.rounded_each hG .floor (fun _ => hG.floor) hx
  | abs => exact hcollect fun x hx => Item.abs_each hG hx
  | keyValue => exact Sequence.keyValues_each hG 0 (Sequence.unwrap_each hG.toHereditary mode hs)
  | datetime template => exact hcollect fun x _ => Item.readDatetime_each hG template x

theorem Truth.sequence_each (t : Truth) : Sequence.Each G t.sequence := by
  refine List.forall_mem_singleton.mpr ?_
  cases t with
  | true => exact hG.boolean Bool.true
  | false => exact hG.boolean Bool.false
  | unknown => exact hG.null

/-! ### Trees -/

omit hG in
theorem ofBinding_each {r : Except BindingError Item} (hr : YieldsOnly G r) :
    YieldsOnly (Sequence.Each G) (ofBinding r) := by
  cases r with
  | error e => exact YieldsOnly.error _
  | ok x => exact YieldsOnly.ok (List.forall_mem_singleton.mpr (hr x rfl))

omit hG in
/-- What a variable is bound to is among the values of the parameters. -/
theorem Bindings.get_each {bindings : Bindings} (h : ∀ b ∈ bindings.entries, G b.2) (name : String) :
    YieldsOnly G (bindings.get name) := by
  unfold Bindings.get
  cases hget : Entries.get? name bindings.entries with
  | none => exact YieldsOnly.error _
  | some x => exact YieldsOnly.ok (h (name, x) (Entries.mem_of_get? hget))

omit hG in
theorem Bindings.getIndex_each {bindings : Bindings} (h : ∀ b ∈ bindings.entries, G b.2)
    (position : Nat) : YieldsOnly G (bindings.getIndex position) := by
  unfold Bindings.getIndex
  cases hget : bindings.entries[position]? with
  | none => exact YieldsOnly.error _
  | some p => exact YieldsOnly.ok (h p (List.mem_of_getElem? hget))

/-- All items that a scope offers have a property. -/
structure Scope.Each (G : Item → Prop) (scope : Scope) : Prop where
  root : G scope.root
  current : ∀ x, scope.current = some x → G x
  bindings : ∀ b ∈ scope.bindings.entries, G b.2

/-- A form that is a literal stands for an item with a property. -/
def Form.LiteralIn (G : Item → Prop) (f : Form) : Prop :=
  ∀ value, f = .literal value → G value.item

/-- **Evaluation keeps what its steps keep.** Predicates and subscripts only choose among items, so that
the scopes inside them do not matter. -/
theorem Node.eval_each (n : Node) (hn : ∀ f ∈ n.forms, f.LiteralIn G) {scope : Scope}
    (hscope : scope.Each G) : YieldsOnly (Sequence.Each G) (n.eval scope) := by
  have hG' := hG.toHereditary
  have hnumber : ∀ {r : Except EvalError Number}, YieldsOnly (fun c => G (.number c)) r →
      YieldsOnly (Sequence.Each G) (r >>= fun c => Except.ok [Item.number c]) :=
    fun hr => YieldsOnly.bind hr fun c hc => YieldsOnly.ok (List.forall_mem_singleton.mpr hc)
  induction n with
  | literal value declared =>
    have hvalue : G value.item := (Node.forall_forms.mp hn).1 value rfl
    exact YieldsOnly.ok (List.forall_mem_singleton.mpr hvalue)
  | context declared => exact YieldsOnly.ok (List.forall_mem_singleton.mpr hscope.root)
  | current declared =>
    simp only [Node.eval, Form.eval]
    cases hcurrent : scope.current with
    | none => exact YieldsOnly.error _
    | some x => exact YieldsOnly.ok (List.forall_mem_singleton.mpr (hscope.current x hcurrent))
  | last declared =>
    simp only [Node.eval, Form.eval]
    cases scope.last with
    | none => exact YieldsOnly.error _
    | some k => exact YieldsOnly.ok (List.forall_mem_singleton.mpr (hG.int k))
  | named name declared => exact ofBinding_each (Bindings.get_each hscope.bindings name)
  | positional position declared =>
    exact ofBinding_each (Bindings.getIndex_each hscope.bindings position)
  | member target name ih declared =>
    exact YieldsOnly.bind (ih (Node.forall_forms.mp hn).2) fun s hs =>
      Sequence.member_each hG' scope.mode name hs
  | wildcardMember target ih declared =>
    exact YieldsOnly.bind (ih (Node.forall_forms.mp hn).2) fun s hs =>
      Sequence.wildcardMember_each hG' scope.mode hs
  | descendant target name ih declared =>
    exact YieldsOnly.bind (ih (Node.forall_forms.mp hn).2) fun s hs =>
      YieldsOnly.ok (Sequence.descendants_each hG' name hs)
  | elements target subscripts ih _ declared =>
    obtain ⟨htarget, -⟩ := List.forall_mem_append.mp (Node.forall_forms.mp hn).2
    refine YieldsOnly.bind (ih htarget) (fun s hs => ?_)
    exact Sequence.elements_each hG' scope.mode
      (fun elements helements => Subscript.chooseAll_each helements _ subscripts) hs
  | filter target predicate ih _ declared =>
    obtain ⟨htarget, -⟩ := List.forall_mem_append.mp (Node.forall_forms.mp hn).2
    refine YieldsOnly.bind (ih htarget) (fun s hs => ?_)
    exact Sequence.select_each _ (Sequence.unwrap_each hG' scope.mode hs)
  | unary sign operand ih declared =>
    refine YieldsOnly.bind (ih (Node.forall_forms.mp hn).2) (fun s hs => ?_)
    refine YieldsOnly.bind (Sequence.number_each hG scope.mode _ hs) (fun a ha => ?_)
    exact hnumber (Number.signed_each hG sign ha)
  | binary op left right _ _ declared =>
    refine YieldsOnly.after _ (fun l => YieldsOnly.after _ (fun a => ?_))
    refine YieldsOnly.after _ (fun r => YieldsOnly.after _ (fun b => ?_))
    exact hnumber (Number.arithmetic_each hG op a b)
  | method target m ih declared =>
    exact YieldsOnly.bind (ih (Node.forall_forms.mp hn).2) fun s hs =>
      Sequence.method_each hG scope.mode m hs
  | _ =>
    rw [Node.eval_of_isPredicate rfl]
    exact YieldsOnly.map (P := fun _ => True) (fun _ _ => trivial) fun t _ => Truth.sequence_each hG t

/-- The same for a whole tree, whose items are those of the input and the parameters. -/
theorem Node.evaluate_each (n : Node) (hn : ∀ f ∈ n.forms, f.LiteralIn G) {input : Item}
    (hinput : G input) {bindings : Bindings} (hbindings : ∀ b ∈ bindings.entries, G b.2) :
    YieldsOnly (Sequence.Each G) (n.evaluate mode input bindings) := by
  unfold Node.evaluate
  split
  · exact YieldsOnly.error _
  · have hscope : (Scope.initial mode input bindings).Each G :=
      { root := hinput
        current := fun x hx => nomatch hx
        bindings := hbindings }
    exact Node.eval_each hG n hn hscope

end Values

/-! ### Failed conversions -/

/-- All steps keep items clean. -/
theorem Item.clean_kept : Item.Kept Item.Clean where
  element hclean _ hx hpart := hclean (.element hx hpart)
  member hclean _ hm hpart := hclean (.member hm hpart)
  null h := nomatch h
  boolean _ h := nomatch h
  string _ h := nomatch h
  datetime _ h := nomatch h
  int _ h := nomatch h
  float _ _ h := nomatch h
  neg _ h := nomatch h
  ceil _ h := nomatch h
  floor _ h := nomatch h
  abs _ h := nomatch h
  entry key id hclean h := by
    rcases h.of_entry with h | h | h | h
    · cases h
    · cases h
    · cases h
    · exact hclean h

theorem Literal.item_clean (value : Literal) : value.item.Clean := by
  cases value <;> exact fun h => nomatch h

theorem kind_of_failedConversion? {input : Item} {bindings : Bindings} {e : EvalError}
    (h : failedConversion? input bindings = some e) : e.kind = .inputConversion := by
  unfold failedConversion? at h
  split at h
  · cases h
    rfl
  · obtain ⟨name, -, rfl⟩ := Option.map_eq_some_iff.mp h
    rfl

/-- No node gives the error of a failed conversion. -/
theorem Node.kind_of_eval {n : Node} {scope : Scope} {e : EvalError} (h : n.eval scope = .error e) :
    e.kind ≠ .inputConversion := by
  have hdata : ∀ cause : EvalError, cause.OfData → cause.kind ≠ .inputConversion := by
    intro cause hcause hkind
    rw [EvalError.OfData, EvalError.isDataError, hkind] at hcause
    cases hcause
  have hlookup : ∀ f ∈ n.forms,
      f.LookupFailsOnly scope.bindings (fun cause => cause.kind ≠ .inputConversion) :=
    fun f _ cause _ hkind => nomatch hkind
  exact (Node.failsOnly hdata n).1 hlookup scope rfl e h

/-- A call is given a failed conversion exactly if one is a part of the input or of a parameter. -/
theorem failedConversion?_ne_none_iff {input : Item} {bindings : Bindings} :
    failedConversion? input bindings ≠ none ↔
      Item.PartOf .failure input ∨ ∃ b ∈ bindings.entries, Item.PartOf .failure b.2 := by
  rw [ne_eq, failedConversion?_eq_none_iff, Classical.not_and_iff_not_or_not]
  simp [← Item.hasFailure_iff]

/-- **Failed conversions are contained.** Every tree fails with the error of a failed conversion if one is
a part of the input or of a parameter, mentioned or not, and in no other case; and no item of a result has
a failed conversion as a part. -/
theorem Node.evaluate_contains_failures (n : Node) (mode : Mode) (input : Item) (bindings : Bindings) :
    ((∃ e, n.evaluate mode input bindings = .error e ∧ e.kind = .inputConversion) ↔
      Item.PartOf .failure input ∨ ∃ b ∈ bindings.entries, Item.PartOf .failure b.2) ∧
    ∀ s, n.evaluate mode input bindings = .ok s → ∀ x ∈ s, ¬ Item.PartOf .failure x := by
  rw [← failedConversion?_ne_none_iff]
  cases hfailed : failedConversion? input bindings with
  | some e =>
    have heval : n.evaluate mode input bindings = .error e := by rw [Node.evaluate, hfailed]
    refine ⟨⟨fun _ => by simp, fun _ => ⟨e, heval, kind_of_failedConversion? hfailed⟩⟩, ?_⟩
    intro s hs
    rw [heval] at hs
    cases hs
  | none =>
    rw [Node.evaluate_of_clean hfailed]
    obtain ⟨hinput, hbindings⟩ := failedConversion?_eq_none_iff.mp hfailed
    have hscope : (Scope.initial mode input bindings).Each Item.Clean :=
      { root := input.clean_iff.mpr hinput
        current := by
          intro x h
          cases h
        bindings := fun b hb => b.2.clean_iff.mpr (hbindings b hb) }
    constructor
    · refine ⟨?_, fun h => absurd rfl h⟩
      rintro ⟨e, he, hkind⟩
      exact absurd hkind (Node.kind_of_eval he)
    · exact Node.eval_each Item.clean_kept n (fun _ _ value _ => value.item_clean) hscope

/-- A parameter that a path does not mention, and the entries of an object inside an array. -/
theorem Node.evaluate_contains_failures_of_entries :
    let tree := method .keyValue (member "a" context)
    let input := Item.object [("a", .array [.object [("b", .array [.null])]])]
    let parameters := Bindings.empty.insert "x" (.array [.object [("y", .failure)]])
    (∃ e, tree.evaluate .lax input parameters = .error e ∧ e.kind = .inputConversion) ∧
      ∃ s, tree.evaluate .lax input .empty = .ok s ∧ s.length = 1 ∧
        ∀ x ∈ s, ¬ Item.PartOf .failure x := by
  intro tree input parameters
  have hpart : ∃ b ∈ parameters.entries, Item.PartOf .failure b.2 :=
    ⟨_, List.mem_singleton.mpr rfl,
      .element (List.mem_singleton.mpr rfl) (.member (List.mem_singleton.mpr rfl) .self)⟩
  refine ⟨(Node.evaluate_contains_failures tree .lax input parameters).1.mpr (Or.inr hpart), ?_⟩
  exact ⟨_, rfl, rfl, (Node.evaluate_contains_failures tree .lax input .empty).2 _ rfl⟩

end PathQuery
