import PathQuery.Path.Exchange
import PathQuery.Proofs.Path.Tree

/-!
# Trees written and read again

A tree that is written as JSON is read back as it was, with all declared types. The reader looks a field up
by its name and takes it only if the name occurs once, so it finds each field that the writer has put.

* `FieldStyle.fields?_object` — all fields of an object, asked for by their own names, are its values.
* `Json.named?_tag`, `SqlType.ofJson?_toJson`, `Literal.ofJson?_toJson` and `Method.ofJson?_toJson` — the
  parts of trees that are not trees.
* `Form.Writable` — what JSON has to hold of a form.
* `Node.ofJson?_toJson` — whole trees; `Node.exchange_round_trip` says it of the literals and variables in
  them.
-/

namespace PathQuery

/-! ### Fields -/

namespace Json

theorem case?_string (name : String) : (string name).case? = some (name, none) := rfl

theorem sizeOf_lt_of_mem {members : List (String × Json)} {m : String × Json} (h : m ∈ members) :
    sizeOf m.2 < sizeOf members := by
  have hpair : sizeOf m.2 < sizeOf m := by
    obtain ⟨name, v⟩ := m
    simp only [Prod.mk.sizeOf_spec]
    omega
  exact Nat.lt_trans hpair (List.sizeOf_lt_of_mem h)

theorem sizeOf_lt_object {members : List (String × Json)} {m : String × Json} (h : m ∈ members) :
    sizeOf m.2 < sizeOf (object members) := by
  have hmembers := sizeOf_lt_of_mem h
  simp only [object.sizeOf_spec]
  omega

theorem sizeOf_lt_tagged (name : String) (content : Json) :
    sizeOf content < sizeOf (tagged name content) :=
  sizeOf_lt_object (m := (name, content)) List.mem_cons_self

theorem case?_tagged (name : String) (content : Json) :
    (tagged name content).case? = some (name, some ⟨content, sizeOf_lt_tagged name content⟩) := rfl

theorem sizeOf_lt_cons (m : String × Json) (members : List (String × Json)) :
    sizeOf members < sizeOf (m :: members) := by
  simp only [List.cons.sizeOf_spec]
  omega

theorem uniqueIn?_cons (name key : String) (v : Json) (members : List (String × Json)) :
    uniqueIn? name ((key, v) :: members) =
      if key = name then
        if name ∈ Entries.keys members then none
        else some ⟨v, sizeOf_lt_of_mem (m := (key, v)) List.mem_cons_self⟩
      else
        (uniqueIn? name members).map fun c =>
          ⟨c.1, Nat.lt_trans c.2 (sizeOf_lt_cons (key, v) members)⟩ := rfl

/-- Where names are distinct, each of them finds its own value. -/
theorem uniqueIn?_of_mem {members : List (String × Json)} (hn : (Entries.keys members).Nodup)
    {m : String × Json} (hm : m ∈ members) :
    uniqueIn? m.1 members = some ⟨m.2, sizeOf_lt_of_mem hm⟩ := by
  induction members with
  | nil => exact absurd hm List.not_mem_nil
  | cons e members ih =>
    obtain ⟨key, v⟩ := e
    obtain ⟨hkey, hrest⟩ : key ∉ Entries.keys members ∧ (Entries.keys members).Nodup :=
      List.nodup_cons.mp hn
    rw [uniqueIn?_cons]
    rcases List.mem_cons.mp hm with rfl | hmem
    · rw [if_pos rfl, if_neg hkey]
    · have hne : key ≠ m.1 := fun h => hkey (h ▸ List.mem_map_of_mem hmem)
      rw [if_neg hne, ih hrest hmem]
      rfl

theorem member?_of_mem {members : List (String × Json)} (hn : (Entries.keys members).Nodup)
    {m : String × Json} (hm : m ∈ members) :
    (object members).member? m.1 = some ⟨m.2, sizeOf_lt_object hm⟩ := by
  rw [member?, uniqueIn?_of_mem hn hm]
  rfl

/-- The values of an object as parts of it. -/
theorem members?_object {members : List (String × Json)} (hn : (Entries.keys members).Nodup) :
    (object members).members? (Entries.keys members) =
      some (members.pmap (fun m h => ⟨m.2, h⟩) fun _ hm => sizeOf_lt_object hm) := by
  -- The members that are still asked for are some of those of the object, which stays the same.
  have go : ∀ asked : List (String × Json), ∀ hasked : ∀ m ∈ asked, m ∈ members,
      (Entries.keys asked).mapM (fun name => (object members).member? name) =
        some (asked.pmap (fun m h => ⟨m.2, h⟩) fun m hm => sizeOf_lt_object (hasked m hm)) := by
    intro asked
    induction asked with
    | nil => exact fun _ => rfl
    | cons m asked ih =>
      intro hasked
      obtain ⟨hm, hrest⟩ := List.forall_mem_cons.mp hasked
      rw [Entries.keys, List.map_cons, List.mapM_cons, member?_of_mem hn hm]
      have hasked' := ih hrest
      rw [Entries.keys] at hasked'
      rw [hasked']
      rfl
  exact go members fun _ hm => hm

end Json

/-- All fields of an object, asked for by their own names, are its values in order. -/
theorem FieldStyle.fields?_object (style : FieldStyle) {names : List String}
    {members : List (String × Json)} (hkeys : Entries.keys members = names) (hn : names.Nodup) :
    style.fields? names (.object members) =
      some (members.pmap (fun m h => ⟨m.2, h⟩) fun _ hm => Json.sizeOf_lt_object hm) := by
  subst hkeys
  rw [← Json.members?_object hn]
  cases style <;> rfl

/-! ### Parts that are not trees -/

/-- A bare name is read as the one value that has it. -/
theorem Json.named?_tag {α : Type} {tag : α → String} {options : List α} {a : α}
    (h : options.find? (fun b => tag b = tag a) = some a) :
    Json.named? tag options (.string (tag a)) = some a := h

theorem Sign.ofJson?_tag (sign : Sign) : Sign.ofJson? (.string sign.tag) = some sign := by
  cases sign <;> exact Json.named?_tag rfl

theorem ArithmeticOp.ofJson?_tag (op : ArithmeticOp) :
    ArithmeticOp.ofJson? (.string op.tag) = some op := by
  cases op <;> exact Json.named?_tag rfl

theorem ComparisonOp.ofJson?_tag (op : ComparisonOp) :
    ComparisonOp.ofJson? (.string op.tag) = some op := by
  cases op <;> exact Json.named?_tag rfl

theorem SqlType.limitOfJson?_toNat (n : UInt32) :
    limitOfJson? (.int n.toNat) = some (some n) := by
  have hn : n.toNat < 0x100000000 := n.toNat_lt
  rw [limitOfJson?, if_pos (by omega), Int.toNat_natCast]
  simp

theorem SqlType.ofJson?_toJson (t : SqlType) : ofJson? t.toJson = some t := by
  cases t with
  | varchar limit =>
    cases limit with
    | none => rfl
    | some n =>
      show (limitOfJson? (.int n.toNat)).map SqlType.varchar = _
      rw [limitOfJson?_toNat]
      rfl
  | _ => rfl

theorem SqlType.declaredOfJson?_toJson (t : SqlType) : declaredOfJson? t.toJson = some (some t) := by
  have hnull : t.toJson ≠ .null := by
    cases t with
    | varchar limit => cases limit <;> simp [SqlType.toJson, Json.tagged]
    | _ => simp [SqlType.toJson]
  rw [declaredOfJson?, ofJson?_toJson]
  · rfl
  · exact hnull

/-- A double that is not finite would be written as null. -/
theorem Literal.ofJson?_toJson {value : Literal}
    (h : ∀ x, value = .float x → x.isFinite = true) : ofJson? value.toJson = some value := by
  cases value with
  | int n =>
    show (int64? n.toInt).map Literal.int = _
    rw [int64?_toInt]
    rfl
  | float x =>
    rw [Literal.toJson, if_pos (h x rfl)]
    rfl
  | _ => rfl

theorem Method.ofJson?_toJson (m : Method) : ofJson? m.toJson = some m := by
  cases m with
  | datetime template => cases template <;> rfl
  | _ => rfl

theorem Json.position?_natCast {position : Nat} (h : position < 0x10000000000000000) :
    (Json.int position).position? = some position := by
  rw [Json.position?, if_pos (by omega), Int.toNat_natCast]

/-! ### Trees -/

/-- JSON can hold what a form is written with: its double is finite, and its position in a row has 64
bits. -/
structure Form.Writable (f : Form) : Prop where
  float : ∀ x, f = .literal (.float x) → x.isFinite = true
  position : ∀ position, f = .positional position → position < 0x10000000000000000

theorem Node.fields?_of_kind (form : Json) :
    fields? (.object [("kind", form)]) =
      some (⟨form, Json.sizeOf_lt_tagged "kind" form⟩, none) := by
  simp [fields?, Json.elementParts?, Json.member?, Json.uniqueIn?_cons, Json.hasMember, Entries.keys]

theorem Node.fields?_of_declared (form : Json) (type : SqlType) :
    fields? (.object [("kind", form), ("declared_type", type.toJson)]) =
      some (⟨form, Json.sizeOf_lt_object (m := ("kind", form)) List.mem_cons_self⟩, some type) := by
  simp [fields?, Json.elementParts?, Json.member?, Json.uniqueIn?_cons, Json.hasMember, Entries.keys,
    SqlType.declaredOfJson?_toJson]

section Reading

variable (style : FieldStyle)

/-- A node is read back with its declared type, or with none, once its form is. -/
theorem Node.ofJson?_mk {form : Form} (h : Form.ofJson? style form.toJson = some form)
    (declared : Option SqlType) :
    Node.ofJson? style (Node.mk form declared).toJson = some (.mk form declared) := by
  cases declared with
  | none =>
    rw [Node.toJson, Node.ofJson?, Node.fields?_of_kind]
    simp [h]
  | some type =>
    rw [Node.toJson, Node.ofJson?, Node.fields?_of_declared]
    simp [h]

theorem Subscript.ofJson?_toJson {s : Subscript}
    (hs : ∀ n ∈ s.positions, Node.ofJson? style n.toJson = some n) :
    Subscript.ofJson? style s.toJson = some s := by
  cases s with
  | index position =>
    have hposition := hs position (by simp [Subscript.positions])
    rw [Subscript.toJson, Subscript.ofJson?, Json.case?_tagged, Option.bind_eq_bind, Option.bind_some]
    simp [hposition]
  | range first final =>
    have hfirst := hs first (by simp [Subscript.positions])
    have hfinal := hs final (by simp [Subscript.positions])
    rw [Subscript.toJson, Subscript.ofJson?, Json.case?_tagged, Option.bind_eq_bind, Option.bind_some]
    simp [FieldStyle.fields?_object, Entries.keys, hfirst, hfinal]
  | last | wildcard =>
    rw [Subscript.toJson, Subscript.ofJson?, Json.case?_string, Option.bind_eq_bind, Option.bind_some]
    rfl

theorem Subscript.allOfJson?_allToJson {ss : List Subscript}
    (hss : ∀ s ∈ ss, ∀ n ∈ s.positions, Node.ofJson? style n.toJson = some n) :
    Subscript.allOfJson? style (Subscript.allToJson ss) = some ss := by
  induction ss with
  | nil => rw [Subscript.allToJson, Subscript.allOfJson?]
  | cons s ss ih =>
    obtain ⟨hs, hss⟩ := List.forall_mem_cons.mp hss
    rw [Subscript.allToJson, Subscript.allOfJson?, Subscript.ofJson?_toJson style hs, ih hss]
    rfl

/-- A tree of writable forms is read back. In each case the name of the form leads the reader to the fields
that the writer has put, and these are read back by induction. -/
theorem Node.ofJson?_toJson {n : Node} (h : ∀ f ∈ n.forms, f.Writable) :
    Node.ofJson? style n.toJson = some n := by
  induction n with
  | literal value declared =>
    have hvalue : Literal.ofJson? value.toJson = some value :=
      Literal.ofJson?_toJson fun x hx => (h _ List.mem_cons_self).float x (congrArg _ hx)
    refine Node.ofJson?_mk style ?_ declared
    rw [Form.toJson, Form.ofJson?, Json.case?_tagged, Option.bind_eq_bind, Option.bind_some]
    simp [hvalue]
  | named name declared =>
    refine Node.ofJson?_mk style ?_ declared
    rw [Form.toJson, Form.ofJson?, Json.case?_tagged, Option.bind_eq_bind, Option.bind_some]
    simp [Json.string?]
  | positional position declared =>
    have hposition := Json.position?_natCast ((h _ List.mem_cons_self).position position rfl)
    refine Node.ofJson?_mk style ?_ declared
    rw [Form.toJson, Form.ofJson?, Json.case?_tagged, Option.bind_eq_bind, Option.bind_some]
    simp [hposition]
  | context declared | current declared | last declared =>
    refine Node.ofJson?_mk style ?_ declared
    rw [Form.toJson, Form.ofJson?, Json.case?_string, Option.bind_eq_bind, Option.bind_some]
    rfl
  | member target name ih declared | descendant target name ih declared =>
    have htarget := ih (Node.forall_forms.mp h).2
    refine Node.ofJson?_mk style ?_ declared
    rw [Form.toJson, Form.ofJson?, Json.case?_tagged, Option.bind_eq_bind, Option.bind_some]
    simp [FieldStyle.fields?_object, Entries.keys, htarget, Json.string?]
  | wildcardMember target ih declared =>
    have htarget := ih (Node.forall_forms.mp h).2
    refine Node.ofJson?_mk style ?_ declared
    rw [Form.toJson, Form.ofJson?, Json.case?_tagged, Option.bind_eq_bind, Option.bind_some]
    simp [FieldStyle.fields?_object, Entries.keys, htarget]
  | method target m ih declared =>
    have htarget := ih (Node.forall_forms.mp h).2
    refine Node.ofJson?_mk style ?_ declared
    rw [Form.toJson, Form.ofJson?, Json.case?_tagged, Option.bind_eq_bind, Option.bind_some]
    simp [FieldStyle.fields?_object, Entries.keys, htarget, Method.ofJson?_toJson]
  | elements target subscripts ih ihs declared =>
    obtain ⟨htarget, hsubscripts⟩ := List.forall_mem_append.mp (Node.forall_forms.mp h).2
    rw [Subscript.forall_innerAll] at hsubscripts
    have hlist := Subscript.allOfJson?_allToJson style fun s hs n hn =>
      ihs s hs n hn (hsubscripts s hs n hn)
    refine Node.ofJson?_mk style ?_ declared
    rw [Form.toJson, Form.ofJson?, Json.case?_tagged, Option.bind_eq_bind, Option.bind_some]
    simp [FieldStyle.fields?_object, Entries.keys, ih htarget, Json.elements?, hlist]
  | unary sign operand ih declared =>
    have hoperand := ih (Node.forall_forms.mp h).2
    refine Node.ofJson?_mk style ?_ declared
    rw [Form.toJson, Form.ofJson?, Json.case?_tagged, Option.bind_eq_bind, Option.bind_some]
    simp [FieldStyle.fields?_object, Entries.keys, hoperand, Sign.ofJson?_tag]
  | negation operand ih declared | existence operand ih declared | isUnknown operand ih declared =>
    have hoperand := ih (Node.forall_forms.mp h).2
    refine Node.ofJson?_mk style ?_ declared
    rw [Form.toJson, Form.ofJson?, Json.case?_tagged, Option.bind_eq_bind, Option.bind_some]
    simp [hoperand]
  | binary op left right ihl ihr declared =>
    obtain ⟨hleft, hright⟩ := List.forall_mem_append.mp (Node.forall_forms.mp h).2
    refine Node.ofJson?_mk style ?_ declared
    rw [Form.toJson, Form.ofJson?, Json.case?_tagged, Option.bind_eq_bind, Option.bind_some]
    simp [FieldStyle.fields?_object, Entries.keys, ihl hleft, ihr hright, ArithmeticOp.ofJson?_tag]
  | comparison op left right ihl ihr declared =>
    obtain ⟨hleft, hright⟩ := List.forall_mem_append.mp (Node.forall_forms.mp h).2
    refine Node.ofJson?_mk style ?_ declared
    rw [Form.toJson, Form.ofJson?, Json.case?_tagged, Option.bind_eq_bind, Option.bind_some]
    simp [FieldStyle.fields?_object, Entries.keys, ihl hleft, ihr hright, ComparisonOp.ofJson?_tag]
  | filter left right ihl ihr declared | conjunction left right ihl ihr declared
  | disjunction left right ihl ihr declared | startsWith left right ihl ihr declared =>
    obtain ⟨hleft, hright⟩ := List.forall_mem_append.mp (Node.forall_forms.mp h).2
    refine Node.ofJson?_mk style ?_ declared
    rw [Form.toJson, Form.ofJson?, Json.case?_tagged, Option.bind_eq_bind, Option.bind_some]
    simp [FieldStyle.fields?_object, Entries.keys, ihl hleft, ihr hright]

end Reading

/-- **Reading undoes writing.** A tree whose doubles are finite and whose positions have 64 bits is the
tree that its JSON value describes, with all the types that its nodes declare, whether or not the reader
also takes listed fields. -/
theorem Node.exchange_round_trip {n : Node}
    (hfloat : ∀ x, .literal (.float x) ∈ n.forms → x.isFinite = true)
    (hposition : ∀ position, .positional position ∈ n.forms → position < 0x10000000000000000)
    (style : FieldStyle) : Node.ofJson? style n.toJson = some n := by
  refine Node.ofJson?_toJson style fun f hf => ⟨fun x hx => hfloat x ?_, fun position hp => ?_⟩
  · rwa [← hx]
  · refine hposition position ?_
    rwa [← hp]

/-- A negative zero, the last position, a template, empty content and declared types, some of them inside
subscripts. -/
theorem Node.exchange_round_trip_of_nested_types :
    let position := (arithmetic .subtract last (literal (.float (.zero true)))).withDeclared .bigInt
    let target := subscripted [.index position, .range (positional 0xffffffffffffffff) last, .wildcard]
      (member "a" (context.withDeclared (.varchar none)))
    let tree := (filter (method (.datetime (some "%Y")) target) (negated (nonempty (method .keyValue
      (current.withDeclared (.varchar (some 3))))))).withDeclared .date
    (∀ x, .literal (.float x) ∈ tree.forms → x.isFinite = true) ∧
      (∀ position, .positional position ∈ tree.forms → position < 0x10000000000000000) ∧
      Node.ofJson? .namedOnly tree.toJson = some tree ∧
      Node.ofJson? .namedOrListed tree.toJson = some tree := by
  intro position target tree
  have hfloat : ∀ x, .literal (.float x) ∈ tree.forms → x.isFinite = true := by
    intro x hx
    have hzero : x = .zero true := by
      simpa [tree, target, position, Node.forms, Form.inner, Subscript.innerAll, Subscript.inner,
        arithmetic, filter, method, negated, nonempty, subscripted, member, current, last, context,
        Node.positional, literal, ofForm, withDeclared, Node.form] using hx
    rw [hzero]
    rfl
  have hposition : ∀ position, .positional position ∈ tree.forms → position < 0x10000000000000000 := by
    intro i hi
    have hlast : i = 0xffffffffffffffff := by
      simpa [tree, target, position, Node.forms, Form.inner, Subscript.innerAll, Subscript.inner,
        arithmetic, filter, method, negated, nonempty, subscripted, member, current, last, context,
        Node.positional, literal, ofForm, withDeclared, Node.form] using hi
    omega
  exact ⟨hfloat, hposition, Node.exchange_round_trip hfloat hposition .namedOnly,
    Node.exchange_round_trip hfloat hposition .namedOrListed⟩

end PathQuery
