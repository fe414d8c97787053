import PathQuery.Proofs.Eval.Distribution
import PathQuery.Proofs.Eval.Preservation
import PathQuery.Proofs.Item.Members

/-!
# Entries and members

`keyvalue` makes an entry of each member of the objects of its target. The entries say no less and no more
than the objects do: their values are what the wildcard accessor finds, in the same order, and the id and
the key of an entry together lead back to its member.

* `Item.Distinct` — the keys of every object differ; evaluation keeps it.
* `PlacedMember` — a member with the position of its object; `Sequence.placedMembers` has those of all
  objects and `Sequence.placedMembers_pairwise` says that position and key tell them apart.
* `Sequence.keyValues_eq` — entries are made of these members, one of each.
* `Node.keyValue_faithful` — what the entries of a node say.
-/

namespace PathQuery

/-! ### Keys that differ -/

/-- In each object that is a part of an item the keys differ, as the keys of a map do. -/
def Item.Distinct (x : Item) : Prop :=
  ∀ members, PartOf (.object members) x → (Entries.keys members).Nodup

theorem Item.distinct_array_iff {elements : List Item} :
    (Item.array elements).Distinct ↔ ∀ x ∈ elements, x.Distinct := by
  constructor
  · exact fun h x hx members hpart => h members (.element hx hpart)
  · intro h members hpart
    cases hpart with
    | element hx hpart => exact h _ hx members hpart

theorem Item.distinct_object_iff {members : List (String × Item)} :
    (Item.object members).Distinct ↔
      (Entries.keys members).Nodup ∧ ∀ m ∈ members, m.2.Distinct := by
  constructor
  · exact fun h => ⟨h members .self, fun m hm inner hpart => h inner (.member hm hpart)⟩
  · rintro ⟨hkeys, hvalues⟩ inner hpart
    cases hpart with
    | self => exact hkeys
    | member hm hpart => exact hvalues _ hm inner hpart

/-- All steps keep keys apart, and so do the three keys of an entry. -/
theorem Item.distinct_kept : Item.Kept Item.Distinct where
  element h := Item.distinct_array_iff.mp h
  member h := (Item.distinct_object_iff.mp h).2
  null _ h := nomatch h
  boolean _ _ h := nomatch h
  string _ _ h := nomatch h
  datetime _ _ h := nomatch h
  int _ _ h := nomatch h
  float _ _ _ h := nomatch h
  neg _ _ h := nomatch h
  ceil _ _ h := nomatch h
  floor _ _ h := nomatch h
  abs _ _ h := nomatch h
  entry key id hvalue := by
    have hkeys : ["key", "value", "id"].Nodup := by decide
    refine Item.distinct_object_iff.mpr ⟨hkeys, fun m hm => ?_⟩
    simp only [List.mem_cons, List.not_mem_nil, or_false] at hm
    rcases hm with rfl | rfl | rfl
    · exact fun _ h => nomatch h
    · exact hvalue
    · exact fun _ h => nomatch h

theorem Literal.item_distinct (value : Literal) : value.item.Distinct := by
  cases value <;> exact fun _ h => nomatch h

/-! ### Members of several objects -/

/-- The members of an object. -/
def Item.members : Item → List (String × Item)
  | .object members => members
  | _ => []

/-- A member of one of several objects, with the position of the object. -/
structure PlacedMember where
  position : Nat
  key : String
  value : Item

/-- What `keyvalue` makes of a member. -/
def PlacedMember.entry (m : PlacedMember) : Item :=
  .object [("key", .string m.key), ("value", m.value), ("id", .int (.ofNat m.position))]

/-- The members of all objects of a sequence in order, where its items are numbered from `i` on. -/
def Sequence.placedMembers (i : Nat) (s : Sequence) : List PlacedMember :=
  (s.zipIdx i).flatMap fun p => p.1.members.map fun m => ⟨p.2, m.1, m.2⟩

theorem Sequence.placedMembers_cons (i : Nat) (x : Item) (s : Sequence) :
    placedMembers i (x :: s) =
      (x.members.map fun m => ⟨i, m.1, m.2⟩) ++ placedMembers (i + 1) s := by
  rw [placedMembers, List.zipIdx_cons, List.flatMap_cons]
  rfl

theorem Sequence.map_value_placedMembers (i : Nat) (s : Sequence) :
    (s.placedMembers i).map PlacedMember.value = s.flatMap fun x => x.members.map Prod.snd := by
  induction s generalizing i with
  | nil => rfl
  | cons x s ih =>
    rw [placedMembers_cons, List.map_append, ih, List.map_map, List.flatMap_cons]
    rfl

/-- The position of a member is that of its object. -/
theorem Sequence.mem_placedMembers {s : Sequence} {m : PlacedMember} (h : m ∈ s.placedMembers 0) :
    ∃ members, s[m.position]? = some (.object members) ∧ (m.key, m.value) ∈ members := by
  obtain ⟨⟨x, i⟩, hx, hm⟩ := List.mem_flatMap.mp h
  obtain ⟨member, hmember, rfl⟩ := List.mem_map.mp hm
  cases x with
  | object members => exact ⟨members, List.mk_mem_zipIdx_iff_getElem?.mp hx, hmember⟩
  | _ => cases hmember

/-- **Position and key tell members apart.** In one object the keys differ, and between two objects the
positions. -/
theorem Sequence.placedMembers_pairwise {s : Sequence} (hs : s.Each Item.Distinct) (i : Nat) :
    (s.placedMembers i).Pairwise fun m m' => ¬ (m.position = m'.position ∧ m.key = m'.key) := by
  refine Item.pairwise_flatMap_zipIdx (fun p hp => ?_) ?_
  · have hkeys : (Entries.keys p.1.members).Nodup := by
      cases hx : p.1 with
      | object members => exact hs _ hp members (hx ▸ .self)
      | _ => exact List.nodup_nil
    refine List.pairwise_map.mpr ((List.pairwise_map.mp hkeys).imp ?_)
    exact fun hne hshared => hne hshared.2
  · intro p q hlt m hm m' hm' hshared
    obtain ⟨member, -, rfl⟩ := List.mem_map.mp hm
    obtain ⟨member', -, rfl⟩ := List.mem_map.mp hm'
    exact Nat.ne_of_lt hlt hshared.1

/-! ### Entries -/

/-- Entries are made of objects alone, one of each member. -/
theorem Sequence.keyValues_eq {i : Nat} {s entries : Sequence} (h : s.keyValues i = .ok entries) :
    (∀ x ∈ s, ∃ members, x = .object members) ∧
      entries = (s.placedMembers i).map PlacedMember.entry := by
  -- The number of the next object grows with each item.
  induction s generalizing i entries with
  | nil =>
    cases h
    exact ⟨List.forall_mem_nil _, rfl⟩
  | cons x s ih =>
    cases x with
    | object members =>
      simp only [keyValues, Item.keyValues] at h
      cases hrest : Sequence.keyValues (i + 1) s with
      | error e =>
        rw [hrest] at h
        cases h
      | ok rest =>
        rw [hrest] at h
        cases h
        obtain ⟨hobjects, rfl⟩ := ih hrest
        refine ⟨List.forall_mem_cons.mpr ⟨⟨members, rfl⟩, hobjects⟩, ?_⟩
        rw [placedMembers_cons, List.map_append, List.map_map]
        rfl
    | _ => cases h

/-- Where a step succeeds on each item, its results are joined. -/
theorem Sequence.collect_map_eq_ok {α ε : Type} {step : Item → Except ε Sequence} {f : α → Item}
    {g : α → Sequence} {as : List α} (h : ∀ a ∈ as, step (f a) = .ok (g a)) :
    Sequence.collect step (as.map f) = .ok (as.flatMap g) := by
  induction as with
  | nil => rfl
  | cons a as ih =>
    obtain ⟨ha, has⟩ := List.forall_mem_cons.mp h
    rw [List.map_cons, List.flatMap_cons, collect_cons_joined, ha, ih has]
    rfl

/-- The wildcard accessor finds the values of all members. -/
theorem Sequence.wildcardMember_of_objects {mode : Mode} {s : Sequence}
    (h : ∀ x ∈ s.unwrap mode, ∃ members, x = .object members) :
    s.wildcardMember mode = .ok (((s.unwrap mode).placedMembers 0).map PlacedMember.value) := by
  have hstep : ∀ x ∈ s.unwrap mode, x.wildcardMember mode = .ok (x.members.map Prod.snd) := by
    intro x hx
    obtain ⟨members, rfl⟩ := h x hx
    rfl
  have hcollect := Sequence.collect_map_eq_ok (f := id) hstep
  rw [List.map_id] at hcollect
  rw [Sequence.wildcardMember, hcollect, map_value_placedMembers]

/-- A member that all entries have is read from each of them: entries are no arrays, so that none is
unwrapped. -/
theorem Sequence.member_entries {mode : Mode} {name : String} {f : PlacedMember → Item}
    (hf : ∀ m : PlacedMember, m.entry.member mode name = .ok [f m]) (found : List PlacedMember) :
    Sequence.member mode name (found.map PlacedMember.entry) = .ok (found.map f) := by
  have hflat : ∀ x ∈ found.map PlacedMember.entry, x.isArray = false := by
    intro x hx
    obtain ⟨m, -, rfl⟩ := List.mem_map.mp hx
    rfl
  rw [Sequence.member, Sequence.unwrap_eq_self hflat,
    Sequence.collect_map_eq_ok (g := fun m => [f m]) fun m _ => hf m, List.map_eq_flatMap]

/-- Two objects have the same value for a member. -/
def Item.Shares (name : String) (x y : Item) : Prop :=
  ∃ value, x.member .strict name = .ok [value] ∧ y.member .strict name = .ok [value]

theorem Item.Shares.eq {name : String} {x y a b : Item} (h : x.Shares name y)
    (hx : x.member .strict name = .ok [a]) (hy : y.member .strict name = .ok [b]) : a = b := by
  obtain ⟨value, hvalue, hvalue'⟩ := h
  rw [hvalue] at hx
  rw [hvalue'] at hy
  cases hx
  cases hy
  rfl

/-- Where positions are integers of 64 bits, no two entries share the id and the key. -/
theorem Sequence.entries_pairwise {found : List PlacedMember}
    (hpositions : ∀ m ∈ found, (Int64.ofNat m.position).toInt = m.position)
    (hfound : found.Pairwise fun m m' => ¬ (m.position = m'.position ∧ m.key = m'.key)) :
    (found.map PlacedMember.entry).Pairwise fun e e' =>
      ¬ (e.Shares "id" e' ∧ e.Shares "key" e') := by
  refine List.pairwise_map.mpr (hfound.imp_of_mem fun {m m'} hm hm' hdiffer => ?_)
  rintro ⟨hid, hkey⟩
  have hids : Item.int (.ofNat m.position) = .int (.ofNat m'.position) := hid.eq rfl rfl
  have hkeys : Item.string m.key = .string m'.key := hkey.eq rfl rfl
  refine hdiffer ⟨?_, Item.string.inj hkeys⟩
  -- Ids are cut to 64 bits, so that equal ids come of equal positions only where nothing is cut off.
  have hnumbers : Int64.ofNat m.position = Int64.ofNat m'.position :=
    Number.int.inj (Item.number.inj hids)
  have htoInt := congrArg Int64.toInt hnumbers
  rw [hpositions m hm, hpositions m' hm'] at htoInt
  exact Int.ofNat.inj htoInt

/-! ### Nodes -/

section Nodes

variable {target : Node} {scope : Scope} {s entries : Sequence}

theorem Node.eval_keyValue_eq_ok (h : (method .keyValue target).eval scope = .ok entries) :
    ∃ s, target.eval scope = .ok s ∧ (∀ x ∈ s.unwrap scope.mode, ∃ members, x = .object members) ∧
      entries = ((s.unwrap scope.mode).placedMembers 0).map PlacedMember.entry := by
  have hnode : (method .keyValue target).eval scope =
      target.eval scope >>= (Step.method .keyValue).apply scope :=
    (Step.method .keyValue).eval_form target none scope
  rw [hnode] at h
  cases htarget : target.eval scope with
  | error e =>
    rw [htarget] at h
    cases h
  | ok s =>
    rw [htarget] at h
    exact ⟨s, rfl, Sequence.keyValues_eq h⟩

/-- What is read of the entries of a node. -/
theorem Node.eval_member_entries {found : List PlacedMember} {name : String} {f : PlacedMember → Item}
    (h : (method .keyValue target).eval scope = .ok (found.map PlacedMember.entry))
    (hf : ∀ m : PlacedMember, m.entry.member scope.mode name = .ok [f m]) :
    (member name (method .keyValue target)).eval scope = .ok (found.map f) := by
  have hnode : (member name (method .keyValue target)).eval scope =
      (Step.member name).apply scope (found.map PlacedMember.entry) :=
    (Step.member name).eval_form_of_ok h none
  exact hnode.trans (Sequence.member_entries hf found)

theorem Node.eval_wildcardMember_of_objects (htarget : target.eval scope = .ok s)
    (h : ∀ x ∈ s.unwrap scope.mode, ∃ members, x = .object members) :
    (wildcardMember target).eval scope =
      .ok (((s.unwrap scope.mode).placedMembers 0).map PlacedMember.value) := by
  have hnode : (wildcardMember target).eval scope = Step.wildcardMember.apply scope s :=
    Step.wildcardMember.eval_form_of_ok htarget none
  exact hnode.trans (Sequence.wildcardMember_of_objects h)

theorem Node.unwrap_distinct (hscope : scope.Each Item.Distinct) (htarget : target.eval scope = .ok s) :
    (s.unwrap scope.mode).Each Item.Distinct := by
  have hliterals : ∀ f ∈ target.forms, f.LiteralIn Item.Distinct :=
    fun _ _ value _ => value.item_distinct
  exact Sequence.unwrap_each Item.distinct_kept.toHereditary scope.mode
    (Node.eval_each Item.distinct_kept target hliterals hscope s htarget)

/-- **`keyvalue` is faithful.** Where it succeeds, its target has a sequence that is made of objects when
arrays are unwrapped as the mode asks. There is an entry for each of their members, in order. The values of
the entries are what the wildcard accessor finds, their keys are those of the members, and their ids the
positions of the objects of the members. No two entries share both id and key, since the keys of an object
differ. A sequence in memory is not longer than there are positions of 64 bits. -/
theorem Node.keyValue_faithful
    (hentries : (method .keyValue target).eval scope = .ok entries)
    (hscope : scope.Each Item.Distinct)
    (hcount : ∀ s, target.eval scope = .ok s →
      (s.unwrap scope.mode).length ≤ 0x8000000000000000) :
    ∃ s, target.eval scope = .ok s ∧
      let objects := s.unwrap scope.mode
      let found := objects.placedMembers 0
      entries = found.map PlacedMember.entry ∧
      (member "value" (method .keyValue target)).eval scope = (wildcardMember target).eval scope ∧
      (wildcardMember target).eval scope = .ok (found.map PlacedMember.value) ∧
      (member "key" (method .keyValue target)).eval scope = .ok (found.map fun m => .string m.key) ∧
      (member "id" (method .keyValue target)).eval scope =
        .ok (found.map fun m => .int (.ofNat m.position)) ∧
      (∀ m ∈ found, (Int64.ofNat m.position).toInt = m.position ∧
        ∃ members, objects[m.position]? = some (.object members) ∧ (m.key, m.value) ∈ members) ∧
      entries.Pairwise fun e e' => ¬ (e.Shares "id" e' ∧ e.Shares "key" e') := by
  obtain ⟨s, htarget, hobjects, rfl⟩ := Node.eval_keyValue_eq_ok hentries
  have hwildcard := Node.eval_wildcardMember_of_objects htarget hobjects
  have hplaced : ∀ m ∈ (s.unwrap scope.mode).placedMembers 0,
      (Int64.ofNat m.position).toInt = m.position ∧ ∃ members,
        (s.unwrap scope.mode)[m.position]? = some (.object members) ∧ (m.key, m.value) ∈ members := by
    intro m hm
    obtain ⟨members, hobject, hmember⟩ := Sequence.mem_placedMembers hm
    have hlt : m.position < 0x8000000000000000 :=
      Nat.lt_of_lt_of_le (List.getElem?_eq_some_iff.mp hobject).1 (hcount s htarget)
    exact ⟨Int64.toInt_ofNat_of_lt hlt, members, hobject, hmember⟩
  refine ⟨s, htarget, rfl, ?_, hwildcard, ?_, ?_, hplaced, ?_⟩
  · exact (Node.eval_member_entries hentries fun _ => rfl).trans hwildcard.symm
  · exact Node.eval_member_entries hentries fun _ => rfl
  · exact Node.eval_member_entries hentries fun _ => rfl
  · have hdistinct := Node.unwrap_distinct hscope htarget
    exact Sequence.entries_pairwise (fun m hm => (hplaced m hm).1)
      (Sequence.placedMembers_pairwise hdistinct 0)

end Nodes

/-- Two objects of an array with a key in common, and one without members between them. -/
theorem Node.keyValue_faithful_of_common_keys :
    let x := Item.array [.object [("a", .int 1), ("b", .array [.int 2])], .object [], .object [("a", .int 1)]]
    let scope := Scope.initial .lax .null (Bindings.empty.insert "x" x)
    let entry := fun (key : String) (value : Item) (id : Int64) =>
      Item.object [("key", .string key), ("value", value), ("id", .int id)]
    let entries := [entry "a" (.int 1) 0, entry "b" (.array [.int 2]) 0, entry "a" (.int 1) 2]
    (method .keyValue (named "x")).eval scope = .ok entries ∧ scope.Each Item.Distinct ∧
      (member "value" (method .keyValue (named "x"))).eval scope =
        (wildcardMember (named "x")).eval scope ∧
      entries.Pairwise fun e e' => ¬ (e.Shares "id" e' ∧ e.Shares "key" e') := by
  intro x scope entry entries
  have hentries : (method .keyValue (named "x")).eval scope = .ok entries := rfl
  have hscalar : ∀ n : Int64, (Item.int n).Distinct := fun n => Item.distinct_kept.int n
  have hx : x.Distinct := by
    simp [x, Item.distinct_array_iff, Item.distinct_object_iff, Entries.keys, hscalar]
  have hscope : scope.Each Item.Distinct :=
    { root := Item.distinct_kept.null
      current := fun _ h => nomatch h
      bindings := List.forall_mem_singleton.mpr hx }
  obtain ⟨s, -, -, hvalues, -, -, -, -, hdiffer⟩ := Node.keyValue_faithful hentries hscope (by
    intro s hs
    cases hs
    decide)
  exact ⟨hentries, hscope, hvalues, hdiffer⟩

end PathQuery
