import PathQuery.Proofs.Eval.Distribution
import PathQuery.Proofs.Item.Members

/-!
# Members of a name at any depth

The descendant step looks for the members of one name. It finds what is left of all members of an item, in
the order of the document, when those of other names are passed over. A member that is found does not hide
the members inside its value.

* `Occurrence.valuesOf` — the values of the members of a name.
* `Item.descendants_eq` — what is found in one item.
* `Step.descendant_in_document_order` — what the step finds in a sequence of items, in both modes.
-/

namespace PathQuery

namespace Occurrence

variable (name : String)

/-- The values of the members of a name, among several members. -/
def valuesOf (os : List Occurrence) : List Item :=
  (os.filter fun o => o.key = name).map Occurrence.value

theorem valuesOf_append (os os' : List Occurrence) :
    valuesOf name (os ++ os') = valuesOf name os ++ valuesOf name os' := by
  simp only [valuesOf, List.filter_append, List.map_append]

theorem valuesOf_cons (o : Occurrence) (os : List Occurrence) :
    valuesOf name (o :: os) = (if o.key = name then [o.value] else []) ++ valuesOf name os := by
  rw [valuesOf, List.filter_cons]
  by_cases h : o.key = name
  · rw [if_pos (decide_eq_true h), if_pos h]
    rfl
  · rw [if_neg (by simpa using h), if_neg h]
    rfl

/-- Where a member occurs does not matter for its name and its value. -/
theorem valuesOf_inPart (i : Nat) (os : List Occurrence) :
    valuesOf name (os.map (.inPart i)) = valuesOf name os := by
  rw [valuesOf, List.filter_map, List.map_map]
  rfl

end Occurrence

/-! ### One item -/

section Item

variable {name : String}

theorem Item.elementDescendants_eq {elements : List Item}
    (h : ∀ x ∈ elements, x.descendants name = Occurrence.valuesOf name x.occurrences) (i : Nat) :
    Item.elementDescendants name elements =
      Occurrence.valuesOf name (Item.elementOccurrences i elements) := by
  induction elements generalizing i with
  | nil => rfl
  | cons x xs ih =>
    obtain ⟨hx, hxs⟩ := List.forall_mem_cons.mp h
    rw [Item.elementDescendants, Item.elementOccurrences, Occurrence.valuesOf_append,
      Occurrence.valuesOf_inPart, hx, ih hxs]

theorem Item.memberDescendants_eq {members : List (String × Item)}
    (h : ∀ m ∈ members, m.2.descendants name = Occurrence.valuesOf name m.2.occurrences) (i : Nat) :
    Item.memberDescendants name members =
      Occurrence.valuesOf name (Item.memberOccurrences i members) := by
  induction members generalizing i with
  | nil => rfl
  | cons m ms ih =>
    obtain ⟨hm, hms⟩ := List.forall_mem_cons.mp h
    rw [Item.memberDescendants, Item.memberOccurrences, Occurrence.valuesOf_append,
      Occurrence.valuesOf_cons, Occurrence.valuesOf_inPart, hm, ih hms]

/-- **The members of a name are found among all members.** -/
theorem Item.descendants_eq (name : String) (x : Item) :
    x.descendants name = Occurrence.valuesOf name x.occurrences := by
  induction x with
  | array elements ih => exact Item.elementDescendants_eq ih 0
  | object members ih => exact Item.memberDescendants_eq ih 0
  | _ => rfl

end Item

theorem Sequence.descendants_eq (name : String) (s : Sequence) :
    s.descendants name = s.flatMap fun x => Occurrence.valuesOf name x.occurrences :=
  congrArg (s.flatMap ·) (funext fun x => x.descendants_eq name)

/-! ### Sequences -/

/-- **Descendants come in the order of the document.** The step never fails, in neither mode, so that a node
with it fails only where its target does. From each item in turn it takes the values of those members,
of all that occur at any depth, that have the name. A member that occurs is listed at exactly one place,
inside the value of another one of the name or not, and each before those that come later in the document:
before the members inside its value and before all in parts further to the right. -/
theorem Step.descendant_in_document_order (scope : Scope) (name : String) :
    (∀ s : Sequence, (Step.descendant name).apply scope s =
      .ok (s.flatMap fun x => Occurrence.valuesOf name x.occurrences)) ∧
    (∀ (target : Node) (declared : Option SqlType),
      (Node.mk (.descendant target name) declared).eval scope =
        (target.eval scope).map fun s => s.flatMap fun x => Occurrence.valuesOf name x.occurrences) ∧
    ∀ x : Item, (∀ o, x.Has o ↔ ∃! i : Nat, x.occurrences[i]? = some o) ∧
      x.occurrences.Pairwise Occurrence.Before := by
  have hstep : ∀ s : Sequence, (Step.descendant name).apply scope s =
      .ok (s.flatMap fun x => Occurrence.valuesOf name x.occurrences) :=
    fun s => congrArg Except.ok (s.descendants_eq name)
  refine ⟨hstep, fun target declared => ?_, fun x => ⟨fun _ => Item.has_iff_existsUnique, ?_⟩⟩
  · have hnode := (Step.descendant name).eval_form target declared scope
    refine hnode.trans ?_
    cases target.eval scope with
    | error e => rfl
    | ok s => exact hstep s
  · exact x.occurrences_sorted

/-- A member inside the value of another one of the name comes after it, and before one further right. -/
example :
    let inner := Item.object [("id", .int 3)]
    let x := Item.object [("a", .array [.object [("id", inner)], .null]), ("id", .int 4)]
    x.descendants "id" = [inner, .int 3, .int 4] ∧
      x.occurrences.map Occurrence.location = [[0], [0, 0, 0], [0, 0, 0, 0], [1]] :=
  ⟨rfl, rfl⟩

end PathQuery
