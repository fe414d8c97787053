import PathQuery.Item.Basic

/-!
# Parts of items

Arrays and objects are made of items, which are made of items in turn. This file provides induction over
items and the relation between an item and all that it is made of.

* `Item.induction` — the elements of an array and the member values of an object may be assumed to have
  the property.
* `Item.PartOf` — an item is another or lies in it at some depth; parts of parts are parts.
* `Item.hasFailure_iff` — the search for failed conversions finds one exactly if it is a part;
  `Item.Clean` holds of the items without any.
-/

namespace PathQuery.Item

/-- **Induction over items.** -/
@[elab_as_elim, induction_eliminator]
theorem induction {motive : Item → Prop}
    (null : motive .null)
    (boolean : ∀ b, motive (.boolean b))
    (number : ∀ n, motive (.number n))
    (string : ∀ s, motive (.string s))
    (datetime : ∀ d, motive (.datetime d))
    (array : ∀ elements, (∀ x ∈ elements, motive x) → motive (.array elements))
    (object : ∀ members, (∀ m ∈ members, motive m.2) → motive (.object members))
    (failure : motive .failure)
    (x : Item) : motive x :=
  @Item.rec motive (fun elements => ∀ x ∈ elements, motive x) (fun members => ∀ m ∈ members, motive m.2)
    (fun m => motive m.2) null boolean number string datetime array object failure
    (List.forall_mem_nil _) (fun _ _ hx hxs => List.forall_mem_cons.mpr ⟨hx, hxs⟩)
    (List.forall_mem_nil _) (fun _ _ hm hms => List.forall_mem_cons.mpr ⟨hm, hms⟩)
    (fun _ _ h => h) x

/-- An item is another one, or a part of one of its elements or member values. -/
inductive PartOf (part : Item) : Item → Prop
  | self : PartOf part part
  | element {elements : List Item} {x : Item} :
      x ∈ elements → PartOf part x → PartOf part (.array elements)
  | member {members : List (String × Item)} {m : String × Item} :
      m ∈ members → PartOf part m.2 → PartOf part (.object members)

theorem PartOf.trans {x y z : Item} (h : PartOf x y) (h' : PartOf y z) : PartOf x z := by
  induction h' with
  | self => exact h
  | element hmem _ ih => exact .element hmem ih
  | member hmem _ ih => exact .member hmem ih

theorem partOf_array_iff {part : Item} {elements : List Item} :
    PartOf part (.array elements) ↔ part = .array elements ∨ ∃ x ∈ elements, PartOf part x := by
  constructor
  · intro h
    cases h with
    | self => exact Or.inl rfl
    | element hx hpart => exact Or.inr ⟨_, hx, hpart⟩
  · rintro (rfl | ⟨x, hx, hpart⟩)
    · exact .self
    · exact .element hx hpart

theorem partOf_object_iff {part : Item} {members : List (String × Item)} :
    PartOf part (.object members) ↔ part = .object members ∨ ∃ m ∈ members, PartOf part m.2 := by
  constructor
  · intro h
    cases h with
    | self => exact Or.inl rfl
    | member hm hpart => exact Or.inr ⟨_, hm, hpart⟩
  · rintro (rfl | ⟨m, hm, hpart⟩)
    · exact .self
    · exact .member hm hpart

/-- An item that is no array and no object has no part but itself. -/
theorem partOf_scalar_iff {part x : Item} (harray : ∀ elements, x ≠ .array elements)
    (hobject : ∀ members, x ≠ .object members) : PartOf part x ↔ part = x := by
  refine ⟨fun h => ?_, fun h => h ▸ .self⟩
  cases h with
  | self => rfl
  | element => exact absurd rfl (harray _)
  | member => exact absurd rfl (hobject _)

theorem toJsonElements_eq_map (elements : List Item) :
    toJsonElements elements = elements.map toJson := by
  induction elements with
  | nil => rfl
  | cons x xs ih => rw [toJsonElements, ih, List.map_cons]

/-! ### Failed conversions -/

theorem anyFailure_eq_any (elements : List Item) : anyFailure elements = elements.any hasFailure := by
  induction elements with
  | nil => rfl
  | cons x xs ih => rw [anyFailure, ih, List.any_cons]

theorem anyMemberFailure_eq_any (members : List (String × Item)) :
    anyMemberFailure members = members.any fun m => m.2.hasFailure := by
  induction members with
  | nil => rfl
  | cons m ms ih => rw [anyMemberFailure, ih, List.any_cons]

/-- An item has a failed conversion in it exactly if one is a part of it. -/
theorem hasFailure_iff (x : Item) : x.hasFailure = true ↔ PartOf .failure x := by
  induction x with
  | array elements ih =>
    rw [hasFailure, anyFailure_eq_any, List.any_eq_true]
    constructor
    · rintro ⟨x, hx, hfailure⟩
      exact .element hx ((ih x hx).mp hfailure)
    · intro h
      cases h with
      | element hx hpart => exact ⟨_, hx, (ih _ hx).mpr hpart⟩
  | object members ih =>
    rw [hasFailure, anyMemberFailure_eq_any, List.any_eq_true]
    constructor
    · rintro ⟨m, hm, hfailure⟩
      exact .member hm ((ih m hm).mp hfailure)
    · intro h
      cases h with
      | member hm hpart => exact ⟨_, hm, (ih _ hm).mpr hpart⟩
  | failure => exact ⟨fun _ => .self, fun _ => rfl⟩
  | _ =>
    constructor
    · intro h
      cases h
    · intro h
      cases h

/-- No failed conversion is a part of an item. -/
def Clean (x : Item) : Prop :=
  ¬ PartOf .failure x

theorem clean_iff (x : Item) : x.Clean ↔ x.hasFailure = false := by
  rw [Clean, ← hasFailure_iff, Bool.not_eq_true]

end PathQuery.Item
