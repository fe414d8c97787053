import PathQuery.Proofs.Double.Rounding
import PathQuery.Proofs.Item.Parts

/-!
# Parts of JSON values

A JSON value is made of values as an item is made of items, and the two conversions take the parts of one
to the parts of the other.

* `Json.induction` and `Json.PartOf` — induction over values, and the values that a value is made of.
* `Json.InRange` — the numbers of a value are those that the format has.
* `Item.PartOf.toJson` and `Item.exists_part_of_ofJson` — parts under the conversions.
* `Item.finite_ofJson` — the items of such values have finite numbers only.
-/

namespace PathQuery

namespace Json

/-- **Induction over JSON values.** -/
@[elab_as_elim, induction_eliminator]
theorem induction {motive : Json → Prop}
    (null : motive .null)
    (bool : ∀ b, motive (.bool b))
    (int : ∀ n, motive (.int n))
    (float : ∀ x, motive (.float x))
    (string : ∀ s, motive (.string s))
    (array : ∀ elements, (∀ v ∈ elements, motive v) → motive (.array elements))
    (object : ∀ members, (∀ m ∈ members, motive m.2) → motive (.object members))
    (v : Json) : motive v :=
  @Json.rec motive (fun elements => ∀ v ∈ elements, motive v) (fun members => ∀ m ∈ members, motive m.2)
    (fun m => motive m.2) null bool int float string array object
    (List.forall_mem_nil _) (fun _ _ hv hvs => List.forall_mem_cons.mpr ⟨hv, hvs⟩)
    (List.forall_mem_nil _) (fun _ _ hm hms => List.forall_mem_cons.mpr ⟨hm, hms⟩)
    (fun _ _ h => h) v

/-- A value is another one, or a part of one of its elements or member values. -/
inductive PartOf (part : Json) : Json → Prop
  | self : PartOf part part
  | element {elements : List Json} {v : Json} :
      v ∈ elements → PartOf part v → PartOf part (.array elements)
  | member {members : List (String × Json)} {m : String × Json} :
      m ∈ members → PartOf part m.2 → PartOf part (.object members)

theorem PartOf.trans {u v w : Json} (h : PartOf u v) (h' : PartOf v w) : PartOf u w := by
  induction h' with
  | self => exact h
  | element hmem _ ih => exact .element hmem ih
  | member hmem _ ih => exact .member hmem ih

theorem partOf_array_iff {part : Json} {elements : List Json} :
    PartOf part (.array elements) ↔ part = .array elements ∨ ∃ v ∈ elements, PartOf part v := by
  constructor
  · intro h
    cases h with
    | self => exact Or.inl rfl
    | element hv hpart => exact Or.inr ⟨_, hv, hpart⟩
  · rintro (rfl | ⟨v, hv, hpart⟩)
    · exact .self
    · exact .element hv hpart

theorem partOf_object_iff {part : Json} {members : List (String × Json)} :
    PartOf part (.object members) ↔ part = .object members ∨ ∃ m ∈ members, PartOf part m.2 := by
  constructor
  · intro h
    cases h with
    | self => exact Or.inl rfl
    | member hm hpart => exact Or.inr ⟨_, hm, hpart⟩
  · rintro (rfl | ⟨m, hm, hpart⟩)
    · exact .self
    · exact .member hm hpart

/-- A scalar has no part but itself. -/
theorem partOf_scalar_iff {part v : Json} (harray : ∀ elements, v ≠ .array elements)
    (hobject : ∀ members, v ≠ .object members) : PartOf part v ↔ part = v := by
  refine ⟨fun h => ?_, fun h => h ▸ .self⟩
  cases h with
  | self => rfl
  | element => exact absurd rfl (harray _)
  | member => exact absurd rfl (hobject _)

/-! ### Numbers of the format -/

/-- Every integer of a value is one of 64 bits, with or without a sign, and every double is finite. -/
structure InRange (v : Json) : Prop where
  int : ∀ n, PartOf (.int n) v → -0x8000000000000000 ≤ n ∧ n < 0x10000000000000000
  float : ∀ x, PartOf (.float x) v → x.isFinite = true

theorem inRange_null : InRange .null :=
  ⟨fun _ h => (nomatch h), fun _ h => (nomatch h)⟩

theorem inRange_bool (b : Bool) : InRange (.bool b) :=
  ⟨fun _ h => (nomatch h), fun _ h => (nomatch h)⟩

theorem inRange_string (s : String) : InRange (.string s) :=
  ⟨fun _ h => (nomatch h), fun _ h => (nomatch h)⟩

theorem inRange_int_iff {n : Int} :
    InRange (.int n) ↔ -0x8000000000000000 ≤ n ∧ n < 0x10000000000000000 := by
  refine ⟨fun h => h.int n .self, fun h => ⟨?_, fun x hx => nomatch hx⟩⟩
  intro m hm
  cases hm
  exact h

theorem inRange_float_iff {x : Double} : InRange (.float x) ↔ x.isFinite = true := by
  refine ⟨fun h => h.float x .self, fun h => ⟨fun n hn => (nomatch hn), ?_⟩⟩
  intro y hy
  cases hy
  exact h

theorem inRange_array_iff {elements : List Json} :
    InRange (.array elements) ↔ ∀ v ∈ elements, v.InRange := by
  constructor
  · intro h v hv
    exact ⟨fun n hn => h.int n (.element hv hn), fun x hx => h.float x (.element hv hx)⟩
  · intro h
    constructor
    · intro n hn
      cases hn with
      | element hv hn => exact (h _ hv).int n hn
    · intro x hx
      cases hx with
      | element hv hx => exact (h _ hv).float x hx

theorem inRange_object_iff {members : List (String × Json)} :
    InRange (.object members) ↔ ∀ m ∈ members, m.2.InRange := by
  constructor
  · intro h m hm
    exact ⟨fun n hn => h.int n (.member hm hn), fun x hx => h.float x (.member hm hx)⟩
  · intro h
    constructor
    · intro n hn
      cases hn with
      | member hm hn => exact (h _ hm).int n hn
    · intro x hx
      cases hx with
      | member hm hx => exact (h _ hm).float x hx

end Json

/-! ### Conversions -/

namespace Item

theorem toJsonMembers_eq_map (members : List (String × Item)) :
    toJsonMembers members = members.map fun m => (m.1, m.2.toJson) := by
  induction members with
  | nil => rfl
  | cons m ms ih => rw [toJsonMembers, ih, List.map_cons]

theorem ofJsonElements_eq_map (elements : List Json) :
    ofJsonElements elements = elements.map ofJson := by
  induction elements with
  | nil => rfl
  | cons v vs ih => rw [ofJsonElements, ih, List.map_cons]

theorem ofJsonMembers_eq_map (members : List (String × Json)) :
    ofJsonMembers members = members.map fun m => (m.1, ofJson m.2) := by
  induction members with
  | nil => rfl
  | cons m ms ih => rw [ofJsonMembers, ih, List.map_cons]

theorem PartOf.toJson {part x : Item} (h : PartOf part x) : Json.PartOf part.toJson x.toJson := by
  induction h with
  | self => exact .self
  | element hx _ ih =>
    rw [Item.toJson, toJsonElements_eq_map]
    exact .element (List.mem_map_of_mem hx) ih
  | member hm _ ih =>
    rw [Item.toJson, toJsonMembers_eq_map]
    exact .member (List.mem_map_of_mem hm) ih

/-- Every part of the item of a value is the item of a part of it. -/
theorem exists_part_of_ofJson {v : Json} {part : Item} (h : PartOf part (ofJson v)) :
    ∃ w, Json.PartOf w v ∧ part = ofJson w := by
  induction v with
  | array elements ih =>
    rw [ofJson, ofJsonElements_eq_map] at h
    cases h with
    | self => exact ⟨_, .self, by rw [ofJson, ofJsonElements_eq_map]⟩
    | element hx hpart =>
      obtain ⟨v, hv, rfl⟩ := List.mem_map.mp hx
      obtain ⟨w, hw, hwpart⟩ := ih v hv hpart
      exact ⟨w, .element hv hw, hwpart⟩
  | object members ih =>
    rw [ofJson, ofJsonMembers_eq_map] at h
    cases h with
    | self => exact ⟨_, .self, by rw [ofJson, ofJsonMembers_eq_map]⟩
    | member hm hpart =>
      obtain ⟨m, hmem, rfl⟩ := List.mem_map.mp hm
      obtain ⟨w, hw, hwpart⟩ := ih m hmem hpart
      exact ⟨w, .member hmem hw, hwpart⟩
  | int n =>
    refine ⟨.int n, .self, ?_⟩
    rw [ofJson, ofInt] at h ⊢
    split at h <;> cases h <;> rfl
  | _ =>
    refine ⟨_, .self, ?_⟩
    cases h
    rfl

/-- No document stands for a failed conversion. -/
theorem clean_ofJson (v : Json) : (ofJson v).Clean := by
  intro hpart
  obtain ⟨w, -, hw⟩ := exists_part_of_ofJson hpart
  cases w with
  | int n =>
    rw [ofJson, ofInt] at hw
    split at hw <;> cases hw
  | _ => cases hw

/-! ### Finite numbers -/

/-- Every double in an item is finite, at any depth. -/
def Finite (x : Item) : Prop :=
  ∀ d, PartOf (.number (.float d)) x → d.isFinite = true

/-- An integer of 64 bits without a sign is far below the largest double. -/
theorem isFinite_ofInt_of_inRange {n : Int} (h : -0x8000000000000000 ≤ n ∧ n < 0x10000000000000000) :
    (Double.ofInt n).isFinite = true := by
  have hmax : 0x10000000000000000 ≤ Double.maxWhole := by decide +kernel
  exact Double.isFinite_ofInt (by omega)

/-- Items made from JSON have finite numbers only. -/
theorem finite_ofJson {v : Json} (h : v.InRange) : (ofJson v).Finite := by
  intro d hd
  obtain ⟨w, hw, hitem⟩ := exists_part_of_ofJson hd
  cases w with
  | int n =>
    rw [ofJson, ofInt] at hitem
    split at hitem
    · cases hitem
    · cases hitem
      exact isFinite_ofInt_of_inRange (h.int n hw)
  | float x =>
    cases hitem
    exact h.float d hw
  | _ => cases hitem

end Item

end PathQuery
