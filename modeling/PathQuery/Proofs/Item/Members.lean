import Mathlib.Logic.ExistsUnique
import PathQuery.Proofs.Item.Parts

/-!
# Members and where they occur

A member of an object may lie in an item at any depth. Its location is the list of positions on the way to
it, from outside to inside, each of them the position of a part in its array or object. Locations are
compared as words are: a member comes before all members inside its value, and parts go from left to right,
which is the order of the document.

* `Item.Has` — what it is for a member to occur in an item.
* `Item.occurrences` — all members that occur in an item.
* `Item.mem_occurrences_iff` and `Item.occurrences_sorted` — nothing else is listed, and locations increase.
* `Item.has_iff_existsUnique` — so every member that occurs is listed once.
-/

namespace PathQuery

/-- A member of an object that lies in an item, with its location. -/
structure Occurrence where
  location : List Nat
  key : String
  value : Item

namespace Occurrence

/-- A member that occurs in the part at a position, as it occurs in the whole. -/
def inPart (i : Nat) (o : Occurrence) : Occurrence :=
  { o with location := i :: o.location }

/-- The location of one member comes first in the document. -/
def Before (o o' : Occurrence) : Prop :=
  o.location < o'.location

theorem Before.inPart {o o' : Occurrence} (h : o.Before o') (i : Nat) :
    (o.inPart i).Before (o'.inPart i) :=
  List.cons_lt_cons_iff.mpr (Or.inr ⟨rfl, h⟩)

theorem not_before_self (o : Occurrence) : ¬ o.Before o :=
  List.lt_irrefl o.location

end Occurrence

namespace Item

/-- What it is for a member to occur in an item. -/
inductive Has : Item → Occurrence → Prop
  | member {members : List (String × Item)} {i : Nat} {m : String × Item} :
      members[i]? = some m → Has (.object members) ⟨[i], m.1, m.2⟩
  | inMember {members : List (String × Item)} {i : Nat} {m : String × Item} {o : Occurrence} :
      members[i]? = some m → Has m.2 o → Has (.object members) (o.inPart i)
  | inElement {elements : List Item} {i : Nat} {x : Item} {o : Occurrence} :
      elements[i]? = some x → Has x o → Has (.array elements) (o.inPart i)

mutual

/-- All members that occur in an item, in the order of the document. -/
def occurrences : Item → List Occurrence
  | .object members => memberOccurrences 0 members
  | .array elements => elementOccurrences 0 elements
  | .null | .boolean _ | .number _ | .string _ | .datetime _ | .failure => []

def elementOccurrences (i : Nat) : List Item → List Occurrence
  | [] => []
  | x :: xs => x.occurrences.map (.inPart i) ++ elementOccurrences (i + 1) xs

def memberOccurrences (i : Nat) : List (String × Item) → List Occurrence
  | [] => []
  | (key, x) :: ms =>
      ⟨[i], key, x⟩ :: x.occurrences.map (.inPart i) ++ memberOccurrences (i + 1) ms

end

/-! ### Numbered parts -/

/-- What is made of the numbered parts of a list and joined is in order, if it is in order for each part
and all that is made of an earlier part comes before all that is made of a later one. -/
theorem pairwise_flatMap_zipIdx {α β : Type} {R : β → β → Prop} {f : α × Nat → List β} {parts : List α}
    {i : Nat} (hpart : ∀ p, p.1 ∈ parts → (f p).Pairwise R)
    (hparts : ∀ p q, p.2 < q.2 → ∀ a ∈ f p, ∀ b ∈ f q, R a b) :
    ((parts.zipIdx i).flatMap f).Pairwise R := by
  have hnumbers : ((parts.zipIdx i).map Prod.snd).Pairwise (· < ·) := by
    rw [List.zipIdx_map_snd]
    exact List.pairwise_lt_range'
  refine List.pairwise_flatMap.mpr ⟨fun p hp => hpart p (List.fst_mem_of_mem_zipIdx hp), ?_⟩
  exact (List.pairwise_map.mp hnumbers).imp fun hlt => hparts _ _ hlt

theorem elementOccurrences_eq (i : Nat) (elements : List Item) :
    elementOccurrences i elements =
      (elements.zipIdx i).flatMap fun p => p.1.occurrences.map (.inPart p.2) := by
  induction elements generalizing i with
  | nil => rfl
  | cons x xs ih => rw [elementOccurrences, ih, List.zipIdx_cons, List.flatMap_cons]

theorem memberOccurrences_eq (i : Nat) (members : List (String × Item)) :
    memberOccurrences i members = (members.zipIdx i).flatMap fun p =>
      ⟨[p.2], p.1.1, p.1.2⟩ :: p.1.2.occurrences.map (.inPart p.2) := by
  induction members generalizing i with
  | nil => rfl
  | cons m ms ih => rw [memberOccurrences, ih, List.zipIdx_cons, List.flatMap_cons]

/-! ### What is listed -/

theorem mem_elementOccurrences_iff {elements : List Item} {o : Occurrence} :
    o ∈ elementOccurrences 0 elements ↔
      ∃ (i : Nat) (x : Item), elements[i]? = some x ∧ ∃ inner ∈ x.occurrences, inner.inPart i = o := by
  simp only [elementOccurrences_eq, List.mem_flatMap, List.mem_map, Prod.exists,
    List.mk_mem_zipIdx_iff_getElem?]
  exact exists_comm

theorem mem_memberOccurrences_iff {members : List (String × Item)} {o : Occurrence} :
    o ∈ memberOccurrences 0 members ↔ ∃ (i : Nat) (m : String × Item), members[i]? = some m ∧
      (o = ⟨[i], m.1, m.2⟩ ∨ ∃ inner ∈ m.2.occurrences, inner.inPart i = o) := by
  simp only [memberOccurrences_eq, List.mem_flatMap, List.mem_cons, List.mem_map]
  constructor
  · rintro ⟨⟨m, i⟩, hm, ho⟩
    exact ⟨i, m, List.mk_mem_zipIdx_iff_getElem?.mp hm, ho⟩
  · rintro ⟨i, m, hm, ho⟩
    exact ⟨⟨m, i⟩, List.mk_mem_zipIdx_iff_getElem?.mpr hm, ho⟩

/-- **The members that are listed are those that occur.** -/
theorem mem_occurrences_iff {x : Item} {o : Occurrence} : o ∈ x.occurrences ↔ x.Has o := by
  induction x generalizing o with
  | array elements ih =>
    rw [occurrences, mem_elementOccurrences_iff]
    constructor
    · rintro ⟨i, x, hx, inner, hinner, rfl⟩
      exact .inElement hx ((ih x (List.mem_of_getElem? hx)).mp hinner)
    · intro h
      cases h with
      | inElement hx hinner =>
        exact ⟨_, _, hx, _, (ih _ (List.mem_of_getElem? hx)).mpr hinner, rfl⟩
  | object members ih =>
    rw [occurrences, mem_memberOccurrences_iff]
    constructor
    · rintro ⟨i, m, hm, rfl | ⟨inner, hinner, rfl⟩⟩
      · exact .member hm
      · exact .inMember hm ((ih m (List.mem_of_getElem? hm)).mp hinner)
    · intro h
      cases h with
      | member hm => exact ⟨_, _, hm, Or.inl rfl⟩
      | inMember hm hinner =>
        exact ⟨_, _, hm, Or.inr ⟨_, (ih _ (List.mem_of_getElem? hm)).mpr hinner, rfl⟩⟩
  | _ =>
    refine ⟨fun h => ?_, fun h => ?_⟩
    · cases h
    · cases h

/-! ### The order of the list -/

/-- What occurs in a part is below the position of the part. -/
theorem location_of_inPart {i : Nat} {o : Occurrence} {os : List Occurrence}
    (h : o ∈ os.map (.inPart i)) : ∃ rest, o.location = i :: rest := by
  obtain ⟨inner, -, rfl⟩ := List.mem_map.mp h
  exact ⟨inner.location, rfl⟩

theorem before_of_lt {i j : Nat} (h : i < j) {o o' : Occurrence} (ho : ∃ rest, o.location = i :: rest)
    (ho' : ∃ rest, o'.location = j :: rest) : o.Before o' := by
  obtain ⟨rest, ho⟩ := ho
  obtain ⟨rest', ho'⟩ := ho'
  rw [Occurrence.Before, ho, ho']
  exact List.cons_lt_cons_iff.mpr (Or.inl h)

/-- Every location has a last position, that of the member in its object. -/
theorem Has.location_ne_nil {x : Item} {o : Occurrence} (h : x.Has o) : o.location ≠ [] := by
  cases h <;> exact List.cons_ne_nil _ _

/-- A member comes before the members inside its value. -/
theorem before_inPart {x : Item} {inner : Occurrence} (h : x.Has inner) (i : Nat) (key : String)
    (value : Item) : Occurrence.Before ⟨[i], key, value⟩ (inner.inPart i) := by
  obtain ⟨j, rest, hlocation⟩ := List.exists_cons_of_ne_nil h.location_ne_nil
  refine List.cons_lt_cons_iff.mpr (Or.inr ⟨rfl, ?_⟩)
  rw [hlocation]
  exact List.nil_lt_cons j rest

theorem inPart_sorted {os : List Occurrence} (h : os.Pairwise Occurrence.Before) (i : Nat) :
    (os.map (.inPart i)).Pairwise Occurrence.Before :=
  List.pairwise_map.mpr (h.imp fun hbefore => hbefore.inPart i)

/-- **Members are listed in the order of the document.** -/
theorem occurrences_sorted (x : Item) : x.occurrences.Pairwise Occurrence.Before := by
  induction x with
  | array elements ih =>
    rw [occurrences, elementOccurrences_eq]
    refine pairwise_flatMap_zipIdx (fun p hp => inPart_sorted (ih p.1 hp) p.2) ?_
    intro p q hlt o ho o' ho'
    exact before_of_lt hlt (location_of_inPart ho) (location_of_inPart ho')
  | object members ih =>
    rw [occurrences, memberOccurrences_eq]
    have hlocation : ∀ p : (String × Item) × Nat, ∀ o ∈ (⟨[p.2], p.1.1, p.1.2⟩ : Occurrence) ::
        p.1.2.occurrences.map (.inPart p.2), ∃ rest, o.location = p.2 :: rest :=
      fun p => List.forall_mem_cons.mpr ⟨⟨[], rfl⟩, fun _ => location_of_inPart⟩
    -- A member comes first, then what is inside its value, then all of the next member.
    refine pairwise_flatMap_zipIdx (fun p hp => List.pairwise_cons.mpr ⟨?_, ?_⟩) ?_
    · intro o ho
      obtain ⟨inner, hinner, rfl⟩ := List.mem_map.mp ho
      exact before_inPart (mem_occurrences_iff.mp hinner) p.2 p.1.1 p.1.2
    · exact inPart_sorted (ih p.1 hp) p.2
    · intro p q hlt o ho o' ho'
      exact before_of_lt hlt (hlocation p o ho) (hlocation q o' ho')
  | _ => exact List.Pairwise.nil

/-- A member that occurs is listed at exactly one place. -/
theorem has_iff_existsUnique {x : Item} {o : Occurrence} :
    x.Has o ↔ ∃! i : Nat, x.occurrences[i]? = some o := by
  have hnodup : x.occurrences.Nodup := by
    refine x.occurrences_sorted.imp ?_
    rintro o o' hbefore rfl
    exact Occurrence.not_before_self o hbefore
  rw [← mem_occurrences_iff]
  constructor
  · intro h
    obtain ⟨i, hi⟩ := List.mem_iff_getElem?.mp h
    refine ⟨i, hi, fun j hj => ?_⟩
    have hlt : i < x.occurrences.length := (List.getElem?_eq_some_iff.mp hi).1
    exact ((List.getElem?_inj hlt hnodup).mp (hi.trans hj.symm)).symm
  · rintro ⟨i, hi, -⟩
    exact List.mem_of_getElem? hi

end Item

end PathQuery
