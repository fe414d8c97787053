import PathQuery.Item.Basic

/-!
# Parameter bindings

A path names parameters by `$name` or by position. `Bindings` keeps the values in the order of their
row, and no two parameters have one name.

* `Bindings.ofRow` refuses a row that repeats a name.
* `Bindings.insert` replaces a value in its place, or adds a parameter at the end.
* `Bindings.firstFailure?` is the name of the first parameter with a failed conversion in it.
-/

namespace PathQuery

inductive BindingError where
  | duplicate (name : String)
  | unbound (name : String)
  | unboundPosition (position : Nat)
  deriving DecidableEq

def BindingError.message : BindingError → String
  | .duplicate name => "duplicate path parameter name: " ++ name
  | .unbound name => "no value bound to path variable $" ++ name
  | .unboundPosition position => "no path parameter at position " ++ toString position

/-- The names and values of parameters in order. -/
structure Bindings where
  entries : List (String × Item)
  distinct : (Entries.keys entries).Nodup

namespace Bindings

/-- No parameters. -/
def empty : Bindings := ⟨[], by simp [Entries.keys]⟩

/-- The same bindings with one value replaced or one parameter added. -/
def insert (b : Bindings) (name : String) (value : Item) : Bindings :=
  ⟨Entries.put name value b.entries, Entries.nodup_keys_put name value b.distinct⟩

/-- The first name of a row that is among `seen` names or repeats an earlier one. -/
def firstRepeat? (seen : List String) : List (String × Item) → Option String
  | [] => none
  | (name, _) :: row => if name ∈ seen then some name else firstRepeat? (name :: seen) row

theorem nodup_of_firstRepeat? {seen : List String} {row : List (String × Item)}
    (h : firstRepeat? seen row = none) :
    (Entries.keys row).Nodup ∧ ∀ name ∈ seen, name ∉ Entries.keys row := by
  induction row generalizing seen with
  | nil => simp [Entries.keys]
  | cons p row ih =>
    unfold firstRepeat? at h
    split at h
    · exact absurd h (by simp)
    · next hp =>
      obtain ⟨hn, hs⟩ := ih h
      have hk : Entries.keys (p :: row) = p.1 :: Entries.keys row := rfl
      rw [hk]
      refine ⟨List.nodup_cons.mpr ⟨hs p.1 (by simp), hn⟩, ?_⟩
      intro name hname hmem
      rcases List.mem_cons.mp hmem with rfl | hmem
      · exact hp hname
      · exact hs name (by simp [hname]) hmem

/-- The bindings of a row of parameters. -/
def ofRow (row : List (String × Item)) : Except BindingError Bindings :=
  match h : firstRepeat? [] row with
  | some name => .error (.duplicate name)
  | none => .ok ⟨row, (nodup_of_firstRepeat? h).1⟩

/-- The value of a named parameter. -/
def get (b : Bindings) (name : String) : Except BindingError Item :=
  match Entries.get? name b.entries with
  | some x => .ok x
  | none => .error (.unbound name)

/-- The value of a parameter by its position in the row. -/
def getIndex (b : Bindings) (position : Nat) : Except BindingError Item :=
  match b.entries[position]? with
  | some p => .ok p.2
  | none => .error (.unboundPosition position)

def size (b : Bindings) : Nat := b.entries.length

theorem get_eq_error_iff (b : Bindings) (name : String) (e : BindingError) :
    b.get name = .error e ↔ e = .unbound name ∧ name ∉ Entries.keys b.entries := by
  rw [← Entries.get?_eq_none_iff, get]
  cases Entries.get? name b.entries <;> simp [eq_comm]

theorem getIndex_eq_error_iff (b : Bindings) (position : Nat) (e : BindingError) :
    b.getIndex position = .error e ↔ e = .unboundPosition position ∧ b.size ≤ position := by
  rw [size, ← List.getElem?_eq_none_iff, getIndex]
  cases b.entries[position]? <;> simp [eq_comm]

theorem get_insert_self (b : Bindings) (name : String) (value : Item) :
    (b.insert name value).get name = .ok value := by
  simp only [get, insert, Entries.get?_put, if_true]

theorem get_insert_of_ne (b : Bindings) {name other : String} (h : other ≠ name) (value : Item) :
    (b.insert name value).get other = b.get other := by
  simp only [get, insert, Entries.get?_put, if_neg (Ne.symm h)]

/-- A new parameter takes the position after all others. -/
theorem getIndex_insert_of_ne (b : Bindings) {name : String} (hname : name ∉ Entries.keys b.entries)
    {position : Nat} (h : position ≠ b.size) (value : Item) :
    (b.insert name value).getIndex position = b.getIndex position := by
  have hentry : (b.entries ++ [(name, value)])[position]? = b.entries[position]? := by
    rcases Nat.lt_or_gt_of_ne h with hlt | hgt
    · exact List.getElem?_append_left hlt
    · have hlength : (b.entries ++ [(name, value)]).length ≤ position := by
        rw [List.length_append]
        exact hgt
      rw [List.getElem?_eq_none hlength, List.getElem?_eq_none (Nat.le_of_lt hgt)]
  simp only [getIndex, insert, Entries.put_of_notMem hname, hentry]

def firstFailure? (b : Bindings) : Option String :=
  (b.entries.find? fun p => p.2.hasFailure).map Prod.fst

end Bindings

end PathQuery
