/-!
# Ordered maps as lists of entries

A list of pairs whose keys are distinct is a map that remembers the order in which its keys were first
put.

* `Entries.put` replaces the value of a key in its place, or adds a new key at the end;
  `Entries.keys_put` says so of the keys and `Entries.get?_put` of the values.
* `Entries.get?` finds the value of a key; `Entries.get?_eq_some_iff` says that, when keys are distinct,
  it finds exactly the entries.
* `Entries.ofList` puts every pair in turn: the first position of a key stays and its last value wins.
-/

namespace PathQuery.Entries

variable {α : Type}

/-- The keys in order. -/
def keys (es : List (String × α)) : List String :=
  es.map Prod.fst

/-- The value of a key. -/
def get? (key : String) : List (String × α) → Option α
  | [] => none
  | e :: es => if e.1 = key then some e.2 else get? key es

/-- Replace the value of a key in its place, or add the key at the end. -/
def put (key : String) (value : α) : List (String × α) → List (String × α)
  | [] => [(key, value)]
  | e :: es => if e.1 = key then (key, value) :: es else e :: put key value es

/-- The map that a list of pairs describes, a later value replacing an earlier one. -/
def ofList (pairs : List (String × α)) : List (String × α) :=
  pairs.foldl (fun es p => put p.1 p.2 es) []

theorem get?_eq_none_iff {key : String} {es : List (String × α)} :
    get? key es = none ↔ key ∉ keys es := by
  induction es with
  | nil => simp [get?, keys]
  | cons e es ih =>
    by_cases h : e.1 = key
    · simp [get?, keys, h]
    · simp only [get?, if_neg h, ih, keys, List.map_cons, List.mem_cons, not_or]
      exact ⟨fun hk => ⟨Ne.symm h, hk⟩, fun hk => hk.2⟩

theorem mem_of_get? {key : String} {value : α} {es : List (String × α)}
    (h : get? key es = some value) : (key, value) ∈ es := by
  induction es with
  | nil => exact absurd h (by simp [get?])
  | cons e es ih =>
    unfold get? at h
    by_cases he : e.1 = key
    · rw [if_pos he, Option.some.injEq] at h
      have hpair : e = (key, value) := Prod.ext he h
      exact hpair ▸ List.mem_cons_self
    · rw [if_neg he] at h
      exact List.mem_cons_of_mem e (ih h)

theorem get?_eq_some_iff {key : String} {value : α} {es : List (String × α)}
    (hn : (keys es).Nodup) : get? key es = some value ↔ (key, value) ∈ es := by
  refine ⟨mem_of_get?, ?_⟩
  intro hm
  induction es with
  | nil => exact absurd hm (by simp)
  | cons e es ih =>
    obtain ⟨he, hes⟩ := List.nodup_cons.mp hn
    unfold get?
    rcases List.mem_cons.mp hm with rfl | hm
    · rw [if_pos rfl]
    · have hkey : key ∈ keys es := List.mem_map.mpr ⟨(key, value), hm, rfl⟩
      have hne : e.1 ≠ key := fun h => he (h ▸ hkey)
      rw [if_neg hne]
      exact ih hes hm

theorem keys_put (key : String) (value : α) (es : List (String × α)) :
    keys (put key value es) = if key ∈ keys es then keys es else keys es ++ [key] := by
  induction es with
  | nil => simp [put, keys]
  | cons e es ih =>
    unfold put
    by_cases h : e.1 = key
    · simp [h, keys]
    · rw [if_neg h]
      simp only [keys, List.map_cons, List.mem_cons] at ih ⊢
      rw [ih]
      by_cases hm : key ∈ es.map Prod.fst <;> simp [hm, Ne.symm h]

theorem put_of_notMem {key : String} {es : List (String × α)} (h : key ∉ keys es) (value : α) :
    put key value es = es ++ [(key, value)] := by
  induction es with
  | nil => rfl
  | cons e es ih =>
    obtain ⟨he, hes⟩ : key ≠ e.1 ∧ key ∉ keys es := by simpa [keys] using h
    rw [put, if_neg (Ne.symm he), ih hes, List.cons_append]

theorem get?_put (key other : String) (value : α) (es : List (String × α)) :
    get? other (put key value es) = if key = other then some value else get? other es := by
  induction es with
  | nil => rfl
  | cons e es ih =>
    unfold put
    by_cases h : e.1 = key
    · by_cases ho : key = other <;> simp [get?, h, ho]
    · rw [if_neg h]
      by_cases ho : e.1 = other
      · have hk : key ≠ other := fun hk => h (ho.trans hk.symm)
        simp [get?, ho, hk]
      · simp [get?, ho, ih]

theorem nodup_keys_put {es : List (String × α)} (key : String) (value : α)
    (h : (keys es).Nodup) : (keys (put key value es)).Nodup := by
  rw [keys_put]
  by_cases hm : key ∈ keys es
  · rwa [if_pos hm]
  · rw [if_neg hm, List.nodup_append]
    refine ⟨h, by simp, ?_⟩
    intro a ha b hb hab
    rw [List.mem_singleton.mp hb] at hab
    exact hm (hab ▸ ha)

theorem mem_of_mem_put {key : String} {value : α} {e : String × α} {es : List (String × α)}
    (h : e ∈ put key value es) : e = (key, value) ∨ e ∈ es := by
  induction es with
  | nil => exact Or.inl (List.mem_singleton.mp h)
  | cons e' es ih =>
    unfold put at h
    split at h
    · exact (List.mem_cons.mp h).imp_right (List.mem_cons_of_mem e')
    · rcases List.mem_cons.mp h with rfl | h
      · exact Or.inr List.mem_cons_self
      · exact (ih h).imp_right (List.mem_cons_of_mem e')

/-- The map has only pairs of the list in it. -/
theorem mem_of_mem_ofList {pairs : List (String × α)} {e : String × α} (h : e ∈ ofList pairs) :
    e ∈ pairs := by
  have go : ∀ ps es : List (String × α), e ∈ ps.foldl (fun es p => put p.1 p.2 es) es →
      e ∈ es ∨ e ∈ ps := by
    intro ps
    induction ps with
    | nil => exact fun _ h => Or.inl h
    | cons p ps ih =>
      intro es h
      rcases ih _ h with hput | hps
      · rcases mem_of_mem_put hput with rfl | hes
        · exact Or.inr List.mem_cons_self
        · exact Or.inl hes
      · exact Or.inr (List.mem_cons_of_mem p hps)
  exact (go pairs [] h).resolve_left (List.not_mem_nil)

end PathQuery.Entries
