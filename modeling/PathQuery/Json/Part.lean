import PathQuery.Json.Basic

/-!
# Parts of JSON values

The parts that a reader of structured data descends into. Each comes with the proof that it is smaller
than the value that it is a part of, so that readers recurse on values without a bound of their own.
-/

namespace PathQuery.Json

/-- A value inside another. -/
abbrev Part (v : Json) := { c : Json // sizeOf c < sizeOf v }

/-- The value of a name among members, if the name occurs once. -/
def uniqueIn? (name : String) :
    (ms : List (String × Json)) → Option { c : Json // sizeOf c < sizeOf ms }
  | [] => none
  | (key, c) :: ms =>
      if key = name then
        if name ∈ Entries.keys ms then none
        else some ⟨c, by simp only [List.cons.sizeOf_spec, Prod.mk.sizeOf_spec]; omega⟩
      else
        (uniqueIn? name ms).map fun c =>
          ⟨c.1, Nat.lt_trans c.2 (by simp only [List.cons.sizeOf_spec]; omega)⟩

/-- The value of a member whose name occurs once. -/
def member? (name : String) : (v : Json) → Option (Part v)
  | .object ms =>
      (uniqueIn? name ms).map fun c => ⟨c.1, Nat.lt_trans c.2 (by simp)⟩
  | _ => none

/-- Whether a value has a member of a name. -/
def hasMember (name : String) : Json → Bool
  | .object ms => name ∈ Entries.keys ms
  | _ => false

/-- The elements of an array. -/
def elements? : (v : Json) → Option { vs : List Json // sizeOf vs < sizeOf v }
  | .array vs => some ⟨vs, by simp⟩
  | _ => none

/-- The elements of an array of one element or more, as the first and the rest. -/
def parts : (vs : List Json) → List { c : Json // sizeOf c < sizeOf vs }
  | [] => []
  | v :: vs =>
      ⟨v, by simp only [List.cons.sizeOf_spec]; omega⟩ ::
        (parts vs).map fun c => ⟨c.1, Nat.lt_trans c.2 (by simp only [List.cons.sizeOf_spec]; omega)⟩

/-- The elements of an array as parts of it. -/
def elementParts? : (v : Json) → Option (List (Part v))
  | .array vs => some ((parts vs).map fun c => ⟨c.1, Nat.lt_trans c.2 (by simp)⟩)
  | _ => none

/-- The values of these members in this order, each of which must occur once. -/
def members? (names : List String) (v : Json) : Option (List (Part v)) :=
  names.mapM fun name => v.member? name

/-- A value that names one of several cases: a bare name, or an object whose only member has the name
and the content of the case. -/
def case? : (v : Json) → Option (String × Option (Part v))
  | .string name => some (name, none)
  | .object [(name, c)] =>
      some (name, some ⟨c, by simp; omega⟩)
  | _ => none

/-- Whether a case has no content, or an explicit null. -/
def isBare {v : Json} : Option (Part v) → Bool
  | none => true
  | some ⟨.null, _⟩ => true
  | _ => false

def string? : Json → Option String
  | .string s => some s
  | _ => none

end PathQuery.Json
