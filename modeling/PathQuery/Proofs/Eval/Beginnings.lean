import Mathlib.Data.List.Perm.Basic
import PathQuery.Proofs.Eval.Truth

/-!
# Candidates of `starts with`

`starts with` asks one candidate after another and stops at the first that decides: in lax mode one that
begins with the text, in strict mode one that is no text at all. What it has found by then is the strongest
truth value of all candidates, also of those that it has not asked, so that their order does not matter.

* `Item.BeginsWith` — what it is for a candidate to begin with a text.
* `Truth.stronger` — the truth value that counts of two candidates; it is commutative and associative.
* `Truth.ofPrefixes_eq_strongest` — stopping early changes nothing.
* `Node.startsWith_unordered` — the truth value of `starts with` by what its candidates are.
-/

namespace PathQuery

/-! ### One candidate -/

namespace Item

def isText : Item → Bool
  | .string _ => true
  | _ => false

/-- An item is a text that begins with another one. -/
def BeginsWith (text : String) (x : Item) : Prop :=
  ∃ rest, x = .string (text ++ rest)

theorem startsWith_eq_true_iff {text : String} {x : Item} :
    x.startsWith text = .true ↔ x.BeginsWith text := by
  cases x with
  | string s =>
    rw [startsWith, Truth.ofBool_eq_true_iff, List.isPrefixOf_iff_prefix]
    constructor
    · rintro ⟨rest, hrest⟩
      refine ⟨String.ofList rest, congrArg Item.string (String.toList_inj.mp ?_)⟩
      rw [String.toList_append, String.toList_ofList, hrest]
    · rintro ⟨rest, hrest⟩
      cases hrest
      exact ⟨rest.toList, String.toList_append.symm⟩
  | _ =>
    refine ⟨fun h => ?_, fun ⟨_, h⟩ => ?_⟩
    · cases h
    · cases h

theorem startsWith_eq_unknown_iff {text : String} {x : Item} :
    x.startsWith text = .unknown ↔ ¬ x.isText := by
  cases x with
  | string s => cases h : text.toList.isPrefixOf s.toList <;> simp [startsWith, isText, h, Truth.ofBool]
  | _ => exact ⟨fun _ => Bool.false_ne_true, fun _ => rfl⟩

instance (text : String) (x : Item) : Decidable (x.BeginsWith text) :=
  decidable_of_iff _ startsWith_eq_true_iff

end Item

/-! ### All candidates -/

namespace Truth

/-- The truth value of a candidate at which the search stops. -/
def decisive : Mode → Truth
  | .lax => .true
  | .strict => .unknown

/-- How much the truth value of one candidate counts among others. -/
def weight (mode : Mode) (t : Truth) : Nat :=
  if t = .false then 0 else if t = decisive mode then 2 else 1

/-- The truth value that counts of two candidates. -/
def stronger (mode : Mode) (a b : Truth) : Truth :=
  if weight mode a < weight mode b then b else a

/-- The truth value that counts of all candidates; none are false. -/
def strongest (mode : Mode) (ts : List Truth) : Truth :=
  ts.foldr (stronger mode) .false

section Stronger

variable (mode : Mode) (a b c : Truth)

theorem stronger_comm : stronger mode a b = stronger mode b a := by
  cases mode <;> cases a <;> cases b <;> rfl

theorem stronger_assoc : stronger mode (stronger mode a b) c = stronger mode a (stronger mode b c) := by
  cases mode <;> cases a <;> cases b <;> cases c <;> rfl

theorem stronger_false : stronger mode a .false = a := by
  cases mode <;> cases a <;> rfl

theorem false_stronger : stronger mode .false a = a := by
  rw [stronger_comm, stronger_false]

theorem decisive_stronger : stronger mode (decisive mode) a = decisive mode := by
  cases mode <;> cases a <;> rfl

end Stronger

/-- **The order of candidates does not matter.** -/
theorem strongest_perm {mode : Mode} {ts us : List Truth} (h : ts.Perm us) :
    strongest mode ts = strongest mode us := by
  have hleft : LeftCommutative (stronger mode) :=
    ⟨fun a b c => by rw [← stronger_assoc, stronger_comm mode a b, stronger_assoc]⟩
  exact h.foldr_eq _

/-- One candidate: the search keeps what counts, and stops if that decides. -/
theorem ofPrefixes_go_cons {mode : Mode} {soFar : Truth} (h : soFar ≠ decisive mode) (text : String)
    (x : Item) (xs : List Item) :
    ofPrefixes.go mode text soFar (x :: xs) =
      if stronger mode soFar (x.startsWith text) = decisive mode then decisive mode
      else ofPrefixes.go mode text (stronger mode soFar (x.startsWith text)) xs := by
  conv_lhs => unfold ofPrefixes.go
  generalize x.startsWith text = t
  cases mode with
  | lax =>
    cases soFar with
    | true => exact absurd rfl h
    | false | unknown => cases t <;> rfl
  | strict =>
    cases soFar with
    | unknown => exact absurd rfl h
    | true | false => cases t <;> rfl

/-- All candidates, from what has been found before. The search is under way as long as that does not
decide. -/
theorem ofPrefixes_go_eq {mode : Mode} {soFar : Truth} (h : soFar ≠ decisive mode) (text : String)
    (xs : List Item) : ofPrefixes.go mode text soFar xs =
      stronger mode soFar (strongest mode (xs.map fun x => x.startsWith text)) := by
  -- What has been found so far changes along the way, but does not decide as long as the search goes on.
  induction xs generalizing soFar with
  | nil => exact (stronger_false mode soFar).symm
  | cons x xs ih =>
    have hall : strongest mode ((x :: xs).map fun x => x.startsWith text) =
        stronger mode (x.startsWith text) (strongest mode (xs.map fun x => x.startsWith text)) := rfl
    rw [ofPrefixes_go_cons h, hall, ← stronger_assoc]
    by_cases hdecides : stronger mode soFar (x.startsWith text) = decisive mode
    · rw [if_pos hdecides, hdecides, decisive_stronger]
    · rw [if_neg hdecides, ih hdecides]

/-- **Stopping early changes nothing.** -/
theorem ofPrefixes_eq_strongest (mode : Mode) (text : String) (xs : List Item) :
    ofPrefixes mode text xs = strongest mode (xs.map fun x => x.startsWith text) := by
  have hstart : Truth.false ≠ decisive mode := by cases mode <;> decide
  exact (ofPrefixes_go_eq hstart text xs).trans (false_stronger mode _)

/-- In lax mode, by what the candidates are. -/
theorem ofPrefixes_lax_eq (text : String) (xs : List Item) : ofPrefixes .lax text xs =
    if ∃ x ∈ xs, x.BeginsWith text then .true
    else if ∃ x ∈ xs, ¬ x.isText then .unknown
    else .false := by
  rw [ofPrefixes_lax]
  refine if_congr ?_ rfl (if_congr ?_ rfl rfl)
  · simp only [Item.startsWith_eq_true_iff]
  · simp only [Item.startsWith_eq_unknown_iff]

/-- In strict mode, by what the candidates are. -/
theorem ofPrefixes_strict_eq (text : String) (xs : List Item) : ofPrefixes .strict text xs =
    if ∃ x ∈ xs, ¬ x.isText then .unknown
    else if ∃ x ∈ xs, x.BeginsWith text then .true
    else .false := by
  rw [ofPrefixes_strict]
  refine if_congr ?_ rfl (if_congr ?_ rfl rfl)
  · simp only [Item.startsWith_eq_unknown_iff]
  · simp only [Item.startsWith_eq_true_iff]

end Truth

/-! ### Nodes -/

namespace Node

variable {whole initial : Node} {scope : Scope} {i w : Sequence} {text : String}

/-- With one text to look for, the candidates are all that is asked. -/
theorem truth_startsWith (hinitial : initial.eval scope = .ok i)
    (htext : i.unwrap scope.mode = [.string text]) (hwhole : whole.eval scope = .ok w) :
    (startsWith whole initial).truth scope =
      .ok (Truth.ofPrefixes scope.mode text (w.unwrap scope.mode)) := by
  show Truth.startsWith scope.mode (initial.eval scope) (fun _ => whole.eval scope) = _
  rw [hinitial, hwhole]
  simp only [Truth.startsWith, tolerate, bind, Except.bind, htext]
  rfl

/-- **`starts with` does not depend on the order of its candidates.** Where the beginning comes to one text
and the whole to any sequence, the predicate has the truth value that its candidates have together. In lax
mode it is true if one of them begins with the text, else unknown if one is no text, and else false; in
strict mode it is unknown if one is no text, else true if one begins with the text, and else false. Stopping
at the first candidate that decides gives what comes of asking all of them, and candidates in another order
give the same. -/
theorem startsWith_unordered (hinitial : initial.eval scope = .ok i)
    (htext : i.unwrap scope.mode = [.string text]) (hwhole : whole.eval scope = .ok w) :
    let candidates := w.unwrap scope.mode
    let truth := (startsWith whole initial).truth scope
    (scope.mode = .lax → truth = .ok
      (if ∃ x ∈ candidates, x.BeginsWith text then .true
      else if ∃ x ∈ candidates, ¬ x.isText then .unknown
      else .false)) ∧
    (scope.mode = .strict → truth = .ok
      (if ∃ x ∈ candidates, ¬ x.isText then .unknown
      else if ∃ x ∈ candidates, x.BeginsWith text then .true
      else .false)) ∧
    truth = .ok (Truth.strongest scope.mode (candidates.map fun x => x.startsWith text)) ∧
    ∀ (whole' : Node) (w' : Sequence), whole'.eval scope = .ok w' →
      (w'.unwrap scope.mode).Perm candidates → (startsWith whole' initial).truth scope = truth := by
  intro candidates truth
  have htruth : truth = .ok (Truth.ofPrefixes scope.mode text candidates) :=
    truth_startsWith hinitial htext hwhole
  refine ⟨fun hlax => ?_, fun hstrict => ?_, ?_, fun whole' w' hwhole' hperm => ?_⟩
  · rw [htruth, hlax, Truth.ofPrefixes_lax_eq]
  · rw [htruth, hstrict, Truth.ofPrefixes_strict_eq]
  · rw [htruth, Truth.ofPrefixes_eq_strongest]
  · rw [htruth, truth_startsWith hinitial htext hwhole', Truth.ofPrefixes_eq_strongest,
      Truth.ofPrefixes_eq_strongest, Truth.strongest_perm (hperm.map _)]

/-- A text, a number and another text, in an array that lax mode unwraps, and in the reverse order in strict
mode. -/
theorem startsWith_unordered_of_mixed_candidates :
    let beginning := literal (.string "ab")
    let candidates : List Item := [.string "xy", .int 1, .string "abc"]
    let lax := Scope.initial .lax (.array candidates) .empty
    let strict := Scope.initial .strict (.array candidates.reverse) .empty
    (startsWith context beginning).truth lax = .ok .true ∧
      (startsWith (allElements context) beginning).truth strict = .ok .unknown ∧
      (startsWith (subscripted [.last, .index (literal (.int 1)), .index (literal (.int 0))] context)
        beginning).truth strict = .ok .unknown := by
  intro beginning candidates lax strict
  have htext : ∀ scope : Scope, beginning.eval scope = .ok [.string "ab"] := fun _ => rfl
  have harray : context.eval lax = .ok [.array candidates] := rfl
  have hreverse : (allElements context).eval strict = .ok candidates.reverse := rfl
  have hlax := startsWith_unordered (htext lax) rfl harray
  have hstrict := startsWith_unordered (htext strict) rfl hreverse
  have hsame := hstrict.2.2.2
    (subscripted [.last, .index (literal (.int 1)), .index (literal (.int 0))] context) candidates rfl
    (List.reverse_perm candidates).symm
  have hunknown : (startsWith (allElements context) beginning).truth strict = .ok .unknown :=
    (hstrict.2.1 rfl).trans (congrArg Except.ok (by decide))
  exact ⟨(hlax.1 rfl).trans (congrArg Except.ok (by decide)), hunknown, hsame.trans hunknown⟩

end Node

end PathQuery
