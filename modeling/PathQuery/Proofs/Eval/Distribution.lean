import PathQuery.Eval.Basic

/-!
# Steps and joined sequences

A step works on the items of a sequence one after another: accessors, filters and methods on two
sequences joined together give the results on both, joined in order, or the first failure. `keyvalue`
numbers the objects that it meets, so that its second result counts on from the first.

* `Step` — what a node does to the sequence of its target; `Step.eval_form` takes a node apart into its
  target and its step.
* `Sequence.keyValues_append` and `Sequence.keyValues_add` — numbering goes on through joined sequences,
  and a later start moves all numbers by as much.
* `Step.distributes` — steps distribute over joined sequences.
-/

namespace PathQuery

/-! ### Steps of a path -/

/-- A node that works on the sequence of a target, without the target. -/
inductive Step where
  | member (name : String)
  | wildcardMember
  | descendant (name : String)
  | elements (subscripts : List Subscript)
  | filter (predicate : Node)
  | method (m : Method)

namespace Step

/-- The step after a target. -/
def form (target : Node) : Step → Form
  | .member name => .member target name
  | .wildcardMember => .wildcardMember target
  | .descendant name => .descendant target name
  | .elements subscripts => .elements target subscripts
  | .filter predicate => .filter target predicate
  | .method m => .method target m

/-- What a step makes of a sequence. -/
def apply (scope : Scope) (s : Sequence) : Step → Except EvalError Sequence
  | .member name => s.member scope.mode name
  | .wildcardMember => s.wildcardMember scope.mode
  | .descendant name => .ok (s.descendants name)
  | .elements subscripts =>
      s.elements scope.mode fun elements =>
        Subscript.chooseAll { scope with last := some (lastIndex elements) } elements subscripts
  | .filter predicate =>
      (s.unwrap scope.mode).select fun x => predicate.truth { scope with current := some x }
  | .method m => s.method scope.mode m

/-- A node applies its step to the sequence of its target. -/
theorem eval_form (step : Step) (target : Node) (declared : Option SqlType) (scope : Scope) :
    (Node.mk (step.form target) declared).eval scope =
      target.eval scope >>= fun s => step.apply scope s := by
  cases step <;> rfl

/-- Where the target has a sequence, the node comes to its step on that sequence. -/
theorem eval_form_of_ok (step : Step) {target : Node} {scope : Scope} {s : Sequence}
    (htarget : target.eval scope = .ok s) (declared : Option SqlType) :
    (Node.mk (step.form target) declared).eval scope = step.apply scope s := by
  rw [eval_form, htarget]
  rfl

end Step

/-! ### Joined sequences -/

/-- Two results in turn: the first failure, or both sequences joined. -/
def Sequence.joined {ε : Type} (first second : Except ε Sequence) : Except ε Sequence := do
  let xs ← first
  let ys ← second
  return xs ++ ys

theorem Sequence.collect_cons_joined {ε : Type} (step : Item → Except ε Sequence) (x : Item)
    (s : Sequence) : Sequence.collect step (x :: s) = joined (step x) (s.collect step) := by
  simp only [collect, joined]
  cases step x with
  | error e => rfl
  | ok ys => cases s.collect step <;> rfl

theorem Sequence.collect_append_joined {ε : Type} (step : Item → Except ε Sequence)
    (s t : Sequence) : (s ++ t).collect step = joined (s.collect step) (t.collect step) := by
  rw [collect_append]
  cases s.collect step with
  | error e => rfl
  | ok xs => cases t.collect step <;> rfl

/-- A step on unwrapped items: unwrapping does not go over the border. -/
theorem Sequence.collect_unwrap_append {ε : Type} (step : Item → Except ε Sequence) (mode : Mode)
    (s t : Sequence) :
    ((s ++ t).unwrap mode).collect step =
      joined ((s.unwrap mode).collect step) ((t.unwrap mode).collect step) := by
  rw [unwrap_append, collect_append_joined]

/-! ### Numbered entries -/

/-- An entry of `keyvalue` with its number moved up. -/
def Item.shiftId (offset : Int64) : Item → Item
  | .object [key, value, (name, .number (.int id))] =>
      .object [key, value, (name, .number (.int (id + offset)))]
  | x => x

theorem Item.keyValues_add (id offset : Nat) (x : Item) :
    x.keyValues (id + offset) = (x.keyValues id).map (List.map (Item.shiftId (.ofNat offset))) := by
  cases x with
  | object members =>
    simp only [Item.keyValues, Except.map, List.map_map]
    congr 1
    refine List.map_congr_left fun m _ => ?_
    simp only [Function.comp, Item.shiftId, Item.int, Int64.ofNat_add]
  | _ => rfl

/-- Numbering from later on moves all numbers by as much. -/
theorem Sequence.keyValues_add (id offset : Nat) (s : Sequence) :
    s.keyValues (id + offset) = (s.keyValues id).map (List.map (Item.shiftId (.ofNat offset))) := by
  induction s generalizing id with
  | nil => rfl
  | cons x s ih =>
    have hrest := ih (id + 1)
    rw [Nat.add_right_comm] at hrest
    simp only [Sequence.keyValues, Item.keyValues_add, hrest]
    cases x.keyValues id with
    | error e => rfl
    | ok entries =>
      cases Sequence.keyValues (id + 1) s with
      | error e => rfl
      | ok rest => simp only [Except.map, List.map_append]

/-- Numbering goes on from one sequence to the next. -/
theorem Sequence.keyValues_append (id : Nat) (s t : Sequence) :
    (s ++ t).keyValues id = joined (s.keyValues id) (t.keyValues (id + s.length)) := by
  induction s generalizing id with
  | nil =>
    rw [List.nil_append, List.length_nil, Nat.add_zero]
    cases Sequence.keyValues id t <;> rfl
  | cons x s ih =>
    have hcount : id + (x :: s).length = id + 1 + s.length := by
      rw [List.length_cons]
      omega
    simp only [List.cons_append, Sequence.keyValues, ih, hcount]
    cases x.keyValues id with
    | error e => rfl
    | ok entries =>
      cases Sequence.keyValues (id + 1) s with
      | error e => rfl
      | ok xs =>
        cases Sequence.keyValues (id + 1 + s.length) t with
        | error e => rfl
        | ok ys => exact congrArg Except.ok (List.append_assoc entries xs ys).symm

/-! ### All steps -/

theorem Sequence.method_append {m : Method} (hm : m ≠ .keyValue) (mode : Mode) (s t : Sequence) :
    (s ++ t).method mode m = joined (s.method mode m) (t.method mode m) := by
  cases m with
  | type => simp only [Sequence.method, List.map_append]; rfl
  | size => exact Sequence.collect_append_joined (Item.size mode) s t
  | double => exact Sequence.collect_unwrap_append Item.double mode s t
  | ceiling => exact Sequence.collect_unwrap_append (Item.rounded .ceiling Double.ceil) mode s t
  | floor => exact Sequence.collect_unwrap_append (Item.rounded .floor Double.floor) mode s t
  | abs => exact Sequence.collect_unwrap_append Item.abs mode s t
  | keyValue => exact absurd rfl hm
  | datetime template => exact Sequence.collect_unwrap_append (Item.readDatetime template) mode s t

/-- The entries of joined sequences, those of the second numbered after all objects of the first. -/
theorem Sequence.method_keyValue_append (mode : Mode) (s t : Sequence) :
    (s ++ t).method mode .keyValue =
      joined (s.method mode .keyValue) ((t.method mode .keyValue).map
        (List.map (Item.shiftId (.ofNat (s.unwrap mode).length)))) := by
  simp only [Sequence.method]
  rw [Sequence.unwrap_append, Sequence.keyValues_append, Sequence.keyValues_add]

theorem Step.apply_nil (step : Step) (scope : Scope) : step.apply scope [] = .ok [] := by
  cases step with
  | method m =>
    cases m with
    | type | size => rfl
    | _ => simp only [Step.apply, Sequence.method, Sequence.unwrap_nil]; rfl
  | member | wildcardMember | filter =>
    simp only [Step.apply, Sequence.member, Sequence.wildcardMember, Sequence.unwrap_nil]
    rfl
  | descendant | elements => rfl

theorem Step.apply_append {step : Step} (hstep : step ≠ .method .keyValue) (scope : Scope)
    (s t : Sequence) :
    step.apply scope (s ++ t) = Sequence.joined (step.apply scope s) (step.apply scope t) := by
  cases step with
  | member name => exact Sequence.collect_unwrap_append (Item.member scope.mode name) scope.mode s t
  | wildcardMember =>
    exact Sequence.collect_unwrap_append (Item.wildcardMember scope.mode) scope.mode s t
  | descendant name => exact congrArg Except.ok List.flatMap_append
  | elements subscripts => exact Sequence.collect_append_joined _ s t
  | filter predicate => exact Sequence.collect_unwrap_append _ scope.mode s t
  | method m => exact Sequence.method_append (fun hm => hstep (hm ▸ rfl)) scope.mode s t

/-- **Steps distribute over joined sequences.** All that a node does to the sequence of its target is its
step. Applied to two sequences joined together, a step fails as it fails on the first, else as it fails
on the second, and else gives both results joined. So does `keyvalue`, but for the ids of the second
result, which start after the objects of the first sequence, counted as the mode unwraps them. -/
theorem Step.distributes (scope : Scope) :
    (∀ (step : Step) (target : Node) (declared : Option SqlType),
      (Node.mk (step.form target) declared).eval scope =
        target.eval scope >>= fun s => step.apply scope s) ∧
    (∀ step : Step, step.apply scope [] = .ok []) ∧
    (∀ step : Step, step ≠ .method .keyValue → ∀ s t : Sequence,
      step.apply scope (s ++ t) = do
        let xs ← step.apply scope s
        let ys ← step.apply scope t
        return xs ++ ys) ∧
    ∀ s t : Sequence,
      (Step.method .keyValue).apply scope (s ++ t) = do
        let xs ← (Step.method .keyValue).apply scope s
        let ys ← (Step.method .keyValue).apply scope t
        return xs ++ ys.map (Item.shiftId (.ofNat (s.unwrap scope.mode).length)) := by
  refine ⟨fun step target declared => step.eval_form target declared scope,
    fun step => step.apply_nil scope, fun step hstep s t => Step.apply_append hstep scope s t, ?_⟩
  intro s t
  refine (Sequence.method_keyValue_append scope.mode s t).trans ?_
  simp only [Step.apply]
  cases s.method scope.mode .keyValue with
  | error e => rfl
  | ok xs => cases t.method scope.mode .keyValue <;> rfl

/-- A filter over an unwrapped array and a number, a member that only the second sequence lacks, and
entries of a third object. -/
theorem Step.distributes_of_unwrapped_arrays :
    let lax := Scope.initial .lax .null .empty
    let strict := Scope.initial .strict .null .empty
    let positive := Step.filter (.compared .greater .current (.literal (.int 0)))
    let object (n : Int64) := Item.object [("a", .int n)]
    let entry (n id : Int64) := Item.object [("key", .string "a"), ("value", .int n), ("id", .int id)]
    positive ≠ .method .keyValue ∧
      positive.apply lax ([.array [.int 0, .int 1]] ++ [.int 2]) = .ok [.int 1, .int 2] ∧
      (Step.member "a").apply strict ([object 1] ++ [.object []]) = .error (.memberNotFound "a") ∧
      (Step.method .keyValue).apply lax ([.array [object 1, object 2]] ++ [object 3]) =
        .ok [entry 1 0, entry 2 1, entry 3 2] := by
  intro lax strict positive object entry
  have hpositive : positive ≠ .method .keyValue := fun h => nomatch h
  have hmember : Step.member "a" ≠ .method .keyValue := fun h => nomatch h
  exact ⟨hpositive, ((Step.distributes lax).2.2.1 positive hpositive _ _).trans rfl,
    ((Step.distributes strict).2.2.1 _ hmember _ _).trans rfl,
    ((Step.distributes lax).2.2.2 _ _).trans rfl⟩

end PathQuery
