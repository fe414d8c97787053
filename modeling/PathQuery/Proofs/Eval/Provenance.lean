import PathQuery.Proofs.Eval.Distribution
import PathQuery.Proofs.Eval.Preservation

/-!
# Where results come from

Accessors and filters take items apart and choose among them, but make none. What a path of only such
steps finds is therefore in its input already, wherever the positions and conditions on the way come from.

* `Step.apply_each` — a step other than a method keeps what arrays and objects hand on to their contents.
* `Node.IsWalk` — a tree that goes from the input by such steps.
* `Node.eval_each_of_isWalk` — so does a whole walk.
* `Node.evaluate_yields_parts` — the items that a walk finds are parts of its input.
-/

namespace PathQuery

/-! ### One step -/

/-- Whether a step is an accessor or a filter. -/
def Step.isChoice : Step → Bool
  | .method _ => false
  | .member _ | .wildcardMember | .descendant _ | .elements _ | .filter _ => true

/-- **An accessor or a filter keeps every hereditary property.** Subscripts and predicates are evaluated
on the way, but nothing of them gets into the result. -/
theorem Step.apply_each {G : Item → Prop} (hG : Item.Hereditary G) {step : Step}
    (hstep : step.isChoice = true) (scope : Scope) {s : Sequence} (hs : s.Each G) :
    YieldsOnly (Sequence.Each G) (step.apply scope s) := by
  cases step with
  | member name => exact Sequence.member_each hG scope.mode name hs
  | wildcardMember => exact Sequence.wildcardMember_each hG scope.mode hs
  | descendant name => exact YieldsOnly.ok (Sequence.descendants_each hG name hs)
  | elements subscripts =>
    exact Sequence.elements_each hG scope.mode
      (fun elements helements => Subscript.chooseAll_each helements _ subscripts) hs
  | filter predicate => exact Sequence.select_each _ (Sequence.unwrap_each hG scope.mode hs)
  | method m => cases hstep

/-! ### Walks -/

/-- A tree that starts at `$` and goes on by accessors and filters, with any subscripts and predicates. -/
inductive Node.IsWalk : Node → Prop
  | start (declared : Option SqlType) : IsWalk (.mk .context declared)
  | step {target : Node} (step : Step) (declared : Option SqlType) :
      target.IsWalk → step.isChoice = true → IsWalk (.mk (step.form target) declared)

/-- A walk yields only items with a hereditary property if the input has it. -/
theorem Node.eval_each_of_isWalk {G : Item → Prop} (hG : Item.Hereditary G) {n : Node}
    (hn : n.IsWalk) {scope : Scope} (hroot : G scope.root) :
    YieldsOnly (Sequence.Each G) (n.eval scope) := by
  induction hn with
  | start declared => exact YieldsOnly.ok (List.forall_mem_singleton.mpr hroot)
  | step step declared _ hstep ih =>
    rw [Step.eval_form]
    exact YieldsOnly.bind ih fun s hs => Step.apply_each hG hstep scope hs

/-- What is made of parts of an item is part of it too. -/
theorem Item.partOf_hereditary (whole : Item) : Item.Hereditary fun x => x.PartOf whole where
  element harray _ hx := (Item.PartOf.element hx .self).trans harray
  member hobject _ hm := (Item.PartOf.member hm .self).trans hobject

/-- **Navigation makes nothing up.** Each item that a walk finds is its input or a part of it, at some
depth. -/
theorem Node.evaluate_yields_parts {n : Node} (hn : n.IsWalk) (mode : Mode) (input : Item)
    (bindings : Bindings) :
    ∀ s, n.evaluate mode input bindings = .ok s → ∀ x ∈ s, x.PartOf input := by
  intro s hs
  unfold Node.evaluate at hs
  split at hs
  · cases hs
  · exact Node.eval_each_of_isWalk (Item.partOf_hereditary input) hn .self s hs

/-- Members at any depth, then a range that is clipped and ends at a parameter, then a filter by size. -/
theorem Node.evaluate_yields_parts_of_descendants :
    let range := Subscript.range (literal (.int 1)) (named "final")
    let tree := filter (subscripted [range] (descendant "a" context))
      (compared .greater (method .size current) (literal (.int 1)))
    let found := Item.array [.int 1, .int 2]
    let input := Item.object [("a", .array [.null, .array [found, .int 3]]), ("b", .object [("a", .null)])]
    let bindings := Bindings.empty.insert "final" (.int 5)
    tree.IsWalk ∧ tree.evaluate .lax input bindings = .ok [found] ∧ found.PartOf input := by
  intro range tree found input bindings
  have hwalk : tree.IsWalk :=
    .step (.filter (compared .greater (method .size current) (literal (.int 1)))) none
      (.step (.elements [range]) none
        (.step (.descendant "a") none (.start none) rfl) rfl) rfl
  have heval : tree.evaluate .lax input bindings = .ok [found] := by rfl
  exact ⟨hwalk, heval, Node.evaluate_yields_parts hwalk .lax input bindings _ heval found
    (List.mem_singleton.mpr rfl)⟩

end PathQuery
