import PathQuery.DateTime.Template
import PathQuery.Eval.Error
import PathQuery.Sequence

/-!
# Path steps

A step takes a sequence to a sequence, item by item. Accessors and methods are defined here on one item
and on sequences; steps that look at whole nodes, such as filters, are part of evaluation.

* `Sequence.member`, `Sequence.wildcardMember` and `Sequence.descendants` go to the members of objects.
* `Item.element`, `Item.elementRange` and `Item.lastElement` choose elements of an array.
* `Sequence.method` applies a method; all methods but `type` and `size` unwrap arrays first.
-/

namespace PathQuery

/-- Nothing in lax mode, an error in strict mode. -/
def Mode.orError (mode : Mode) (e : EvalError) : Except EvalError Sequence :=
  match mode with
  | .lax => .ok []
  | .strict => .error e

/-! ### Members -/

/-- The value of one member of an object. -/
def Item.member (mode : Mode) (name : String) : Item → Except EvalError Sequence
  | .object members =>
      match Entries.get? name members with
      | some x => .ok [x]
      | none => mode.orError (.memberNotFound name)
  | x => mode.orError (.memberOfNonObject name x.type)

/-- The values of all members of an object. -/
def Item.wildcardMember (mode : Mode) : Item → Except EvalError Sequence
  | .object members => .ok (members.map Prod.snd)
  | x => mode.orError (.wildcardOfNonObject x.type)

mutual

/-- The values of all members of a name at any depth, each before those inside it. -/
def Item.descendants (name : String) : Item → List Item
  | .object members => Item.memberDescendants name members
  | .array elements => Item.elementDescendants name elements
  | .null | .boolean _ | .number _ | .string _ | .datetime _ | .failure => []

def Item.elementDescendants (name : String) : List Item → List Item
  | [] => []
  | x :: xs => x.descendants name ++ Item.elementDescendants name xs

def Item.memberDescendants (name : String) : List (String × Item) → List Item
  | [] => []
  | (key, x) :: ms =>
      (if key = name then [x] else []) ++ x.descendants name ++ Item.memberDescendants name ms

end

namespace Sequence

def member (mode : Mode) (name : String) (s : Sequence) : Except EvalError Sequence :=
  (s.unwrap mode).collect (Item.member mode name)

def wildcardMember (mode : Mode) (s : Sequence) : Except EvalError Sequence :=
  (s.unwrap mode).collect (Item.wildcardMember mode)

def descendants (name : String) (s : Sequence) : Sequence :=
  s.flatMap (Item.descendants name)

end Sequence

/-! ### Elements -/

/-- The element at a position. -/
def Item.element (mode : Mode) (elements : List Item) (position : Nat) :
    Except EvalError Sequence :=
  match elements[position]? with
  | some x => .ok [x]
  | none => mode.orError (.indexOutOfBounds position elements.length)

/-- The elements from one position to another, both included. Lax mode takes those that exist. -/
def Item.elementRange (mode : Mode) (elements : List Item) (first final : Nat) :
    Except EvalError Sequence :=
  if mode = .strict ∧ (final < first ∨ elements.length ≤ final) then
    .error (.rangeOutOfBounds first final elements.length)
  else .ok ((elements.take (final + 1)).drop first)

def Item.lastElement (mode : Mode) (elements : List Item) : Except EvalError Sequence :=
  match elements.getLast? with
  | some x => .ok [x]
  | none => mode.orError (.lastOutOfBounds elements.length)

/-! ### Methods -/

namespace Item

def size (mode : Mode) : Item → Except EvalError Sequence
  | .array elements => .ok [.int (.ofNat elements.length)]
  | x =>
      match mode with
      | .lax => .ok [.int 1]
      | .strict => .error (.sizeOfNonArray x.type)

/-- A number or the number that a trimmed text denotes, as a finite double. -/
def double : Item → Except EvalError Sequence
  | .number n => finite n.toDouble
  | .string s =>
      match Double.ofText? (Text.trim s) with
      | some x => finite x
      | none => .error (.unreadableNumber s)
  | x => .error (.doubleOfOther x.type)
where
  finite (x : Double) : Except EvalError Sequence :=
    if x.isFinite then .ok [.float x] else .error (.notFinite x)

/-- A rounding of numbers, which leaves integers as they are. -/
def rounded (method : Method) (f : Double → Double) : Item → Except EvalError Sequence
  | .number (.int n) => .ok [.int n]
  | .number (.float x) => .ok [.float (f x)]
  | x => .error (.methodOfNonNumber method x.type)

def abs : Item → Except EvalError Sequence
  | .number (.int n) =>
      match int64? (max n.toInt (-n.toInt)) with
      | some m => .ok [.int m]
      | none => .error (.absOverflow n)
  | .number (.float x) => .ok [.float x.abs]
  | x => .error (.methodOfNonNumber .abs x.type)

/-- The date and time value of a text. -/
def readDatetime (template : Option String) : Item → Except EvalError Sequence
  | .string s =>
      let value := match template with
        | some t => DateTime.ofTemplate? t s
        | none => DateTime.ofIso? s
      match value with
      | some d => .ok [.datetime d]
      | none => .error (.unreadableDatetime s)
  | x => .error (.datetimeOfNonString x.type)

/-- The entries of one object: a key, its value, and the number of the object. -/
def keyValues (id : Nat) : Item → Except EvalError Sequence
  | .object members =>
      .ok (members.map fun m =>
        .object [("key", .string m.1), ("value", m.2), ("id", .int (.ofNat id))])
  | x => .error (.keyValueOfNonObject x.type)

end Item

namespace Sequence

/-- The entries of objects that are numbered from `id` on. -/
def keyValues (id : Nat) : Sequence → Except EvalError Sequence
  | [] => .ok []
  | x :: xs =>
      match x.keyValues id with
      | .error e => .error e
      | .ok entries => (keyValues (id + 1) xs).map (entries ++ ·)

def method (mode : Mode) (m : Method) (s : Sequence) : Except EvalError Sequence :=
  match m with
  | .type => .ok (s.map fun x => .string x.type.name)
  | .size => s.collect (Item.size mode)
  | .double => (s.unwrap mode).collect Item.double
  | .ceiling => (s.unwrap mode).collect (Item.rounded .ceiling Double.ceil)
  | .floor => (s.unwrap mode).collect (Item.rounded .floor Double.floor)
  | .abs => (s.unwrap mode).collect Item.abs
  | .keyValue => keyValues 0 (s.unwrap mode)
  | .datetime template => (s.unwrap mode).collect (Item.readDatetime template)

end Sequence

end PathQuery
