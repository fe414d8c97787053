import PathQuery.Json.Token

/-!
# The structure of JSON texts

A `Draft` is the structure of a text by the grammar alone: nothing in it is too deep, and a string or a
number may have no value. `Building.step?` feeds tokens one at a time to a stack of containers that are
still open.

* `Draft.ofText?` is the structure of a text.
* `Draft.value?` is the value of a draft in which what has no value is replaced by a given one.
-/

namespace PathQuery.Json

/-- The structure of a text. -/
inductive Draft where
  /-- A string, a number or a name, with its value if it has one. -/
  | scalar (value : Option Json)
  | array (elements : List Draft)
  | object (members : List (Option String × Draft))

/-- A container that is still open, with what it holds so far in reverse; an object also has the name of
the member whose value is being read. -/
inductive Container where
  | array (elements : List Draft)
  | object (members : List (Option String × Draft)) (name : Option String)

/-- What has been read and what may follow, inside the containers that are `outer` to it. -/
inductive Building where
  /-- A value must follow. -/
  | value (outer : List Container)
  /-- The first element of an array or its end. -/
  | element (outer : List Container)
  /-- A member name, or the end of an object without members. -/
  | name (members : List (Option String × Draft)) (outer : List Container)
  /-- The colon after a member name. -/
  | colon (members : List (Option String × Draft)) (name : Option String) (outer : List Container)
  /-- A value has just ended. -/
  | done (value : Draft) (outer : List Container)

namespace Building

/-- A token where a value must stand. -/
def open? (outer : List Container) : Token → Option Building
  | .text s => some (.done (.scalar (s.map Json.string)) outer)
  | .word v => some (.done (.scalar v) outer)
  | .openArray => some (.element outer)
  | .openObject => some (.name [] outer)
  | _ => none

/-- The state after one more token. -/
def step? : Building → Token → Option Building
  | .value outer, token => open? outer token
  | .element outer, .closeArray => some (.done (.array []) outer)
  | .element outer, token => open? (.array [] :: outer) token
  | .name [] outer, .closeObject => some (.done (.object []) outer)
  | .name members outer, .text key => some (.colon members key outer)
  | .colon members key outer, .colon => some (.value (.object members key :: outer))
  | .done v (.array vs :: outer), .comma => some (.value (.array (v :: vs) :: outer))
  | .done v (.array vs :: outer), .closeArray => some (.done (.array (v :: vs).reverse) outer)
  | .done v (.object ms key :: outer), .comma => some (.name ((key, v) :: ms) outer)
  | .done v (.object ms key :: outer), .closeObject =>
      some (.done (.object ((key, v) :: ms).reverse) outer)
  | _, _ => none

/-- The draft of a whole text. -/
def finished? : Building → Option Draft
  | .done v [] => some v
  | _ => none

end Building

namespace Draft

/-- The structure of a text. -/
def ofText? (text : String) : Option Draft := do
  let tokens ← tokens? [] text.toList
  let last ← tokens.foldlM Building.step? (.value [])
  last.finished?

mutual

/-- The value of a draft. A container that is deeper than `depth` levels, a scalar without a value, and an
object with a member whose name has no value all become `gap`. Without a gap a draft has a value only if
everything in it has one. -/
def value? (gap : Option Json) (depth : Nat) : Draft → Option Json
  | .scalar v => v.or gap
  | .array elements =>
      match depth with
      | 0 => gap
      | depth + 1 => ((elementValues? gap depth elements).map Json.array).or gap
  | .object members =>
      match depth with
      | 0 => gap
      | depth + 1 => ((memberValues? gap depth members).map Json.object).or gap

def elementValues? (gap : Option Json) (depth : Nat) : List Draft → Option (List Json)
  | [] => some []
  | v :: vs => do return (← value? gap depth v) :: (← elementValues? gap depth vs)

def memberValues? (gap : Option Json) (depth : Nat) :
    List (Option String × Draft) → Option (List (String × Json))
  | [] => some []
  | (name, v) :: ms => do
      return (← name, ← value? gap depth v) :: (← memberValues? gap depth ms)

end

end Draft

end PathQuery.Json
