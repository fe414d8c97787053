import PathQuery.Json.Basic
import PathQuery.Sql.Value

/-!
# Behaviors on empty results and on errors

A call says what stands in for an empty result and for an error: SQL null, a fixed value, or the error
itself. Each function has its own list of these; all of them are a `Behavior`.
-/

namespace PathQuery

/-- What stands in for a missing result. -/
inductive Behavior (α : Type) where
  | null
  | error
  | value (a : α)
  deriving DecidableEq

namespace Behavior

variable {α ε : Type}

/-- Whether the error itself is the result. -/
def raises : Behavior α → Bool
  | .error => true
  | _ => false

/-- The result of a failure; `none` is SQL null. -/
def fallback (b : Behavior α) (e : ε) : Except ε (Option α) :=
  match b with
  | .null => .ok none
  | .error => .error e
  | .value a => .ok (some a)

/-- A result as it is, and the behavior in place of a failure. -/
def resolve (b : Behavior α) : Except ε α → Except ε (Option α)
  | .ok a => .ok (some a)
  | .error e => b.fallback e

@[simp] theorem resolve_ok (b : Behavior α) (a : α) :
    b.resolve (.ok a : Except ε α) = .ok (some a) := rfl

theorem fallback_eq_error_iff (b : Behavior α) (e e' : ε) :
    b.fallback e = .error e' ↔ b.raises = true ∧ e' = e := by
  cases b <;> simp [fallback, raises, eq_comm]

theorem fallback_eq_some_iff (b : Behavior α) (e : ε) (a : α) :
    b.fallback e = .ok (some a) ↔ b = .value a := by
  cases b <;> simp [fallback]

end Behavior

inductive ExistsBehavior where
  | false | true | unknown | error
  deriving DecidableEq

def ExistsBehavior.behavior : ExistsBehavior → Behavior Bool
  | .false => .value Bool.false
  | .true => .value Bool.true
  | .unknown => .null
  | .error => .error

inductive ValueBehavior where
  | null | error
  | default (v : SqlValue)
  deriving DecidableEq

def ValueBehavior.behavior : ValueBehavior → Behavior SqlValue
  | .null => .null
  | .error => .error
  | .default v => .value v

inductive QueryBehavior where
  | null | error | emptyArray | emptyObject
  deriving DecidableEq

def QueryBehavior.behavior : QueryBehavior → Behavior Json
  | .null => .null
  | .error => .error
  | .emptyArray => .value (.array [])
  | .emptyObject => .value (.object [])

end PathQuery
