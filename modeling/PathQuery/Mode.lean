/-!
# Modes

A path is evaluated in lax or in strict mode. Lax mode replaces arrays by their elements, one level
deep, in front of each step that does not work on arrays.
-/

namespace PathQuery

inductive Mode where
  | lax
  | strict
  deriving DecidableEq

/-- When the arrays of a sequence are replaced by their elements. -/
inductive Unwrapping where
  | never
  | oneLevelEachStep
  deriving DecidableEq

namespace Mode

def name : Mode → String
  | .lax => "lax"
  | .strict => "strict"

def unwrapping : Mode → Unwrapping
  | .lax => .oneLevelEachStep
  | .strict => .never

end Mode

end PathQuery
