import PathQuery.Json.Draft

/-!
# Reading JSON text

* `Json.read?` is the value of a text, with the member names of every object distinct. Everything in the
  text must have a value, and containers can be nested as deep as a limit says.
* `Json.readAround?` is for readers that pass over members which they do not know. It keeps repeated names
  as they are written, and puts `Json.unreadable` where a text has no value.
-/

namespace PathQuery.Json

/-- The usual limit on the number of containers that are open at once. -/
def usualDepth : Nat := 127

/-- The value of a text with at most `depth` levels of nesting. -/
def readWithin? (depth : Nat) (text : String) : Option Json :=
  ((Draft.ofText? text).bind (Draft.value? none depth)).map distinct

/-- The value of a text. -/
def read? (text : String) : Option Json :=
  readWithin? usualDepth text

/-- What stands for a part of a text that has no value. A reader that wants a scalar, an element or a
member finds none in it. -/
def unreadable : Json := .object []

/-- The value of a text around the parts that have none. -/
def readAround? (text : String) : Option Json :=
  (Draft.ofText? text).bind (Draft.value? (some unreadable) usualDepth)

end PathQuery.Json
