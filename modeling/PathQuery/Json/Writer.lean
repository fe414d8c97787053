import PathQuery.Double.Shortest
import PathQuery.Json.Basic

/-!
# Writing JSON text

`Json.pretty` writes a value with two spaces for each level of nesting. Strings escape quotes,
backslashes and the characters below U+0020 only. A double has its fewest digits, positionally from
`1e-5` up to `1e16` and with an exponent elsewhere, and it always shows a point or an exponent.
-/

namespace PathQuery.Json

/-! ### Scalars -/

/-- The escape of a character below U+0020 without a short form. -/
def unitEscape (c : Char) : List Char :=
  ['\\', 'u', '0', '0', Nat.digitChar (c.toNat / 16), Nat.digitChar (c.toNat % 16)]

def escapeChar (c : Char) : List Char :=
  match c with
  | '"' => ['\\', '"']
  | '\\' => ['\\', '\\']
  | '\x08' => ['\\', 'b']
  | '\x0c' => ['\\', 'f']
  | '\n' => ['\\', 'n']
  | '\r' => ['\\', 'r']
  | '\t' => ['\\', 't']
  | c => if c.toNat < 0x20 then unitEscape c else [c]

/-- A string between quotes. -/
def quote (s : String) : String :=
  String.ofList ('"' :: s.toList.flatMap escapeChar ++ ['"'])

/-- Digits with the point after the first and a signed exponent. -/
def scientific (ds : List Char) (power : Int) : String :=
  let fraction := if ds.tail.isEmpty then [] else '.' :: ds.tail
  let sign := if power < 0 then '-' else '+'
  String.ofList (ds.take 1 ++ fraction ++ 'e' :: sign :: Nat.toDigits 10 power.natAbs)

/-- A finite double. -/
def floatText (x : Double) : String :=
  let d := x.shortest .even
  let ds := Nat.toDigits 10 d.digits
  let point : Int := ds.length + d.exponent
  if d.digits = 0 then x.signed "0.0"
  else if point ≤ -5 ∨ 16 < point then x.signed (scientific ds (point - 1))
  else if 0 ≤ d.exponent then x.signed (d.positional ++ ".0")
  else x.signed d.positional

/-! ### Values -/

/-- The spaces in front of a line. -/
def indentation (level : Nat) : String :=
  String.ofList (List.replicate (2 * level) ' ')

/-- The lines of a container between its brackets, or just the brackets when it is empty. -/
def block (level : Nat) (opening closing : String) (lines : List String) : String :=
  if lines.isEmpty then opening ++ closing
  else
    opening ++ "\n" ++ String.intercalate ",\n" (lines.map (indentation (level + 1) ++ ·)) ++ "\n" ++
      indentation level ++ closing

mutual

/-- A value at a level of nesting. -/
def prettyAt (level : Nat) : Json → String
  | .null => "null"
  | .bool b => if b then "true" else "false"
  | .int n => toString n
  | .float x => if x.isFinite then floatText x else "null"
  | .string s => quote s
  | .array elements => block level "[" "]" (prettyElements (level + 1) elements)
  | .object members => block level "\x7b" "\x7d" (prettyMembers (level + 1) members)

def prettyElements (level : Nat) : List Json → List String
  | [] => []
  | v :: vs => v.prettyAt level :: prettyElements level vs

def prettyMembers (level : Nat) : List (String × Json) → List String
  | [] => []
  | (name, v) :: ms => (quote name ++ ": " ++ v.prettyAt level) :: prettyMembers level ms

end

/-- A value as indented text. -/
def pretty (v : Json) : String :=
  v.prettyAt 0

end PathQuery.Json
