import PathQuery.Double.Reading
import PathQuery.Json.Basic

/-!
# JSON tokens

`Json.tokens?` cuts a text into brackets, commas, colons, strings and words. A string or a number can be
well formed and still have no value: a surrogate without a partner is no character, and a number beyond
the finite doubles is no number. Such a token is kept, and its readers decide what becomes of it.
-/

namespace PathQuery.Json

inductive Token where
  | openArray
  | closeArray
  | openObject
  | closeObject
  | comma
  | colon
  /-- A string, with its characters unless a surrogate in it has no partner. -/
  | text (value : Option String)
  /-- A number or a word, with its value unless that is beyond the doubles. -/
  | word (value : Option Json)

/-! ### Strings -/

def hexDigit? (c : Char) : Option Nat :=
  if c.isDigit then some (c.toNat - '0'.toNat)
  else if 'a' ≤ c ∧ c ≤ 'f' then some (c.toNat - 'a'.toNat + 10)
  else if 'A' ≤ c ∧ c ≤ 'F' then some (c.toNat - 'A'.toNat + 10)
  else none

/-- The sixteen-bit unit that four hexadecimal digits denote. -/
def hexUnit? (a b c d : Char) : Option Nat := do
  let a ← hexDigit? a
  let b ← hexDigit? b
  let c ← hexDigit? c
  let d ← hexDigit? d
  return ((a * 16 + b) * 16 + c) * 16 + d

/-- The character of a one-letter escape. -/
def shortEscape? : Char → Option Char
  | '"' => some '"'
  | '\\' => some '\\'
  | '/' => some '/'
  | 'b' => some '\x08'
  | 'f' => some '\x0c'
  | 'n' => some '\n'
  | 'r' => some '\r'
  | 't' => some '\t'
  | _ => none

def isHighSurrogate (unit : Nat) : Bool := 0xD800 ≤ unit && unit < 0xDC00

def isLowSurrogate (unit : Nat) : Bool := 0xDC00 ≤ unit && unit < 0xE000

/-- The character that a high and a low surrogate denote together. -/
def surrogatePair (high low : Nat) : Char :=
  Char.ofNat (0x10000 + (high - 0xD800) * 0x400 + (low - 0xDC00))

/-- The code points up to the closing quote, with the text after it. Control characters must be escaped;
an escaped surrogate is a code point of its own. -/
def stringBody? (read : List Nat) : List Char → Option (List Nat × List Char)
  | [] => none
  | c :: rest =>
      if c = '"' then some (read.reverse, rest)
      else if c = '\\' then
        match rest with
        | 'u' :: a :: b :: c :: d :: rest =>
            match hexUnit? a b c d with
            | some unit => stringBody? (unit :: read) rest
            | none => none
        | e :: rest =>
            match shortEscape? e with
            | some c => stringBody? (c.toNat :: read) rest
            | none => none
        | [] => none
      else if c.toNat < 0x20 then none
      else stringBody? (c.toNat :: read) rest

theorem stringBody?_length {read body : List Nat} {cs rest : List Char}
    (h : stringBody? read cs = some (body, rest)) : rest.length < cs.length := by
  fun_induction stringBody? read cs <;> simp_all <;> omega

/-- The characters of code points after those `read`; a surrogate needs its partner next to it. -/
def characters? (read : List Char) : List Nat → Option (List Char)
  | [] => some read.reverse
  | unit :: rest =>
      if isHighSurrogate unit then
        match rest with
        | low :: rest =>
            if isLowSurrogate low then characters? (surrogatePair unit low :: read) rest else none
        | [] => none
      else if isLowSurrogate unit then none
      else characters? (Char.ofNat unit :: read) rest

/-! ### Numbers and words -/

/-- Whether the digits of a numeral are as the format asks: at least one before the point, no zero in front
of others, and at least one after the point. -/
def isNumber (n : Numeral) : Bool :=
  !n.whole.isEmpty && n.fraction != some [] && (n.whole.head? != some '0' || n.whole.length = 1)

/-- A coefficient with digits appended to it for as long as it fits in 64 bits, and the digits left over. -/
def appendDigits (coefficient : Nat) : List Char → Nat × List Char
  | [] => (coefficient, [])
  | c :: cs =>
      let longer := 10 * coefficient + (c.toNat - '0'.toNat)
      if longer < 0x10000000000000000 then appendDigits longer cs else (coefficient, c :: cs)

/-- A double times a power of ten. The powers up to `10 ^ 308` are within the doubles; a product with a
greater one counts as beyond them, and a quotient by a greater one takes several divisions. -/
def scaleByTen (x : Double) (exponent : Int) : Double :=
  if exponent.natAbs ≤ 308 then
    let power := Double.ofInt (Nat.pow 10 exponent.natAbs)
    if 0 ≤ exponent then x.mul power else x.div power
  else if x.isZero then x
  else if 0 ≤ exponent then .infinite x.isNegative
  else scaleByTen (x.div (Double.ofInt (Nat.pow 10 308))) (exponent + 308)
termination_by exponent.natAbs

/-- The double that a numeral is read as: the leading digits that fit in 64 bits as a double, times or over
a power of ten. It rounds more than once, so it need not be the nearest double. The digits of the fraction
go on where those before the point stopped, even where one of those was left out. -/
def readDouble (n : Numeral) : Double :=
  let fraction := n.fraction.getD []
  let (whole, wholeLeft) := appendDigits 0 n.whole
  let (coefficient, fractionLeft) := appendDigits whole fraction
  let exponent : Int := n.exponent.getD 0 + wholeLeft.length + fractionLeft.length - fraction.length
  let x := scaleByTen (Double.ofInt coefficient) exponent
  if n.negative then x.neg else x

/-- The value of a numeral. Integers outside the 64-bit ranges, and minus zero, are doubles; a number
beyond the finite doubles has no value. -/
def numberValue? (n : Numeral) : Option Json :=
  let size : Int := digitsValue n.whole
  let value := if n.negative then -size else size
  let integral := n.fraction.isNone && n.exponent.isNone
  if integral && -0x8000000000000000 ≤ value && value < 0x10000000000000000 &&
      !(n.negative && size = 0) then
    some (.int value)
  else
    let x := readDouble n
    if x.isFinite then some (.float x) else none

/-- The number that a word spells, with its value. -/
def number? (word : List Char) : Option Token :=
  let numeral :=
    match word with
    | '-' :: cs => Numeral.ofUnsigned? true cs
    | cs => Numeral.ofUnsigned? false cs
  (numeral.filter isNumber).map fun n => .word (numberValue? n)

/-- The number or the name that a word spells. -/
def word? (word : List Char) : Option Token :=
  match String.ofList word with
  | "null" => some (.word (some .null))
  | "true" => some (.word (some (.bool true)))
  | "false" => some (.word (some (.bool false)))
  | _ => number? word

/-! ### Tokens -/

def isBlank (c : Char) : Bool :=
  c = ' ' || c = '\t' || c = '\n' || c = '\r'

def punctuation? : Char → Option Token
  | '[' => some .openArray
  | ']' => some .closeArray
  | '{' => some .openObject
  | '}' => some .closeObject
  | ',' => some .comma
  | ':' => some .colon
  | _ => none

def isWordChar (c : Char) : Bool :=
  !isBlank c && (punctuation? c).isNone && c != '"'

/-- The tokens of a text, after those already `read`. -/
def tokens? (read : List Token) : List Char → Option (List Token)
  | [] => some read.reverse
  | c :: cs =>
      if isBlank c then tokens? read cs
      else if c = '"' then
        match h : stringBody? [] cs with
        | none => none
        | some (body, rest) =>
            have : rest.length < cs.length := stringBody?_length h
            tokens? (.text ((characters? [] body).map String.ofList) :: read) rest
      else
        match punctuation? c with
        | some token => tokens? (token :: read) cs
        | none =>
            match word? (c :: cs.takeWhile isWordChar) with
            | none => none
            | some token =>
                have : (cs.dropWhile isWordChar).length ≤ cs.length :=
                  (List.dropWhile_suffix _).length_le
                tokens? (token :: read) (cs.dropWhile isWordChar)
termination_by cs => cs.length

end PathQuery.Json
