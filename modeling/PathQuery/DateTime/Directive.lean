import PathQuery.DateTime.Fields
import PathQuery.Double.Reading
import PathQuery.Text.Blank

/-!
# Reading dates and times by directives

A layout is a list of directives, each of which takes a part off the front of a text and adds the fields
that the part names. Numbers may have blank characters in front and fewer digits than their width, so
that a layout reads more than one form of a value.

* `Directive.take?` is the step for one directive.
* `Layout.fields?` takes a whole text apart and refuses what is left over.
-/

namespace PathQuery

inductive Directive where
  /-- Exactly these characters. -/
  | literal (text : List Char)
  /-- Any number of blank characters. -/
  | blank
  /-- A number of at most the usual width, after blank characters. -/
  | number (field : Field)
  /-- A number of exactly this many digits. -/
  | digits (field : Field) (count : Nat)
  /-- A month by the first three letters of its name, or by the whole name where that is allowed. -/
  | monthName (whole : Bool)
  /-- A day of the week by three letters, or by the whole name where that is allowed. -/
  | weekdayName (whole : Bool)
  /-- The letters of the half of the day. -/
  | halfOfDay
  /-- A point and a fraction of a second, or nothing; digits after the ninth are dropped. -/
  | fraction
  /-- A fraction with this many digits, after a point or without one. -/
  | fixedFraction (places : Nat) (pointed : Bool)
  /-- The name of a zone, which says nothing. -/
  | zoneName
  /-- A sign, hours and minutes with colons or blanks between them. -/
  | offset
  /-- An offset or a `Z`, whose minutes may be missing. -/
  | looseOffset
  /-- An offset with one colon and under a day, or a `Z`. -/
  | strictOffset
  /-- An offset, a `Z`, or the name of universal time. -/
  | namedOffset
  /-- A `T` or one space between date and time. -/
  | separator
  /-- Nothing matches; it stands where a template cannot be understood. -/
  | unreadable
  deriving DecidableEq

/-- The usual number of digits of a field; a count of seconds has no limit. -/
def Field.width : Field → Option Nat
  | .year | .isoYear => some 4
  | .quarter | .weekdayFromSunday | .weekdayFromMonday => some 1
  | .yearDay => some 3
  | .nanosecond => some 9
  | .unixTime => none
  | _ => some 2

/-- Whether a number may have a sign; digits after a sign are not limited in number. -/
def Field.signed : Field → Bool
  | .year | .isoYear => true
  | _ => false

namespace Directive

/-- At most `most` digits from the front of a text. -/
def leadingDigits (most : Option Nat) (cs : List Char) : List Char :=
  let ds := cs.takeWhile Char.isDigit
  match most with
  | some n => ds.take n
  | none => ds

/-- The number in front of a text and what follows it: from `least` to `most` digits, and a number that
fits in 63 bits. -/
def takeNumber? (least : Nat) (most : Option Nat) (cs : List Char) : Option (Int × List Char) :=
  let ds := leadingDigits most cs
  let n := digitsValue ds
  if ds.length < least ∨ ds.isEmpty ∨ 0x8000000000000000 ≤ n then none else some (n, cs.drop ds.length)

/-- A number with an optional sign where the field admits one. -/
def takeField? (field : Field) (cs : List Char) : Option (Int × List Char) :=
  match field.signed, cs with
  | true, '-' :: cs => (takeNumber? 1 none cs).map fun p => (-p.1, p.2)
  | true, '+' :: cs => takeNumber? 1 none cs
  | _, cs => takeNumber? 1 field.width cs

/-- What follows a name, compared without regard to ASCII case. -/
def takeName? (name : List Char) (cs : List Char) : Option (List Char) :=
  if (cs.take name.length).map Char.toLower = name.map Char.toLower ∧ name.length ≤ cs.length then
    some (cs.drop name.length)
  else none

/-- The place in a list of names of the one that a text begins with: three letters, and the rest of the
name as well if it is there and `whole` names are allowed. -/
def takeNamed? (whole : Bool) (names : List String) (cs : List Char) : Option (Nat × List Char) :=
  (names.zipIdx.findSome? fun p =>
    (takeName? (p.1.toList.take 3) cs).map fun rest => (p.2, p.1.toList.drop 3, rest)).map
  fun (place, suffix, rest) =>
    (place, if whole then (takeName? suffix rest).getD rest else rest)

def monthNames : List String :=
  ["January", "February", "March", "April", "May", "June", "July", "August", "September", "October",
    "November", "December"]

def weekdayNames : List String :=
  ["Monday", "Tuesday", "Wednesday", "Thursday", "Friday", "Saturday", "Sunday"]

/-- The nanoseconds of a fraction; its digits after the ninth are skipped. -/
def takeFraction? (cs : List Char) : Option (Int × List Char) :=
  let ds := leadingDigits (some 9) cs
  if ds.isEmpty then none
  else some ((digitsValue ds * Nat.pow 10 (9 - ds.length) : Nat), cs.dropWhile Char.isDigit)

/-- How the hours and minutes of an offset may be written. -/
structure OffsetForm where
  /-- Whether a `Z` stands for offset zero. -/
  zulu : Bool
  /-- Whether minutes may be missing at the end of the text. -/
  hoursAlone : Bool
  /-- Whether exactly one colon stands between hours and minutes. -/
  oneColon : Bool

/-- What follows the separator between hours and minutes. -/
def OffsetForm.afterHours? (form : OffsetForm) (cs : List Char) : Option (List Char) :=
  if form.oneColon then
    match cs with
    | ':' :: cs => some cs
    | _ => none
  else some (cs.dropWhile fun c => c = ':' || Text.isBlank c)

/-- An offset in seconds. The sign may also be U+2212. -/
def OffsetForm.take? (form : OffsetForm) (cs : List Char) : Option (Int × List Char) :=
  let signed (sign : Int) (cs : List Char) : Option (Int × List Char) :=
    match cs with
    | a :: b :: cs =>
        if a.isDigit && b.isDigit then
          (form.afterHours? cs).bind fun cs =>
            let hours : Int := digitsValue [a, b]
            match cs with
            | c :: d :: rest =>
                if '0' ≤ c && c ≤ '5' && d.isDigit then
                  some (sign * (hours * 3600 + (digitsValue [c, d] : Nat) * 60), rest)
                else none
            | [] => if form.hoursAlone then some (sign * (hours * 3600), []) else none
            | _ => none
        else none
    | _ => none
  match cs with
  | '+' :: cs => signed 1 cs
  | '-' :: cs => signed (-1) cs
  | '\u2212' :: cs => signed (-1) cs
  | 'Z' :: cs | 'z' :: cs => if form.zulu then some (0, cs) else none
  | _ => none

/-- Take off what a directive stands for and add the field that it names. -/
def take? (directive : Directive) (fs : Fields) (cs : List Char) : Option (Fields × List Char) :=
  let withOffset (p : Option (Int × List Char)) : Option (Fields × List Char) := do
    let (seconds, rest) ← p
    return (← fs.putOffset? seconds, rest)
  let withField (field : Field) (p : Option (Int × List Char)) : Option (Fields × List Char) := do
    let (n, rest) ← p
    return (← fs.put? field n, rest)
  match directive with
  | .literal text => if text.isPrefixOf cs then some (fs, cs.drop text.length) else none
  | .blank => some (fs, Text.trimLeft cs)
  | .number field => withField field (takeField? field (Text.trimLeft cs))
  | .digits field count => withField field (takeNumber? count (some count) cs)
  | .monthName whole =>
      withField .month ((takeNamed? whole monthNames cs).map fun p => ((p.1 + 1 : Nat), p.2))
  | .weekdayName whole => do
      let (place, rest) ← takeNamed? whole weekdayNames cs
      return (← fs.putWeekday? place, rest)
  | .halfOfDay =>
      match cs with
      | a :: b :: rest =>
          if b.toLower != 'm' then none
          else if a.toLower = 'a' then (fs.putHalf? false).map fun fs => (fs, rest)
          else if a.toLower = 'p' then (fs.putHalf? true).map fun fs => (fs, rest)
          else none
      | _ => none
  | .fraction =>
      match cs with
      | '.' :: rest => withField .nanosecond (takeFraction? rest)
      | _ => some (fs, cs)
  | .fixedFraction places pointed =>
      let scaled (cs : List Char) :=
        withField .nanosecond
          ((takeNumber? places (some places) cs).map fun p =>
            (p.1 * Nat.pow 10 (9 - places), p.2))
      match pointed, cs with
      | true, '.' :: rest => scaled rest
      | true, cs => some (fs, cs)
      | false, cs => scaled cs
  | .zoneName => some (fs, cs.dropWhile fun c => !Text.isBlank c)
  | .offset => withOffset (OffsetForm.take? ⟨false, false, false⟩ (Text.trimLeft cs))
  | .looseOffset => withOffset (OffsetForm.take? ⟨true, true, false⟩ (Text.trimLeft cs))
  | .strictOffset =>
      withOffset ((OffsetForm.take? ⟨true, false, true⟩ cs).filter fun p => p.1.natAbs < 86400)
  | .namedOffset =>
      let cs := Text.trimLeft cs
      match takeName? "utc".toList cs with
      | some rest => withOffset (some (0, rest))
      | none => withOffset (OffsetForm.take? ⟨true, false, false⟩ cs)
  | .separator =>
      match cs with
      | 'T' :: rest | 't' :: rest | ' ' :: rest => some (fs, rest)
      | _ => none
  | .unreadable => none

end Directive

/-- The directives that a text is read by, in order. -/
abbrev Layout := List Directive

namespace Layout

/-- The fields that a layout finds in a text, after those already known. -/
def fieldsFrom? (fs : Fields) : Layout → List Char → Option Fields
  | [], [] => some fs
  | [], _ :: _ => none
  | d :: ds, cs => (d.take? fs cs).bind fun p => fieldsFrom? p.1 ds p.2

/-- The fields that a layout finds in a whole text. -/
def fields? (layout : Layout) (text : String) : Option Fields :=
  layout.fieldsFrom? {} text.toList

def date? (layout : Layout) (text : String) : Option Date := do
  (← layout.fields? text).date?.toOption

def time? (layout : Layout) (text : String) : Option Time := do
  (← layout.fields? text).time?.toOption

def timestamp? (layout : Layout) (text : String) : Option Timestamp := do
  (← layout.fields? text).timestamp?

def zoned? (layout : Layout) (text : String) : Option ZonedTimestamp := do
  (← layout.fields? text).zoned?

end Layout

end PathQuery
