import PathQuery.DateTime.Directive

/-!
# Templates and the ISO 8601 layouts

A template spells a layout with `%` specifiers. `Template.layout` reads it: blank characters stand for
any run of blanks, other characters for themselves, and a specifier that is not known makes the layout
unreadable.

* `DateTime.ofTemplate?` reads a text by a template as the most specific kind of value that its fields
  determine.
* `DateTime.ofIso?` reads the ISO 8601 forms of all four kinds.
-/

namespace PathQuery

namespace Template

/-- The specifiers of one number, the only ones that admit a padding mark. -/
def field? : Char → Option Field
  | 'Y' => some .year
  | 'C' => some .century
  | 'y' => some .yearOfCentury
  | 'G' => some .isoYear
  | 'g' => some .isoYearOfCentury
  | 'q' => some .quarter
  | 'm' => some .month
  | 'd' | 'e' => some .day
  | 'U' => some .weekFromSunday
  | 'W' => some .weekFromMonday
  | 'V' => some .isoWeek
  | 'w' => some .weekdayFromSunday
  | 'u' => some .weekdayFromMonday
  | 'j' => some .yearDay
  | 'H' | 'k' => some .hour
  | 'I' | 'l' => some .hour12
  | 'M' => some .minute
  | 'S' => some .second
  | 'f' => some .nanosecond
  | 's' => some .unixTime
  | _ => none

/-- Fields with the same directives between them. -/
def between (directives : Layout) (fields : List Field) : Layout :=
  ((fields.map fun field => [Directive.number field]).intersperse directives).flatten

/-- Fields with the same character between them. -/
def joined (mark : Char) (fields : List Field) : Layout :=
  between [.literal [mark]] fields

/-- Fields with the same character between them, which may have blanks in front. -/
def loose (mark : Char) (fields : List Field) : Layout :=
  between [.blank, .literal [mark]] fields

def monthDayYear : Layout := joined '/' [.month, .day, .yearOfCentury]

def yearMonthDay : Layout := joined '-' [.year, .month, .day]

def clock : Layout := joined ':' [.hour, .minute, .second]

/-- What a specifier of one letter stands for. -/
def specifier (c : Char) : Layout :=
  match field? c with
  | some field => [.number field]
  | none =>
      match c with
      | 'A' => [.weekdayName true]
      | 'a' => [.weekdayName false]
      | 'B' => [.monthName true]
      | 'b' | 'h' => [.monthName false]
      | 'P' | 'p' => [.halfOfDay]
      | 'D' | 'x' => monthDayYear
      | 'F' => yearMonthDay
      | 'R' => joined ':' [.hour, .minute]
      | 'T' | 'X' => clock
      | 'r' => joined ':' [.hour12, .minute, .second] ++ [.blank, .halfOfDay]
      | 'v' => [.number .day, .literal ['-'], .monthName false, .literal ['-'], .number .year]
      | 'c' =>
          [.weekdayName false, .blank, .monthName false, .blank, .number .day, .blank] ++ clock ++
            [.blank, .number .year]
      | '+' =>
          loose '-' [.year, .month, .day] ++ .separator :: loose ':' [.hour, .minute, .second] ++
            [.fraction, .blank, .namedOffset]
      | 'Z' => [.zoneName]
      | 'z' => [.offset]
      | 'n' | 't' => [.blank]
      | '%' => [.literal ['%']]
      | _ => [.unreadable]

/-- A number with a padding mark, which makes no difference to reading. -/
def padded (c : Char) : Directive :=
  match field? c with
  | some field => .number field
  | none => .unreadable

/-- The layout that a template spells. -/
def layout : List Char → Layout
  | [] => []
  | ['%'] => [.unreadable]
  | '%' :: '-' :: c :: rest => padded c :: layout rest
  | '%' :: '0' :: c :: rest => padded c :: layout rest
  | '%' :: '_' :: c :: rest => padded c :: layout rest
  | '%' :: '#' :: 'z' :: rest => .looseOffset :: layout rest
  | '%' :: ':' :: 'z' :: rest => .offset :: layout rest
  | '%' :: ':' :: ':' :: 'z' :: rest => .offset :: layout rest
  | '%' :: ':' :: ':' :: ':' :: 'z' :: rest => .offset :: layout rest
  | '%' :: '.' :: 'f' :: rest => .fraction :: layout rest
  | '%' :: '.' :: '3' :: 'f' :: rest => .fixedFraction 3 true :: layout rest
  | '%' :: '.' :: '6' :: 'f' :: rest => .fixedFraction 6 true :: layout rest
  | '%' :: '.' :: '9' :: 'f' :: rest => .fixedFraction 9 true :: layout rest
  | '%' :: '3' :: 'f' :: rest => .fixedFraction 3 false :: layout rest
  | '%' :: '6' :: 'f' :: rest => .fixedFraction 6 false :: layout rest
  | '%' :: '9' :: 'f' :: rest => .fixedFraction 9 false :: layout rest
  | '%' :: c :: rest => specifier c ++ layout rest
  | c :: rest => (if Text.isBlank c then .blank else .literal [c]) :: layout rest

end Template

namespace DateTime

/-- Read a text by a template: as a timestamp with an offset, a timestamp, a date or a time, the first
that the fields determine. -/
def ofTemplate? (template text : String) : Option DateTime :=
  (Layout.fields? (Template.layout template.toList) text).bind fun fs =>
    (fs.zoned?.map DateTime.zoned).or <|
    (fs.timestamp?.map DateTime.timestamp).or <|
    (fs.date?.toOption.map DateTime.date).or <|
    fs.time?.toOption.map DateTime.time

/-! ### ISO 8601 -/

/-- Every field with all its digits, and an offset. -/
def internetLayout : Layout :=
  [.digits .year 4, .literal ['-'], .digits .month 2, .literal ['-'], .digits .day 2, .separator,
    .digits .hour 2, .literal [':'], .digits .minute 2, .literal [':'], .digits .second 2, .fraction,
    .strictOffset]

def dateLayout : Layout := Template.yearMonthDay

def timeLayout : Layout := Template.clock ++ [.fraction]

/-- Date and time with a separator between them. -/
def timestampLayout (middle : Directive) : Layout :=
  dateLayout ++ middle :: timeLayout

def zonedLayout (middle : Directive) : Layout :=
  timestampLayout middle ++ [.offset]

/-- Read one of the ISO 8601 forms. -/
def ofIso? (text : String) : Option DateTime :=
  ((internetLayout.zoned? text).map DateTime.zoned).or <|
  (((zonedLayout (.literal ['T'])).zoned? text).map DateTime.zoned).or <|
  (((zonedLayout .blank).zoned? text).map DateTime.zoned).or <|
  (((timestampLayout (.literal ['T'])).timestamp? text).map DateTime.timestamp).or <|
  (((timestampLayout .blank).timestamp? text).map DateTime.timestamp).or <|
  ((dateLayout.date? text).map DateTime.date).or <|
  (timeLayout.time? text).map DateTime.time

end DateTime

end PathQuery
