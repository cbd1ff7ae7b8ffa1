import UiMarkdown.Calendar.Moment
import UiMarkdown.Number.Decimal

/-!
# Date patterns

A pattern is text in which a percent sign and a letter stand for a part of a
date or a time.  Between the two, `-`, `_` or `0` choose how a number is filled
up to its usual width.
-/

namespace UiMarkdown

/-- How a number is filled up to its width. -/
inductive Fill where
  | none
  | space
  | zero
  deriving DecidableEq, Repr

inductive DateField where
  | year | century | yearOfCentury | isoYear | isoYearOfCentury | quarter | month | day
  | dayOfYear | weekFromSunday | weekFromMonday | isoWeek | daysFromSunday | daysFromMonday
  | hour | hour12 | minute | second | nanosecond | seconds
  deriving DecidableEq, Repr

/-- How the distance from universal time is written. -/
inductive OffsetForm where
  | plain | colon | colons | hours
  deriving DecidableEq, Repr

inductive DateItem where
  | literal (c : Char)
  | number (field : DateField) (fill : Fill)
  | weekday (short : Bool)
  | month (short : Bool)
  | halfDay (lower : Bool)
  | fraction
  | places (count : Nat) (point : Bool)
  | zone
  | offset (form : OffsetForm)
  | timestamp
  deriving DecidableEq, Repr

namespace DateItem

def zeroed (field : DateField) : DateItem := .number field .zero

def separated (c : Char) (items : List DateItem) : List DateItem :=
  [DateItem.literal c].intercalate (items.map ([·]))

def isoDate : List DateItem :=
  separated '-' [zeroed .year, zeroed .month, zeroed .day]

def slashDate : List DateItem :=
  separated '/' [zeroed .month, zeroed .day, zeroed .yearOfCentury]

def clock : List DateItem :=
  separated ':' [zeroed .hour, zeroed .minute]

def longClock : List DateItem :=
  separated ':' [zeroed .hour, zeroed .minute, zeroed .second]

def ofLetter? (c : Char) : Option (List DateItem) :=
  match c with
  | 'A' => some [.weekday false]
  | 'B' => some [.month false]
  | 'C' => some [zeroed .century]
  | 'D' => some slashDate
  | 'F' => some isoDate
  | 'G' => some [zeroed .isoYear]
  | 'H' => some [zeroed .hour]
  | 'I' => some [zeroed .hour12]
  | 'M' => some [zeroed .minute]
  | 'P' => some [.halfDay true]
  | 'R' => some clock
  | 'S' => some [zeroed .second]
  | 'T' => some longClock
  | 'U' => some [zeroed .weekFromSunday]
  | 'V' => some [zeroed .isoWeek]
  | 'W' => some [zeroed .weekFromMonday]
  | 'X' => some longClock
  | 'Y' => some [zeroed .year]
  | 'Z' => some [.zone]
  | 'a' => some [.weekday true]
  | 'b' => some [.month true]
  | 'h' => some [.month true]
  | 'c' =>
      some (separated ' ' [.weekday true, .month true, .number .day .space] ++
        .literal ' ' :: longClock ++ [.literal ' ', zeroed .year])
  | 'd' => some [zeroed .day]
  | 'e' => some [.number .day .space]
  | 'f' => some [zeroed .nanosecond]
  | 'g' => some [zeroed .isoYearOfCentury]
  | 'j' => some [zeroed .dayOfYear]
  | 'k' => some [.number .hour .space]
  | 'l' => some [.number .hour12 .space]
  | 'm' => some [zeroed .month]
  | 'n' => some [.literal '\n']
  | 'p' => some [.halfDay false]
  | 'q' => some [.number .quarter .none]
  | 'r' =>
      some (separated ':' [zeroed .hour12, zeroed .minute, zeroed .second] ++
        [.literal ' ', .halfDay false])
  | 's' => some [.number .seconds .none]
  | 't' => some [.literal '\t']
  | 'u' => some [.number .daysFromMonday .none]
  | 'v' => some (separated '-' [.number .day .space, .month true, zeroed .year])
  | 'w' => some [.number .daysFromSunday .none]
  | 'x' => some slashDate
  | 'y' => some [zeroed .yearOfCentury]
  | 'z' => some [.offset .plain]
  | '+' => some [.timestamp]
  | '%' => some [.literal '%']
  | _ => none

def placesOf? (c : Char) : Option Nat :=
  if c == '3' then some 3 else if c == '6' then some 6 else if c == '9' then some 9 else none

def readDirective? (s : List Char) : Option (List DateItem × List Char) :=
  match s with
  | ':' :: ':' :: ':' :: 'z' :: rest => some ([.offset .hours], rest)
  | ':' :: ':' :: 'z' :: rest => some ([.offset .colons], rest)
  | ':' :: 'z' :: rest => some ([.offset .colon], rest)
  | '.' :: 'f' :: rest => some ([.fraction], rest)
  | '.' :: c :: 'f' :: rest => (placesOf? c).map fun n => ([.places n true], rest)
  | [] => none
  | [c] => (ofLetter? c).map fun items => (items, [])
  | c :: d :: rest =>
      match placesOf? c with
      | some n => if d == 'f' then some ([.places n false], rest) else none
      | none => (ofLetter? c).map fun items => (items, d :: rest)

def fillOf? (c : Char) : Option Fill :=
  if c == '-' then some .none
  else if c == '_' then some .space
  else if c == '0' then some .zero
  else none

/-- A directive that may choose the fill; only a single number has one. -/
def readFilled? (s : List Char) : Option (List DateItem × List Char) :=
  match s with
  | c :: rest =>
      match fillOf? c with
      | some fill =>
          match readDirective? rest with
          | some ([.number field _], rest) => some ([.number field fill], rest)
          | _ => none
      | none => readDirective? s
  | [] => none

def ofPatternFuel? : (fuel : Nat) → List Char → Option (List DateItem)
  | _, [] => some []
  | 0, _ :: _ => none
  | fuel + 1, c :: rest =>
      if c == '%' then
        match readFilled? rest with
        | some (items, rest) => (ofPatternFuel? fuel rest).map (items ++ ·)
        | none => none
      else (ofPatternFuel? fuel rest).map (.literal c :: ·)

/-- The items of a pattern; `none` when one of its directives does not exist. -/
def ofPattern? (pattern : List Char) : Option (List DateItem) :=
  ofPatternFuel? pattern.length pattern

def weekdayNames : List String :=
  ["Monday", "Tuesday", "Wednesday", "Thursday", "Friday", "Saturday", "Sunday"]

def monthNames : List String :=
  ["January", "February", "March", "April", "May", "June", "July", "August", "September",
    "October", "November", "December"]

def name (names : List String) (n : Nat) (short : Bool) : List Char :=
  let s := ((names[n]?).getD "").toList
  if short then s.take 3 else s

def fillDigits (fill : Fill) (width : Nat) (sign digits : List Char) : List Char :=
  let missing := width - (sign.length + digits.length)
  match fill with
  | .none => sign ++ digits
  | .space => List.replicate missing ' ' ++ sign ++ digits
  | .zero => sign ++ List.replicate missing '0' ++ digits

/-- A number of any size; with `signed` a positive one has a sign and one more place. -/
def wide (fill : Fill) (width : Nat) (value : Int) (signed : Bool) : List Char :=
  let sign := if value < 0 then ['-'] else if signed then ['+'] else []
  fillDigits fill (if signed then width + 1 else width) sign (Nat.toDigits 10 value.natAbs)

/-- A year has four digits; beyond them, and before year zero, it has a sign. -/
def yearText (fill : Fill) (year : Int) : List Char :=
  wide fill 4 year (year < 0 || 10000 ≤ year)

/--
A number of two digits.  The number is kept to eight bits, and tens above
nine run on through the characters after the digits.
-/
def pair (fill : Fill) (value : Int) : List Char :=
  let value := (value % 256).toNat
  let ones := Char.ofNat (48 + value % 10)
  let tens := value / 10
  if tens == 0 then
    match fill with
    | .none => [ones]
    | .space => [' ', ones]
    | .zero => ['0', ones]
  else [Char.ofNat (48 + tens), ones]

def fieldText (moment : Moment) (fill : Fill) : DateField → List Char
  | .year => yearText fill moment.date.year
  | .century => pair fill (moment.date.year.fdiv 100)
  | .yearOfCentury => pair fill (moment.date.year.fmod 100)
  | .isoYear => yearText fill moment.date.isoWeek.1
  | .isoYearOfCentury => pair fill (moment.date.isoWeek.1.fmod 100)
  | .quarter => Nat.toDigits 10 ((moment.date.month - 1) / 3 + 1)
  | .month => pair fill moment.date.month
  | .day => pair fill moment.date.day
  | .dayOfYear => wide fill 3 moment.date.ordinal false
  | .weekFromSunday => pair fill (moment.date.weeksFrom 6)
  | .weekFromMonday => pair fill (moment.date.weeksFrom 0)
  | .isoWeek => pair fill moment.date.isoWeek.2
  | .daysFromSunday => Nat.toDigits 10 ((moment.date.weekday + 1) % 7)
  | .daysFromMonday => Nat.toDigits 10 (moment.date.weekday + 1)
  | .hour => pair fill moment.hour
  | .hour12 => pair fill ((moment.hour + 11) % 12 + 1)
  | .minute => pair fill moment.minute
  | .second => pair fill moment.second
  | .nanosecond => wide fill 9 moment.fraction false
  | .seconds => wide fill 9 moment.seconds false

def placesText (moment : Moment) (count : Nat) : List Char :=
  wide .zero count (moment.fraction / Nat.pow 10 (9 - count) : Nat) false

/-- The nanoseconds after a point, in as many groups of three places as they need. -/
def fractionText (moment : Moment) : List Char :=
  let n := moment.fraction
  if n == 0 then []
  else if n % 1000000 == 0 then '.' :: placesText moment 3
  else if n % 1000 == 0 then '.' :: placesText moment 6
  else '.' :: placesText moment 9

/-- The distance from universal time, which is none. -/
def offsetText : OffsetForm → List Char
  | .plain => "+0000".toList
  | .colon => "+00:00".toList
  | .colons => "+00:00:00".toList
  | .hours => "+00".toList

def stamp (moment : Moment) : List Char :=
  let date := moment.date
  yearText .zero date.year ++ '-' :: pair .zero date.month ++ '-' :: pair .zero date.day ++
    'T' :: pair .zero moment.hour ++ ':' :: pair .zero moment.minute ++
    ':' :: pair .zero moment.second

def text (moment : Moment) : DateItem → List Char
  | .literal c => [c]
  | .number field fill => fieldText moment fill field
  | .weekday short => name weekdayNames moment.date.weekday short
  | .month short => name monthNames (moment.date.month - 1) short
  | .halfDay lower =>
      let first := if moment.hour < 12 then 'A' else 'P'
      if lower then [first.toLower, 'm'] else [first, 'M']
  | .fraction => fractionText moment
  | .places count point =>
      (if point then ['.'] else []) ++ placesText moment count
  | .zone => ['U', 'T', 'C']
  | .offset form => offsetText form
  | .timestamp => stamp moment ++ fractionText moment ++ offsetText .colon

end DateItem

namespace Moment

def format? (moment : Moment) (pattern : List Char) : Option (List Char) :=
  (DateItem.ofPattern? pattern).map fun items => items.flatMap (DateItem.text moment)

end Moment

end UiMarkdown
