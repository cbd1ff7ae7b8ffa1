import UiMarkdown.Calendar.Date
import UiMarkdown.Number.Literal

/-!
# Moments

A moment is a number of seconds since the first of January 1970, in universal
time, and a number of nanoseconds.  More nanoseconds than a second has stand
for a leap second.
-/

namespace UiMarkdown

structure Moment where
  seconds : Int
  nanoseconds : Nat := 0
  deriving DecidableEq, Repr

namespace Moment

def yearInRange (year : Int) : Bool :=
  -262143 ≤ year && year ≤ 262142

def date (moment : Moment) : Date :=
  Date.ofDayNumber (moment.seconds.fdiv 86400)

def secondOfDay (moment : Moment) : Nat :=
  (moment.seconds.fmod 86400).toNat

def hour (moment : Moment) : Nat :=
  moment.secondOfDay / 3600

def minute (moment : Moment) : Nat :=
  moment.secondOfDay / 60 % 60

/-- The second of the minute, 60 in a leap second. -/
def second (moment : Moment) : Nat :=
  moment.secondOfDay % 60 + moment.nanoseconds / 1000000000

def fraction (moment : Moment) : Nat :=
  moment.nanoseconds % 1000000000

def ofMilliseconds? (milliseconds : Int) : Option Moment :=
  let moment : Moment :=
    ⟨milliseconds.fdiv 1000, (milliseconds.fmod 1000).toNat * 1000000⟩
  if yearInRange moment.date.year then some moment else none

/--
The moment that a number stands for: milliseconds when its absolute value
exceeds `1e11`, else seconds.  Parts of a millisecond are dropped.
-/
def ofNumber? (x : Binary64) : Option Moment :=
  if x.exceeds (Nat.pow 10 11) then ofMilliseconds? x.truncate
  else do
    let thousand ← Binary64.ofInt? 1000
    let milliseconds ← x.mul? thousand
    ofMilliseconds? milliseconds.truncate

def readDigits? (count : Nat) (s : List Char) : Option (Nat × List Char) :=
  let digits := s.take count
  if digits.length == count && digits.all Char.isDigit then
    some (Literal.digitsValue digits, s.drop count)
  else none

def readChar? (c : Char) : List Char → Option (List Char)
  | d :: rest => if c == d then some rest else none
  | [] => none

/-- A fraction of a second in nanoseconds; digits beyond the ninth are passed over. -/
def readFraction? (s : List Char) : Option (Nat × List Char) :=
  match s with
  | '.' :: rest =>
      let digits := (rest.takeWhile Char.isDigit).take 9
      if digits.isEmpty then none
      else some (Literal.digitsValue digits * Nat.pow 10 (9 - digits.length), rest.dropWhile Char.isDigit)
  | _ => some (0, s)

def readOffset? (s : List Char) : Option (Int × List Char) := do
  match s with
  | [] => none
  | c :: rest =>
      if c == 'Z' || c == 'z' then return (0, rest)
      else if c == '+' || c == '-' || c == '−' then
        let (hours, rest) ← readDigits? 2 rest
        let rest ← readChar? ':' rest
        let (minutes, rest) ← readDigits? 2 rest
        if hours ≤ 23 && minutes ≤ 59 then
          let distance : Int := hours * 60 + minutes
          return (if c == '+' then distance else -distance, rest)
        else none
      else none

def ofText? (s : List Char) : Option Moment := do
  let (year, rest) ← readDigits? 4 s
  let rest ← readChar? '-' rest
  let (month, rest) ← readDigits? 2 rest
  let rest ← readChar? '-' rest
  let (day, rest) ← readDigits? 2 rest
  let rest ← match rest with
    | c :: rest => if c == 'T' || c == 't' || c == ' ' then some rest else none
    | [] => none
  let (hour, rest) ← readDigits? 2 rest
  let rest ← readChar? ':' rest
  let (minute, rest) ← readDigits? 2 rest
  let rest ← readChar? ':' rest
  let (second, rest) ← readDigits? 2 rest
  let (nanoseconds, rest) ← readFraction? rest
  let (distance, rest) ← readOffset? rest
  let date : Date := ⟨year, month, day⟩
  if rest.isEmpty && date.isValid && hour ≤ 23 && minute ≤ 59 && second ≤ 60 then
    let (second, nanoseconds) :=
      if second == 60 then (59, nanoseconds + 1000000000) else (second, nanoseconds)
    return {
      seconds := date.dayNumber * 86400 + hour * 3600 + minute * 60 + second - distance * 60
      nanoseconds := nanoseconds }
  else none

end Moment

end UiMarkdown
