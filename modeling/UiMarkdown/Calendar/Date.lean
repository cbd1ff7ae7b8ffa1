/-!
# Dates

Days of the Gregorian calendar, extended to all years before its adoption.  A
day is counted from the first day of 1970, or given by year, month and day.
-/

namespace UiMarkdown

/-- A year, a month from 1 and a day of the month from 1. -/
structure Date where
  year : Int
  month : Nat
  day : Nat
  deriving DecidableEq, Repr

namespace Date

def isLeap (year : Int) : Bool :=
  year % 4 == 0 && (year % 100 != 0 || year % 400 == 0)

def monthLength (year : Int) (month : Nat) : Nat :=
  if month == 2 then if isLeap year then 29 else 28
  else if month == 4 || month == 6 || month == 9 || month == 11 then 30
  else 31

def isValid (date : Date) : Bool :=
  1 ≤ date.month && date.month ≤ 12 && 1 ≤ date.day &&
    date.day ≤ monthLength date.year date.month

/--
The days from the first of March of year zero to the first of March of a year:
one leap day in four years, none in the centuries that 400 does not divide.
-/
def daysToMarch (year : Int) : Int :=
  365 * year + year.fdiv 4 - year.fdiv 100 + year.fdiv 400

/-- The days from the first of March to the first of a month, March being zero. -/
def daysFromMarch (month : Nat) : Nat :=
  (153 * month + 2) / 5

def dayNumber (date : Date) : Int :=
  let year := if date.month ≤ 2 then date.year - 1 else date.year
  daysToMarch year + daysFromMarch ((date.month + 9) % 12) + date.day - 1 - 719468

def ofDayNumber (days : Int) : Date :=
  let days := days + 719468
  let era := days.fdiv 146097
  let ofEra := (days - era * 146097).toNat
  let yearOfEra := (ofEra - ofEra / 1460 + ofEra / 36524 - ofEra / 146096) / 365
  let ofYear := ofEra - (365 * yearOfEra + yearOfEra / 4 - yearOfEra / 100)
  let fromMarch := (5 * ofYear + 2) / 153
  let day := ofYear - daysFromMarch fromMarch + 1
  let month := if fromMarch < 10 then fromMarch + 3 else fromMarch - 9
  let year := (yearOfEra : Int) + era * 400 + (if month ≤ 2 then 1 else 0)
  ⟨year, month, day⟩

/-- The day of the week of a date, Monday being zero. -/
def weekday (date : Date) : Nat :=
  ((date.dayNumber + 3) % 7).toNat

def ordinal (date : Date) : Nat :=
  (date.dayNumber - dayNumber ⟨date.year, 1, 1⟩ + 1).toNat

/-- The number of weeks of the year that have begun, weeks beginning on a given day. -/
def weeksFrom (date : Date) (firstDay : Nat) : Nat :=
  (date.ordinal + 6 - (date.weekday + 7 - firstDay) % 7) / 7

/--
The year and number of the week of a date.  A week begins on Monday and
belongs to the year of its Thursday.
-/
def isoWeek (date : Date) : Int × Nat :=
  let thursday := ofDayNumber (date.dayNumber - date.weekday + 3)
  (thursday.year, (thursday.ordinal - 1) / 7 + 1)

end Date

end UiMarkdown
