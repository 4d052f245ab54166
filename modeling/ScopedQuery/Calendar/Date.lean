import ScopedQuery.Text.Digits
/-!
# Calendar dates

Dates of the proleptic Gregorian calendar, which has a year zero, and the count of days since
1970-01-01. `Date.toDays` counts a date, `Date.ofDays` finds the date of a count.
-/

namespace ScopedQuery

structure Date where
  year : Int
  month : Nat
  day : Nat
deriving DecidableEq

namespace Date

def isLeap (year : Int) : Bool :=
  year % 4 = 0 ∧ (year % 100 ≠ 0 ∨ year % 400 = 0)

def monthLengths (leap : Bool) : List Nat :=
  [31, if leap then 29 else 28, 31, 30, 31, 30, 31, 31, 30, 31, 30, 31]

/-- The length of a month; no other number is a month and has days. -/
def monthLength (year : Int) (month : Nat) : Nat :=
  if month = 0 then 0 else (monthLengths (isLeap year)).getD (month - 1) 0

def isValid (date : Date) : Bool :=
  1 ≤ date.day && date.day ≤ monthLength date.year date.month

/-- The days of the years before this one, counted from year one. -/
def daysBeforeYear (year : Int) : Int :=
  365 * (year - 1) + (year - 1) / 4 - (year - 1) / 100 + (year - 1) / 400

def daysBeforeMonth (leap : Bool) (month : Nat) : Nat :=
  ((monthLengths leap).take (month - 1)).foldl (· + ·) 0

/-- The days from 0001-01-01 to 1970-01-01. -/
def epoch : Int := 719162

def toDays (date : Date) : Int :=
  daysBeforeYear date.year + daysBeforeMonth (isLeap date.year) date.month + date.day - 1 - epoch

/-- The year that holds the given day, counted from 0001-01-01, and the day in that year. -/
def yearOfDay (day : Int) : Int × Int :=
  let cycle := day / 146097
  let inCycle := day % 146097
  let century := min (inCycle / 36524) 3
  let inCentury := inCycle - 36524 * century
  let four := inCentury / 1461
  let inFour := inCentury % 1461
  let single := min (inFour / 365) 3
  (400 * cycle + 100 * century + 4 * four + single + 1, inFour - 365 * single)

/-- The month and the day in it of a day in a year, both counted from zero. -/
def monthOfDay : List Nat → Nat → Nat × Nat
  | [], day => (0, day)
  | length :: rest, day =>
    if day < length then (0, day)
    else
      let (month, day) := monthOfDay rest (day - length)
      (month + 1, day)

def ofDays (days : Int) : Date :=
  let (year, inYear) := yearOfDay (days + epoch)
  let (month, day) := monthOfDay (monthLengths (isLeap year)) inYear.toNat
  ⟨year, month + 1, day + 1⟩

def endsMonth (date : Date) : Bool :=
  date.day = monthLength date.year date.month

/-- `YYYY-MM-DD`, with a minus sign before a negative year. -/
def chars (date : Date) : List Char :=
  (if date.year < 0 then ['-'] else [])
    ++ Text.padded 4 (Text.decimal date.year.natAbs)
    ++ '-' :: Text.padded 2 (Text.decimal date.month)
    ++ '-' :: Text.padded 2 (Text.decimal date.day)

end Date

end ScopedQuery
