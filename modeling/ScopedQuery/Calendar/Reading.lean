import ScopedQuery.Calendar.Timestamp
import ScopedQuery.Text.Blank
/-!
# Reading dates and timestamps

A date is `YYYY-MM-DD`. A timestamp is tried in three ways: as RFC 3339 text, as a date and a
clock time without a zone, which is taken at UTC, and as whatever begins with a date, which is
taken as the midnight that begins it. So a date with a clock time that cannot be read still gives
its midnight.
-/

namespace ScopedQuery

namespace Date

def expect (char : Char) : List Char → Option (List Char)
  | [] => none
  | first :: rest => if first = char then some rest else none

def readMonthDay (year : Int) (text : List Char) : Option (Date × List Char) := do
  let (month, rest) ← Text.takeNumber 2 (← expect '-' text)
  let (day, rest) ← Text.takeNumber 2 (← expect '-' rest)
  let date : Date := ⟨year, month, day⟩
  if date.isValid then return (date, rest) else none

def readStart (text : List Char) : Option (Date × List Char) := do
  let (year, rest) ← Text.takeNumber 4 text
  readMonthDay year rest

def readSignedStart : List Char → Option (Date × List Char)
  | '-' :: text => do
    let (year, rest) ← Text.takeNumber 4 text
    readMonthDay (-(year : Int)) rest
  | '+' :: text => readStart text
  | text => readStart text

/-- The date at the start of a text, blanks aside; what follows it does not count. -/
def read? (text : List Char) : Option Date :=
  (readStart (Text.trim text)).map Prod.fst

def last : Date := ⟨9999, 12, 31⟩

/-- The day after a date, when it can be written. -/
def nextDay? (date : Date) : Option Int :=
  if date = last then none else some (date.toDays + 1)

end Date

/-- A clock time. The second 60 is a leap second. -/
structure Clock where
  hour : Nat
  minute : Nat
  second : Nat
  nanos : Nat
  /-- How many digits the fraction was written with. -/
  places : Nat

namespace Clock

/-- The value of the first nine digits of a fraction, as nanoseconds. -/
def nanosOf (digits : List Char) : Nat :=
  Nat.ofDigitChars 10 (digits.take 9 ++ List.replicate (9 - digits.length) '0') 0

def read (text : List Char) : Option (Clock × List Char) := do
  let (hour, rest) ← Text.takeNumber 2 text
  let (minute, rest) ← Text.takeNumber 2 (← Date.expect ':' rest)
  let (second, rest) ← Text.takeNumber 2 (← Date.expect ':' rest)
  match rest with
  | '.' :: rest =>
    let digits := rest.takeWhile Text.isDigit
    if digits.isEmpty then none
    else return (⟨hour, minute, second, nanosOf digits, digits.length⟩, rest.dropWhile Text.isDigit)
  | _ => return (⟨hour, minute, second, 0, 0⟩, rest)

def isValid (clock : Clock) : Bool :=
  clock.hour ≤ 23 && clock.minute ≤ 59 && clock.second ≤ 59

def toNanos (clock : Clock) : Int :=
  (((clock.hour * 60 + clock.minute) * 60 + clock.second : Nat) : Int) * Timestamp.nanosPerSecond
    + clock.nanos

end Clock

namespace Timestamp

def atUtc (date : Date) (clock : Clock) (offset : Int) : Timestamp :=
  ⟨date.toDays * nanosPerDay + clock.toNanos - offset * nanosPerSecond, offset⟩

/-- Whether the instant is in the last second of a month at UTC, where a leap second may follow. -/
def precedesLeapSecond (instant : Timestamp) : Bool :=
  instant.nanos % nanosPerDay / nanosPerSecond = 86399 && (Date.ofDays instant.day).endsMonth

def readOffset : List Char → Option Int
  | [] => none
  | mark :: rest =>
    if mark = 'Z' ∨ mark = 'z' then (if rest.isEmpty then some 0 else none)
    else if mark = '+' ∨ mark = '-' then do
      let (hour, rest) ← Text.takeNumber 2 rest
      let (minute, rest) ← Text.takeNumber 2 (← Date.expect ':' rest)
      if hour ≤ 23 ∧ minute ≤ 59 ∧ rest.isEmpty then
        let seconds : Int := ((hour * 60 + minute) * 60 : Nat)
        return if mark = '-' then -seconds else seconds
      else none
    else none

/-- RFC 3339 text, with any single-byte character between the date and the clock time. A leap second
stands for the nanosecond before it, and only where one may be. -/
def readRfc3339 (text : List Char) : Option Timestamp := do
  let (date, rest) ← Date.readStart text
  match rest with
  | [] => none
  | separator :: rest =>
    if separator.toNat < 0x80 then
      let (clock, rest) ← Clock.read rest
      let offset ← readOffset rest
      if clock.second = 60 then
        let clock := { clock with second := 59, nanos := 999999999 }
        let instant := atUtc date clock offset
        if clock.isValid ∧ instant.precedesLeapSecond then return instant else none
      else if clock.isValid then return atUtc date clock offset
      else none
    else none

/-- How many digits a fraction of a second may have where no zone follows it. -/
def maxPlaces : Nat := 32

/-- A date and a clock time at UTC, with `separator` between them and nothing after them. -/
def readNaive (separator : Char) (text : List Char) : Option Timestamp := do
  let (date, rest) ← Date.readSignedStart text
  let (clock, rest) ← Clock.read (← Date.expect separator rest)
  if rest.isEmpty ∧ clock.isValid ∧ clock.places ≤ maxPlaces then return atUtc date clock 0
  else none

def read? (text : List Char) : Option Timestamp :=
  readRfc3339 text <|> readNaive ' ' text <|> readNaive 'T' text
    <|> (Date.read? text).map fun date => startOfDay date.toDays

end Timestamp

end ScopedQuery
