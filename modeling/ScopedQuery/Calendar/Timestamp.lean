import ScopedQuery.Calendar.Date
/-!
# Instants and times of day

A timestamp is an instant, in nanoseconds since 1970-01-01T00:00:00Z, together with the UTC offset
it was written with. Two timestamps denote the same instant exactly when their `nanos` agree; the
offset is kept for display.
-/

namespace ScopedQuery

structure Timestamp where
  nanos : Int
  /-- Seconds east of UTC. -/
  offset : Int
deriving DecidableEq

namespace Timestamp

def nanosPerSecond : Int := 1000000000

def secondsPerDay : Int := 86400

def nanosPerDay : Int := secondsPerDay * nanosPerSecond

def day (instant : Timestamp) : Int := instant.nanos / nanosPerDay

def startOfDay (day : Int) : Timestamp := ⟨day * nanosPerDay, 0⟩

/-- The last microsecond of a UTC day. -/
def endOfDay (day : Int) : Timestamp := ⟨(day + 1) * nanosPerDay - 1000, 0⟩

/-- Microseconds from 1970 to 2000-01-01T00:00:00Z, from which databases count. -/
def epoch2000 : Int := 946684800000000

/-- Microseconds since 2000, cut toward zero. -/
def micros2000 (instant : Timestamp) : Int :=
  Int.tdiv (instant.nanos - epoch2000 * 1000) 1000

def ofMicros2000 (micros : Int) : Timestamp := ⟨(micros + epoch2000) * 1000, 0⟩

end Timestamp

structure DayTime where
  micros : Nat
deriving DecidableEq

namespace DayTime

def hour (time : DayTime) : Nat := time.micros / 3600000000

def minute (time : DayTime) : Nat := time.micros / 60000000 % 60

def second (time : DayTime) : Nat := time.micros / 1000000 % 60

def fraction (time : DayTime) : Nat := time.micros % 1000000

def clock (time : DayTime) : List Char :=
  Text.padded 2 (Text.decimal time.hour) ++ ':' :: Text.padded 2 (Text.decimal time.minute)
    ++ ':' :: Text.padded 2 (Text.decimal time.second)

def fractionDigits (micros : Nat) : List Char :=
  Text.padded 6 (Text.decimal micros)

def withoutZeros (digits : List Char) : List Char :=
  (digits.reverse.dropWhile (· == '0')).reverse

/-- `HH:MM:SS`, and six more digits when there is a fraction. -/
def chars (time : DayTime) : List Char :=
  if time.fraction = 0 then time.clock
  else time.clock ++ '.' :: fractionDigits time.fraction

end DayTime

namespace Timestamp

/-- The RFC 3339 text of an instant given in microseconds since 2000, at UTC and without the zeros
at the end of the fraction. The format has four digits for the year and no sign. -/
def rfc3339? (micros : Int) : Option (List Char) :=
  let total := micros + epoch2000
  let date := Date.ofDays (total / 86400000000)
  let time : DayTime := ⟨(total % 86400000000).toNat⟩
  if 0 ≤ date.year ∧ date.year ≤ 9999 then
    some (date.chars ++ 'T' :: time.clock
      ++ (if time.fraction = 0 then []
        else '.' :: DayTime.withoutZeros (DayTime.fractionDigits time.fraction))
      ++ ['Z'])
  else none

end Timestamp

end ScopedQuery
