import ScopedQuery.Calendar.Timestamp
/-!
# Intervals

An interval counts months, days and microseconds, each with a sign of its own. Its text is an ISO
8601 duration such as `P1Y2M3DT4H5M6.5S`, in which parts that are zero are left out and every part
keeps the sign of its count.
-/

namespace ScopedQuery

structure Interval where
  months : Int
  days : Int
  micros : Int
deriving DecidableEq

namespace Interval

/-- A count with its unit, unless it is zero. -/
def part (amount : Int) (unit : Char) : List Char :=
  if amount = 0 then [] else Text.signedDecimal amount ++ [unit]

/-- Seconds with the fraction they need; the sign stands in front even when no whole second does. -/
def seconds (micros : Int) : List Char :=
  if micros = 0 then []
  else
    let whole := micros.natAbs / 1000000
    let fraction := micros.natAbs % 1000000
    (if micros < 0 then ['-'] else []) ++ Text.decimal whole
      ++ (if fraction = 0 then []
        else '.' :: DayTime.withoutZeros (DayTime.fractionDigits fraction))
      ++ ['S']

def dateChars (interval : Interval) : List Char :=
  part (interval.months.tdiv 12) 'Y' ++ part (interval.months.tmod 12) 'M' ++ part interval.days 'D'

def timeChars (interval : Interval) : List Char :=
  part (interval.micros.tdiv 3600000000) 'H'
    ++ part ((interval.micros.tmod 3600000000).tdiv 60000000) 'M'
    ++ seconds (interval.micros.tmod 60000000)

def chars (interval : Interval) : List Char :=
  let date := interval.dateChars
  let time := interval.timeChars
  if date.isEmpty ∧ time.isEmpty then ['P', 'T', '0', 'S']
  else 'P' :: (date ++ if time.isEmpty then [] else 'T' :: time)

end Interval

end ScopedQuery
