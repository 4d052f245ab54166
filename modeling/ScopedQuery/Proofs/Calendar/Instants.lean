import ScopedQuery.Proofs.Calendar.Texts
/-!
# Days of instants that are read

A text at UTC is read as an instant of the day that it begins with, whatever form it has: a clock
time stays within its day, also in a leap second, and a date alone is its midnight. A column holds
whole microseconds; an instant before 2000 is rounded up to one, and so it may end on the day after.
-/

namespace ScopedQuery

/-! ### Clock times -/

namespace Clock

variable {clock : Clock} {digits : List Char}

theorem Spelled.nanos_lt (h : clock.Spelled digits) : clock.nanos < 10 ^ 9 := by
  have small := Text.ofDigitChars_lt h.all 0
  rw [Nat.mul_one] at small
  rw [h.nanos, Nat.div_lt_iff_lt_mul (Nat.pow_pos (by decide)), Nat.mul_comm]
  exact Nat.mul_lt_mul_of_pos_left small (by decide)

theorem toNanos_range (valid : clock.isValid = true) (nanos : clock.nanos < 10 ^ 9) :
    0 ≤ clock.toNanos ∧ clock.toNanos < Timestamp.nanosPerDay := by
  simp only [isValid, Bool.and_eq_true, decide_eq_true_eq] at valid
  simp only [toNanos, Timestamp.nanosPerDay, Timestamp.secondsPerDay, Timestamp.nanosPerSecond]
  omega

end Clock

namespace Date

/-- A year with a sign is no start of a text with a date in front. -/
theorem Signed.eq_of_readStart {date other : Date} {front rest behind : List Char}
    (signed : other.Signed front)
    (start : readStart (front ++ rest) = some (date, behind)) : other = date := by
  cases signed with
  | plain plain =>
    rw [readStart_eq_some.2 ⟨plain, rfl⟩] at start
    exact (Prod.mk.inj (Option.some.inj start)).1
  | plus | minus => cases start

end Date

namespace Timestamp

variable {text rest : List Char} {instant : Timestamp} {date : Date} {clock : Clock}

/-! ### Days -/

theorem day_startOfDay (day : Int) : (startOfDay day).day = day :=
  Int.mul_ediv_cancel day (by decide)

theorem day_endOfDay (day : Int) : (endOfDay day).day = day := by
  simp only [Timestamp.day, endOfDay, nanosPerDay, secondsPerDay, nanosPerSecond]
  omega

theorem day_atUtc (valid : clock.isValid = true) (nanos : clock.nanos < 10 ^ 9) :
    (atUtc date clock 0).day = date.toDays := by
  obtain ⟨least, most⟩ := clock.toNanos_range valid nanos
  rw [day, atUtc, Int.zero_mul, Int.sub_zero, Int.add_comm,
    Int.add_mul_ediv_right _ _ (by decide), Int.ediv_eq_zero_of_lt least most, Int.zero_add]

theorem Spells.day_eq (h : Spells text instant) (utc : instant.offset = 0)
    (start : Date.readStart text = some (date, rest)) : instant.day = date.toDays := by
  cases h with
  | zoned plain single spelled valid zone =>
    obtain rfl : _ = (0 : Int) := utc
    obtain rfl := Date.Signed.eq_of_readStart (.plain plain) start
    exact day_atUtc valid spelled.nanos_lt
  | leapSecond plain single spelled leap valid last zone =>
    obtain rfl : _ = (0 : Int) := utc
    obtain rfl := Date.Signed.eq_of_readStart (.plain plain) start
    exact day_atUtc valid (show 999999999 < 10 ^ 9 by decide)
  | zoneless signed known spelled valid few =>
    obtain rfl := signed.eq_of_readStart start
    exact day_atUtc valid spelled.nanos_lt
  | @date other plain =>
    rw [← List.append_nil other.chars] at start
    obtain rfl := Date.Signed.eq_of_readStart (.plain plain) start
    exact day_startOfDay _

/-- What is read of a text at UTC lies on the day that the text begins with. -/
theorem day_of_read? (trimmed : Text.trim text = text) (read : read? text = some instant)
    (utc : instant.offset = 0) (start : Date.readStart text = some (date, rest)) :
    instant.day = date.toDays := by
  rcases (read?_iff trimmed).1 read with spelled | ⟨-, other, _, plain, rfl, rfl⟩
  · exact spelled.day_eq utc start
  · obtain rfl := Date.Signed.eq_of_readStart (.plain plain) start
    exact day_startOfDay _

theorem ofText?_eq_some {text : String} :
    Kind.timestamp.ofText? text = some (.timestamp instant)
      ↔ read? (Text.trim text.toList) = some instant := by
  show (read? (Text.trim text.toList)).map Value.timestamp = _ ↔ _
  rw [Option.map_eq_some_iff]
  simp only [Value.timestamp.injEq, exists_eq_right]

/-! ### Whole microseconds -/

/-- Microseconds since 2000, rounded down. -/
def microsBelow (instant : Timestamp) : Int := instant.nanos / 1000 - epoch2000

/-- Before 2000, and behind the last whole microsecond of a day. -/
def RoundsOver (instant : Timestamp) : Prop :=
  instant.nanos < epoch2000 * 1000 ∧ nanosPerDay - 1000 < instant.nanos % nanosPerDay

theorem micros2000_eq (instant : Timestamp) :
    instant.micros2000
      = if epoch2000 * 1000 ≤ instant.nanos ∨ instant.nanos % 1000 = 0 then instant.microsBelow
        else instant.microsBelow + 1 := by
  have floor : (instant.nanos - epoch2000 * 1000) / 1000 = instant.microsBelow := by
    rw [microsBelow]
    omega
  have whole : 0 ≤ instant.nanos - epoch2000 * 1000 ∨ 1000 ∣ instant.nanos - epoch2000 * 1000
      ↔ epoch2000 * 1000 ≤ instant.nanos ∨ instant.nanos % 1000 = 0 := by omega
  rw [micros2000, Int.tdiv_eq_ediv, floor]
  simp only [whole]
  split
  · exact Int.add_zero _
  · rfl

theorem day_microsBelow (instant : Timestamp) :
    (instant.microsBelow + epoch2000) / 86400000000 = instant.day := by
  simp only [microsBelow, day, nanosPerDay, secondsPerDay, nanosPerSecond]
  omega

/-- The whole microseconds that a column holds lie on the day of the instant, or, if it rounds over,
are the midnight behind it. -/
theorem day_micros2000 (instant : Timestamp) :
    (¬instant.RoundsOver → (instant.micros2000 + epoch2000) / 86400000000 = instant.day)
      ∧ (instant.RoundsOver →
        instant.micros2000 + epoch2000 = (instant.day + 1) * 86400000000) := by
  rw [micros2000_eq]
  simp only [RoundsOver, microsBelow, day, nanosPerDay, secondsPerDay, nanosPerSecond]
  constructor
  · intro stays
    split <;> omega
  · intro rounds
    split <;> omega

end Timestamp

end ScopedQuery
