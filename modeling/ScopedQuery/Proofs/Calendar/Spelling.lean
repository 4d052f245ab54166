import Mathlib.Data.List.GetD
import ScopedQuery.Calendar.Reading
import ScopedQuery.Proofs.Calendar.Days
import ScopedQuery.Proofs.Text.Numerals
/-!
# Spelled timestamps

What a text means that is a timestamp or a date from its first character to its last: RFC 3339, a
clock time without a zone, or a date alone. Dates, clock times and zones come first, each with the
texts that its reader takes; `Timestamp.Spells` puts them together, and `spells_iff` says that the
readers, one after the other, read exactly what is spelled.
-/

namespace ScopedQuery

variable {text rest : List Char}

/-! ### Dates -/

namespace Date

variable {date : Date} {year : Int}

theorem isValid_iff :
    date.isValid = true ↔ 1 ≤ date.day ∧ date.day ≤ monthLength date.year date.month := by
  rw [isValid, Bool.and_eq_true, decide_eq_true_iff, decide_eq_true_iff]

theorem month_lt_of_isValid (h : date.isValid = true) : date.month < 13 := by
  rw [isValid_iff] at h
  rcases Nat.lt_or_ge date.month 13 with month | late
  · exact month
  have none : monthLength date.year date.month = 0 := by
    rw [monthLength, if_neg (by omega), List.getD_eq_default]
    show 12 ≤ date.month - 1
    omega
  omega

theorem day_lt_of_isValid (h : date.isValid = true) : date.day < 32 := by
  have most : ∀ leap, ∀ month < 13, (monthLengths leap).getD (month - 1) 0 < 32 := by decide
  have month := most (isLeap date.year) date.month (month_lt_of_isValid h)
  rw [isValid_iff, monthLength] at h
  split at h <;> omega

theorem expect_eq_some {char : Char} : expect char text = some rest ↔ text = char :: rest := by
  cases text with
  | nil => simp [expect]
  | cons first others =>
    rw [expect, List.cons.injEq]
    split <;> simp_all

/-- `-MM-DD`. -/
def monthDayChars (date : Date) : List Char :=
  '-' :: (Text.padded 2 (Text.decimal date.month)
    ++ '-' :: Text.padded 2 (Text.decimal date.day))

theorem readMonthDay_eq_some : readMonthDay year text = some (date, rest)
    ↔ date.isValid = true ∧ date.year = year ∧ text = date.monthDayChars ++ rest := by
  simp only [readMonthDay, Option.bind_eq_bind, Option.bind_eq_some_iff, Prod.exists,
    expect_eq_some, Text.takeNumber_eq_some (show 0 < 2 by decide)]
  constructor
  · intro h
    obtain ⟨_, rfl, month, _, ⟨-, rfl⟩, _, rfl, day, _, ⟨-, rfl⟩, made⟩ := h
    split at made
    · next valid =>
      cases made
      exact ⟨valid, rfl, by simp [monthDayChars]⟩
    · cases made
  · intro h
    obtain ⟨valid, rfl, rfl⟩ := h
    have month := month_lt_of_isValid valid
    have day := day_lt_of_isValid valid
    refine ⟨_, rfl, date.month, _, ⟨by omega, (List.append_assoc ..)⟩, _, rfl, date.day, _,
      ⟨by omega, rfl⟩, ?_⟩
    rw [if_pos valid]
    rfl

/-- A date of the calendar with a year of four digits. -/
structure Plain (date : Date) : Prop where
  valid : date.isValid = true
  least : 0 ≤ date.year
  most : date.year ≤ 9999

theorem Plain.chars_eq (h : date.Plain) :
    date.chars = Text.padded 4 (Text.decimal date.year.natAbs) ++ date.monthDayChars := by
  rw [chars, if_neg (Int.not_lt.2 h.least), List.nil_append, List.append_assoc]
  rfl

theorem readStart_eq_some :
    readStart text = some (date, rest) ↔ date.Plain ∧ text = date.chars ++ rest := by
  simp only [readStart, Option.bind_eq_bind, Option.bind_eq_some_iff, Prod.exists,
    readMonthDay_eq_some, Text.takeNumber_eq_some (show 0 < 4 by decide)]
  constructor
  · intro h
    obtain ⟨year, _, ⟨small, rfl⟩, valid, same, rfl⟩ := h
    have plain : date.Plain := ⟨valid, by omega, by omega⟩
    refine ⟨plain, ?_⟩
    rw [plain.chars_eq, same, Int.natAbs_natCast, List.append_assoc]
  · intro h
    obtain ⟨plain, rfl⟩ := h
    obtain ⟨valid, least, most⟩ := plain
    refine ⟨date.year.natAbs, _, ⟨by omega, ?_⟩, valid, by omega, rfl⟩
    rw [Plain.chars_eq ⟨valid, least, most⟩, List.append_assoc]

theorem plain_of_read? (h : read? text = some date) : date.Plain := by
  obtain ⟨⟨found, rest⟩, start, rfl⟩ := Option.map_eq_some_iff.1 h
  exact (readStart_eq_some.1 start).1

/-- The texts of a date with a sign that may stand before the year. -/
inductive Signed (date : Date) : List Char → Prop
  | plain : date.Plain → Signed date date.chars
  | plus : date.Plain → Signed date ('+' :: date.chars)
  | minus : date.isValid = true → -9999 ≤ date.year → date.year ≤ 0 →
    Signed date ('-' :: (Text.padded 4 (Text.decimal date.year.natAbs) ++ date.monthDayChars))

theorem Plain.exists_digit (h : date.Plain) :
    ∃ first others, date.chars = first :: others ∧ Text.isDigit first = true := by
  have length : (Text.padded 4 (Text.decimal date.year.natAbs)).length = 4 :=
    Text.length_padded (by have := h.least; have := h.most; omega) (by decide)
  obtain ⟨first, others, split⟩ := List.exists_cons_of_length_eq_add_one length
  refine ⟨first, others ++ date.monthDayChars, ?_, ?_⟩
  · rw [h.chars_eq, split, List.cons_append]
  · exact Text.allDigits_padded 4 date.year.natAbs first (split ▸ List.mem_cons_self ..)

theorem Plain.readSignedStart_chars (h : date.Plain) (rest : List Char) :
    readSignedStart (date.chars ++ rest) = some (date, rest) := by
  have read : readStart (date.chars ++ rest) = some (date, rest) := readStart_eq_some.2 ⟨h, rfl⟩
  obtain ⟨first, others, split, digit⟩ := h.exists_digit
  rw [split, List.cons_append] at read ⊢
  unfold readSignedStart
  split
  · next same =>
    obtain ⟨rfl, -⟩ := List.cons.inj same
    exact absurd digit (by decide)
  · next same =>
    obtain ⟨rfl, -⟩ := List.cons.inj same
    exact absurd digit (by decide)
  · exact read

theorem readSignedStart_eq_some : readSignedStart text = some (date, rest)
    ↔ ∃ front, date.Signed front ∧ text = front ++ rest := by
  constructor
  · intro h
    unfold readSignedStart at h
    split at h
    · simp only [Option.bind_eq_bind, Option.bind_eq_some_iff, Prod.exists, readMonthDay_eq_some,
        Text.takeNumber_eq_some (show 0 < 4 by decide)] at h
      obtain ⟨year, _, ⟨small, rfl⟩, valid, same, rfl⟩ := h
      refine ⟨_, .minus valid (by omega) (by omega), ?_⟩
      rw [same, Int.natAbs_neg, Int.natAbs_natCast, List.cons_append, List.append_assoc]
    · obtain ⟨plain, rfl⟩ := readStart_eq_some.1 h
      exact ⟨_, .plus plain, rfl⟩
    · obtain ⟨plain, rfl⟩ := readStart_eq_some.1 h
      exact ⟨_, .plain plain, rfl⟩
  · intro h
    obtain ⟨front, signed, rfl⟩ := h
    cases signed with
    | plain plain => exact plain.readSignedStart_chars rest
    | plus plain => exact readStart_eq_some.2 ⟨plain, rfl⟩
    | minus valid least most =>
      rw [List.cons_append, List.append_assoc, readSignedStart]
      simp only [Option.bind_eq_bind, Option.bind_eq_some_iff, Prod.exists, readMonthDay_eq_some,
        Text.takeNumber_eq_some (show 0 < 4 by decide)]
      exact ⟨_, _, ⟨by omega, rfl⟩, valid, by omega, rfl⟩

end Date

/-! ### Clock times -/

namespace Clock

variable {clock : Clock} {digits : List Char}

/-- `HH:MM:SS`, and the digits of a fraction if there are any. -/
def chars (clock : Clock) (digits : List Char) : List Char :=
  Text.padded 2 (Text.decimal clock.hour) ++ ':' :: (Text.padded 2 (Text.decimal clock.minute)
    ++ ':' :: (Text.padded 2 (Text.decimal clock.second)
      ++ if digits = [] then [] else '.' :: digits))

/-- Two digits are enough for each field, and the nanoseconds are those of the fraction. -/
structure Spelled (clock : Clock) (digits : List Char) : Prop where
  hour : clock.hour < 100
  minute : clock.minute < 100
  second : clock.second < 100
  all : Text.AllDigits digits
  nanos : clock.nanos = Nat.ofDigitChars 10 digits 0 * 10 ^ 9 / 10 ^ digits.length
  places : clock.places = digits.length

/-- A fraction is cut to nanoseconds. -/
theorem nanosOf_eq (all : Text.AllDigits digits) :
    nanosOf digits = Nat.ofDigitChars 10 digits 0 * 10 ^ 9 / 10 ^ digits.length := by
  rcases Nat.le_total digits.length 9 with few | many
  · have scale : 10 ^ 9 = 10 ^ digits.length * 10 ^ (9 - digits.length) := by
      rw [← Nat.pow_add, Nat.add_sub_cancel' few]
    rw [nanosOf, List.take_of_length_le few, Nat.ofDigitChars_append,
      Nat.ofDigitChars_replicate_zero, scale, Nat.mul_left_comm,
      Nat.mul_div_cancel_left _ (Nat.pow_pos (by decide)), Nat.mul_comm]
  · have scale : 10 ^ digits.length = 10 ^ (digits.length - 9) * 10 ^ 9 := by
      rw [← Nat.pow_add, Nat.sub_add_cancel many]
    rw [nanosOf, Nat.sub_eq_zero_of_le many, List.replicate_zero, List.append_nil, scale,
      Nat.mul_div_mul_right _ _ (by decide), Text.ofDigitChars_take all]

theorem read_chars (h : clock.Spelled digits)
    (stops : Text.Stops (fun char => Text.isDigit char || char = '.') rest) :
    read (clock.chars digits ++ rest) = some (clock, rest) := by
  have field {number : Nat} {rest : List Char} (h : number < 100) :
      Text.takeNumber 2 (Text.padded 2 (Text.decimal number) ++ rest) = some (number, rest) :=
    Text.takeNumber_padded h (by decide) rest
  obtain ⟨hour, minute, second, nanos, places⟩ := clock
  obtain ⟨smallHour, smallMinute, smallSecond, all, rfl, rfl⟩ := h
  rw [← nanosOf_eq all]
  simp only [chars, List.append_assoc, List.cons_append, Clock.read, field smallHour,
    field smallMinute, field smallSecond, Option.bind_eq_bind, Option.bind_some, Date.expect,
    if_true]
  by_cases none : digits = []
  · subst none
    simp only [if_true, List.nil_append]
    split
    · simp at stops
    · rfl
  · have digitStops : Text.Stops Text.isDigit rest := fun char first =>
      (Bool.or_eq_false_iff.1 (stops char first)).1
    have run := Text.takeWhile_append_of_stops all digitStops
    have left := Text.dropWhile_append_of_stops all digitStops
    simp only [List.cons_append, run, left, List.isEmpty_iff, none, if_false]
    rfl

theorem exists_of_read (h : read text = some (clock, rest)) :
    ∃ digits, clock.Spelled digits ∧ text = clock.chars digits ++ rest := by
  simp only [Clock.read, Option.bind_eq_bind, Option.bind_eq_some_iff, Prod.exists,
    Date.expect_eq_some, Text.takeNumber_eq_some (show 0 < 2 by decide)] at h
  obtain ⟨hour, _, ⟨smallHour, rfl⟩, _, rfl, minute, _, ⟨smallMinute, rfl⟩, _, rfl, second, behind,
    ⟨smallSecond, rfl⟩, made⟩ := h
  split at made
  · next others =>
    have all : Text.AllDigits (others.takeWhile Text.isDigit) :=
      List.all_eq_true.1 List.all_takeWhile
    have whole := List.takeWhile_append_dropWhile (p := Text.isDigit) (l := others)
    generalize others.takeWhile Text.isDigit = digits at all whole made
    generalize others.dropWhile Text.isDigit = behind at whole made
    subst whole
    split at made
    · cases made
    · next some =>
      cases made
      rw [List.isEmpty_iff] at some
      refine ⟨digits, ⟨smallHour, smallMinute, smallSecond, all, nanosOf_eq all, rfl⟩, ?_⟩
      simp [chars, some]
  · cases made
    refine ⟨[], ⟨smallHour, smallMinute, smallSecond, List.forall_mem_nil _, rfl, rfl⟩, ?_⟩
    simp [chars]

end Clock

/-! ### Zones -/

namespace Timestamp

/-- `HH:MM`. -/
def zoneChars (hour minute : Nat) : List Char :=
  Text.padded 2 (Text.decimal hour) ++ ':' :: Text.padded 2 (Text.decimal minute)

/-- The texts of a UTC offset in seconds. -/
inductive Zone : Int → List Char → Prop
  | utc {mark : Char} : mark = 'Z' ∨ mark = 'z' → Zone 0 [mark]
  | east {hour minute : Nat} : hour ≤ 23 → minute ≤ 59 →
    Zone ((hour * 60 + minute) * 60 : Nat) ('+' :: zoneChars hour minute)
  | west {hour minute : Nat} : hour ≤ 23 → minute ≤ 59 →
    Zone (-((hour * 60 + minute) * 60 : Nat)) ('-' :: zoneChars hour minute)

variable {offset : Int} {instant : Timestamp}

theorem readOffset_eq_some : readOffset text = some offset ↔ Zone offset text := by
  constructor
  · intro h
    unfold readOffset at h
    split at h
    · cases h
    · next mark others =>
      split at h
      · next utc =>
        split at h
        · next alone =>
          cases h
          rw [List.isEmpty_iff.1 alone]
          exact .utc utc
        · cases h
      · split at h
        · next sign =>
          simp only [Option.bind_eq_bind, Option.bind_eq_some_iff, Prod.exists,
            Date.expect_eq_some, Text.takeNumber_eq_some (show 0 < 2 by decide)] at h
          obtain ⟨hour, _, ⟨-, rfl⟩, _, rfl, minute, _, ⟨-, rfl⟩, made⟩ := h
          split at made
          · next fits =>
            obtain ⟨hours, minutes, alone⟩ := fits
            rw [List.isEmpty_iff.1 alone, List.append_nil]
            cases made
            rcases sign with rfl | rfl
            · exact .east hours minutes
            · exact .west hours minutes
          · cases made
        · cases h
  · intro h
    have zone {hour minute : Nat} (hours : hour ≤ 23) (minutes : minute ≤ 59) :
        Text.takeNumber 2 (zoneChars hour minute)
            = some (hour, ':' :: Text.padded 2 (Text.decimal minute))
          ∧ Text.takeNumber 2 (Text.padded 2 (Text.decimal minute)) = some (minute, []) := by
      have last := Text.takeNumber_padded (show minute < 10 ^ 2 by omega) (by decide) []
      rw [List.append_nil] at last
      exact ⟨Text.takeNumber_padded (show hour < 10 ^ 2 by omega) (by decide) _, last⟩
    cases h with
    | utc mark => rw [readOffset, if_pos mark]; rfl
    | @east hour minute hours minutes =>
      obtain ⟨first, last⟩ := zone hours minutes
      simp [readOffset, first, last, Date.expect, hours, minutes]
    | @west hour minute hours minutes =>
      obtain ⟨first, last⟩ := zone hours minutes
      simp [readOffset, first, last, Date.expect, hours, minutes]

theorem Zone.stops (h : Zone offset text) :
    Text.Stops (fun char => Text.isDigit char || char = '.') text := by
  cases h with
  | utc mark => rcases mark with rfl | rfl <;> simp <;> decide
  | east | west => simp; decide

/-! ### Instants -/

/-- The clock of a leap second stands for the last nanosecond before it. -/
def beforeLeap (clock : Clock) : Clock := { clock with second := 59, nanos := 999999999 }

/-- What a text means that is a timestamp or a date from its first character to its last. -/
inductive Spells : List Char → Timestamp → Prop
  /-- RFC 3339. -/
  | zoned {date : Date} {separator : Char} {clock : Clock} {digits zone : List Char}
    {offset : Int} :
    date.Plain → separator.toNat < 0x80 → clock.Spelled digits → clock.isValid = true →
    Zone offset zone →
    Spells (date.chars ++ separator :: (clock.chars digits ++ zone)) (atUtc date clock offset)
  /-- RFC 3339 in a leap second, which may only be at the end of a month. -/
  | leapSecond {date : Date} {separator : Char} {clock : Clock} {digits zone : List Char}
    {offset : Int} :
    date.Plain → separator.toNat < 0x80 → clock.Spelled digits → clock.second = 60 →
    (beforeLeap clock).isValid = true →
    (atUtc date (beforeLeap clock) offset).precedesLeapSecond = true → Zone offset zone →
    Spells (date.chars ++ separator :: (clock.chars digits ++ zone))
      (atUtc date (beforeLeap clock) offset)
  /-- Without a zone, at UTC. -/
  | zoneless {date : Date} {front : List Char} {separator : Char} {clock : Clock}
    {digits : List Char} :
    date.Signed front → separator = ' ' ∨ separator = 'T' → clock.Spelled digits →
    clock.isValid = true → digits.length ≤ maxPlaces →
    Spells (front ++ separator :: clock.chars digits) (atUtc date clock 0)
  /-- A date alone, at midnight. -/
  | date {date : Date} : date.Plain → Spells date.chars (startOfDay date.toDays)

theorem spells_of_readRfc3339 (h : readRfc3339 text = some instant) : Spells text instant := by
  simp only [readRfc3339, Option.bind_eq_bind, Option.bind_eq_some_iff, Prod.exists,
    Date.readStart_eq_some] at h
  obtain ⟨date, _, ⟨plain, rfl⟩, made⟩ := h
  split at made
  · cases made
  · next separator others =>
    split at made
    · next single =>
      simp only [Option.bind_eq_some_iff, Prod.exists, readOffset_eq_some] at made
      obtain ⟨clock, _, read, offset, zone, made⟩ := made
      obtain ⟨digits, spelled, rfl⟩ := Clock.exists_of_read read
      split at made
      · next leap =>
        split at made
        · next allowed =>
          cases made
          exact .leapSecond plain single spelled leap allowed.1 allowed.2 zone
        · cases made
      · split at made
        · next valid =>
          cases made
          exact .zoned plain single spelled valid zone
        · cases made
    · cases made

theorem spells_of_readNaive {separator : Char} (known : separator = ' ' ∨ separator = 'T')
    (h : readNaive separator text = some instant) : Spells text instant := by
  simp only [readNaive, Option.bind_eq_bind, Option.bind_eq_some_iff, Prod.exists,
    Date.readSignedStart_eq_some, Date.expect_eq_some] at h
  obtain ⟨date, _, ⟨front, signed, rfl⟩, _, rfl, clock, _, read, made⟩ := h
  obtain ⟨digits, spelled, rfl⟩ := Clock.exists_of_read read
  split at made
  · next allowed =>
    obtain ⟨alone, valid, few⟩ := allowed
    cases made
    rw [List.isEmpty_iff.1 alone, List.append_nil]
    exact .zoneless signed known spelled valid (spelled.places ▸ few)
  · cases made

/-! ### Readers -/

section

variable {date : Date} {clock : Clock} {digits front : List Char} {separator : Char}

theorem readRfc3339_zoned (plain : date.Plain) (single : separator.toNat < 0x80)
    (spelled : clock.Spelled digits) (valid : clock.isValid = true) (zone : Zone offset rest) :
    readRfc3339 (date.chars ++ separator :: (clock.chars digits ++ rest))
      = some (atUtc date clock offset) := by
  have noLeap : clock.second ≠ 60 := by
    simp only [Clock.isValid, Bool.and_eq_true, decide_eq_true_eq] at valid
    omega
  simp only [readRfc3339, Date.readStart_eq_some.2 ⟨plain, rfl⟩, Option.bind_eq_bind,
    Option.bind_some, if_pos single, Clock.read_chars spelled zone.stops,
    readOffset_eq_some.2 zone, if_neg noLeap, if_pos valid]
  rfl

theorem readRfc3339_leapSecond (plain : date.Plain) (single : separator.toNat < 0x80)
    (spelled : clock.Spelled digits) (leap : clock.second = 60)
    (valid : (beforeLeap clock).isValid = true)
    (last : (atUtc date (beforeLeap clock) offset).precedesLeapSecond = true)
    (zone : Zone offset rest) :
    readRfc3339 (date.chars ++ separator :: (clock.chars digits ++ rest))
      = some (atUtc date (beforeLeap clock) offset) := by
  rw [beforeLeap] at *
  simp only [readRfc3339, Date.readStart_eq_some.2 ⟨plain, rfl⟩, Option.bind_eq_bind,
    Option.bind_some, if_pos single, Clock.read_chars spelled zone.stops,
    readOffset_eq_some.2 zone, if_pos leap, valid, last, and_self, if_true]
  rfl

theorem readNaive_zoneless (signed : date.Signed front) (spelled : clock.Spelled digits)
    (valid : clock.isValid = true) (few : digits.length ≤ maxPlaces) :
    readNaive separator (front ++ separator :: clock.chars digits)
      = some (atUtc date clock 0) := by
  have clockRead := Clock.read_chars spelled (Text.stops_nil)
  rw [List.append_nil] at clockRead
  simp only [readNaive, Date.readSignedStart_eq_some.2 ⟨front, signed, rfl⟩, Option.bind_eq_bind,
    Option.bind_some, Date.expect, if_true, clockRead]
  rw [if_pos ⟨rfl, valid, spelled.places ▸ few⟩]
  rfl

/-- Where a zone is needed, none is not enough. -/
theorem readRfc3339_zoneless (signed : date.Signed front) (spelled : clock.Spelled digits) :
    readRfc3339 (front ++ separator :: clock.chars digits) = none := by
  have clockRead := Clock.read_chars spelled (Text.stops_nil)
  rw [List.append_nil] at clockRead
  cases signed with
  | plain plain =>
    simp only [readRfc3339, Date.readStart_eq_some.2 ⟨plain, rfl⟩, Option.bind_eq_bind,
      Option.bind_some, clockRead, readOffset, Option.bind_none, ite_self]
  | plus | minus => rfl

theorem readNaive_other {other : Char} (signed : date.Signed front) (differ : separator ≠ other) :
    readNaive other (front ++ separator :: rest) = none := by
  simp only [readNaive, Date.readSignedStart_eq_some.2 ⟨front, signed, rfl⟩, Option.bind_eq_bind,
    Option.bind_some, Date.expect, if_neg differ, Option.bind_none]

end

/-- The readers of timestamps as a whole, one after the other. -/
def readWhole (text : List Char) : Option Timestamp :=
  readRfc3339 text <|> readNaive ' ' text <|> readNaive 'T' text

theorem readWhole_chars {date : Date} (plain : date.Plain) : readWhole date.chars = none := by
  have start : Date.readStart date.chars = some (date, []) :=
    Date.readStart_eq_some.2 ⟨plain, (List.append_nil _).symm⟩
  have signed : Date.readSignedStart date.chars = some (date, []) :=
    Date.readSignedStart_eq_some.2 ⟨_, .plain plain, (List.append_nil _).symm⟩
  simp only [readWhole, readRfc3339, readNaive, start, signed, Option.bind_eq_bind,
    Option.bind_some, Date.expect, Option.bind_none]
  rfl

theorem spells_iff :
    Spells text instant
      ↔ readWhole text = some instant
        ∨ ∃ date : Date, date.Plain ∧ text = date.chars ∧ instant = startOfDay date.toDays := by
  unfold readWhole
  constructor
  · intro h
    cases h with
    | zoned plain single spelled valid zone =>
      rw [readRfc3339_zoned plain single spelled valid zone]
      exact .inl rfl
    | leapSecond plain single spelled leap valid last zone =>
      rw [readRfc3339_leapSecond plain single spelled leap valid last zone]
      exact .inl rfl
    | zoneless signed known spelled valid few =>
      rw [readRfc3339_zoneless signed spelled]
      rcases known with rfl | rfl
      · rw [readNaive_zoneless signed spelled valid few]
        exact .inl rfl
      · rw [readNaive_other signed (by decide), readNaive_zoneless signed spelled valid few]
        exact .inl rfl
    | date plain => exact .inr ⟨_, plain, rfl, rfl⟩
  · intro h
    rcases h with read | ⟨date, plain, rfl, rfl⟩
    · rcases (Option.orElse_eq_some _ _ _).1 read with zoned | ⟨-, read⟩
      · exact spells_of_readRfc3339 zoned
      rcases (Option.orElse_eq_some _ _ _).1 read with spaced | ⟨-, lettered⟩
      · exact spells_of_readNaive (.inl rfl) spaced
      · exact spells_of_readNaive (.inr rfl) lettered
    · exact .date plain

end Timestamp

end ScopedQuery
