import ScopedQuery.Proofs.Calendar.Spelling
/-!
# Reading timestamps back

The RFC 3339 text of an instant is read as that instant: the date by its count of days, the time of
day by its fields, and the fraction of a second although its last zeros are not written.
-/

namespace ScopedQuery

/-! ### Fractions of a second -/

namespace DayTime

variable {digits : List Char}

theorem exists_withoutZeros_append (digits : List Char) :
    ∃ count, digits = withoutZeros digits ++ List.replicate count '0' := by
  have split := List.takeWhile_append_dropWhile (p := (· == '0')) (l := digits.reverse)
  have zeros : digits.reverse.takeWhile (· == '0')
      = List.replicate (digits.reverse.takeWhile (· == '0')).length '0' := by
    rw [List.eq_replicate_iff]
    refine ⟨rfl, fun char member => ?_⟩
    simpa using List.all_eq_true.1 List.all_takeWhile char member
  refine ⟨(digits.reverse.takeWhile (· == '0')).length, ?_⟩
  rw [withoutZeros, ← List.reverse_replicate, ← zeros, ← List.reverse_append, split,
    List.reverse_reverse]

theorem allDigits_withoutZeros (h : Text.AllDigits digits) :
    Text.AllDigits (withoutZeros digits) := by
  obtain ⟨count, split⟩ := exists_withoutZeros_append digits
  rw [split] at h
  exact (List.forall_mem_append.1 h).1

theorem length_withoutZeros_le (digits : List Char) :
    (withoutZeros digits).length ≤ digits.length := by
  obtain ⟨count, split⟩ := exists_withoutZeros_append digits
  have length := congrArg List.length split
  rw [List.length_append] at length
  omega

theorem ofDigitChars_withoutZeros (digits : List Char) :
    Nat.ofDigitChars 10 (withoutZeros digits) 0
        * 10 ^ (digits.length - (withoutZeros digits).length)
      = Nat.ofDigitChars 10 digits 0 := by
  obtain ⟨count, split⟩ := exists_withoutZeros_append digits
  generalize withoutZeros digits = kept at *
  subst split
  rw [List.length_append, List.length_replicate, Nat.add_sub_cancel_left,
    Nat.ofDigitChars_append, Nat.ofDigitChars_replicate_zero, Nat.mul_comm]

theorem length_fractionDigits {micros : Nat} (h : micros < 1000000) :
    (fractionDigits micros).length = 6 :=
  Text.length_padded h (by decide)

/-- The zeros that a fraction is written without are put back where nine places are counted. -/
theorem nanosOf_withoutZeros (h : digits.length ≤ 9) :
    Clock.nanosOf (withoutZeros digits)
      = Nat.ofDigitChars 10 digits 0 * 10 ^ (9 - digits.length) := by
  obtain ⟨count, split⟩ := exists_withoutZeros_append digits
  generalize withoutZeros digits = kept at *
  subst split
  rw [List.length_append, List.length_replicate] at *
  rw [Clock.nanosOf, List.take_of_length_le (by omega),
    show 9 - kept.length = count + (9 - (kept.length + count)) by omega,
    ← List.replicate_append_replicate, ← List.append_assoc, Nat.ofDigitChars_append,
    Nat.ofDigitChars_replicate_zero, Nat.mul_comm]

theorem nanosOf_fraction {micros : Nat} (h : micros < 1000000) :
    Clock.nanosOf (withoutZeros (fractionDigits micros)) = micros * 1000 := by
  have length : (fractionDigits micros).length = 6 := Text.length_padded h (by decide)
  have power : 10 ^ (9 - 6) = 1000 := by decide
  rw [nanosOf_withoutZeros (by omega), length, fractionDigits, Text.ofDigitChars_padded, power]

theorem withoutZeros_ne_nil {micros : Nat} (h : micros ≠ 0) :
    withoutZeros (fractionDigits micros) ≠ [] := by
  intro none
  obtain ⟨count, split⟩ := exists_withoutZeros_append (fractionDigits micros)
  rw [none, List.nil_append] at split
  have value := congrArg (Nat.ofDigitChars 10 · 0) split
  simp only [Nat.ofDigitChars_replicate_zero, fractionDigits, Text.ofDigitChars_padded,
    Nat.mul_zero] at value
  exact h value

end DayTime

/-! ### Clock times -/

namespace Timestamp

/-- What stands behind the seconds. -/
def fractionChars (micros : Nat) : List Char :=
  if micros = 0 then [] else '.' :: DayTime.withoutZeros (DayTime.fractionDigits micros)

theorem exists_fractionChars {micros : Nat} (h : micros < 1000000) :
    ∃ digits : List Char, Text.AllDigits digits ∧ Clock.nanosOf digits = micros * 1000
      ∧ fractionChars micros = if digits = [] then [] else '.' :: digits := by
  by_cases whole : micros = 0
  · subst whole
    exact ⟨[], List.forall_mem_nil _, rfl, rfl⟩
  · refine ⟨_, DayTime.allDigits_withoutZeros (Text.allDigits_padded 6 micros),
      DayTime.nanosOf_fraction h, ?_⟩
    rw [fractionChars, if_neg whole, if_neg]
    · rfl
    · exact DayTime.withoutZeros_ne_nil whole

theorem toNanos_clock {time : DayTime} (places : Nat) :
    (Clock.mk time.hour time.minute time.second (time.fraction * 1000) places).toNanos
      = time.micros * 1000 := by
  simp only [Clock.toNanos, nanosPerSecond, DayTime.hour, DayTime.minute, DayTime.second,
    DayTime.fraction]
  omega

/-- A time of day is written as the clock time of its fields. -/
theorem exists_clock {time : DayTime} (h : time.micros < 86400000000) :
    ∃ (clock : Clock) (digits : List Char), clock.Spelled digits ∧ clock.isValid = true
      ∧ clock.toNanos = time.micros * 1000
      ∧ time.clock ++ fractionChars time.fraction = clock.chars digits := by
  have hour : time.hour ≤ 23 := by
    unfold DayTime.hour
    omega
  have minute : time.minute ≤ 59 := by
    unfold DayTime.minute
    omega
  have second : time.second ≤ 59 := by
    unfold DayTime.second
    omega
  obtain ⟨digits, all, nanos, fraction⟩ :=
    exists_fractionChars (show time.fraction < 1000000 from Nat.mod_lt _ (by decide))
  rw [Clock.nanosOf_eq all] at nanos
  refine ⟨⟨time.hour, time.minute, time.second, time.fraction * 1000, digits.length⟩, digits,
    ⟨?_, ?_, ?_, all, nanos.symm, rfl⟩, ?_, toNanos_clock _, ?_⟩
  · exact Nat.lt_of_le_of_lt hour (by decide)
  · exact Nat.lt_of_le_of_lt minute (by decide)
  · exact Nat.lt_of_le_of_lt second (by decide)
  · simp [Clock.isValid, hour, minute, second]
  · rw [fraction]
    simp [DayTime.clock, Clock.chars]

/-! ### Instants -/

/-- The text of a date and a time of day at UTC. -/
def textOf (date : Date) (time : DayTime) : List Char :=
  date.chars ++ 'T' :: (time.clock ++ (fractionChars time.fraction ++ ['Z']))

theorem readRfc3339_textOf {date : Date} {time : DayTime} (valid : date.isValid = true)
    (least : 0 ≤ date.year) (most : date.year ≤ 9999) (h : time.micros < 86400000000) :
    readRfc3339 (textOf date time)
      = some ⟨date.toDays * nanosPerDay + time.micros * 1000, 0⟩ := by
  obtain ⟨clock, digits, spelled, inDay, nanos, written⟩ := exists_clock h
  rw [textOf, ← List.append_assoc, written,
    readRfc3339_zoned ⟨valid, least, most⟩ (by decide) spelled inDay (.utc (.inl rfl)), atUtc,
    nanos, Int.zero_mul, Int.sub_zero]

theorem rfc3339?_eq (micros : Int) :
    rfc3339? micros
      = (let date := Date.ofDays ((micros + epoch2000) / 86400000000)
        if 0 ≤ date.year ∧ date.year ≤ 9999 then
          some (textOf date ⟨((micros + epoch2000) % 86400000000).toNat⟩)
        else none) := by
  simp only [rfc3339?, textOf, fractionChars, List.append_assoc, List.cons_append]

/-- What is written of an instant is read as that instant. -/
theorem readRfc3339_rfc3339 {micros : Int} {chars : List Char}
    (h : rfc3339? micros = some chars) : readRfc3339 chars = some (ofMicros2000 micros) := by
  simp only [rfc3339?_eq] at h
  split at h
  · next year =>
    obtain rfl := Option.some.inj h
    rw [readRfc3339_textOf (Date.isValid_ofDays _) year.1 year.2, Date.toDays_ofDays]
    · refine congrArg some (congrArg (Timestamp.mk · 0) ?_)
      simp only [nanosPerDay, secondsPerDay, nanosPerSecond]
      omega
    · show ((micros + epoch2000) % 86400000000).toNat < 86400000000
      omega
  · cases h

theorem noBlanks_textOf (date : Date) (time : DayTime) : Text.NoBlanks (textOf date time) := by
  have digits (width number : Nat) : Text.NoBlanks (Text.padded width (Text.decimal number)) :=
    (Text.allDigits_padded width number).noBlanks
  have sign : Text.NoBlanks (if date.year < 0 then ['-'] else []) := by
    split <;> decide
  have fraction : Text.NoBlanks (fractionChars time.fraction) := by
    unfold fractionChars
    split
    · decide
    · have kept := DayTime.allDigits_withoutZeros (Text.allDigits_padded 6 time.fraction)
      exact kept.noBlanks.cons (by decide)
  have dated : Text.NoBlanks date.chars :=
    ((sign.append (digits _ _)).append ((digits _ _).cons (by decide))).append
      ((digits _ _).cons (by decide))
  have timed : Text.NoBlanks time.clock :=
    ((digits _ _).append ((digits _ _).cons (by decide))).append ((digits _ _).cons (by decide))
  have zone : Text.NoBlanks ['Z'] := by decide
  exact dated.append ((timed.append (fraction.append zone)).cons (by decide))

theorem read?_rfc3339 {micros : Int} {chars : List Char} (h : rfc3339? micros = some chars) :
    read? (Text.trim chars) = some (ofMicros2000 micros) := by
  have written : Text.NoBlanks chars := by
    rw [rfc3339?_eq] at h
    simp only at h
    split at h
    · rw [← Option.some.inj h]
      exact noBlanks_textOf _ _
    · cases h
  rw [Text.trim_eq_self written, read?, readRfc3339_rfc3339 h]
  rfl

end Timestamp

end ScopedQuery
