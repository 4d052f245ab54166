import ScopedQuery.Cell.Parameter
import ScopedQuery.Proofs.Calendar.Instants
import ScopedQuery.Proofs.Rule.Days
/-!
# Days of what is written

A text that is written to a timestamp column and the same text in a rule mean the same day, as long
as the text is at UTC: the rule for the day selects the instant, and those for less and for more do
not. This holds of the instant rounded down to whole microseconds. What is sent for it is cut toward
2000 instead, and so the last nanoseconds of a day before 2000 are stored as the midnight behind it.
-/

namespace ScopedQuery

namespace Rule

variable {table : Table} {rule : Rule} {date : Date} {instant : Timestamp} {micros : Int}
  {filters : List Sql.Filter}

/-- An instant in the column, in microseconds since 2000, is selected by `equals`, and neither by
`less_than` nor, where it is kept, by `greater_than`. -/
structure SelectsOnDay (rule : Rule) (table : Table) (micros : Int) : Prop where
  equals : ∃ first last, (rule.asking .equals).filters table = .ok [first, last]
    ∧ first.Selects rule.column micros ∧ last.Selects rule.column micros
  lessThan : ∃ before, (rule.asking .lessThan).filters table = .ok [before]
    ∧ ¬before.Selects rule.column micros
  greaterThan : ∀ filters, (rule.asking .greaterThan).filters table = .ok filters →
    ∃ after, filters = [after] ∧ ¬after.Selects rule.column micros

/-- A rule for a day that is kept on a timestamp column has a text that begins with a date. -/
theorem exists_onDay (kind : table.kind? rule.column = some .timestamp)
    (kept : (rule.asking .equals).filters table = .ok filters) :
    ∃ date, rule.OnDay table date := by
  have only {other : Kind} (stands : (rule.asking .equals).Stands table other) :
      .timestamp = other := by
    have found := Ordered.find?_eq_some.2 stands.listed
    exact Option.some.inj (kind.symm.trans found)
  cases filters_eq_ok.1 kept with
  | onField stands => cases only stands
  | onPlain stands _ other => exact absurd (only stands).symm other
  | onDay _ form =>
    cases form with
    | during _ read written => exact ⟨_, kind, written.1, read⟩
    | after asked | before asked => cases asked

theorem OnDay.ne_last (h : rule.OnDay table date)
    (kept : (rule.asking .greaterThan).filters table = .ok filters) : date ≠ .last := by
  rintro rfl
  cases filters_eq_ok.1 kept with
  | onField other =>
    have found := Ordered.find?_eq_some.2 other.listed
    cases h.kind.symm.trans found
  | onPlain other _ notDay =>
    have found := Ordered.find?_eq_some.2 other.listed
    exact notDay (Option.some.inj (found.symm.trans h.kind))
  | onDay _ form =>
    cases form with
    | after _ read next =>
      obtain rfl := Option.some.inj (h.read.symm.trans read)
      cases next
    | during asked | before asked => cases asked

theorem OnDay.selectsOnDay_iff (h : rule.OnDay table date) :
    rule.SelectsOnDay table micros ↔ (Timestamp.ofMicros2000 micros).date = date := by
  have valid := isValid_of_read? h.read
  constructor
  · intro selects
    obtain ⟨first, last, kept, selected⟩ := selects.equals
    cases h.equals_eq.symm.trans kept
    exact (selects_during valid micros).1 selected
  · intro same
    have never : ¬date.Before date := by
      rw [← Date.toDays_lt_iff valid valid]
      exact Int.lt_irrefl _
    refine ⟨⟨_, _, h.equals_eq, (selects_during valid micros).2 same⟩, ⟨_, h.lessThan_eq, ?_⟩, ?_⟩
    · rw [selects_before valid, same]
      exact never
    · intro filters kept
      cases (h.greaterThan_eq (h.ne_last kept)).symm.trans kept
      refine ⟨_, rfl, ?_⟩
      rw [selects_after valid, same]
      exact never

theorem OnDay.selectsOnDay_iff_day (h : rule.OnDay table date) :
    rule.SelectsOnDay table micros
      ↔ (micros + Timestamp.epoch2000) / 86400000000 = date.toDays := by
  rw [h.selectsOnDay_iff, ← Date.toDays_inj (Timestamp.isValid_date _) (isValid_of_read? h.read),
    Timestamp.toDays_date]

/-- A text at UTC is written as an instant of the day that its rule asks for. -/
theorem OnDay.day_eq (h : rule.OnDay table date)
    (taken : Kind.timestamp.ofText? rule.value = some (.timestamp instant))
    (utc : instant.offset = 0) : instant.day = date.toDays := by
  obtain ⟨⟨other, rest⟩, start, rfl⟩ := Option.map_eq_some_iff.1 h.read
  exact Timestamp.day_of_read? (Text.trim_trim _) (Timestamp.ofText?_eq_some.1 taken) utc start

/-- Rounded down to the microsecond, what is written of a text is selected by the rules on that
text as an instant of their day. So is what is stored, which is the same from 2000 on and for whole
microseconds, unless it rounds over to the midnight behind the day. -/
theorem written_on_filtered_day (kind : table.kind? rule.column = some .timestamp)
    (kept : (rule.asking .equals).filters table = .ok filters)
    (taken : Kind.timestamp.ofText? rule.value = some (.timestamp instant))
    (utc : instant.offset = 0) :
    rule.SelectsOnDay table instant.microsBelow
      ∧ (Timestamp.epoch2000 * 1000 ≤ instant.nanos ∨ instant.nanos % 1000 = 0 →
        instant.micros2000 = instant.microsBelow)
      ∧ (¬instant.RoundsOver → rule.SelectsOnDay table instant.micros2000)
      ∧ (instant.RoundsOver →
        Timestamp.ofMicros2000 instant.micros2000 = .startOfDay (instant.day + 1)
          ∧ ¬rule.SelectsOnDay table instant.micros2000) := by
  obtain ⟨date, onDay⟩ := exists_onDay kind kept
  have day := onDay.day_eq taken utc
  obtain ⟨stays, leaves⟩ := instant.day_micros2000
  refine ⟨?_, ?_, ?_, ?_⟩
  · rw [onDay.selectsOnDay_iff_day, Timestamp.day_microsBelow, day]
  · intro whole
    rw [Timestamp.micros2000_eq, if_pos whole]
  · intro notOver
    rw [onDay.selectsOnDay_iff_day, stays notOver, day]
  · intro rounds
    have midnight := leaves rounds
    constructor
    · rw [Timestamp.ofMicros2000, midnight, Int.mul_assoc]
      rfl
    · rw [onDay.selectsOnDay_iff_day, midnight, ← day, Int.mul_ediv_cancel _ (by decide)]
      omega

/-- Blanks around the text, any character between date and time, and more digits than are kept. -/
theorem written_on_filtered_day_of_long_fraction :
    let rule : Rule :=
      ⟨"r", "call_started_at", .equals, "\t2024-02-29_23:59:59.9999999999z ", none⟩
    let instant : Timestamp := ⟨1709251199999999999, 0⟩
    Kind.timestamp.ofText? rule.value = some (.timestamp instant) ∧ instant.offset = 0
      ∧ (∃ filters, (rule.asking .equals).filters Dashboard.callLogs = .ok filters)
      ∧ rule.SelectsOnDay Dashboard.callLogs instant.microsBelow := by
  intro rule instant
  have taken : Kind.timestamp.ofText? rule.value = some (.timestamp instant) :=
    Timestamp.ofText?_eq_some.2 (by decide)
  have onDay : rule.OnDay Dashboard.callLogs ⟨2024, 2, 29⟩ := ⟨by decide, by decide, by decide⟩
  have found := written_on_filtered_day onDay.kind onDay.equals_eq taken rfl
  exact ⟨taken, rfl, ⟨_, onDay.equals_eq⟩, found.1⟩

/-- A leap second before 2000 is not stored rounded down. It is stored as the midnight that ends
its day, and the rule on its own text does not select it. -/
theorem not_on_filtered_day_of_leap_second :
    let rule : Rule := ⟨"r", "call_started_at", .equals, "1990-12-31T23:59:60Z", none⟩
    let instant : Timestamp := ⟨662687999999999999, 0⟩
    Kind.timestamp.ofText? rule.value = some (.timestamp instant) ∧ instant.offset = 0
      ∧ (Value.timestamp instant).parameter
        = ⟨"TIMESTAMPTZ", some (Bytes.ofInt 8 instant.micros2000)⟩
      ∧ instant.micros2000 ≠ instant.microsBelow
      ∧ ∃ first last, (rule.asking .equals).filters Dashboard.callLogs = .ok [first, last]
        ∧ ¬(first.Selects rule.column instant.micros2000
          ∧ last.Selects rule.column instant.micros2000) := by
  intro rule instant
  have onDay : rule.OnDay Dashboard.callLogs ⟨1990, 12, 31⟩ := ⟨by decide, by decide, by decide⟩
  refine ⟨Timestamp.ofText?_eq_some.2 (by decide), rfl, rfl, by decide, _, _, onDay.equals_eq, ?_⟩
  rw [selects_during (by decide)]
  decide

end Rule

end ScopedQuery
