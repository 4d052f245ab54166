import ScopedQuery.Proofs.Calendar.Order
import ScopedQuery.Proofs.Rule.Forms
import ScopedQuery.Schema.Dashboard
/-!
# Rules on days

A text that starts with a date makes three rules on a timestamp column, and they cut time in three:
the instants of the day, those before it and those after it. Instants are whole microseconds, as
columns hold them, and a bound counts as the microseconds that are sent for it.
-/

namespace ScopedQuery

/-! ### What predicates select -/

/-- How an instant in a column compares with a bound. Patterns are for texts, and the question for
existence has no bound. -/
def Sql.Operator.Compares : Sql.Operator → Int → Int → Prop
  | .eq, held, bound => held = bound
  | .neq, held, bound => held ≠ bound
  | .gt, held, bound => bound < held
  | .gte, held, bound => bound ≤ held
  | .lt, held, bound => held < bound
  | .lte, held, bound => held ≤ bound
  | .like, _, _ | .ilike, _, _ | .isNotNull, _, _ => False

/-- The predicate is about the column, and holds of an instant there, given in microseconds since
2000. -/
def Sql.Filter.Selects (filter : Sql.Filter) (column : String) (micros : Int) : Prop :=
  filter.column = .plain column
    ∧ ∃ bound, filter.value = some (.timestamp bound)
      ∧ filter.operator.Compares micros bound.micros2000

theorem Sql.Filter.selects_compare {column : String} {operator : Sql.Operator} {bound : Timestamp}
    {micros : Int} :
    (Sql.Filter.compare (.plain column) operator (.timestamp bound)).Selects column micros
      ↔ operator.Compares micros bound.micros2000 := by
  constructor
  · intro h
    obtain ⟨-, _, ⟨⟩, compares⟩ := h
    exact compares
  · exact fun compares => ⟨rfl, bound, rfl, compares⟩

/-! ### Bounds -/

namespace Timestamp

theorem micros2000_mk (micros offset : Int) :
    micros2000 ⟨micros * 1000, offset⟩ = micros - epoch2000 := by
  rw [micros2000, ← Int.sub_mul, Int.mul_tdiv_cancel _ (by decide)]

theorem micros2000_startOfDay (day : Int) :
    (startOfDay day).micros2000 = day * 86400000000 - epoch2000 := by
  rw [startOfDay, show day * nanosPerDay = day * 86400000000 * 1000 from
    (Int.mul_assoc day 86400000000 1000).symm, micros2000_mk]

theorem micros2000_endOfDay (day : Int) :
    (endOfDay day).micros2000 = (day + 1) * 86400000000 - 1 - epoch2000 := by
  rw [endOfDay, show (day + 1) * nanosPerDay - 1000 = ((day + 1) * 86400000000 - 1) * 1000 by
    simp only [nanosPerDay, secondsPerDay, nanosPerSecond]
    omega, micros2000_mk]

/-- The calendar date at UTC. -/
def date (instant : Timestamp) : Date := Date.ofDays instant.day

theorem toDays_date (micros : Int) :
    (ofMicros2000 micros).date.toDays = (micros + epoch2000) / 86400000000 := by
  rw [date, Date.toDays_ofDays]
  simp only [day, ofMicros2000, nanosPerDay, secondsPerDay, nanosPerSecond]
  omega

theorem isValid_date (instant : Timestamp) : instant.date.isValid = true :=
  Date.isValid_ofDays _

end Timestamp

/-! ### The three rules -/

namespace Rule

theorem isValid_of_read? {text : List Char} {date : Date} (h : Date.read? text = some date) :
    date.isValid = true :=
  (Date.plain_of_read? h).valid

/-- The rule with another operation. -/
def asking (rule : Rule) (operation : Operation) : Rule := { rule with operation }

variable {table : Table} {rule : Rule} {date : Date}

/-- What is asked of the column and the text for rules on days. -/
structure OnDay (rule : Rule) (table : Table) (date : Date) : Prop where
  kind : table.kind? rule.column = some .timestamp
  named : Sql.isIdentifier rule.column = true
  read : Date.read? rule.value.toList = some date

namespace OnDay

theorem stands (h : rule.OnDay table date) {operation : Operation}
    (known : operation.isUnknown = false) : (rule.asking operation).Stands table .timestamp := by
  refine ⟨known, Ordered.find?_eq_some.1 h.kind, fun _ (none : rule.value = "") => ?_⟩
  have read := h.read
  rw [none] at read
  cases read

theorem writable (h : rule.OnDay table date) : (Sql.Column.plain rule.column).Writable :=
  ⟨h.named, nofun⟩

theorem equals_eq (h : rule.OnDay table date) :
    (rule.asking .equals).filters table
      = .ok [.compare (.plain rule.column) .gte (.timestamp (.startOfDay date.toDays)),
        .compare (.plain rule.column) .lte (.timestamp (.endOfDay date.toDays))] :=
  filters_eq_ok.2 (.onDay (h.stands rfl) (.during rfl h.read h.writable))

theorem lessThan_eq (h : rule.OnDay table date) :
    (rule.asking .lessThan).filters table
      = .ok [.compare (.plain rule.column) .lt (.timestamp (.startOfDay date.toDays))] :=
  filters_eq_ok.2 (.onDay (h.stands rfl) (.before rfl h.read h.writable))

theorem greaterThan_eq (h : rule.OnDay table date) (next : date ≠ .last) :
    (rule.asking .greaterThan).filters table
      = .ok [.compare (.plain rule.column) .gte
        (.timestamp (.startOfDay (date.toDays + 1)))] :=
  filters_eq_ok.2 (.onDay (h.stands rfl) (.after rfl h.read (if_neg next) h.writable))

end OnDay

/-! ### What the rules select -/

variable {column : String}

theorem selects_during (valid : date.isValid = true) (micros : Int) :
    ((Sql.Filter.compare (.plain column) .gte
          (.timestamp (.startOfDay date.toDays))).Selects column micros
        ∧ (Sql.Filter.compare (.plain column) .lte
          (.timestamp (.endOfDay date.toDays))).Selects column micros)
      ↔ (Timestamp.ofMicros2000 micros).date = date := by
  rw [Sql.Filter.selects_compare, Sql.Filter.selects_compare,
    ← Date.toDays_inj (Timestamp.isValid_date _) valid, Timestamp.toDays_date]
  simp only [Sql.Operator.Compares, Timestamp.micros2000_startOfDay,
    Timestamp.micros2000_endOfDay]
  omega

theorem selects_before (valid : date.isValid = true) (micros : Int) :
    (Sql.Filter.compare (.plain column) .lt
        (.timestamp (.startOfDay date.toDays))).Selects column micros
      ↔ (Timestamp.ofMicros2000 micros).date.Before date := by
  rw [Sql.Filter.selects_compare, ← Date.toDays_lt_iff (Timestamp.isValid_date _) valid,
    Timestamp.toDays_date]
  simp only [Sql.Operator.Compares, Timestamp.micros2000_startOfDay]
  omega

theorem selects_after (valid : date.isValid = true) (micros : Int) :
    (Sql.Filter.compare (.plain column) .gte
        (.timestamp (.startOfDay (date.toDays + 1)))).Selects column micros
      ↔ date.Before (Timestamp.ofMicros2000 micros).date := by
  rw [Sql.Filter.selects_compare, ← Date.toDays_lt_iff valid (Timestamp.isValid_date _),
    Timestamp.toDays_date]
  simp only [Sql.Operator.Compares, Timestamp.micros2000_startOfDay]
  omega

def ExactlyOne (first second third : Prop) : Prop :=
  (first ∧ ¬second ∧ ¬third) ∨ (¬first ∧ second ∧ ¬third) ∨ (¬first ∧ ¬second ∧ third)

theorem exactlyOne_date {date other : Date} (valid : date.isValid = true)
    (valid' : other.isValid = true) :
    ExactlyOne (other = date) (other.Before date) (date.Before other) := by
  rw [← Date.toDays_inj valid' valid, ← Date.toDays_lt_iff valid' valid,
    ← Date.toDays_lt_iff valid valid']
  unfold ExactlyOne
  omega

/-- The two predicates of a rule for a day select the instants of that day, the predicate of a rule
for less those before it, and of a rule for more, unless no date follows, those after it; so each
instant is selected by exactly one of the three. -/
theorem days_partition_time (h : rule.OnDay table date) :
    ∃ first last before : Sql.Filter,
      (rule.asking .equals).filters table = .ok [first, last]
        ∧ (rule.asking .lessThan).filters table = .ok [before]
        ∧ (∀ micros,
          (first.Selects rule.column micros ∧ last.Selects rule.column micros
              ↔ (Timestamp.ofMicros2000 micros).date = date)
            ∧ (before.Selects rule.column micros
              ↔ (Timestamp.ofMicros2000 micros).date.Before date))
        ∧ (date ≠ .last → ∃ after : Sql.Filter,
          (rule.asking .greaterThan).filters table = .ok [after]
            ∧ ∀ micros,
              (after.Selects rule.column micros
                  ↔ date.Before (Timestamp.ofMicros2000 micros).date)
                ∧ ExactlyOne (first.Selects rule.column micros ∧ last.Selects rule.column micros)
                  (before.Selects rule.column micros) (after.Selects rule.column micros)) := by
  have valid := isValid_of_read? h.read
  refine ⟨_, _, _, h.equals_eq, h.lessThan_eq, fun micros => ?_, fun next => ?_⟩
  · exact ⟨selects_during valid micros, selects_before valid micros⟩
  · refine ⟨_, h.greaterThan_eq next, fun micros => ⟨selects_after valid micros, ?_⟩⟩
    rw [selects_during valid, selects_before valid, selects_after valid]
    exact exactlyOne_date valid (Timestamp.isValid_date _)

/-- A clock time and an offset behind the date do not count; the date is a leap day. -/
theorem days_partition_time_of_leap_day :
    let rule : Rule := ⟨"r", "call_started_at", .equals, " 2024-02-29T23:30:00-05:00", none⟩
    rule.OnDay Dashboard.callLogs ⟨2024, 2, 29⟩
      ∧ ∃ first last : Sql.Filter,
        (rule.asking .equals).filters Dashboard.callLogs = .ok [first, last]
          ∧ ∀ micros, first.Selects "call_started_at" micros
              ∧ last.Selects "call_started_at" micros
            ↔ (Timestamp.ofMicros2000 micros).date = ⟨2024, 2, 29⟩ := by
  intro rule
  have leapDay : rule.OnDay Dashboard.callLogs ⟨2024, 2, 29⟩ :=
    ⟨by decide, by decide, by decide⟩
  obtain ⟨first, last, _, kept, _, selects, _⟩ := days_partition_time leapDay
  exact ⟨leapDay, first, last, kept, fun micros => (selects micros).1⟩

end Rule

end ScopedQuery
