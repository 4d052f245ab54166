import ScopedQuery.Proofs.Calendar.Spelling
/-!
# The order of dates

Dates are ordered by year, then month, then day, and counting days keeps this order. So a date is
the date of its count, and a bound on the count of days is a bound on the date.
-/

namespace ScopedQuery.Date

variable {date first second : Date}

/-- Earlier in the calendar. -/
def Before (first second : Date) : Prop :=
  first.year < second.year ∨ first.year = second.year
    ∧ (first.month < second.month ∨ first.month = second.month ∧ first.day < second.day)

theorem before_or_eq_or_before (first second : Date) :
    first.Before second ∨ first = second ∨ second.Before first := by
  obtain ⟨year, month, day⟩ := first
  obtain ⟨year', month', day'⟩ := second
  simp only [Before, Date.mk.injEq]
  omega

/-! ### Counting within a year -/

/-- A month lies behind the months before it, and the year behind its months. -/
theorem daysBeforeMonth_add_le (leap : Bool) :
    ∀ month < 13, 0 < month →
      daysBeforeMonth leap month + (monthLengths leap).getD (month - 1) 0 ≤ yearLength leap
        ∧ ∀ later < 13, month < later →
          daysBeforeMonth leap month + (monthLengths leap).getD (month - 1) 0
            ≤ daysBeforeMonth leap later := by
  cases leap <;> decide

theorem monthLength_eq (h : date.isValid = true) :
    monthLength date.year date.month = (monthLengths (isLeap date.year)).getD (date.month - 1) 0
      ∧ 0 < date.month := by
  rw [isValid_iff, monthLength] at h
  rw [monthLength]
  split
  · next none =>
    rw [if_pos none] at h
    omega
  · next some => exact ⟨rfl, Nat.pos_of_ne_zero some⟩

/-! ### Counting years -/

theorem daysBeforeYear_le {year later : Int} (h : year < later) :
    daysBeforeYear year + yearLength (isLeap year) ≤ daysBeforeYear later := by
  unfold daysBeforeYear yearLength
  split
  · next leap =>
    rw [isLeap_iff] at leap
    omega
  · omega

/-! ### Counting days -/

theorem toDays_lt_of_before (valid : first.isValid = true) (valid' : second.isValid = true)
    (h : first.Before second) : first.toDays < second.toDays := by
  obtain ⟨length, some⟩ := monthLength_eq valid
  obtain ⟨inYear, later⟩ :=
    daysBeforeMonth_add_le (isLeap first.year) first.month (month_lt_of_isValid valid) some
  have last := (isValid_iff.1 valid).2
  have least := (isValid_iff.1 valid').1
  rw [length] at last
  unfold toDays
  rcases h with year | ⟨year, month | ⟨month, day⟩⟩
  · have years := daysBeforeYear_le year
    omega
  · have months := later second.month (month_lt_of_isValid valid') month
    rw [← year]
    omega
  · rw [← year, ← month]
    omega

theorem toDays_lt_iff (valid : first.isValid = true) (valid' : second.isValid = true) :
    first.toDays < second.toDays ↔ first.Before second := by
  refine ⟨fun less => ?_, toDays_lt_of_before valid valid'⟩
  rcases before_or_eq_or_before first second with before | rfl | after
  · exact before
  · exact absurd less (Int.lt_irrefl _)
  · have more := toDays_lt_of_before valid' valid after
    omega

theorem toDays_inj (valid : first.isValid = true) (valid' : second.isValid = true) :
    first.toDays = second.toDays ↔ first = second := by
  refine ⟨fun same => ?_, congrArg toDays⟩
  rcases before_or_eq_or_before first second with before | equal | after
  · have less := toDays_lt_of_before valid valid' before
    omega
  · exact equal
  · have more := toDays_lt_of_before valid' valid after
    omega

end ScopedQuery.Date
