import Mathlib.Algebra.Order.Ring.Nat
import ScopedQuery.Calendar.Date
/-!
# Counting days

The date of a count of days is a date of the calendar, and its count is that count again.
-/

namespace ScopedQuery.Date

/-! ### Years -/

theorem isLeap_iff {year : Int} :
    isLeap year = true ↔ year % 4 = 0 ∧ (year % 100 ≠ 0 ∨ year % 400 = 0) :=
  decide_eq_true_iff

def yearLength (leap : Bool) : Nat := if leap then 366 else 365

/-- Cycles of 400 years, the centuries in one, the four-year spans in a century, and single years
hold the days that the rule of the leap years gives them. -/
theorem daysBeforeYear_parts {cycle century four single : Int}
    (hcentury : 0 ≤ century ∧ century ≤ 3) (hfour : 0 ≤ four ∧ four ≤ 24)
    (hsingle : 0 ≤ single ∧ single ≤ 3) :
    daysBeforeYear (400 * cycle + 100 * century + 4 * four + single + 1)
      = 146097 * cycle + 36524 * century + 1461 * four + 365 * single := by
  unfold daysBeforeYear
  omega

theorem yearOfDay_spec (day : Int) :
    daysBeforeYear (yearOfDay day).1 + (yearOfDay day).2 = day ∧ 0 ≤ (yearOfDay day).2
      ∧ (yearOfDay day).2 < yearLength (isLeap (yearOfDay day).1) := by
  unfold yearOfDay
  simp only
  have hcycle := Int.emod_nonneg day (show (146097 : Int) ≠ 0 by decide)
  have hcycle' := Int.emod_lt_of_pos day (show (0 : Int) < 146097 by decide)
  have whole := Int.mul_ediv_add_emod day 146097
  generalize day / 146097 = cycle at *
  generalize day % 146097 = inCycle at *
  generalize hcentury : min (inCycle / 36524) 3 = century
  generalize hinCentury : inCycle - 36524 * century = inCentury
  generalize hfour : inCentury / 1461 = four
  generalize hinFour : inCentury % 1461 = inFour
  generalize hsingle : min (inFour / 365) 3 = single
  rw [daysBeforeYear_parts (by omega) (by omega) (by omega)]
  refine ⟨by omega, by omega, ?_⟩
  unfold yearLength
  split
  · omega
  · next common =>
    rw [isLeap_iff] at common
    omega

/-! ### Months -/

theorem monthOfDay_spec {lengths : List Nat} {day : Nat} (h : day < lengths.sum) :
    (monthOfDay lengths day).1 < lengths.length
      ∧ (monthOfDay lengths day).2 < lengths.getD (monthOfDay lengths day).1 0
      ∧ (lengths.take (monthOfDay lengths day).1).sum + (monthOfDay lengths day).2 = day := by
  induction lengths generalizing day with
  | nil => exact absurd h (Nat.not_lt_zero day)
  | cons length rest ih =>
    rw [List.sum_cons] at h
    rw [monthOfDay]
    split
    · next within => exact ⟨Nat.zero_lt_succ _, within, Nat.zero_add day⟩
    · next beyond =>
      have found := ih (show day - length < rest.sum by omega)
      generalize monthOfDay rest (day - length) = rest' at found ⊢
      obtain ⟨month, left⟩ := rest'
      obtain ⟨inYear, inMonth, total⟩ := found
      refine ⟨Nat.succ_lt_succ inYear, inMonth, ?_⟩
      show (length + (rest.take month).sum) + left = day
      simp only at total
      omega

theorem sum_monthLengths (leap : Bool) : (monthLengths leap).sum = yearLength leap := by
  cases leap <;> rfl

theorem daysBeforeMonth_succ (leap : Bool) (month : Nat) :
    daysBeforeMonth leap (month + 1) = ((monthLengths leap).take month).sum := by
  rw [daysBeforeMonth, Nat.add_sub_cancel, List.sum_eq_foldl_nat]

/-! ### Dates -/

theorem ofDays_spec (days : Int) : (ofDays days).isValid = true ∧ (ofDays days).toDays = days := by
  obtain ⟨total, least, most⟩ := yearOfDay_spec (days + epoch)
  generalize hyear : (yearOfDay (days + epoch)).1 = year at total most
  generalize hday : (yearOfDay (days + epoch)).2 = inYear at total least most
  have within : inYear.toNat < (monthLengths (isLeap year)).sum := by
    rw [sum_monthLengths]
    omega
  obtain ⟨month, day, before⟩ := monthOfDay_spec within
  have date : ofDays days = ⟨year, (monthOfDay (monthLengths (isLeap year)) inYear.toNat).1 + 1,
      (monthOfDay (monthLengths (isLeap year)) inYear.toNat).2 + 1⟩ := by
    rw [ofDays, ← hyear, ← hday]
  rw [date]
  generalize monthOfDay (monthLengths (isLeap year)) inYear.toNat = found at *
  constructor
  · simp only [isValid, monthLength, Nat.succ_ne_zero, if_false, Nat.add_sub_cancel,
      Bool.and_eq_true, decide_eq_true_eq]
    omega
  · rw [toDays, daysBeforeMonth_succ]
    simp only
    omega

theorem isValid_ofDays (days : Int) : (ofDays days).isValid = true := (ofDays_spec days).1

theorem toDays_ofDays (days : Int) : (ofDays days).toDays = days := (ofDays_spec days).2

end ScopedQuery.Date
