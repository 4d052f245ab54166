import ScopedQuery.Text.Digits
/-!
# Runs of characters

A run of characters of one class can be told from what follows it when that starts with a character
of another class or is empty. Decimal numbers are such runs, and a number is known by its digits.
-/

namespace ScopedQuery.Text

variable {belongs : Char → Bool} {left right : List Char} {char : Char}

/-- The text does not start with a character of the class. -/
def Stops (belongs : Char → Bool) (text : List Char) : Prop :=
  ∀ char ∈ text.head?, belongs char = false

@[simp] theorem stops_nil : Stops belongs [] := by simp [Stops]

@[simp] theorem stops_cons : Stops belongs (char :: right) ↔ belongs char = false := by
  simp [Stops]

instance : Decidable (Stops belongs right) :=
  decidable_of_iff (right.head?.all (!belongs ·) = true) (by cases right <;> simp [Stops])

theorem Stops.append (hleft : Stops belongs left) (hright : Stops belongs right) :
    Stops belongs (left ++ right) := by
  cases left with
  | nil => exact hright
  | cons char rest => exact hleft

theorem takeWhile_append_of_stops (all : ∀ char ∈ left, belongs char = true)
    (stops : Stops belongs right) : (left ++ right).takeWhile belongs = left := by
  rw [List.takeWhile_append_of_pos all]
  cases right with
  | nil => simp
  | cons char rest =>
    rw [List.takeWhile_cons_of_neg (by simpa using stops), List.append_nil]

theorem dropWhile_append_of_stops (all : ∀ char ∈ left, belongs char = true)
    (stops : Stops belongs right) : (left ++ right).dropWhile belongs = right := by
  rw [List.dropWhile_append_of_pos all]
  cases right with
  | nil => rfl
  | cons char rest => exact List.dropWhile_cons_of_neg (by simpa using stops)

/-- Two runs with anything but a character of the class behind them. -/
theorem append_inj_of_stops {left' right' : List Char}
    (all : ∀ char ∈ left, belongs char = true) (all' : ∀ char ∈ left', belongs char = true)
    (stops : Stops belongs right) (stops' : Stops belongs right')
    (same : left ++ right = left' ++ right') : left = left' ∧ right = right' := by
  have runs : left = left' := by
    rw [← takeWhile_append_of_stops all stops, same, takeWhile_append_of_stops all' stops']
  subst runs
  exact ⟨rfl, List.append_cancel_left same⟩

/-! ### Decimal numbers -/

theorem isDigit_eq (char : Char) : isDigit char = char.isDigit := by
  rw [Bool.eq_iff_iff]
  simp only [isDigit, digit?, Char.isDigit, Char.le_def, Bool.and_eq_true, decide_eq_true_eq]
  split <;> simp_all

theorem isDigit_of_mem_decimal {number : Nat} (member : char ∈ decimal number) :
    isDigit char = true := by
  rw [isDigit_eq]
  exact Nat.isDigit_of_mem_toDigits (by decide) (by decide) member

theorem decimal_injective {number number' : Nat} (same : decimal number = decimal number') :
    number = number' := by
  have read := congrArg (Nat.ofDigitChars 10 · 0) same
  simpa [decimal] using read

end ScopedQuery.Text
