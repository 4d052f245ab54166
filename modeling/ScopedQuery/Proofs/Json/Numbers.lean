import ScopedQuery.Proofs.Json.Strings
/-!
# Reading numbers

What is read of a number depends on its own letters only, as long as what follows it cannot
continue it.
-/

namespace ScopedQuery.Json

variable {digits : List Char} {rest : List Letter} {mantissa : Mantissa} {negative : Bool}

/-- The text does not continue a number. -/
def Ends (rest : List Letter) : Prop :=
  ∀ letter ∈ rest.head?, letter.isDigit = false ∧ letter ≠ .char '.' ∧ letter ≠ .char 'e'
    ∧ letter ≠ .char 'E'

theorem ends_nil : Ends [] := nofun

theorem isDigit_char (char : Char) : (Letter.char char).isDigit = Text.isDigit char := rfl

theorem digit?_char (char : Char) : (Letter.char char).digit? = Text.digit? char := rfl

theorem digit?_eq_none {letter : Letter} (h : letter.isDigit = false) : letter.digit? = none := by
  rwa [Letter.isDigit, Option.isSome_eq_false_iff, Option.isNone_iff_eq_none] at h

theorem all_isDigit_letters (all : Text.AllDigits digits) :
    ∀ letter ∈ letters digits, letter.isDigit = true := by
  intro letter member
  obtain ⟨char, digit, rfl⟩ := List.mem_map.1 member
  exact all char digit

theorem dropWhile_letters_append (all : Text.AllDigits digits)
    (stop : ∀ letter ∈ rest.head?, letter.isDigit = false) :
    (letters digits ++ rest).dropWhile Letter.isDigit = rest := by
  rw [List.dropWhile_append_of_pos (all_isDigit_letters all)]
  cases rest with
  | nil => rfl
  | cons letter rest =>
    rw [List.dropWhile_cons_of_neg]
    rw [stop letter rfl]
    decide

/-! ### Digits -/

theorem wholeDigits_append (all : Text.AllDigits digits)
    (stop : ∀ letter ∈ rest.head?, letter.isDigit = false) (start : Nat) :
    wholeDigits start (letters digits ++ rest)
      = ((wholeDigits start (letters digits)).1, rest) := by
  induction digits generalizing start with
  | nil =>
    cases rest with
    | nil => rfl
    | cons letter rest =>
      simp only [letters_nil, List.nil_append, wholeDigits, digit?_eq_none (stop letter rfl)]
  | cons char digits ih =>
    obtain ⟨first, others⟩ := List.forall_mem_cons.1 all
    have alone : (letters digits ++ []).dropWhile Letter.isDigit = [] :=
      dropWhile_letters_append others nofun
    rw [List.append_nil] at alone
    simp only [letters_cons, List.cons_append, wholeDigits, digit?_char, Text.digit?_eq_some first,
      dropWhile_letters_append others stop, alone]
    split
    · simp
    · exact ih others _

theorem wholeDigits_of_le (all : Text.AllDigits digits) {start : Nat}
    (h : Nat.ofDigitChars 10 digits start ≤ Text.maxCount) :
    wholeDigits start (letters digits) = (⟨Nat.ofDigitChars 10 digits start, 0⟩, []) := by
  induction digits generalizing start with
  | nil => rfl
  | cons char digits ih =>
    obtain ⟨first, others⟩ := List.forall_mem_cons.1 all
    rw [Nat.ofDigitChars_cons, Nat.mul_comm] at h ⊢
    have small := Nat.le_trans (Text.le_ofDigitChars digits _) h
    simp only [letters_cons, wholeDigits, digit?_char, Text.digit?_eq_some first]
    rw [if_neg (Nat.not_lt.2 small), ih others h]

theorem fractionDigits_append (all : Text.AllDigits digits)
    (stop : ∀ letter ∈ rest.head?, letter.isDigit = false) (mantissa : Mantissa) :
    fractionDigits mantissa (letters digits ++ rest)
      = ((fractionDigits mantissa (letters digits)).1, rest) := by
  induction digits generalizing mantissa with
  | nil =>
    cases rest with
    | nil => rfl
    | cons letter rest =>
      simp only [letters_nil, List.nil_append, fractionDigits, digit?_eq_none (stop letter rfl)]
  | cons char digits ih =>
    obtain ⟨first, others⟩ := List.forall_mem_cons.1 all
    simp only [letters_cons, List.cons_append, fractionDigits, digit?_char,
      Text.digit?_eq_some first, dropWhile_letters_append others stop]
    split
    · rfl
    · exact ih others _

theorem fractionDigits_of_le (all : Text.AllDigits digits) {mantissa : Mantissa}
    (h : Nat.ofDigitChars 10 digits mantissa.digits ≤ Text.maxCount) :
    fractionDigits mantissa (letters digits)
      = (⟨Nat.ofDigitChars 10 digits mantissa.digits, mantissa.exponent - digits.length⟩, []) := by
  induction digits generalizing mantissa with
  | nil => simp [fractionDigits]
  | cons char digits ih =>
    obtain ⟨first, others⟩ := List.forall_mem_cons.1 all
    rw [Nat.ofDigitChars_cons, Nat.mul_comm] at h ⊢
    have small := Nat.le_trans (Text.le_ofDigitChars digits _) h
    simp only [letters_cons, fractionDigits, digit?_char, Text.digit?_eq_some first]
    rw [if_neg (Nat.not_lt.2 small), ih others h, List.length_cons]
    simp only
    rw [show mantissa.exponent - 1 - (digits.length : Int)
      = mantissa.exponent - ((digits.length + 1 : Nat) : Int) by omega]

/-! ### The parts of a number -/

/-- A number without a point. -/
theorem readFraction_ends (ends : Ends rest) :
    readFraction mantissa negative rest
      = .ok (readFraction.plain mantissa negative rest, rest) := by
  cases rest with
  | nil => rfl
  | cons letter rest =>
    obtain ⟨-, point, small, capital⟩ := ends letter rfl
    rw [readFraction] <;> simp [point, small, capital]

/-- A number with digits behind the point. -/
theorem readFraction_point (all : Text.AllDigits digits) (some : digits ≠ []) (ends : Ends rest) :
    readFraction mantissa negative (.char '.' :: (letters digits ++ rest))
      = .ok ((fractionDigits mantissa (letters digits)).1.document negative rest, rest) := by
  have read := fractionDigits_append all (fun letter first => (ends letter first).1) mantissa
  obtain ⟨char, others, rfl⟩ := List.exists_cons_of_ne_nil some
  have digit : Text.isDigit char = true := all char (List.mem_cons_self ..)
  rw [letters_cons, List.cons_append] at read ⊢
  rw [readFraction]
  simp only [isDigit_char, digit, if_true, read]
  cases rest with
  | nil => rfl
  | cons letter rest =>
    obtain ⟨-, -, small, capital⟩ := ends letter rfl
    simp only [small, capital, or_self, if_false]

theorem readMagnitude_decimal (number : Nat)
    (stop : ∀ letter ∈ rest.head?, letter.isDigit = false) :
    readMagnitude negative (letters (Text.decimal number) ++ rest)
      = readFraction (wholeDigits 0 (letters (Text.decimal number))).1 negative rest := by
  have read := wholeDigits_append (Text.allDigits_decimal number) stop 0
  rcases Nat.eq_zero_or_pos number with rfl | positive
  · show readMagnitude negative (.char '0' :: rest) = readFraction ⟨0, 0⟩ negative rest
    cases rest with
    | nil => rfl
    | cons letter rest =>
      show (if letter.isDigit = true then _ else readFraction ⟨0, 0⟩ negative (letter :: rest)) = _
      rw [stop letter rfl]
      rfl
  · obtain ⟨first, others, split, nonzero⟩ := Text.exists_decimal_cons positive
    have digit : Text.isDigit first = true := by
      apply Text.allDigits_decimal number
      rw [split]
      exact List.mem_cons_self ..
    rw [split, letters_cons, List.cons_append] at read ⊢
    rw [readMagnitude]
    · simp only [isDigit_char, digit, if_true, read]
    · simp [nonzero]

end ScopedQuery.Json
