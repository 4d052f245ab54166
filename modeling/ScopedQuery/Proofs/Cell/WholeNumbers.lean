import Mathlib.Algebra.Order.Field.Power
import ScopedQuery.Cell.Reading
import ScopedQuery.Proofs.Cell.NumericText
import ScopedQuery.Proofs.Number.Rounding
/-!
# Cells of whole numbers

A decimal number is first brought to a fixed precision, digit by digit. For a whole number the sum
stays whole on the way (`holds_addDigits`), so it is held exactly as long as it fits the coefficient.
What becomes of it is settled by its size: a signed 64-bit word is shown as it is, a larger one that
still fits the coefficient becomes the nearest binary64 number, and beyond that its text is shown.
-/

namespace ScopedQuery

/-- The JSON is the whole number, or a text of its value. -/
def Json.Denotes (json : Json) (number : Int) : Prop :=
  json = .int number
    ∨ ∃ text : DecimalText, json = .string (String.ofList text.chars) ∧ text.Digital
      ∧ text.value = number

namespace Numeric

variable {numeric : Numeric} {weight : Int} {sign scale : Nat} {digit : Int} {digits : List Int}

/-! ### Values digit by digit -/

theorem magnitude_cons (weight : Int) (sign scale : Nat) (digit : Int) (digits : List Int) :
    magnitude ⟨weight, sign, scale, digit :: digits⟩
      = digit * 10000 ^ weight + magnitude ⟨weight - 1, sign, scale, digits⟩ := by
  rw [magnitude, magnitude, List.length_cons, Finset.sum_range_succ', add_comm]
  congr 1
  · rw [List.getD_cons_zero, Nat.cast_zero, sub_zero]
  · refine Finset.sum_congr rfl fun place _ => ?_
    rw [List.getD_cons_succ, show weight - ((place + 1 : Nat) : Int) = weight - 1 - place by omega]

theorem InBase.magnitude_nonneg (h : numeric.InBase) : 0 ≤ numeric.magnitude := by
  rw [h.magnitude_eq le_rfl]
  exact mul_nonneg (by positivity) (pastPoint_nonneg _ _)

theorem InBase.magnitude_lt (h : numeric.InBase) :
    numeric.magnitude < 10000 ^ (numeric.weight + 1) := by
  rw [h.magnitude_eq le_rfl]
  exact mul_lt_of_lt_one_right (by positivity) (pastPoint_lt_one (fun _ => h.sizeAt_lt _) _)

/-- A whole number is whole digit by digit. -/
theorem exists_whole_parts (h : InBase ⟨weight, sign, scale, digit :: digits⟩) {number : Nat}
    (whole : magnitude ⟨weight, sign, scale, digit :: digits⟩ = number) :
    ∃ first others : Nat, number = first + others ∧ (digit : ℚ) * 10000 ^ weight = first
      ∧ magnitude ⟨weight - 1, sign, scale, digits⟩ = others := by
  obtain ⟨⟨natural, -⟩, rest⟩ := List.forall_mem_cons.1 h
  have rest : InBase ⟨weight - 1, sign, scale, digits⟩ := rest
  have least := rest.magnitude_nonneg
  have all := h.magnitude_lt
  rw [whole] at all
  rw [magnitude_cons] at whole
  lift digit to Nat using natural
  rcases Int.lt_or_le weight 0 with behind | before
  · have one : (10000 : ℚ) ^ (weight + 1) ≤ 1 := zpow_le_one_of_nonpos₀ (by norm_num) (by omega)
    have zero : number = 0 := Nat.lt_one_iff.1 (by exact_mod_cast all.trans_le one)
    have first : (0 : ℚ) ≤ ((digit : Int) : ℚ) * 10000 ^ weight := by positivity
    rw [zero, Nat.cast_zero] at whole
    exact ⟨0, 0, zero, by push_cast at *; linarith, by push_cast at *; linarith⟩
  · lift weight to Nat using before
    have split : magnitude ⟨weight - 1, sign, scale, digits⟩
        = ((number - digit * 10000 ^ weight : Int) : ℚ) := by
      rw [zpow_natCast] at whole
      push_cast at *
      linarith
    rw [split] at least ⊢
    have enough : (0 : Int) ≤ number - digit * 10000 ^ weight := by exact_mod_cast least
    obtain ⟨others, same⟩ := Int.eq_ofNat_of_zero_le enough
    refine ⟨digit * 10000 ^ weight, others, ?_, ?_, ?_⟩
    · zify
      push_cast at *
      omega
    · rw [zpow_natCast]
      push_cast
      rfl
    · rw [same]
      norm_cast

/-! ### Whole numbers of fixed precision -/

/-- A whole number in a form of fixed precision. Only zero may have places behind the point. -/
structure Fixed.Whole (number : Int) (fixed : Fixed) : Prop where
  coefficient : fixed.coefficient = number
  places : fixed.places = 0 ∨ number = 0
  fits : number.natAbs ≤ maxCoefficient

/-- What is left of a whole number that may not fit. -/
def Holds (number : Nat) (result : Option Fixed) : Prop :=
  if number ≤ maxCoefficient then ∃ fixed, result = some fixed ∧ fixed.Whole number
  else result = none

theorem holds_some {fixed : Fixed} {number : Nat} (h : fixed.Whole number) :
    Holds number (some fixed) := by
  have fits := h.fits
  rw [Int.natAbs_natCast] at fits
  rw [Holds, if_pos fits]
  exact ⟨fixed, rfl, h⟩

/-- A number that does not fit is part of none that does. -/
theorem Holds.bind {number total : Nat} {result : Option Fixed} {next : Fixed → Option Fixed}
    (h : Holds number result) (part : number ≤ total)
    (others : ∀ fixed, fixed.Whole number → Holds total (next fixed)) :
    Holds total (result.bind next) := by
  by_cases fits : number ≤ maxCoefficient
  · rw [Holds, if_pos fits] at h
    obtain ⟨fixed, rfl, whole⟩ := h
    exact others fixed whole
  · rw [Holds, if_neg fits] at h
    rw [h, Option.bind_none, Holds, if_neg (by omega)]

/-- Without places there are none to give up. -/
theorem fit_whole (dropped : Nat) (coefficient : Int) :
    Fixed.fit dropped ⟨coefficient, 0⟩ = Fixed.fit 0 ⟨coefficient, 0⟩ := by
  induction dropped with
  | zero => rfl
  | succ dropped ih =>
    rw [← ih, Fixed.fit]
    cases Fixed.fit dropped ⟨coefficient, 0⟩ with
    | some fitted => rfl
    | none => exact if_neg (Nat.not_succ_le_zero dropped)

theorem holds_fit (dropped number : Nat) : Holds number (Fixed.fit dropped ⟨number, 0⟩) := by
  rw [fit_whole, Fixed.fit, Int.natAbs_natCast]
  by_cases fits : number ≤ maxCoefficient
  · rw [if_pos fits]
    exact holds_some ⟨rfl, .inl rfl, fits⟩
  · rw [if_neg fits, Holds, if_neg fits]

theorem holds_add {left right : Fixed} {number number' : Nat} (h : left.Whole number)
    (h' : right.Whole number') : Holds (number + number') (left.add right) := by
  rw [Fixed.add, h.coefficient, h'.coefficient]
  by_cases zero : number = 0
  · rw [zero, Nat.cast_zero, if_pos rfl, Nat.zero_add]
    exact holds_some h'
  · rw [if_neg (by omega)]
    by_cases zero' : number' = 0
    · rw [zero', Nat.cast_zero, if_pos rfl, Nat.add_zero]
      exact holds_some h
    · rw [if_neg (by omega), h.places.resolve_right (by omega), h'.places.resolve_right (by omega)]
      simpa using holds_fit 28 (number + number')

theorem holds_part (low : -7 ≤ weight) (high : weight ≤ 7) (range : 0 ≤ digit ∧ digit < 10000)
    {number : Nat} (same : (digit : ℚ) * 10000 ^ weight = number) :
    Holds number (part digit weight) := by
  rw [part, if_neg (by omega)]
  rcases Int.lt_or_le weight 0 with behind | before
  · have small : (digit : ℚ) * 10000 ^ weight < 1 := by
      have most : (digit : ℚ) < 10000 := by exact_mod_cast range.2
      calc (digit : ℚ) * 10000 ^ weight < 10000 * 10000 ^ weight := by gcongr
        _ = 10000 ^ (weight + 1) := by rw [zpow_add_one₀ (by norm_num), mul_comm]
        _ ≤ 1 := zpow_le_one_of_nonpos₀ (by norm_num) (by omega)
    rw [same] at small
    obtain rfl : number = 0 := Nat.lt_one_iff.1 (by exact_mod_cast small)
    have zero : digit = 0 := by
      have power : (10000 : ℚ) ^ weight ≠ 0 := by positivity
      exact_mod_cast (mul_eq_zero.1 (same.trans Nat.cast_zero)).resolve_right power
    rw [if_neg (by omega), zero]
    exact holds_some ⟨rfl, .inr rfl, Nat.zero_le _⟩
  · lift weight to Nat using before
    rw [zpow_natCast] at same
    have value : digit * (Nat.pow 10000 weight : Nat) = number := by
      rw [Nat.pow_eq]
      exact_mod_cast same
    rw [if_pos (Int.natCast_nonneg weight), Int.toNat_natCast, value]
    exact holds_fit 0 number

/-- All digits have weights that fixed precision can hold. -/
def Close (numeric : Numeric) : Prop :=
  numeric.digits = [] ∨ (numeric.weight ≤ 7 ∧ numeric.digits.length ≤ numeric.weight + 8)

instance (numeric : Numeric) : Decidable numeric.Close := inferInstanceAs (Decidable (_ ∨ _))

theorem Close.cons (h : Close ⟨weight, sign, scale, digit :: digits⟩) :
    -7 ≤ weight ∧ weight ≤ 7 ∧ Close ⟨weight - 1, sign, scale, digits⟩ := by
  obtain none | ⟨high, low⟩ := h
  · cases none
  · simp only [List.length_cons] at low high
    exact ⟨by omega, high, .inr ⟨by simp only; omega, by simp only; omega⟩⟩

/-- The sum of a whole number's digits stays whole on the way. -/
theorem holds_addDigits {sum : Fixed} {number total : Nat} (h : sum.Whole number)
    (base : InBase ⟨weight, sign, scale, digits⟩) (close : Close ⟨weight, sign, scale, digits⟩)
    (whole : magnitude ⟨weight, sign, scale, digits⟩ = total) :
    Holds (number + total) (addDigits sum weight digits) := by
  induction digits generalizing weight sum number total with
  | nil =>
    have none : (total : ℚ) = 0 := whole.symm.trans (Finset.sum_range_zero _)
    obtain rfl : total = 0 := by exact_mod_cast none
    exact holds_some h
  | cons digit digits ih =>
    obtain ⟨low, high, rest⟩ := close.cons
    obtain ⟨range, others⟩ := List.forall_mem_cons.1 base
    obtain ⟨first, left, rfl, same, remaining⟩ := exists_whole_parts base whole
    simp only [addDigits, Option.bind_eq_bind]
    refine (holds_part low high range same).bind (by omega) fun placed held => ?_
    refine (holds_add h held).bind (by omega) fun next held => ?_
    rw [← Nat.add_assoc]
    exact ih held others rest remaining

theorem close_of_addDigits {sum found : Fixed} (h : addDigits sum weight digits = some found) :
    Close ⟨weight, sign, scale, digits⟩ := by
  induction digits generalizing weight sum with
  | nil => exact .inl rfl
  | cons digit digits ih =>
    simp only [addDigits, Option.bind_eq_bind] at h
    obtain ⟨placed, first, added⟩ := Option.bind_eq_some_iff.1 h
    obtain ⟨next, -, rest⟩ := Option.bind_eq_some_iff.1 added
    have range : ¬(weight < -7 ∨ 7 < weight) := by
      intro beyond
      rw [part, if_pos beyond] at first
      cases first
    right
    simp only [List.length_cons]
    obtain none | ⟨-, low⟩ := ih rest
    · simp only at none
      rw [none, List.length_nil]
      omega
    · simp only at low
      omega

theorem Fixed.Whole.toPlaces {fixed : Fixed} {number : Int} (h : fixed.Whole number)
    (places : Nat) :
    (Fixed.toPlaces ⟨fixed.coefficient.natAbs, fixed.places⟩ places).Whole number.natAbs := by
  have fits := h.fits
  rw [Fixed.toPlaces, h.coefficient]
  dsimp only
  split
  · exact ⟨rfl, h.places.imp_right (by omega), fits⟩
  · next more =>
    have zero : number = 0 := h.places.resolve_left (by omega)
    have rounded (step : Nat) : Binary64.roundHalfAway 0 step = 0 := by
      rw [Binary64.roundHalfAway, Nat.mul_zero, Nat.zero_add]
      rcases Nat.eq_zero_or_pos step with rfl | positive
      · rfl
      · exact Nat.div_eq_of_lt (by omega)
    rw [zero]
    exact ⟨congrArg _ (rounded _), .inr rfl, Nat.zero_le _⟩

/-- A whole number that is held is held exactly; the others have no fixed precision. -/
theorem fixed?_whole (base : numeric.InBase) {number : Nat} (whole : numeric.magnitude = number)
    (isNegative : Bool) :
    if numeric.Close ∧ number ≤ maxCoefficient then
      ∃ fixed, numeric.fixed? isNegative = some fixed
        ∧ fixed.Whole (if isNegative then -number else number)
    else numeric.fixed? isNegative = none := by
  have start : Fixed.Whole (0 : Nat) ⟨0, 0⟩ := ⟨rfl, .inl rfl, Nat.zero_le _⟩
  rw [fixed?, Option.bind_eq_bind]
  by_cases close : numeric.Close
  · have sum := holds_addDigits start base close whole
    rw [Nat.zero_add] at sum
    simp only [close, true_and]
    by_cases fits : number ≤ maxCoefficient
    · rw [Holds, if_pos fits] at sum
      obtain ⟨fixed, found, held⟩ := sum
      have shown := held.toPlaces numeric.scale
      rw [Int.natAbs_natCast] at shown
      rw [if_pos fits, found, Option.bind_some]
      refine ⟨_, rfl, ?_, ?_, ?_⟩
      · dsimp only
        rw [shown.coefficient]
      · exact shown.places.imp_right fun zero => by rw [zero]; cases isNegative <;> rfl
      · cases isNegative <;> simpa using fits
    · rw [Holds, if_neg fits] at sum
      rw [if_neg fits, sum, Option.bind_none]
  · rw [if_neg fun both => close both.1]
    cases found : addDigits ⟨0, 0⟩ numeric.weight numeric.digits with
    | none => rfl
    | some sum => exact absurd (close_of_addDigits found) close

/-! ### JSON of whole numbers -/

namespace Fixed.Whole

variable {fixed : Fixed} {number : Int}

theorem remainder (h : fixed.Whole number) :
    fixed.coefficient % (Nat.pow 10 fixed.places : Nat) = 0
      ∧ Int.tdiv fixed.coefficient (Nat.pow 10 fixed.places : Nat) = number := by
  rw [h.coefficient]
  rcases h.places with none | zero
  · rw [none]
    exact ⟨Int.emod_one _, Int.tdiv_one _⟩
  · rw [zero]
    exact ⟨Int.zero_emod _, Int.zero_tdiv _⟩

theorem toJson_of_word (h : fixed.Whole number) (word : Text.isWord number = true) :
    fixed.toJson = .int number := by
  obtain ⟨remainder, whole⟩ := h.remainder
  rw [toJson, whole, if_pos ⟨remainder, word⟩]

theorem toBinary64_covers (h : fixed.Whole number) (some : number ≠ 0) :
    ∃ mantissa scale, fixed.toBinary64 = .finite (number < 0) mantissa scale
      ∧ Binary64.leadingBit ≤ mantissa
      ∧ (Binary64.interval mantissa scale).Covers number.natAbs := by
  have fits := h.fits
  have positive : 0 < number.natAbs := Int.natAbs_pos.2 some
  have short : (Nat.toDigits 10 number.natAbs).length ≤ 29 :=
    Text.length_decimal_le (Nat.lt_of_le_of_lt fits (by decide)) (by decide)
  have large : Binary64.leadingBit ≤ number.natAbs * Binary64.one / 1 := by
    rw [Nat.div_one]
    exact Nat.le_trans (by decide +kernel) (Nat.mul_le_mul_right _ positive)
  have small : (number.natAbs * Binary64.one / 1).log2 < Binary64.maxScale + 52 := by
    rw [Nat.div_one, Nat.log2_lt (Nat.mul_ne_zero (by omega) (Nat.ne_of_gt Binary64.one_pos))]
    exact Nat.lt_of_le_of_lt (Nat.mul_le_mul_right _ fits) (by decide +kernel)
  obtain ⟨mantissa, scale, same, all, covers⟩ :=
    Binary64.ofRatio_covers Nat.one_pos large small (number < 0)
  refine ⟨mantissa, scale, ?_, all, ?_⟩
  · rw [toBinary64, h.coefficient, h.places.resolve_right some, Binary64.ofDecimal,
      if_neg (by simp; omega), if_neg (by simp; omega), ← same]
    simp
  · have one : (Binary64.one : ℚ) ≠ 0 := Nat.cast_ne_zero.2 (Nat.ne_of_gt Binary64.one_pos)
    rwa [Nat.cast_mul, Nat.cast_one, div_one, mul_div_cancel_right₀ _ one] at covers

theorem toJson_rounded (h : fixed.Whole number) (large : ¬Text.isWord number = true) :
    ∃ mantissa scale, fixed.toJson = .number (.float (.finite (number < 0) mantissa scale))
      ∧ Binary64.leadingBit ≤ mantissa
      ∧ (Binary64.interval mantissa scale).Covers number.natAbs := by
  obtain ⟨-, whole⟩ := h.remainder
  have some : number ≠ 0 := by
    rintro rfl
    exact large (by decide)
  obtain ⟨mantissa, scale, same, all, covers⟩ := h.toBinary64_covers some
  refine ⟨mantissa, scale, ?_, all, covers⟩
  rw [toJson, whole, if_neg fun both => large both.2, same]
  rfl

end Fixed.Whole

/-! ### Cells -/

namespace Sendable

open Cell

/-- Without digits there is nothing to add, and zero is what is read. -/
theorem readFixed_bytes (h : numeric.Sendable) :
    readFixed numeric.bytes = match numeric.fixed? (numeric.sign = negative) with
      | some fixed => .ok fixed
      | none => fail .numericTooLarge := by
  have number : ¬numeric.sign = notANumber := by
    rcases h.sign with same | same <;> rw [same] <;> decide
  have sign : ¬(numeric.sign ≠ positive ∧ numeric.sign ≠ negative) := fun both =>
    h.sign.elim both.1 both.2
  rw [readFixed, h.readHeader_bytes]
  dsimp only
  rw [if_neg number, h.readWords_digits]
  dsimp only
  rw [if_neg sign, if_neg (Int.not_lt.2 (Int.natCast_nonneg numeric.scale)), Int.toNat_natCast]
  by_cases none : numeric.digits = []
  · have zero : numeric.fixed? (numeric.sign = negative) = some ⟨0, 0⟩ := by
      rw [fixed?, none]
      simp [addDigits, Fixed.toPlaces]
    rw [none, List.isEmpty_nil, if_pos rfl, zero]
  · refine (if_neg (by simpa using none)).trans ?_
    cases numeric.fixed? (numeric.sign = negative) <;> rfl

/-- Every finite number has JSON: of fixed precision, or else its text. -/
theorem read_bytes (h : numeric.Sendable) :
    Cell.read "NUMERIC" (some numeric.bytes)
      = .ok (match numeric.fixed? (numeric.sign = negative) with
        | some fixed => fixed.toJson
        | none => .string (String.ofList numeric.text.chars)) := by
  show readNumeric numeric.bytes = _
  rw [readNumeric, h.readFixed_bytes, h.read?_text?]
  cases numeric.fixed? (numeric.sign = negative) <;> rfl

end Sendable

/-- A whole number is one for which no place behind the point is needed. -/
theorem exact_of_whole {number : Int} (whole : numeric.value = number) : numeric.Exact :=
  ⟨number * 10 ^ numeric.scale, by rw [whole]; push_cast; rfl⟩

theorem magnitude_of_whole {number : Int} (base : numeric.InBase)
    (whole : numeric.value = number) :
    numeric.magnitude = number.natAbs
      ∧ number = if numeric.sign = negative then -(number.natAbs : Int) else number.natAbs := by
  have least := base.magnitude_nonneg
  rw [value] at whole
  split at whole
  · next minus =>
    have natural : (0 : ℚ) ≤ ((-number : Int) : ℚ) := by
      push_cast
      linarith
    obtain ⟨size, same⟩ := Int.eq_ofNat_of_zero_le (show 0 ≤ -number by exact_mod_cast natural)
    obtain rfl : number = -(size : Int) := by omega
    rw [if_pos minus, Int.natAbs_neg, Int.natAbs_natCast]
    push_cast at whole
    exact ⟨neg_injective whole, rfl⟩
  · next plus =>
    rw [whole] at least
    obtain ⟨size, rfl⟩ := Int.eq_ofNat_of_zero_le (show 0 ≤ number by exact_mod_cast least)
    rw [if_neg plus, Int.natAbs_natCast]
    exact ⟨by exact_mod_cast whole, rfl⟩

/-- Whole numbers keep their value, but for those between the words of 64 bits and what fixed
precision can hold: they are rounded to binary64. -/
theorem whole_number_cell (h : numeric.Sendable) {number : Int} (whole : numeric.value = number) :
    ∃ json, Cell.read "NUMERIC" (some numeric.bytes) = .ok json
      ∧ if numeric.Close ∧ number.natAbs ≤ maxCoefficient ∧ ¬Text.isWord number = true then
          ∃ mantissa scale, json = .number (.float (.finite (number < 0) mantissa scale))
            ∧ Binary64.leadingBit ≤ mantissa
            ∧ (Binary64.interval mantissa scale).Covers number.natAbs
        else json.Denotes number := by
  obtain ⟨size, sign⟩ := magnitude_of_whole h.digits whole
  have fixed := fixed?_whole h.digits size (numeric.sign = negative)
  simp only [decide_eq_true_eq, ← sign] at fixed
  refine ⟨_, h.read_bytes, ?_⟩
  by_cases held : numeric.Close ∧ number.natAbs ≤ maxCoefficient
  · rw [if_pos held] at fixed
    obtain ⟨fixed, found, exactly⟩ := fixed
    rw [found]
    by_cases word : Text.isWord number = true
    · rw [if_neg fun all => all.2.2 word]
      exact .inl (exactly.toJson_of_word word)
    · rw [if_pos ⟨held.1, held.2, word⟩]
      exact exactly.toJson_rounded word
  · rw [if_neg held] at fixed
    rw [fixed, if_neg fun all => held ⟨all.1, all.2.1⟩]
    exact .inr ⟨numeric.text, rfl, h.digital_text,
      (h.value_text (exact_of_whole whole)).trans whole⟩

theorem whole_number_cell_of_long_digits :
    let numeric : Numeric := ⟨8, negative, 0, [1]⟩
    numeric.Sendable ∧ numeric.value = (-10 ^ 32 : Int)
      ∧ ∃ json, Cell.read "NUMERIC" (some numeric.bytes) = .ok json ∧ json.Denotes (-10 ^ 32) := by
  intro numeric
  have sendable : numeric.Sendable := ⟨.inr rfl, by decide, by decide, by decide, by decide⟩
  have whole : numeric.value = (-10 ^ 32 : Int) := by
    norm_num [numeric, value, magnitude]
  obtain ⟨json, read, denotes⟩ := whole_number_cell sendable whole
  rw [if_neg (by decide)] at denotes
  exact ⟨sendable, whole, json, read, denotes⟩

/-- One more than the first number that no signed word holds: its nearest binary64 number is that
first one. -/
theorem whole_number_becomes_its_neighbour :
    let numeric : Numeric := ⟨4, positive, 0, [922, 3372, 368, 5477, 5809]⟩
    numeric.Sendable ∧ numeric.value = (2 ^ 63 + 1 : Int)
      ∧ Cell.read "NUMERIC" (some numeric.bytes) = .ok (.number (.float (.ofInt (2 ^ 63))))
      ∧ ¬∃ json, Cell.read "NUMERIC" (some numeric.bytes) = .ok json
        ∧ json.Denotes (2 ^ 63 + 1) := by
  intro numeric
  have sendable : numeric.Sendable := ⟨.inl rfl, by decide, by decide, by decide, by decide⟩
  have fixed : numeric.fixed? (numeric.sign = negative) = some ⟨2 ^ 63 + 1, 0⟩ := by
    decide +kernel
  have nearest : Fixed.toBinary64 ⟨2 ^ 63 + 1, 0⟩ = .ofInt (2 ^ 63) := by decide +kernel
  have finite : (Binary64.ofInt (2 ^ 63)).isFinite = true := by decide +kernel
  have read : Cell.read "NUMERIC" (some numeric.bytes)
      = .ok (.number (.float (.ofInt (2 ^ 63)))) := by
    rw [sendable.read_bytes, fixed]
    dsimp only
    rw [Fixed.toJson, if_neg (by decide), nearest, Json.ofBinary64, if_pos finite]
  refine ⟨sendable, ?_, read, ?_⟩
  · norm_num [numeric, value, magnitude, Finset.sum_range_succ, positive, negative]
  · rintro ⟨json, same, denotes⟩
    cases read.symm.trans same
    obtain word | ⟨text, shown, -⟩ := denotes
    · cases word
    · cases shown

end Numeric

end ScopedQuery
