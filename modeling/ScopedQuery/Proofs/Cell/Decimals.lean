import Mathlib.Data.Rat.Defs
import Mathlib.Algebra.Field.Rat
import Mathlib.Tactic.SplitIfs
import ScopedQuery.Cell.Numeric
import ScopedQuery.Proofs.Json.Documents
import ScopedQuery.Proofs.Number.Shortest
/-!
# Decimals as JSON numbers

A database keeps the numbers of JSON as exact decimals and sends all their places, without an
exponent. Here is how such a text is read, and which decimals are kept: the number that is read is
written with the same value again.
-/

namespace ScopedQuery

namespace Json.Number

/-- The value of the decimal that a number is written with. -/
def decimal? : Number → Option ℚ
  | .integer value => some value
  | .float value => value.decimal?

end Json.Number

namespace Numeric.Fixed

open Json

variable {fixed : Fixed} {rest : List Letter} {fuel depth : Nat}

/-- The exact value. -/
def value (fixed : Fixed) : ℚ := fixed.coefficient / 10 ^ fixed.places

def whole (fixed : Fixed) : Nat := fixed.coefficient.natAbs / 10 ^ fixed.places

/-- The digits behind the point. -/
def fraction (fixed : Fixed) : List Char :=
  Text.padded fixed.places (Text.decimal (fixed.coefficient.natAbs % 10 ^ fixed.places))

/-- The text of a stored number: all its places are shown, and there is no exponent. -/
def chars (fixed : Fixed) : List Char :=
  (if fixed.coefficient < 0 then ['-'] else []) ++ Text.decimal fixed.whole
    ++ (if fixed.places = 0 then [] else '.' :: fixed.fraction)

/-- A number that JSON can hold: it is read as a number that is written with the same value. -/
def Kept (fixed : Fixed) : Prop :=
  ∃ number, Json.read? (String.ofList fixed.chars) = some (.number number)
    ∧ number.decimal? = some fixed.value

/-- What is read of a number in front of some text. -/
def reading (fixed : Fixed) (rest : List Letter) : Document :=
  let negative : Bool := fixed.coefficient < 0
  let mantissa := (wholeDigits 0 (letters (Text.decimal fixed.whole))).1
  if fixed.places = 0 then readFraction.plain mantissa negative rest
  else (fractionDigits mantissa (letters fixed.fraction)).1.document negative rest

theorem length_fraction (fixed : Fixed) (places : 0 < fixed.places) :
    fixed.fraction.length = fixed.places :=
  Text.length_padded (Nat.mod_lt _ (Nat.pow_pos (by decide))) places

theorem allDigits_fraction (fixed : Fixed) : Text.AllDigits fixed.fraction :=
  Text.allDigits_padded _ _

theorem readMagnitude_chars (fixed : Fixed) (ends : Ends rest) :
    readMagnitude (fixed.coefficient < 0) (letters (Text.decimal fixed.whole
        ++ (if fixed.places = 0 then [] else '.' :: fixed.fraction)) ++ rest)
      = .ok (fixed.reading rest, rest) := by
  rw [reading, letters_append, List.append_assoc]
  by_cases none : fixed.places = 0
  · simp only [if_pos none]
    rw [letters_nil, List.nil_append,
      readMagnitude_decimal _ fun letter first => (ends letter first).1, readFraction_ends ends]
  · have some : fixed.fraction ≠ [] := by
      rw [← List.length_pos_iff, length_fraction fixed (by omega)]
      omega
    have point : ∀ letter ∈ (Letter.char '.' :: (letters fixed.fraction ++ rest)).head?,
        letter.isDigit = false := by
      intro letter first
      cases first
      rfl
    simp only [if_neg none]
    rw [letters_cons, List.cons_append, readMagnitude_decimal _ point,
      readFraction_point fixed.allDigits_fraction some ends]

theorem readDocument_chars (fixed : Fixed) (fuel depth : Nat) (ends : Ends rest) :
    readDocument (fuel + 1) depth (letters fixed.chars ++ rest)
      = .ok (fixed.reading rest, rest) := by
  have read := readMagnitude_chars fixed ends
  have minus : isSpace (.char '-') = false := by decide
  rw [chars, List.append_assoc]
  by_cases negative : fixed.coefficient < 0
  · rw [decide_eq_true negative] at read
    rw [if_pos negative, List.singleton_append, letters_cons, List.cons_append, readDocument,
      skipSpace_cons minus]
    exact read
  · rw [decide_eq_false negative] at read
    rw [if_neg negative, List.nil_append]
    obtain ⟨first, others, split, digit⟩ := Text.exists_decimal_digit fixed.whole
    rw [split, List.cons_append, letters_cons, List.cons_append] at read ⊢
    rw [readDocument_digit digit, read]

/-! ### Decimals that are kept -/

theorem document_number_or_refused (mantissa : Mantissa) (negative : Bool) :
    (∃ number, ∀ rest, mantissa.document negative rest = .number number)
      ∨ ∀ rest, ∃ fault, mantissa.document negative rest = .refused fault := by
  unfold Mantissa.document
  cases mantissa.scaled with
  | some scaled => exact .inl ⟨_, fun _ => rfl⟩
  | none => exact .inr fun _ => ⟨_, rfl⟩

/-- What follows a number decides nothing but the place of a fault. -/
theorem reading_number_or_refused (fixed : Fixed) :
    (∃ number, ∀ rest, fixed.reading rest = .number number)
      ∨ ∀ rest, ∃ fault, fixed.reading rest = .refused fault := by
  unfold reading readFraction.plain
  dsimp only
  split_ifs
  · exact document_number_or_refused _ _
  · exact .inl ⟨_, fun _ => rfl⟩
  · exact .inl ⟨_, fun _ => rfl⟩
  · exact .inl ⟨_, fun _ => rfl⟩
  · exact document_number_or_refused _ _

theorem chars_start (fixed : Fixed) :
    ∃ first others, fixed.chars = first :: others ∧ isSpace (.char first) = false
      ∧ first ≠ ']' := by
  rw [chars, List.append_assoc]
  split
  · exact ⟨_, _, rfl, by decide⟩
  · obtain ⟨first, others, split, digit⟩ := Text.exists_decimal_digit fixed.whole
    refine ⟨first, _, by rw [split]; rfl, isSpace_digit digit, ?_⟩
    rintro rfl
    exact absurd digit (by decide)

theorem readAll_chars (fixed : Fixed) : readAll (letters fixed.chars) = .ok (fixed.reading []) := by
  have read := readDocument_chars fixed (3 * (letters fixed.chars).length + 2) maxDepth ends_nil
  rw [List.append_nil] at read
  rw [readAll, read]
  rfl

theorem read?_chars (fixed : Fixed) :
    Json.read? (String.ofList fixed.chars) = (fixed.reading []).value.toOption := by
  rw [Json.read?, Json.read, Letter.ofText, String.toList_ofList]
  show (readAll (letters fixed.chars) >>= _).toOption = _
  rw [readAll_chars]
  rfl

theorem Kept.exists_reads (h : fixed.Kept) (depth : Nat) :
    ∃ number, number.decimal? = some fixed.value ∧ Reads depth (.number number) fixed.chars := by
  obtain ⟨number, read, value⟩ := h
  rw [read?_chars] at read
  rcases fixed.reading_number_or_refused with ⟨other, same⟩ | refused
  · rw [same] at read
    cases read
    refine ⟨number, value, fixed.chars_start, ?_⟩
    intro fuel rest enough ends
    obtain ⟨first, others, split, -⟩ := fixed.chars_start
    obtain ⟨fuel, rfl⟩ : ∃ less, fuel = less + 1 := ⟨fuel - 1, by simp [split] at enough; omega⟩
    rw [readDocument_chars fixed fuel depth ends, same]
  · obtain ⟨fault, same⟩ := refused []
    rw [same] at read
    cases read

/-- As long as they fit a word, all digits are taken. -/
theorem reading_of_le (h : fixed.coefficient.natAbs ≤ Text.maxCount) (rest : List Letter) :
    fixed.reading rest =
      if fixed.places = 0 then
        readFraction.plain ⟨fixed.coefficient.natAbs, 0⟩ (fixed.coefficient < 0) rest
      else
        Mantissa.document ⟨fixed.coefficient.natAbs, -(fixed.places : Int)⟩
          (fixed.coefficient < 0) rest := by
  have whole : wholeDigits 0 (letters (Text.decimal fixed.whole)) = (⟨fixed.whole, 0⟩, []) := by
    have le : fixed.whole ≤ Text.maxCount := Nat.le_trans (Nat.div_le_self ..) h
    rw [wholeDigits_of_le (Text.allDigits_decimal _)] <;> rw [Text.ofDigitChars_decimal]
    exact le
  rw [reading, whole]
  dsimp only
  split
  · next none => rw [Fixed.whole, none, Nat.pow_zero, Nat.div_one]
  · next some =>
    have all : Nat.ofDigitChars 10 fixed.fraction fixed.whole = fixed.coefficient.natAbs := by
      rw [Nat.ofDigitChars_eq_ofDigitChars_zero, fixed.length_fraction (Nat.pos_of_ne_zero some),
        fraction, Text.ofDigitChars_padded, Nat.mul_comm, Fixed.whole, Nat.mul_comm]
      exact Nat.div_add_mod ..
    rw [fractionDigits_of_le fixed.allDigits_fraction (by rwa [all]), all,
      fixed.length_fraction (Nat.pos_of_ne_zero some), Int.zero_sub]

theorem kept_of_reading (number : Number) (read : fixed.reading [] = .number number)
    (value : number.decimal? = some fixed.value) : fixed.Kept :=
  ⟨number, by rw [read?_chars, read]; rfl, value⟩

/-- Whole numbers of 64 bits, with or without a sign, are read as such. -/
theorem reading_of_word (whole : fixed.places = 0)
    (least : -(Text.maxWord + 1 : Nat) ≤ fixed.coefficient)
    (most : fixed.coefficient ≤ Text.maxCount) (rest : List Letter) :
    fixed.reading rest = .number (.integer fixed.coefficient) := by
  have size : fixed.coefficient.natAbs ≤ Text.maxCount := by
    simp only [Text.maxCount, Text.maxWord] at least most ⊢
    omega
  rw [reading_of_le size, if_pos whole, readFraction.plain]
  dsimp only
  rw [if_neg (fun different => different rfl)]
  by_cases negative : fixed.coefficient < 0
  · rw [if_pos (decide_eq_true negative), if_neg (by omega)]
    congr
    omega
  · rw [if_neg (by simpa using negative)]
    congr
    omega

theorem kept_of_word (whole : fixed.places = 0)
    (least : -(Text.maxWord + 1 : Nat) ≤ fixed.coefficient)
    (most : fixed.coefficient ≤ Text.maxCount) : fixed.Kept :=
  kept_of_reading (.integer fixed.coefficient) (reading_of_word whole least most [])
    (by simp [Number.decimal?, Fixed.value, whole])

theorem scaled_of_places {digits places : Nat} (some : places ≠ 0) (short : places ≤ 22) :
    Mantissa.scaled ⟨digits, -(places : Int)⟩
      = .some ((Binary64.ofInt digits).div (.powerOfTen places)) := by
  unfold Mantissa.scaled
  dsimp only
  rw [if_neg (by omega), Int.natAbs_neg, Int.natAbs_natCast, if_pos (by omega)]

/-- Decimals of at most fifteen digits and twenty-two places are kept. -/
theorem kept_of_short (few : fixed.coefficient.natAbs < 10 ^ 15) (short : fixed.places ≤ 22) :
    fixed.Kept := by
  rcases Nat.eq_zero_or_pos fixed.places with whole | places
  · apply kept_of_word whole
    · rw [Text.maxWord]
      omega
    · rw [Text.maxCount]
      omega
  have value := Binary64.decimal?_div few short
  apply kept_of_reading (.float (if fixed.coefficient < 0 then
    ((Binary64.ofInt fixed.coefficient.natAbs).div (.powerOfTen fixed.places)).negate
    else (Binary64.ofInt fixed.coefficient.natAbs).div (.powerOfTen fixed.places)))
  · rw [reading_of_le (by rw [Text.maxCount]; omega), if_neg (Nat.ne_of_gt places),
      Mantissa.document, scaled_of_places (Nat.ne_of_gt places) short]
    simp only [decide_eq_true_eq]
  · rw [Number.decimal?, Fixed.value]
    split
    · next negative =>
      rw [Binary64.decimal?_negate, value, Option.map_some, ← neg_div, ← Int.cast_natCast,
        show (fixed.coefficient.natAbs : Int) = -fixed.coefficient by omega, Int.cast_neg, neg_neg]
    · next positive =>
      rw [value, ← Int.cast_natCast,
        show (fixed.coefficient.natAbs : Int) = fixed.coefficient by omega]

/-- Whole numbers of 64 bits, and decimals of at most fifteen digits and twenty-two places. -/
def Common (fixed : Fixed) : Prop :=
  (fixed.places = 0 ∧ -(Text.maxWord + 1 : Nat) ≤ fixed.coefficient
    ∧ fixed.coefficient ≤ Text.maxCount)
  ∨ (fixed.coefficient.natAbs < 10 ^ 15 ∧ fixed.places ≤ 22)

theorem Common.kept (h : fixed.Common) : fixed.Kept := by
  rcases h with ⟨whole, least, most⟩ | ⟨few, short⟩
  · exact kept_of_word whole least most
  · exact kept_of_short few short

end Numeric.Fixed

end ScopedQuery
