import Mathlib.Algebra.Order.Field.Rat
import Mathlib.Algebra.Order.Ring.Nat
import Mathlib.Tactic.Linarith
import Mathlib.Tactic.Ring
import ScopedQuery.Number.Shortest
/-!
# Rounding to binary64

A fraction that is large enough is rounded to a number whose interval it lies in, and one that a
binary64 number holds exactly is not changed.
-/

namespace ScopedQuery.Binary64

variable {numerator denominator mantissa scale : Nat}

/-! ### Rounding to whole numbers -/

theorem roundHalfEven_spec (numerator : Nat) (h : 0 < denominator) :
    2 * (roundHalfEven numerator denominator * denominator) ≤ 2 * numerator + denominator
      ∧ 2 * numerator ≤ 2 * (roundHalfEven numerator denominator * denominator) + denominator
      ∧ (roundHalfEven numerator denominator % 2 = 1 →
        2 * (roundHalfEven numerator denominator * denominator) < 2 * numerator + denominator
          ∧ 2 * numerator < 2 * (roundHalfEven numerator denominator * denominator) + denominator)
    := by
  have split := Nat.div_add_mod numerator denominator
  have small := Nat.mod_lt numerator h
  rw [Nat.mul_comm] at split
  unfold roundHalfEven
  dsimp only
  generalize numerator / denominator = quotient at *
  generalize numerator % denominator = remainder at *
  split
  · next down => omega
  · next up =>
    rw [Nat.add_mul]
    omega

theorem roundHalfEven_mul (quotient : Nat) (h : 0 < denominator) :
    roundHalfEven (quotient * denominator) denominator = quotient := by
  unfold roundHalfEven
  dsimp only
  rw [Nat.mul_div_cancel _ h, Nat.mul_mod_left, if_pos (.inl h)]

/-! ### Rounding to numbers -/

theorem one_pos : 0 < one := by decide +kernel

/-- That a value lies in the interval of a number. -/
def Interval.Covers (interval : Interval) (value : ℚ) : Prop :=
  if interval.closed then interval.lower ≤ 4 * one * value ∧ 4 * one * value ≤ interval.upper
  else interval.lower < 4 * one * value ∧ 4 * one * value < interval.upper

/-- The gap below a number. -/
def gapBelow (mantissa scale : Nat) : ℚ :=
  if mantissa = leadingBit ∧ scale ≠ 0 then 2 ^ scale else 2 * 2 ^ scale

theorem gapBelow_le (mantissa scale : Nat) : gapBelow mantissa scale ≤ 2 * 2 ^ scale := by
  have power : (0 : ℚ) < 2 ^ scale := by positivity
  unfold gapBelow
  split <;> linarith

theorem cast_lower (h : leadingBit ≤ mantissa) :
    ((interval mantissa scale).lower : ℚ)
      = 4 * (mantissa * 2 ^ scale) - gapBelow mantissa scale := by
  have some : 1 ≤ mantissa := Nat.le_trans (by decide) h
  have room := Nat.mul_le_mul_right (2 ^ scale) some
  show ((4 * (mantissa * 2 ^ scale)
    - (if mantissa = leadingBit ∧ scale ≠ 0 then 2 ^ scale else 2 * 2 ^ scale) : Nat) : ℚ) = _
  rw [gapBelow]
  split <;>
    · rw [Nat.cast_sub (by omega)]
      push_cast
      rfl

theorem cast_upper :
    ((interval mantissa scale).upper : ℚ) = 4 * (mantissa * 2 ^ scale) + 2 * 2 ^ scale := by
  show ((4 * (mantissa * 2 ^ scale) + 2 * 2 ^ scale : Nat) : ℚ) = _
  push_cast
  rfl

/-- A quotient of at least 53 bits, against the power of two that brings it to 53. -/
theorem quotient_range (h : 0 < denominator) (large : leadingBit ≤ numerator / denominator) :
    (leadingBit * 2 ^ ((numerator / denominator).log2 - 52) : ℚ) ≤ numerator / denominator
      ∧ (numerator / denominator : ℚ)
        < 2 * leadingBit * 2 ^ ((numerator / denominator).log2 - 52) := by
  have some : numerator / denominator ≠ 0 :=
    Nat.ne_of_gt (Nat.lt_of_lt_of_le (by decide) large)
  have bits : 52 ≤ (numerator / denominator).log2 := (Nat.le_log2 some).2 large
  have least : leadingBit * 2 ^ ((numerator / denominator).log2 - 52)
      ≤ numerator / denominator := by
    rw [show leadingBit = 2 ^ 52 from rfl, ← Nat.pow_add, Nat.add_sub_cancel' bits]
    exact Nat.log2_self_le some
  have most : numerator / denominator
      < 2 * leadingBit * 2 ^ ((numerator / denominator).log2 - 52) := by
    rw [show 2 * leadingBit = 2 ^ 53 from rfl, ← Nat.pow_add,
      show 53 + ((numerator / denominator).log2 - 52) = (numerator / denominator).log2 + 1 by omega]
    exact Nat.lt_log2_self
  have positive : (0 : ℚ) < denominator := Nat.cast_pos.2 h
  rw [Nat.le_div_iff_mul_le h] at least
  rw [Nat.div_lt_iff_lt_mul h] at most
  constructor
  · rw [le_div_iff₀ positive]
    exact_mod_cast least
  · rw [div_lt_iff₀ positive]
    exact_mod_cast most

/-- A fraction rounded to a multiple of a power of two. -/
theorem rounded_range (h : 0 < denominator) {rounded : Nat}
    (same : rounded = roundHalfEven numerator (denominator * 2 ^ scale)) :
    (rounded * 2 ^ scale - 2 ^ scale / 2 : ℚ) ≤ numerator / denominator
      ∧ (numerator / denominator : ℚ) ≤ rounded * 2 ^ scale + 2 ^ scale / 2
      ∧ (rounded % 2 = 1 → (rounded * 2 ^ scale - 2 ^ scale / 2 : ℚ) < numerator / denominator
        ∧ (numerator / denominator : ℚ) < rounded * 2 ^ scale + 2 ^ scale / 2) := by
  have positive : (0 : ℚ) < denominator := Nat.cast_pos.2 h
  obtain ⟨low, high, odd⟩ :=
    roundHalfEven_spec numerator (Nat.mul_pos h (Nat.two_pow_pos scale))
  rw [← same] at low high odd
  have low : (2 * (rounded * (denominator * 2 ^ scale)) : ℚ)
      ≤ 2 * numerator + denominator * 2 ^ scale := by exact_mod_cast low
  have high : (2 * numerator : ℚ)
      ≤ 2 * (rounded * (denominator * 2 ^ scale)) + denominator * 2 ^ scale := by
    exact_mod_cast high
  rw [le_div_iff₀ positive, div_le_iff₀ positive, lt_div_iff₀ positive, div_lt_iff₀ positive]
  refine ⟨by linarith, by linarith, ?_⟩
  intro one
  obtain ⟨low, high⟩ := odd one
  have low : (2 * (rounded * (denominator * 2 ^ scale)) : ℚ)
      < 2 * numerator + denominator * 2 ^ scale := by exact_mod_cast low
  have high : (2 * numerator : ℚ)
      < 2 * (rounded * (denominator * 2 ^ scale)) + denominator * 2 ^ scale := by
    exact_mod_cast high
  exact ⟨by linarith, by linarith⟩

theorem covers_of_range {units : ℚ} (some : leadingBit ≤ mantissa)
    (low : mantissa * 2 ^ scale - gapBelow mantissa scale / 4 ≤ units)
    (high : units ≤ mantissa * 2 ^ scale + 2 ^ scale / 2)
    (odd : mantissa % 2 = 1 → mantissa * 2 ^ scale - gapBelow mantissa scale / 4 < units
      ∧ units < mantissa * 2 ^ scale + 2 ^ scale / 2) :
    (interval mantissa scale).Covers (units / one) := by
  have same : 4 * (one : ℚ) * (units / one) = 4 * units := by
    rw [mul_assoc, mul_div_cancel₀ _ (Nat.cast_ne_zero.2 (Nat.ne_of_gt one_pos))]
  rw [Interval.Covers, same, cast_lower some, cast_upper]
  split
  · exact ⟨by linarith, by linarith⟩
  · next closed =>
    obtain ⟨low, high⟩ := odd (by simpa [interval] using closed)
    exact ⟨by linarith, by linarith⟩

/-- What a fraction is rounded to, as long as the fraction is large and not too large: a number
with all its bits, whose interval covers the fraction. -/
theorem ofRatio_covers (h : 0 < denominator) (large : leadingBit ≤ numerator / denominator)
    (small : (numerator / denominator).log2 < maxScale + 52) (negative : Bool) :
    ∃ mantissa scale, ofRatio negative numerator denominator = .finite negative mantissa scale
      ∧ leadingBit ≤ mantissa
      ∧ (interval mantissa scale).Covers (numerator / denominator / one) := by
  obtain ⟨least, most⟩ := quotient_range h large
  have bound : (numerator / denominator).log2 - 52 < maxScale := by
    rw [maxScale] at *
    omega
  unfold ofRatio
  dsimp only
  generalize (numerator / denominator).log2 - 52 = scale at *
  generalize same : roundHalfEven numerator (denominator * Nat.pow 2 scale) = rounded
  obtain ⟨low, high, odd⟩ := rounded_range h same.symm
  have power : (0 : ℚ) < 2 ^ scale := by positivity
  generalize (numerator / denominator : ℚ) = units at *
  split
  · next carry =>
    subst carry
    refine ⟨leadingBit, scale + 1, if_neg (by omega), Nat.le_refl _, ?_⟩
    have gap : gapBelow leadingBit (scale + 1) = 2 * 2 ^ scale := by
      rw [gapBelow, if_pos ⟨rfl, Nat.succ_ne_zero _⟩, pow_succ']
    push_cast at low
    apply covers_of_range (Nat.le_refl _)
    · rw [gap, pow_succ']
      linarith
    · rw [pow_succ']
      linarith
    · exact fun one => absurd one (by decide)
  · have some : leadingBit ≤ rounded := by
      by_contra less
      have less : (rounded + 1 : ℚ) ≤ leadingBit := by exact_mod_cast Nat.lt_of_not_le less
      have := mul_le_mul_of_nonneg_right less power.le
      linarith
    refine ⟨rounded, scale, if_neg (by omega), some, covers_of_range some ?_ high ?_⟩
    · unfold gapBelow
      split
      · next power_of_two =>
        rw [power_of_two.1]
        linarith
      · linarith
    · intro one
      obtain ⟨low, high⟩ := odd one
      have gap : gapBelow rounded scale = 2 * 2 ^ scale :=
        if_neg fun same => absurd (same.1 ▸ one) (by decide)
      rw [gap]
      exact ⟨by linarith, high⟩

theorem ofRatio_zero (h : 0 < denominator) (negative : Bool) :
    ofRatio negative 0 denominator = zero negative := by
  have rounded : roundHalfEven 0 (denominator * Nat.pow 2 0) = 0 := by
    have kept := roundHalfEven_mul 0 (Nat.mul_pos h (Nat.two_pow_pos 0))
    rwa [Nat.zero_mul] at kept
  unfold ofRatio
  dsimp only
  rw [Nat.zero_div, show Nat.log2 0 - 52 = 0 from rfl, rounded]
  rfl

theorem one_eq : one = 2 ^ 1074 := by decide +kernel

/-- Whole numbers of units with no more than 53 bits before their zeros are held exactly. -/
theorem ofRatio_exact {bits zeros : Nat} (few : bits < 2 * leadingBit) (small : zeros ≤ maxScale)
    (negative : Bool) :
    ∃ mantissa scale, ofRatio negative (bits * 2 ^ zeros) 1 = .finite negative mantissa scale
      ∧ units mantissa scale = bits * 2 ^ zeros := by
  have width : (bits * 2 ^ zeros).log2 < 53 + zeros := by
    rcases Nat.eq_zero_or_pos (bits * 2 ^ zeros) with zero | some
    · rw [zero]
      exact Nat.lt_of_lt_of_le (by decide) (Nat.le_add_right ..)
    · rw [Nat.log2_lt (Nat.ne_of_gt some), Nat.pow_add]
      exact Nat.mul_lt_mul_of_pos_right few (Nat.two_pow_pos _)
  obtain ⟨more, split⟩ := Nat.exists_eq_add_of_le
    (show (bits * 2 ^ zeros).log2 - 52 ≤ zeros by omega)
  have value : bits * 2 ^ more * 2 ^ ((bits * 2 ^ zeros).log2 - 52) = bits * 2 ^ zeros := by
    rw [Nat.mul_assoc, ← Nat.pow_add, Nat.add_comm more, ← split]
  have rounded : roundHalfEven (bits * 2 ^ zeros)
      (1 * Nat.pow 2 ((bits * 2 ^ zeros).log2 - 52)) = bits * 2 ^ more := by
    rw [Nat.one_mul]
    conv => lhs; arg 1; rw [← value]
    exact roundHalfEven_mul _ (Nat.two_pow_pos _)
  have fits : ¬bits * 2 ^ more = 2 * leadingBit := by
    intro carry
    rw [carry, show 2 * leadingBit = 2 ^ 53 from rfl, ← Nat.pow_add] at value
    have same := congrArg Nat.log2 value
    rw [Nat.log2_two_pow] at same
    omega
  refine ⟨_, _, ?_, value⟩
  unfold ofRatio
  dsimp only
  rw [Nat.div_one, rounded, if_neg fits, if_neg]
  omega

theorem ofInt_exact (number : Nat) (few : number < 2 * leadingBit) :
    ∃ mantissa scale, ofInt number = .finite false mantissa scale
      ∧ units mantissa scale = number * one := by
  rw [one_eq]
  have sign : decide ((number : Int) < 0) = false := by simp
  rw [ofInt, sign, Int.natAbs_natCast, one_eq]
  exact ofRatio_exact few (by decide) false

theorem powerOfTen_exact {places : Nat} (short : places ≤ 22) :
    ∃ mantissa scale, powerOfTen places = .finite false mantissa scale
      ∧ units mantissa scale = 10 ^ places * one := by
  have few : 5 ^ places < 2 * leadingBit :=
    Nat.lt_of_le_of_lt (Nat.pow_le_pow_right (by decide) short) (by decide)
  have same : 10 ^ places * one = 5 ^ places * 2 ^ (places + 1074) := by
    rw [one_eq, Nat.pow_add, ← Nat.mul_assoc, ← Nat.mul_pow]
  have small : places + 1074 ≤ maxScale := by
    rw [maxScale]
    omega
  obtain ⟨mantissa, scale, form, value⟩ := ofRatio_exact few small false
  refine ⟨mantissa, scale, ?_, by rw [value, same]⟩
  rw [← form, ← same]
  rfl

end ScopedQuery.Binary64
