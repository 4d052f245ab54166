import Mathlib.Algebra.Order.Field.Power
import ScopedQuery.Proofs.Number.Rounding
import ScopedQuery.Proofs.Text.Numerals
/-!
# The shortest decimal

A decimal in the interval of a number is the one that the number is written with, as long as the
interval is no wider than one of its places. So decimals of fifteen digits are kept.
-/

namespace ScopedQuery.Binary64

variable {numerator denominator mantissa scale digits : Nat} {exponent : Int} {span : Interval}

/-! ### Powers of ten -/

theorem ten_zpow_pos (exponent : Int) : (0 : ℚ) < 10 ^ exponent := by positivity

/-- A power of ten over its numerator and denominator. -/
theorem zpow_mul_shift (exponent : Int) :
    (10 : ℚ) ^ exponent * 10 ^ (-exponent).toNat = 10 ^ exponent.toNat := by
  rw [← zpow_natCast, ← zpow_natCast, ← zpow_add₀ (by norm_num)]
  congr 1
  omega

theorem firstExponent_spec (some : 0 < numerator) (h : 0 < denominator) :
    (10 : ℚ) ^ firstExponent numerator denominator ≤ numerator / denominator
      ∧ (numerator / denominator : ℚ) < 10 ^ (firstExponent numerator denominator + 1) := by
  have positive : (0 : ℚ) < denominator := Nat.cast_pos.2 h
  unfold firstExponent
  split
  · next whole =>
    obtain ⟨more, length, least, most⟩ := Text.decimal_range (Nat.div_pos whole h)
    rw [length, Nat.cast_add, Nat.cast_one, add_sub_cancel_right, zpow_natCast]
    rw [Nat.le_div_iff_mul_le h] at least
    rw [Nat.div_lt_iff_lt_mul h] at most
    rw [le_div_iff₀ positive, div_lt_iff₀ positive]
    exact ⟨by exact_mod_cast least, by exact_mod_cast most⟩
  · next less =>
    obtain ⟨more, length, least, most⟩ :=
      Text.decimal_range (Nat.div_pos (show numerator ≤ denominator - 1 by omega) some)
    rw [Nat.le_div_iff_mul_le some] at least
    rw [Nat.div_lt_iff_lt_mul some] at most
    have least : (10 ^ more * numerator : ℚ) < denominator := by
      exact_mod_cast (show 10 ^ more * numerator < denominator by omega)
    have most : (denominator : ℚ) ≤ 10 ^ (more + 1) * numerator := by
      exact_mod_cast (show denominator ≤ 10 ^ (more + 1) * numerator by omega)
    rw [length, le_div_iff₀ positive, div_lt_iff₀ positive, Nat.cast_add, Nat.cast_one,
      neg_add, neg_add_cancel_right, zpow_neg, zpow_natCast, ← neg_add, zpow_neg,
      ← Nat.cast_add_one, zpow_natCast]
    constructor
    · rwa [inv_mul_le_iff₀ (by positivity)]
    · rwa [lt_inv_mul_iff₀ (by positivity)]

/-! ### Grids -/

/-- The value in the middle of an interval. -/
def Interval.middle (interval : Interval) : ℚ := interval.value / (4 * one)

/-- The interval and the grid over a common denominator. -/
def Interval.scaled (interval : Interval) (exponent : Int) : Interval :=
  { interval with
    lower := interval.lower * Nat.pow 10 (-exponent).toNat
    value := interval.value * Nat.pow 10 (-exponent).toNat
    upper := interval.upper * Nat.pow 10 (-exponent).toNat }

def gridStep (exponent : Int) : Nat := 4 * one * Nat.pow 10 exponent.toNat

theorem cast_gridStep (exponent : Int) :
    (gridStep exponent : ℚ) = 4 * one * 10 ^ exponent * 10 ^ (-exponent).toNat := by
  rw [mul_assoc (4 * (one : ℚ)), zpow_mul_shift]
  show ((4 * one * 10 ^ exponent.toNat : Nat) : ℚ) = _
  push_cast
  rfl

theorem holds_iff :
    (span.scaled exponent).holds (gridStep exponent) digits = true
      ↔ span.Covers (digits * 10 ^ exponent) := by
  have shift : (0 : ℚ) < 10 ^ (-exponent).toNat := by positivity
  have place : ((digits * gridStep exponent : Nat) : ℚ)
      = 4 * one * (digits * 10 ^ exponent) * 10 ^ (-exponent).toNat := by
    push_cast [cast_gridStep]
    ring
  have scaled (bound : Nat) : ((bound * 10 ^ (-exponent).toNat : Nat) : ℚ)
      = bound * 10 ^ (-exponent).toNat := by
    push_cast
    rfl
  have above (bound : Nat) : bound * 10 ^ (-exponent).toNat ≤ digits * gridStep exponent
      ↔ (bound : ℚ) ≤ 4 * one * (digits * 10 ^ exponent) := by
    rw [← Nat.cast_le (α := ℚ), place, scaled, mul_le_mul_iff_left₀ shift]
  have below (bound : Nat) : digits * gridStep exponent ≤ bound * 10 ^ (-exponent).toNat
      ↔ 4 * one * (digits * 10 ^ exponent) ≤ (bound : ℚ) := by
    rw [← Nat.cast_le (α := ℚ), place, scaled, mul_le_mul_iff_left₀ shift]
  rw [Interval.Covers, Interval.holds]
  show (if span.closed = true then
    decide (span.lower * 10 ^ (-exponent).toNat ≤ digits * gridStep exponent)
      && decide (digits * gridStep exponent ≤ span.upper * 10 ^ (-exponent).toNat)
    else decide (span.lower * 10 ^ (-exponent).toNat < digits * gridStep exponent)
      && decide (digits * gridStep exponent < span.upper * 10 ^ (-exponent).toNat)) = true ↔ _
  split
  · rw [Bool.and_eq_true, decide_eq_true_iff, decide_eq_true_iff, above, below]
  · rw [Bool.and_eq_true, decide_eq_true_iff, decide_eq_true_iff, ← Nat.not_le, ← Nat.not_le,
      above, below, not_le, not_le]

/-- The grid point below the middle. -/
theorem below_range (span : Interval) (exponent : Int) :
    (((span.scaled exponent).value / gridStep exponent : Nat) * 10 ^ exponent : ℚ)
        ≤ span.middle
      ∧ span.middle
        < (((span.scaled exponent).value / gridStep exponent : Nat) + 1) * 10 ^ exponent := by
  have shift : (0 : ℚ) < 10 ^ (-exponent).toNat := by positivity
  have unit : (0 : ℚ) < 4 * one := mul_pos four_pos (Nat.cast_pos.2 one_pos)
  have step : 0 < gridStep exponent :=
    Nat.mul_pos (Nat.mul_pos (by decide) one_pos) (Nat.pow_pos (by decide))
  have value : ((span.scaled exponent).value : ℚ)
      = span.value * 10 ^ (-exponent).toNat := by
    show ((span.value * 10 ^ (-exponent).toNat : Nat) : ℚ) = _
    push_cast
    rfl
  have least := Nat.div_mul_le_self (span.scaled exponent).value (gridStep exponent)
  have most := Nat.lt_mul_div_succ (span.scaled exponent).value step
  rw [← Nat.cast_le (α := ℚ), Nat.cast_mul, value, cast_gridStep] at least
  rw [← Nat.cast_lt (α := ℚ), Nat.cast_mul, value, cast_gridStep, Nat.cast_succ] at most
  rw [Interval.middle, le_div_iff₀ unit, div_lt_iff₀ unit]
  constructor
  · apply le_of_mul_le_mul_right _ shift
    linarith
  · apply lt_of_mul_lt_mul_right _ shift.le
    linarith

theorem onGrid_eq (span : Interval) (exponent : Int) :
    span.onGrid exponent =
      let below := (span.scaled exponent).value / gridStep exponent
      match (span.scaled exponent).holds (gridStep exponent) below,
        (span.scaled exponent).holds (gridStep exponent) (below + 1) with
      | false, false => none
      | true, false => some below
      | false, true => some (below + 1)
      | true, true =>
        let down := (span.scaled exponent).value - below * gridStep exponent
        let up := (below + 1) * gridStep exponent - (span.scaled exponent).value
        if down < up ∨ (down = up ∧ below % 2 = 0) then some below else some (below + 1) := by
  rfl

theorem covers_of_onGrid (h : span.onGrid exponent = some digits) :
    span.Covers (digits * 10 ^ exponent) := by
  rw [onGrid_eq] at h
  dsimp only at h
  split at h
  · cases h
  · next below _ =>
    cases h
    exact holds_iff.1 below
  · next _ above =>
    cases h
    exact holds_iff.1 above
  · next below above =>
    split at h <;> cases h
    · exact holds_iff.1 below
    · exact holds_iff.1 above

/-- A grid point next to the middle is one of the two that are tried. -/
theorem onGrid_isSome (covers : span.Covers (digits * 10 ^ exponent))
    (least : span.middle - 10 ^ exponent < digits * 10 ^ exponent)
    (most : digits * 10 ^ exponent < span.middle + 10 ^ exponent) :
    (span.onGrid exponent).isSome = true := by
  have place := ten_zpow_pos exponent
  obtain ⟨low, high⟩ := below_range span exponent
  rw [onGrid_eq]
  dsimp only
  generalize (span.scaled exponent).value / gridStep exponent = below at *
  have held := holds_iff.2 covers
  have next : digits = below ∨ digits = below + 1 := by
    have up : (below : ℚ) < digits + 1 := by
      apply lt_of_mul_lt_mul_right _ place.le
      linarith
    have down : (digits : ℚ) < below + 2 := by
      apply lt_of_mul_lt_mul_right _ place.le
      linarith
    norm_cast at up down
    omega
  cases lower : (span.scaled exponent).holds (gridStep exponent) below <;>
    cases upper : (span.scaled exponent).holds (gridStep exponent) (below + 1)
  case false.false =>
    rcases next with rfl | rfl
    · exact absurd held (lower ▸ Bool.false_ne_true)
    · exact absurd held (upper ▸ Bool.false_ne_true)
  case true.true =>
    dsimp only
    split <;> rfl
  all_goals rfl

/-! ### The shortest decimal -/

theorem dropZeros_value (fuel digits : Nat) (exponent : Int) :
    ((dropZeros fuel digits exponent).1 * 10 ^ (dropZeros fuel digits exponent).2 : ℚ)
      = digits * 10 ^ exponent := by
  induction fuel generalizing digits exponent with
  | zero => rfl
  | succ fuel ih =>
    rw [dropZeros]
    split
    · next zero =>
      obtain ⟨rest, rfl⟩ := Nat.dvd_of_mod_eq_zero zero.1
      rw [ih, Nat.mul_div_cancel_left _ (by decide), zpow_add_one₀ (by norm_num)]
      push_cast
      ring
    · rfl

theorem Interval.Covers.bounds {value : ℚ} (h : span.Covers value) :
    span.lower ≤ 4 * one * value ∧ 4 * one * value ≤ span.upper := by
  rw [Interval.Covers] at h
  split at h
  · exact h
  · exact ⟨h.1.le, h.2.le⟩

theorem exists_findSome? {β : Type} {f : Nat → Option β} {tried : List Nat} {last : Nat}
    (sorted : tried.Pairwise (· < ·)) (member : last ∈ tried) (some : (f last).isSome = true) :
    ∃ count found, count ≤ last ∧ f count = .some found ∧ tried.findSome? f = .some found := by
  induction tried with
  | nil => cases member
  | cons first rest ih =>
    obtain ⟨least, sorted⟩ := List.pairwise_cons.1 sorted
    cases held : f first with
    | some found =>
      refine ⟨first, found, ?_, held, by rw [List.findSome?_cons, held]⟩
      rcases List.mem_cons.1 member with rfl | member
      · exact Nat.le_refl _
      · exact Nat.le_of_lt (least last member)
    | none =>
      rcases List.mem_cons.1 member with rfl | member
      · rw [held] at some
        cases some
      · obtain ⟨count, found, le, same, finds⟩ := ih sorted member
        exact ⟨count, found, le, same, by rw [List.findSome?_cons, held]; exact finds⟩

/-- The first grid that has a point in the interval decides the decimal. -/
theorem exists_shortest (first : exponent ≤ firstExponent (4 * units mantissa scale) (4 * one))
    (last : firstExponent (4 * units mantissa scale) (4 * one) ≤ exponent + 16)
    (some : ((interval mantissa scale).onGrid exponent).isSome = true) :
    ∃ digits more : Nat, ((shortest mantissa scale).1 * 10 ^ (shortest mantissa scale).2 : ℚ)
        = digits * 10 ^ (exponent + more)
      ∧ (interval mantissa scale).Covers (digits * 10 ^ (exponent + more)) := by
  obtain ⟨last, start⟩ := Int.eq_ofNat_of_zero_le (Int.sub_nonneg_of_le first)
  let onGrid (count : Nat) :=
    let exponent := firstExponent (4 * units mantissa scale) (4 * one) - (count : Int)
    ((interval mantissa scale).onGrid exponent).map fun digits => (digits, exponent)
  obtain ⟨count, found, le, held, finds⟩ := exists_findSome? (f := onGrid)
    List.pairwise_lt_range (List.mem_range.2 (show last < 17 by omega)) (by
      show (((interval mantissa scale).onGrid _).map _).isSome = true
      rw [Option.isSome_map, ← start, sub_sub_cancel]
      exact some)
  obtain ⟨digits, grid, rfl⟩ := Option.map_eq_some_iff.1 held
  have place : firstExponent (4 * units mantissa scale) (4 * one) - (count : Int)
      = exponent + (last - count : Nat) := by omega
  refine ⟨digits, last - count, ?_, ?_⟩
  · have same : shortest mantissa scale
        = dropZeros 18 digits (firstExponent (4 * units mantissa scale) (4 * one) - count) := by
      rw [shortest]
      simp only [onGrid, interval] at finds ⊢
      rw [finds]
    rw [same, dropZeros_value, place]
  · rw [← place]
    exact covers_of_onGrid grid

theorem mul_middle (mantissa scale : Nat) :
    one * (interval mantissa scale).middle = mantissa * 2 ^ scale := by
  have unit : (one : ℚ) ≠ 0 := Nat.cast_ne_zero.2 (Nat.ne_of_gt one_pos)
  have value : ((interval mantissa scale).value : ℚ) = 4 * (mantissa * 2 ^ scale) := by
    show ((4 * (mantissa * 2 ^ scale) : Nat) : ℚ) = _
    push_cast
    rfl
  rw [Interval.middle, value, mul_div_mul_left _ _ four_ne_zero, mul_div_cancel₀ _ unit]

/-- All values that round to a number are within half of its last bit. -/
theorem Interval.Covers.near {value : ℚ} (all : leadingBit ≤ mantissa)
    (h : (interval mantissa scale).Covers value) :
    mantissa * 2 ^ scale - 2 ^ scale / 2 ≤ one * value
      ∧ one * value ≤ mantissa * 2 ^ scale + 2 ^ scale / 2 := by
  have gap := gapBelow_le mantissa scale
  obtain ⟨low, high⟩ := h.bounds
  rw [cast_lower all] at low
  rw [cast_upper] at high
  exact ⟨by linarith, by linarith⟩

/-- A number is written with any decimal that its interval covers, if the interval is narrower than
the last place of the decimal and the first place is near. -/
theorem shortest_eq_of_narrow (all : leadingBit ≤ mantissa)
    (covers : (interval mantissa scale).Covers (digits * 10 ^ exponent))
    (narrow : (2 ^ scale : ℚ) < one * 10 ^ exponent)
    (first : exponent ≤ firstExponent (4 * units mantissa scale) (4 * one))
    (last : firstExponent (4 * units mantissa scale) (4 * one) ≤ exponent + 16) :
    ((shortest mantissa scale).1 * 10 ^ (shortest mantissa scale).2 : ℚ)
      = digits * 10 ^ exponent := by
  have unit : (0 : ℚ) < one := Nat.cast_pos.2 one_pos
  have place := ten_zpow_pos exponent
  have middle := mul_middle mantissa scale
  obtain ⟨low, high⟩ := covers.near all
  have some : ((interval mantissa scale).onGrid exponent).isSome = true := by
    apply onGrid_isSome covers
    · apply lt_of_mul_lt_mul_left _ unit.le
      linarith
    · apply lt_of_mul_lt_mul_left _ unit.le
      linarith
  obtain ⟨found, more, value, covered⟩ := exists_shortest first last some
  obtain ⟨low', high'⟩ := covered.near all
  rw [value]
  rw [zpow_add₀ (by norm_num), zpow_natCast] at low' high' ⊢
  have below : digits < found * 10 ^ more + 1 := by
    rw [← Nat.cast_lt (α := ℚ)]
    apply lt_of_mul_lt_mul_left _ (mul_pos unit place).le
    push_cast
    linarith
  have above : found * 10 ^ more < digits + 1 := by
    rw [← Nat.cast_lt (α := ℚ)]
    apply lt_of_mul_lt_mul_left _ (mul_pos unit place).le
    push_cast
    linarith
  rw [Nat.le_antisymm (Nat.le_of_lt_succ below) (Nat.le_of_lt_succ above)]
  push_cast
  ring

theorem firstExponent_middle (all : leadingBit ≤ mantissa) (scale : Nat) :
    one * (10 : ℚ) ^ firstExponent (4 * units mantissa scale) (4 * one) ≤ mantissa * 2 ^ scale
      ∧ (mantissa * 2 ^ scale : ℚ)
        < one * 10 ^ (firstExponent (4 * units mantissa scale) (4 * one) + 1) := by
  have unit : (0 : ℚ) < one := Nat.cast_pos.2 one_pos
  have bits : 0 < mantissa := Nat.lt_of_lt_of_le (show 0 < leadingBit by decide) all
  have some : 0 < 4 * units mantissa scale :=
    Nat.mul_pos (by decide) (Nat.mul_pos bits (Nat.two_pow_pos _))
  obtain ⟨least, most⟩ :=
    firstExponent_spec some (Nat.mul_pos (show 0 < 4 by decide) one_pos)
  have value : ((4 * units mantissa scale : Nat) / (4 * one : Nat) : ℚ)
      = mantissa * 2 ^ scale / one := by
    show (((4 * (mantissa * 2 ^ scale) : Nat) : ℚ)) / _ = _
    push_cast
    exact mul_div_mul_left _ _ four_ne_zero
  rw [value] at least most
  rw [le_div_iff₀ unit] at least
  rw [div_lt_iff₀ unit] at most
  exact ⟨by linarith, by linarith⟩

/-- A number is written with any decimal of at most fifteen digits that its interval covers. -/
theorem shortest_eq_of_covers (all : leadingBit ≤ mantissa) (few : digits < 10 ^ 15)
    (covers : (interval mantissa scale).Covers (digits * 10 ^ exponent)) :
    ((shortest mantissa scale).1 * 10 ^ (shortest mantissa scale).2 : ℚ)
      = digits * 10 ^ exponent := by
  have unit : (0 : ℚ) < one := Nat.cast_pos.2 one_pos
  have power : (0 : ℚ) < 2 ^ scale := by positivity
  obtain ⟨least, most⟩ := firstExponent_middle all scale
  obtain ⟨low, high⟩ := covers.near all
  have bits : (2 ^ 52 * 2 ^ scale : ℚ) ≤ mantissa * 2 ^ scale :=
    mul_le_mul_of_nonneg_right (by exact_mod_cast all) power.le
  generalize start : firstExponent (4 * units mantissa scale) (4 * one) = first at *
  rcases le_or_gt exponent first with before | behind
  · have place : 0 < one * (10 : ℚ) ^ exponent := mul_pos unit (ten_zpow_pos exponent)
    have size : digits * (one * (10 : ℚ) ^ exponent) ≤ 10 ^ 15 * (one * 10 ^ exponent) :=
      mul_le_mul_of_nonneg_right (by exact_mod_cast few.le) place.le
    have narrow : (2 ^ scale : ℚ) < one * 10 ^ exponent := by linarith
    apply shortest_eq_of_narrow all covers narrow (start ▸ before)
    rw [start]
    have near : (10 : ℚ) ^ first < 10 ^ (exponent + 16) := by
      apply lt_of_mul_lt_mul_left _ unit.le
      have last : (10 : ℚ) ^ (16 : Int) = 10 ^ 16 := by norm_num
      rw [zpow_add₀ (by norm_num), last]
      linarith
    exact ((zpow_lt_zpow_iff_right₀ (by norm_num)).1 near).le
  · obtain ⟨more, rfl⟩ : ∃ more : Nat, exponent = first + more :=
      ⟨(exponent - first).toNat, by omega⟩
    have same : (digits * 10 ^ (first + more : Int) : ℚ)
        = (digits * 10 ^ more : Nat) * 10 ^ first := by
      rw [zpow_add₀ (by norm_num), zpow_natCast]
      push_cast
      ring
    rw [zpow_add₀ (by norm_num), zpow_one] at most
    rw [same] at covers ⊢
    apply shortest_eq_of_narrow all covers (by linarith) (start ▸ Int.le_refl _)
    omega

/-! ### Short decimals -/

/-- The decimal that a number is written with, without a layout. -/
def decimal? : Binary64 → Option ℚ
  | .finite negative mantissa scale =>
    let (digits, exponent) := if mantissa = 0 then (0, 0) else shortest mantissa scale
    some ((if negative then -1 else 1) * (digits * 10 ^ exponent))
  | _ => none

theorem decimal?_finite (some : mantissa ≠ 0) (negative : Bool) :
    (finite negative mantissa scale).decimal? = .some ((if negative then -1 else 1)
      * ((shortest mantissa scale).1 * 10 ^ (shortest mantissa scale).2)) := by
  rw [decimal?, if_neg some]

theorem decimal?_negate (number : Binary64) :
    number.negate.decimal? = number.decimal?.map fun value => -value := by
  cases number with
  | nan negative => rfl
  | infinite negative => rfl
  | finite negative mantissa scale => cases negative <;> simp [negate, decimal?]

/-- Both parts are held exactly, so a short decimal is divided in one rounding. -/
theorem div_powerOfTen (few : digits < 10 ^ 15) {places : Nat} (short : places ≤ 22) :
    (ofInt digits).div (powerOfTen places)
      = ofRatio false (digits * one * one) (10 ^ places * one) := by
  obtain ⟨mantissa, scale, left, value⟩ := ofInt_exact digits (Nat.lt_trans few (by decide))
  obtain ⟨mantissa', scale', right, value'⟩ := powerOfTen_exact short
  have power : 0 < 10 ^ places * one := Nat.mul_pos (Nat.pow_pos (by decide)) one_pos
  have some : mantissa' ≠ 0 := by
    rintro rfl
    rw [units, Nat.zero_mul] at value'
    omega
  rw [left, right, div]
  show (if mantissa' = 0 then _
    else ofRatio false (units mantissa scale * one) (units mantissa' scale')) = _
  rw [if_neg some, value, value']

/-- The quotient has all its bits, and is no larger than a number can be. -/
theorem quotient_of_short (positive : 0 < digits) (few : digits < 10 ^ 15) {places : Nat}
    (short : places ≤ 22) :
    leadingBit ≤ digits * one * one / (10 ^ places * one)
      ∧ (digits * one * one / (10 ^ places * one)).log2 < maxScale + 52 := by
  rw [Nat.mul_div_mul_right _ _ one_pos]
  have large : leadingBit ≤ digits * one / 10 ^ places := by
    rw [Nat.le_div_iff_mul_le (Nat.pow_pos (by decide))]
    calc leadingBit * 10 ^ places
      _ ≤ leadingBit * 10 ^ 22 :=
        Nat.mul_le_mul_left _ (Nat.pow_le_pow_right (by decide) short)
      _ ≤ one := by decide +kernel
      _ ≤ digits * one := Nat.le_mul_of_pos_left _ positive
  refine ⟨large, ?_⟩
  rw [Nat.log2_lt (Nat.ne_of_gt (Nat.lt_of_lt_of_le (by decide) large))]
  calc digits * one / 10 ^ places
    _ ≤ digits * one := Nat.div_le_self ..
    _ < 10 ^ 15 * one := Nat.mul_lt_mul_of_pos_right few one_pos
    _ ≤ 2 ^ (maxScale + 52) := by decide +kernel

/-- Fifteen digits, over a power of ten that is held exactly, are written again. -/
theorem decimal?_div (few : digits < 10 ^ 15) {places : Nat} (short : places ≤ 22) :
    ((ofInt digits).div (powerOfTen places)).decimal? = some ((digits : ℚ) / 10 ^ places) := by
  have power : 0 < 10 ^ places * one := Nat.mul_pos (Nat.pow_pos (by decide)) one_pos
  rw [div_powerOfTen few short]
  rcases Nat.eq_zero_or_pos digits with rfl | positive
  · rw [Nat.zero_mul, Nat.zero_mul, ofRatio_zero power]
    simp [zero, decimal?]
  · obtain ⟨large, small⟩ := quotient_of_short positive few short
    obtain ⟨mantissa, scale, form, all, covers⟩ := ofRatio_covers power large small false
    have same : ((digits * one * one : Nat) / (10 ^ places * one : Nat) / one : ℚ)
        = digits * 10 ^ (-(places : Int)) := by
      have unit : (one : ℚ) ≠ 0 := Nat.cast_ne_zero.2 (Nat.ne_of_gt one_pos)
      push_cast
      rw [mul_div_mul_right _ _ unit, mul_div_right_comm, mul_div_cancel_right₀ _ unit, zpow_neg,
        zpow_natCast, div_eq_mul_inv]
    rw [same] at covers
    have nonzero : mantissa ≠ 0 := Nat.ne_of_gt (Nat.lt_of_lt_of_le (by decide) all)
    rw [form, decimal?_finite nonzero, shortest_eq_of_covers all few covers,
      if_neg Bool.false_ne_true, one_mul, zpow_neg, zpow_natCast, div_eq_mul_inv]

end ScopedQuery.Binary64
