import Mathlib.Algebra.BigOperators.Field
import Mathlib.Algebra.Order.BigOperators.Ring.Finset
import Mathlib.Algebra.Order.Field.Rat
import Mathlib.Data.List.GetD
import Mathlib.Tactic.FieldSimp
import Mathlib.Tactic.Linarith
import Mathlib.Tactic.NormNum
import Mathlib.Tactic.Positivity
import Mathlib.Tactic.Ring
import ScopedQuery.Proofs.Cell.NumericBytes
import ScopedQuery.Proofs.Text.Numerals
/-!
# The exact text of a decimal number

The text of a decimal number is made of its digits to the base 10000: four characters for each, but
without the zeros of the first one, and cut to the scale behind the point. Here the value of a
number is the sum of its digits by their weights, and `exact_text` says that the text writes just
this value. The sums on both sides of the point are those of `pastPoint`, which moving the point
moves (`magnitude_eq`); a scale that cuts off no digit but zeros cuts off nothing of the value
(`magnitude_eq_fraction`). Bytes that are no such number have no text or one of bounded length.
-/

namespace ScopedQuery

/-- A decimal that is written out, without an exponent. -/
structure DecimalText where
  negative : Bool
  whole : List Char
  /-- The digits behind the point. -/
  fraction : List Char

namespace DecimalText

def chars (text : DecimalText) : List Char :=
  (if text.negative then ['-'] else []) ++ text.whole
    ++ (if text.fraction = [] then [] else '.' :: text.fraction)

def value (text : DecimalText) : ℚ :=
  let size : ℚ := Nat.ofDigitChars 10 text.whole 0
    + Nat.ofDigitChars 10 text.fraction 0 / 10 ^ text.fraction.length
  if text.negative then -size else size

/-- There are digits on both sides of the point, and nothing else. -/
structure Digital (text : DecimalText) : Prop where
  whole : Text.AllDigits text.whole
  fraction : Text.AllDigits text.fraction

/-- There is a digit, and there is no zero in front of another digit. -/
structure Proper (text : DecimalText) : Prop extends text.Digital where
  nonempty : text.whole ≠ []
  first : text.whole.head? = some '0' → text.whole = ['0']

end DecimalText

namespace Numeric

variable {numeric : Numeric}

/-! ### Values -/

/-- The value without the sign: each digit by its weight. -/
def magnitude (numeric : Numeric) : ℚ :=
  ∑ place ∈ Finset.range numeric.digits.length,
    (numeric.digits.getD place 0 : ℚ) * 10000 ^ (numeric.weight - place)

def value (numeric : Numeric) : ℚ :=
  if numeric.sign = negative then -numeric.magnitude else numeric.magnitude

/-! ### Digits behind a point -/

/-- The value of so many digits to the base 10000 behind a point. -/
def pastPoint (digits : Nat → Nat) (count : Nat) : ℚ :=
  ∑ place ∈ Finset.range count, (digits place : ℚ) / 10000 ^ (place + 1)

variable {digits : Nat → Nat}

theorem pastPoint_succ (digits : Nat → Nat) (count : Nat) :
    pastPoint digits (count + 1)
      = pastPoint digits count + digits count / 10000 ^ (count + 1) :=
  Finset.sum_range_succ _ _

theorem pastPoint_add (digits : Nat → Nat) (first second : Nat) :
    pastPoint digits (first + second)
      = pastPoint digits first
        + pastPoint (fun place => digits (first + place)) second / 10000 ^ first := by
  rw [pastPoint, Finset.sum_range_add, pastPoint, pastPoint, Finset.sum_div]
  congr 1
  refine Finset.sum_congr rfl fun place _ => ?_
  rw [div_div, ← pow_add, show place + 1 + first = first + place + 1 by omega]

theorem pastPoint_zeros {count : Nat} (zeros : ∀ place < count, digits place = 0) :
    pastPoint digits count = 0 := by
  refine Finset.sum_eq_zero fun place member => ?_
  rw [zeros place (Finset.mem_range.1 member), Nat.cast_zero, zero_div]

theorem pastPoint_nonneg (digits : Nat → Nat) (count : Nat) : 0 ≤ pastPoint digits count :=
  Finset.sum_nonneg fun _ _ => by positivity

theorem pastPoint_lt_one (small : ∀ place, digits place < 10000) (count : Nat) :
    pastPoint digits count < 1 := by
  have room : pastPoint digits count ≤ 1 - 1 / 10000 ^ count := by
    induction count with
    | zero => simp [pastPoint]
    | succ count ih =>
      have digit : (digits count : ℚ) ≤ 9999 := by exact_mod_cast Nat.le_of_lt_succ (small count)
      have last : (digits count : ℚ) / 10000 ^ (count + 1) ≤ 9999 / 10000 ^ (count + 1) := by
        gcongr
      have split : (1 : ℚ) / 10000 ^ count = 10000 / 10000 ^ (count + 1) := by
        rw [pow_succ]
        field_simp
      have gap : (10000 : ℚ) / 10000 ^ (count + 1)
          = 9999 / 10000 ^ (count + 1) + 1 / 10000 ^ (count + 1) := by ring
      rw [split] at ih
      rw [pastPoint_succ]
      linarith
  have positive : (0 : ℚ) < 1 / 10000 ^ count := by positivity
  linarith

/-! ### Groups of four decimal digits -/

/-- Digits to the base 10000, each as four decimal digits. -/
def groups (digits : Nat → Nat) (count : Nat) : List Char :=
  (List.range count).flatMap fun place => Text.padded 4 (Text.decimal (digits place))

theorem groups_succ (digits : Nat → Nat) (count : Nat) :
    groups digits (count + 1)
      = groups digits count ++ Text.padded 4 (Text.decimal (digits count)) := by
  rw [groups, List.range_succ, List.flatMap_append, List.flatMap_singleton]
  rfl

theorem allDigits_groups (digits : Nat → Nat) (count : Nat) :
    Text.AllDigits (groups digits count) := by
  intro char member
  obtain ⟨place, -, held⟩ := List.mem_flatMap.1 member
  exact Text.allDigits_padded 4 _ char held

theorem length_groups (small : ∀ place, digits place < 10000) (count : Nat) :
    (groups digits count).length = 4 * count := by
  induction count with
  | zero => rfl
  | succ count ih =>
    rw [groups_succ, List.length_append, ih, Text.length_padded (small count) (by decide)]
    rfl

theorem ofDigitChars_groups (small : ∀ place, digits place < 10000) (count : Nat) :
    (Nat.ofDigitChars 10 (groups digits count) 0 : ℚ) = pastPoint digits count * 10000 ^ count := by
  induction count with
  | zero => simp [groups, pastPoint]
  | succ count ih =>
    rw [groups_succ, Nat.ofDigitChars_append, Nat.ofDigitChars_eq_ofDigitChars_zero,
      Text.length_padded (small count) (by decide), Text.ofDigitChars_padded, pastPoint_succ]
    push_cast
    rw [ih]
    field_simp
    ring

/-! ### Places of a number -/

/-- The digit at a place, without a sign. -/
def sizeAt (numeric : Numeric) (place : Int) : Nat := (numeric.digitAt place).natAbs

theorem digitAt_of_neg {place : Int} (h : place < 0) : numeric.digitAt place = 0 :=
  if_neg (Int.not_le.2 h)

theorem digitAt_natCast (numeric : Numeric) (place : Nat) :
    numeric.digitAt place = numeric.digits.getD place 0 :=
  if_pos (Int.natCast_nonneg place)

namespace InBase

theorem digitAt_range (h : numeric.InBase) (place : Int) :
    0 ≤ numeric.digitAt place ∧ numeric.digitAt place < 10000 := by
  rcases Int.lt_or_le place 0 with before | whole
  · rw [digitAt_of_neg before]
    decide
  · lift place to Nat using whole
    rw [digitAt_natCast]
    rcases Nat.lt_or_ge place numeric.digits.length with within | beyond
    · rw [List.getD_eq_getElem _ _ within]
      exact h _ (List.getElem_mem within)
    · rw [List.getD_eq_default _ _ beyond]
      decide

theorem sizeAt_lt (h : numeric.InBase) (place : Int) : numeric.sizeAt place < 10000 := by
  have range := h.digitAt_range place
  rw [sizeAt]
  omega

theorem cast_sizeAt (h : numeric.InBase) (place : Int) :
    (numeric.sizeAt place : ℚ) = numeric.digitAt place := by
  rw [← Int.cast_natCast, sizeAt, Int.natAbs_of_nonneg (h.digitAt_range place).1]

theorem group_digitAt (h : numeric.InBase) (place : Int) :
    group (numeric.digitAt place) = Text.padded 4 (Text.decimal (numeric.sizeAt place)) :=
  if_neg (Int.not_lt.2 (h.digitAt_range place).1)

/-- The digits by their weights are the digits behind a point, moved. -/
theorem magnitude_eq (h : numeric.InBase) {count : Nat} (all : numeric.digits.length ≤ count) :
    numeric.magnitude
      = 10000 ^ (numeric.weight + 1) * pastPoint (fun place => numeric.sizeAt place) count := by
  obtain ⟨more, rfl⟩ := Nat.exists_eq_add_of_le all
  have none : pastPoint (fun place : Nat =>
      numeric.sizeAt ((numeric.digits.length + place : Nat) : Int)) more = 0 := by
    refine pastPoint_zeros fun place _ => ?_
    rw [sizeAt, digitAt_natCast, List.getD_eq_default _ _ (Nat.le_add_right ..)]
    rfl
  rw [pastPoint_add, none, zero_div, add_zero, magnitude, pastPoint, Finset.mul_sum]
  refine Finset.sum_congr rfl fun place _ => ?_
  rw [h.cast_sizeAt, digitAt_natCast, zpow_sub₀ (by norm_num), zpow_add_one₀ (by norm_num),
    zpow_natCast, pow_succ]
  field_simp

theorem wholeChars_eq (h : numeric.InBase) {weight : Nat} (same : numeric.weight = weight) :
    numeric.wholeChars
      = Text.decimal (numeric.sizeAt 0)
        ++ groups (fun place => numeric.sizeAt ((place : Int) + 1)) weight := by
  rw [wholeChars, same, if_neg (Int.not_lt.2 (Int.natCast_nonneg weight)), Text.signedDecimal,
    if_neg (Int.not_lt.2 (h.digitAt_range 0).1)]
  simp only [h.group_digitAt, Int.toNat_natCast]
  rfl

theorem ofDigitChars_wholeChars (h : numeric.InBase) {weight : Nat}
    (same : numeric.weight = weight) :
    (Nat.ofDigitChars 10 numeric.wholeChars 0 : ℚ)
      = 10000 ^ (weight + 1) * pastPoint (fun place => numeric.sizeAt place) (weight + 1) := by
  have small (place : Nat) := h.sizeAt_lt ((place : Int) + 1)
  have first : pastPoint (fun place => numeric.sizeAt place) 1 = (numeric.sizeAt 0 : ℚ) / 10000 := by
    simp [pastPoint]
  have others : (fun place : Nat => numeric.sizeAt ((1 + place : Nat) : Int))
      = fun place : Nat => numeric.sizeAt ((place : Int) + 1) := by
    funext place
    congr 1
    omega
  have power : 10 ^ (4 * weight) = 10000 ^ weight := by rw [Nat.pow_mul]
  rw [h.wholeChars_eq same, Nat.ofDigitChars_append, Text.ofDigitChars_decimal,
    Nat.ofDigitChars_eq_ofDigitChars_zero, length_groups small, power, Nat.add_comm weight,
    pastPoint_add, first, others]
  push_cast
  rw [ofDigitChars_groups small]
  ring

end InBase

/-- The digits behind the point, from the first on. -/
def behind (numeric : Numeric) (place : Nat) : Nat := numeric.sizeAt (numeric.weight + 1 + place)

namespace InBase

theorem behind_lt (h : numeric.InBase) (place : Nat) : numeric.behind place < 10000 :=
  h.sizeAt_lt _

theorem fractionChars_eq (h : numeric.InBase) :
    numeric.fractionChars
      = (groups numeric.behind ((numeric.scale + 3) / 4)).take numeric.scale := by
  simp only [fractionChars, h.group_digitAt]
  rfl

/-- The value is that of the whole part and of the digits behind the point, as many as there are.
-/
theorem exists_magnitude_eq (h : numeric.InBase) (count : Nat) :
    ∃ more, numeric.magnitude
      = Nat.ofDigitChars 10 numeric.wholeChars 0 + pastPoint numeric.behind (count + more) := by
  have length : numeric.digits.length ≤ count + numeric.digits.length := Nat.le_add_left ..
  rcases Int.lt_or_le numeric.weight 0 with before | whole
  · obtain ⟨gap, same⟩ := Int.eq_ofNat_of_zero_le (show 0 ≤ -(numeric.weight + 1) by omega)
    have zeros : pastPoint numeric.behind gap = 0 := by
      refine pastPoint_zeros fun place within => ?_
      rw [behind, sizeAt, digitAt_of_neg (by omega)]
      rfl
    have moved : (fun place => numeric.behind (gap + place))
        = fun place : Nat => numeric.sizeAt place := by
      funext place
      rw [behind]
      congr 1
      omega
    have none : Nat.ofDigitChars 10 ['0'] 0 = 0 := rfl
    refine ⟨gap + numeric.digits.length, ?_⟩
    rw [Nat.add_left_comm, pastPoint_add, zeros, moved, h.magnitude_eq length, wholeChars,
      if_pos before, none, show numeric.weight + 1 = -(gap : Int) by omega, zpow_neg, zpow_natCast]
    push_cast
    ring
  · lift numeric.weight to Nat using whole with weight same
    have moved : (fun place : Nat => numeric.sizeAt ((weight + 1 + place : Nat) : Int))
        = numeric.behind := by
      funext place
      rw [behind, ← same]
      push_cast
      rfl
    refine ⟨numeric.digits.length, ?_⟩
    rw [h.magnitude_eq (Nat.le_add_left_of_le length), pastPoint_add, moved,
      h.ofDigitChars_wholeChars same.symm, ← same, mul_add]
    congr 1
    rw [← Nat.cast_succ, zpow_natCast]
    field_simp

end InBase

/-- No decimal digit but zeros behind the scale. -/
def Exact (numeric : Numeric) : Prop := ∃ number : Int, numeric.value * 10 ^ numeric.scale = number

theorem Exact.exists_magnitude (h : numeric.Exact) :
    ∃ number : Int, numeric.magnitude * 10 ^ numeric.scale = number := by
  obtain ⟨number, same⟩ := h
  rw [value] at same
  split at same
  · refine ⟨-number, ?_⟩
    push_cast
    linarith
  · exact ⟨number, same⟩

/-- Behind whole units there is less than one unit of a whole number of units: nothing. -/
theorem nothing_left {number : Int} {whole kept scale cut : Nat} {left : ℚ} (least : 0 ≤ left)
    (most : left < 1)
    (parts : (number : ℚ) * 10 ^ cut = whole * (10 ^ scale * 10 ^ cut) + kept + left) :
    left = 0 ∧ 10 ^ cut ∣ kept := by
  have nothing : left = 0 := by
    have units : left = ((number * 10 ^ cut - whole * (10 ^ scale * 10 ^ cut) - kept : Int) : ℚ) := by
      push_cast
      linarith
    rw [units] at least most ⊢
    norm_cast at least most ⊢
    omega
  refine ⟨nothing, ?_⟩
  rw [nothing, add_zero] at parts
  have integers : number * 10 ^ cut = whole * (10 ^ scale * 10 ^ cut) + kept := by
    exact_mod_cast parts
  have divides : (10 ^ cut : Int) ∣ kept := ⟨number - whole * 10 ^ scale, by linarith⟩
  exact_mod_cast divides

namespace InBase

/-- What the scale cuts off is nothing but zeros. -/
theorem magnitude_eq_fraction (h : numeric.InBase) (exact : numeric.Exact) :
    numeric.magnitude
      = Nat.ofDigitChars 10 numeric.wholeChars 0
        + Nat.ofDigitChars 10 numeric.fractionChars 0 / 10 ^ numeric.scale := by
  obtain ⟨number, integral⟩ := exact.exists_magnitude
  rw [h.fractionChars_eq, Text.ofDigitChars_take (allDigits_groups _ _), length_groups h.behind_lt]
  obtain ⟨cut, enough⟩ := Nat.exists_eq_add_of_le
    (show numeric.scale ≤ 4 * ((numeric.scale + 3) / 4) by omega)
  generalize (numeric.scale + 3) / 4 = count at *
  obtain ⟨more, magnitude⟩ := h.exists_magnitude_eq count
  have least := pastPoint_nonneg (fun place => numeric.behind (count + place)) more
  have most := pastPoint_lt_one (fun place => h.behind_lt (count + place)) more
  have shown := ofDigitChars_groups h.behind_lt count
  have power : (10000 : ℚ) ^ count = 10 ^ numeric.scale * 10 ^ cut := by
    rw [← pow_add, ← enough, pow_mul]
    norm_num
  rw [pastPoint_add] at magnitude
  generalize pastPoint (fun place => numeric.behind (count + place)) more = left at *
  generalize Nat.ofDigitChars 10 (groups numeric.behind count) 0 = kept at *
  generalize Nat.ofDigitChars 10 numeric.wholeChars 0 = whole at *
  have parts : (number : ℚ) * 10 ^ cut = whole * (10 ^ numeric.scale * 10 ^ cut) + kept + left := by
    rw [← integral, magnitude, shown, power]
    field_simp
    ring
  obtain ⟨nothing, units, rfl⟩ := nothing_left least most parts
  rw [enough, Nat.add_sub_cancel_left, Nat.mul_div_cancel_left _ (by positivity), magnitude, nothing,
    zero_div, add_zero, eq_div_of_mul_eq (by positivity) shown.symm, power]
  push_cast
  field_simp

end InBase

/-! ### The text -/

/-- The text of a finite number, in its parts. -/
def text (numeric : Numeric) : DecimalText where
  negative := numeric.sign = negative
  whole := numeric.wholeChars
  fraction := numeric.fractionChars

/-- The first digit is none that says nothing, and without digits there is nothing to weigh. -/
structure Canonical (numeric : Numeric) : Prop where
  first : numeric.digits.head? ≠ some 0
  weight : numeric.digits = [] → numeric.weight = 0

namespace Sendable

theorem text?_eq (h : numeric.Sendable) :
    numeric.text? = some (String.ofList numeric.text.chars) := by
  have different : negative ≠ positive := by decide
  have chars (isNegative : Bool) :
      numeric.finiteChars isNegative
        = DecimalText.chars ⟨isNegative, numeric.wholeChars, numeric.fractionChars⟩ := by
    rw [finiteChars, DecimalText.chars]
    simp only [List.isEmpty_iff]
  rw [text?, text]
  rcases h.sign with same | same
  · rw [if_pos same, chars, same, decide_eq_false different.symm]
  · rw [same, if_neg different, if_pos rfl, chars, decide_eq_true rfl]

theorem read?_text? (h : numeric.Sendable) :
    (read? numeric.bytes >>= text?) = some (String.ofList numeric.text.chars) := by
  rw [h.read?_bytes, Option.bind_eq_bind, Option.bind_some, h.text?_eq]

theorem length_fractionChars (h : numeric.Sendable) :
    numeric.fractionChars.length = numeric.scale := by
  have enough : numeric.scale ≤ 4 * ((numeric.scale + 3) / 4) := by omega
  rw [h.digits.fractionChars_eq, List.length_take, length_groups h.digits.behind_lt]
  exact Nat.min_eq_left enough

theorem digital_text (h : numeric.Sendable) : numeric.text.Digital := by
  constructor
  · rcases Int.lt_or_le numeric.weight 0 with before | whole
    · rw [text, wholeChars, if_pos before]
      exact Text.allDigits_replicate 1
    · obtain ⟨weight, same⟩ := Int.eq_ofNat_of_zero_le whole
      rw [text, h.digits.wholeChars_eq same]
      exact List.forall_mem_append.2 ⟨Text.allDigits_decimal _, allDigits_groups _ _⟩
  · rw [text, h.digits.fractionChars_eq]
    exact fun char member => allDigits_groups _ _ char (List.mem_of_mem_take member)

theorem proper_text (h : numeric.Sendable) (canonical : numeric.Canonical) :
    numeric.text.Proper := by
  rcases Int.lt_or_le numeric.weight 0 with before | whole
  · have zero : numeric.text.whole = ['0'] := if_pos before
    exact ⟨h.digital_text, by rw [zero]; decide, fun _ => zero⟩
  · obtain ⟨weight, same⟩ := Int.eq_ofNat_of_zero_le whole
    have parts : numeric.text.whole = _ := h.digits.wholeChars_eq same
    refine ⟨h.digital_text, ?_, fun first => ?_⟩
    · obtain ⟨first, others, digits, -⟩ := Text.exists_decimal_digit (numeric.sizeAt 0)
      rw [parts, digits]
      exact List.cons_ne_nil _ _
    · rcases Nat.eq_zero_or_pos (numeric.sizeAt 0) with zero | positive
      · have none : numeric.digits = [] := by
          cases digits : numeric.digits with
          | nil => rfl
          | cons digit others =>
            have here : numeric.sizeAt 0 = digit.natAbs := by
              rw [sizeAt, digitAt, digits]
              rfl
            rw [here, Int.natAbs_eq_zero] at zero
            exact absurd (by rw [digits, zero]; rfl) canonical.first
        obtain rfl : weight = 0 := by
          have := canonical.weight none
          omega
        rw [parts, zero]
        rfl
      · obtain ⟨digit, others, digits, nonzero⟩ := Text.exists_decimal_cons positive
        rw [parts, digits] at first
        cases first
        exact absurd rfl nonzero

theorem value_text (h : numeric.Sendable) (exact : numeric.Exact) :
    numeric.text.value = numeric.value := by
  rw [DecimalText.value, Numeric.value, h.digits.magnitude_eq_fraction exact]
  simp only [text, h.length_fractionChars, decide_eq_true_eq]

end Sendable

/-! ### Texts of any bytes -/

/-- A sign that has a text. -/
def KnownSign (sign : Nat) : Prop :=
  sign = positive ∨ sign = negative ∨ sign = notANumber ∨ sign = positiveInfinity
    ∨ sign = negativeInfinity

theorem text?_eq_none : numeric.text? = none ↔ ¬KnownSign numeric.sign := by
  unfold text? KnownSign
  split_ifs <;> simp [*]

theorem read?_text?_eq_none (bytes : Bytes) :
    (read? bytes >>= text?) = none ↔ Refuses bytes ∨ ¬KnownSign (ofWords bytes).sign := by
  rw [read?_eq, Option.bind_eq_bind]
  by_cases refuses : Refuses bytes
  · rw [if_pos refuses, Option.bind_none]
    exact iff_of_true rfl (.inl refuses)
  · rw [if_neg refuses, Option.bind_some, text?_eq_none, or_iff_right refuses]

theorem length_decimal_of_word {word : Int} (h : word.natAbs ≤ 32768) :
    (Text.decimal word.natAbs).length ≤ 5 :=
  Text.length_decimal_le (by omega) (by decide)

theorem length_group_le {word : Int} (h : word.natAbs ≤ 32768) : (group word).length ≤ 6 := by
  have short := length_decimal_of_word h
  rw [group]
  split
  · rw [Text.padded, List.length_cons, List.length_append, List.length_replicate]
    omega
  · rw [Text.padded, List.length_append, List.length_replicate]
    omega

theorem length_flatMap_group_le {words : Nat → Int} (h : ∀ place, (words place).natAbs ≤ 32768)
    (count : Nat) :
    ((List.range count).flatMap fun place => group (words place)).length ≤ 6 * count := by
  induction count with
  | zero => exact Nat.zero_le _
  | succ count ih =>
    have last := length_group_le (h count)
    rw [List.range_succ, List.flatMap_append, List.length_append, List.flatMap_singleton]
    omega

theorem length_finiteChars_le (words : ∀ place, (numeric.digitAt place).natAbs ≤ 32768)
    (isNegative : Bool) :
    (numeric.finiteChars isNegative).length ≤ 8 + 6 * numeric.weight.toNat + numeric.scale := by
  have sign : (if isNegative then ['-'] else []).length ≤ 1 := by
    cases isNegative <;> decide
  have whole : numeric.wholeChars.length ≤ 6 + 6 * numeric.weight.toNat := by
    have first := length_decimal_of_word (words 0)
    rw [wholeChars]
    split
    · exact Nat.le_add_right_of_le (by decide)
    · have others := length_flatMap_group_le (fun place => words ((place : Int) + 1))
        numeric.weight.toNat
      rw [List.length_append, Text.signedDecimal]
      split
      · rw [List.length_cons]
        omega
      · omega
  have fraction : numeric.fractionChars.length ≤ numeric.scale := List.length_take_le ..
  have point : (if numeric.fractionChars.isEmpty then [] else '.' :: numeric.fractionChars).length
      ≤ 1 + numeric.scale := by
    split
    · exact Nat.zero_le _
    · rw [List.length_cons]
      omega
  rw [finiteChars, List.length_append, List.length_append]
  omega

theorem natAbs_digitAt_ofWords_le (bytes : Bytes) (place : Int) :
    ((ofWords bytes).digitAt place).natAbs ≤ 32768 := by
  rcases Int.lt_or_le place 0 with before | whole
  · rw [digitAt_of_neg before]
    decide
  · lift place to Nat using whole
    rw [digitAt_natCast]
    rcases Nat.lt_or_ge place (ofWords bytes).digits.length with within | beyond
    · obtain ⟨word, -, same⟩ := List.mem_map.1 (List.getElem_mem within)
      have range := wordAt_range word (bytes.drop 8)
      rw [List.getD_eq_getElem _ _ within, ← same]
      omega
    · rw [List.getD_eq_default _ _ beyond]
      decide

theorem length_le_of_read?_text? {bytes : Bytes} {found : String}
    (h : (read? bytes >>= text?) = some found) : found.length ≤ 229377 := by
  rw [read?_eq, Option.bind_eq_bind] at h
  split at h
  · cases h
  · have weight := wordAt_range 1 bytes
    have scale := wordAt_range 3 bytes
    have finite := length_finiteChars_le (natAbs_digitAt_ofWords_le bytes)
    have bound (isNegative : Bool) :
        (String.ofList ((ofWords bytes).finiteChars isNegative)).length ≤ 229377 := by
      have := finite isNegative
      rw [ofWords] at this ⊢
      rw [String.length_ofList]
      dsimp only at this
      omega
    rw [Option.bind_some, text?] at h
    split_ifs at h <;> cases h
    · exact bound false
    · exact bound true
    all_goals decide

/-- A finite number is shown with its exact value, all the places of its scale and nothing else.
Bytes of any other form have no text, or one that ends. -/
theorem exact_text :
    (∀ numeric : Numeric, numeric.Sendable → numeric.Canonical → numeric.Exact →
      ∃ text : DecimalText,
        (read? numeric.bytes >>= text?) = some (String.ofList text.chars) ∧ text.Proper
          ∧ text.fraction.length = numeric.scale ∧ text.value = numeric.value)
    ∧ ∀ bytes : Bytes,
      ((read? bytes >>= text?) = none ↔ Refuses bytes ∨ ¬KnownSign (ofWords bytes).sign)
        ∧ ∀ found, (read? bytes >>= text?) = some found → found.length ≤ 229377 :=
  ⟨fun numeric sendable canonical exact =>
    ⟨numeric.text, sendable.read?_text?, sendable.proper_text canonical,
      sendable.length_fractionChars, sendable.value_text exact⟩,
    fun bytes => ⟨read?_text?_eq_none bytes, fun _ => length_le_of_read?_text?⟩⟩

theorem exact_text_of_three_groups :
    let numeric : Numeric := ⟨1, negative, 1, [1234, 5678, 9000]⟩
    (numeric.Sendable ∧ numeric.Canonical ∧ numeric.Exact
      ∧ ∃ text : DecimalText,
        (read? numeric.bytes >>= text?) = some (String.ofList text.chars) ∧ text.Proper
          ∧ text.fraction.length = 1 ∧ text.value = -12345678.9)
    ∧ (read? (numeric.bytes.take 13) >>= text?) = none := by
  intro numeric
  have sendable : numeric.Sendable :=
    ⟨.inr rfl, by decide, by decide, by decide, by decide⟩
  have canonical : numeric.Canonical := ⟨by decide, fun none => by cases none⟩
  have value : numeric.value = -12345678.9 := by
    norm_num [numeric, Numeric.value, magnitude, Finset.sum_range_succ]
  have exact : numeric.Exact := ⟨-123456789, by rw [value]; norm_num [numeric]⟩
  obtain ⟨text, shown, proper, scale, same⟩ := exact_text.1 numeric sendable canonical exact
  exact ⟨⟨sendable, canonical, exact, text, shown, proper, scale, same.trans value⟩,
    (exact_text.2 (numeric.bytes.take 13)).1.2 (.inl (by decide))⟩

end Numeric

end ScopedQuery
