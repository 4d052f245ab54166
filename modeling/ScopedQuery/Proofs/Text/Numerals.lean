import Mathlib.Algebra.Order.Ring.Nat
import Mathlib.Data.List.DropRight
import ScopedQuery.Proofs.Text.Runs
import ScopedQuery.Text.Blank
/-!
# Reading numerals

The digits that write a number are read back as that number: as a field of fixed width, and in
hexadecimal; and a field of fixed width is read only from the digits that write its number. No digit
is a blank, so trimming leaves such texts alone.
-/

namespace ScopedQuery.Text

variable {digits rest : List Char} {char : Char} {number width value : Nat}

/-! ### Digits -/

def AllDigits (digits : List Char) : Prop := ∀ char ∈ digits, isDigit char = true

theorem digit?_eq_some (h : isDigit char = true) : digit? char = some (char.toNat - '0'.toNat) := by
  unfold isDigit digit? at *
  split at h
  · next range => rw [if_pos range]; rfl
  · cases h

theorem range_of_isDigit (h : isDigit char = true) : 48 ≤ char.toNat ∧ char.toNat ≤ 57 := by
  rw [isDigit_eq, Char.isDigit, Bool.and_eq_true, decide_eq_true_iff, decide_eq_true_iff] at h
  exact h

theorem allDigits_decimal (number : Nat) : AllDigits (decimal number) :=
  fun _ => isDigit_of_mem_decimal

theorem exists_decimal_digit (number : Nat) :
    ∃ first others, decimal number = first :: others ∧ isDigit first = true := by
  obtain ⟨first, others, split⟩ := List.exists_cons_of_ne_nil
    (Nat.toDigits_ne_nil (n := number) (b := 10))
  refine ⟨first, others, split, allDigits_decimal number first ?_⟩
  rw [decimal, split]
  exact List.mem_cons_self ..

theorem allDigits_replicate (count : Nat) : AllDigits (List.replicate count '0') := by
  intro char member
  rw [List.eq_of_mem_replicate member]
  rfl

theorem allDigits_padded (width number : Nat) : AllDigits (padded width (decimal number)) := by
  intro char member
  rcases List.mem_append.1 member with zero | digit
  · exact allDigits_replicate _ char zero
  · exact isDigit_of_mem_decimal digit

theorem length_decimal_le (h : number < 10 ^ width) (positive : 0 < width) :
    (decimal number).length ≤ width :=
  (Nat.length_toDigits_le_iff (by decide) positive).2 h

theorem decimal_range (h : 0 < number) :
    ∃ more, (decimal number).length = more + 1 ∧ 10 ^ more ≤ number ∧ number < 10 ^ (more + 1) := by
  obtain ⟨first, others, split, -⟩ := exists_decimal_digit number
  have length : (decimal number).length = others.length + 1 := by
    rw [split, List.length_cons]
  refine ⟨others.length, length, ?_, ?_⟩
  · rcases Nat.eq_zero_or_pos others.length with none | some
    · rw [none]
      exact h
    · apply Nat.le_of_not_lt
      intro less
      have := length_decimal_le less some
      omega
  · exact (Nat.length_toDigits_le_iff (by decide) (Nat.succ_pos _)).1 (Nat.le_of_eq length)

theorem length_padded (h : number < 10 ^ width) (positive : 0 < width) :
    (padded width (decimal number)).length = width := by
  have := length_decimal_le h positive
  rw [padded, List.length_append, List.length_replicate]
  omega

theorem ofDigitChars_decimal (number : Nat) : Nat.ofDigitChars 10 (decimal number) 0 = number :=
  Nat.ofDigitChars_ten_toDigits

theorem ofDigitChars_padded (width number : Nat) :
    Nat.ofDigitChars 10 (padded width (decimal number)) 0 = number := by
  rw [padded, Nat.ofDigitChars_append, Nat.ofDigitChars_replicate_zero, Nat.mul_zero,
    ofDigitChars_decimal]

theorem le_ofDigitChars (digits : List Char) (start : Nat) :
    start ≤ Nat.ofDigitChars 10 digits start := by
  rw [Nat.ofDigitChars_eq_ofDigitChars_zero]
  have power : 0 < 10 ^ digits.length := Nat.pow_pos (by decide)
  have grown := Nat.le_mul_of_pos_left start power
  omega

theorem ofDigitChars_lt (all : AllDigits digits) (start : Nat) :
    Nat.ofDigitChars 10 digits start < 10 ^ digits.length * (start + 1) := by
  induction digits generalizing start with
  | nil => simp
  | cons char digits ih =>
    obtain ⟨first, others⟩ := List.forall_mem_cons.1 all
    obtain ⟨least, most⟩ := range_of_isDigit first
    have zero : '0'.toNat = 48 := rfl
    have room : 10 * start + (char.toNat - '0'.toNat) + 1 ≤ 10 * (start + 1) := by omega
    rw [Nat.ofDigitChars_cons, List.length_cons, Nat.pow_succ, Nat.mul_assoc]
    exact Nat.lt_of_lt_of_le (ih others _) (Nat.mul_le_mul_left _ room)

/-- The first digits write the number without its last digits. -/
theorem ofDigitChars_take {count : Nat} (all : AllDigits digits) :
    Nat.ofDigitChars 10 (digits.take count) 0
      = Nat.ofDigitChars 10 digits 0 / 10 ^ (digits.length - count) := by
  have left : AllDigits (digits.drop count) := fun char member =>
    all char (List.mem_of_mem_drop member)
  have small := ofDigitChars_lt left 0
  rw [Nat.mul_one, List.length_drop] at small
  have split : Nat.ofDigitChars 10 digits 0
      = 10 ^ (digits.length - count) * Nat.ofDigitChars 10 (digits.take count) 0
        + Nat.ofDigitChars 10 (digits.drop count) 0 := by
    conv => lhs; rw [← List.take_append_drop count digits]
    rw [Nat.ofDigitChars_append, Nat.ofDigitChars_eq_ofDigitChars_zero, List.length_drop]
  rw [split, Nat.mul_add_div (Nat.pow_pos (by decide)), Nat.div_eq_of_lt small, Nat.add_zero]

/-- Equally many digits that write the same number are the same. -/
theorem ofDigitChars_inj {digits' : List Char} {start start' : Nat} (all : AllDigits digits)
    (all' : AllDigits digits') (length : digits.length = digits'.length)
    (same : Nat.ofDigitChars 10 digits start = Nat.ofDigitChars 10 digits' start') :
    start = start' ∧ digits = digits' := by
  induction digits generalizing digits' start start' with
  | nil =>
    obtain rfl := List.length_eq_zero_iff.1 length.symm
    exact ⟨same, rfl⟩
  | cons char digits ih =>
    obtain ⟨char', digits', rfl⟩ := List.exists_cons_of_length_eq_add_one length.symm
    obtain ⟨first, others⟩ := List.forall_mem_cons.1 all
    obtain ⟨first', others'⟩ := List.forall_mem_cons.1 all'
    rw [Nat.ofDigitChars_cons, Nat.ofDigitChars_cons] at same
    obtain ⟨values, rfl⟩ := ih others others' (Nat.succ.inj length) same
    obtain ⟨least, most⟩ := range_of_isDigit first
    obtain ⟨least', most'⟩ := range_of_isDigit first'
    have zero : '0'.toNat = 48 := rfl
    refine ⟨by omega, ?_⟩
    rw [Char.toNat_inj.1 (show char.toNat = char'.toNat by omega)]

/-- Digits are the field of their width for the number that they write. -/
theorem padded_ofDigitChars (all : AllDigits digits) (some : digits ≠ []) :
    padded digits.length (decimal (Nat.ofDigitChars 10 digits 0)) = digits := by
  have small := ofDigitChars_lt all 0
  rw [Nat.mul_one] at small
  have length := length_padded small (List.length_pos_iff.2 some)
  exact (ofDigitChars_inj (allDigits_padded _ _) all length (ofDigitChars_padded _ _)).2

/-- A positive number does not start with a zero. -/
theorem exists_decimal_cons (h : 0 < number) :
    ∃ first rest, decimal number = first :: rest ∧ first ≠ '0' := by
  have small : ∀ digit < 10, 0 < digit → Nat.digitChar digit ≠ '0' := by decide
  induction number using Nat.strongRecOn with
  | ind number ih =>
    rcases Nat.lt_or_ge number 10 with single | more
    · exact ⟨Nat.digitChar number, [], Nat.toDigits_of_lt_base single, small number single h⟩
    · obtain ⟨first, rest, split, nonzero⟩ := ih (number / 10) (by omega) (by omega)
      refine ⟨first, rest ++ [Nat.digitChar (number % 10)], ?_, nonzero⟩
      rw [decimal] at split ⊢
      rw [Nat.toDigits_of_base_le (by decide) more, split, List.cons_append]

/-! ### Fields of fixed width -/

theorem takeNumber_go (all : AllDigits digits) (start : Nat) (rest : List Char) :
    takeNumber.go start digits.length (digits ++ rest)
      = some (Nat.ofDigitChars 10 digits start, rest) := by
  induction digits generalizing start with
  | nil => rfl
  | cons char digits ih =>
    obtain ⟨first, others⟩ := List.forall_mem_cons.1 all
    rw [List.length_cons, List.cons_append, takeNumber.go, digit?_eq_some first]
    show takeNumber.go _ _ _ = _
    rw [ih others, Nat.ofDigitChars_cons, Nat.mul_comm]

theorem takeNumber_padded (h : number < 10 ^ width) (positive : 0 < width) (rest : List Char) :
    takeNumber width (padded width (decimal number) ++ rest) = some (number, rest) := by
  have read := takeNumber_go (allDigits_padded width number) 0 rest
  rw [length_padded h positive, ofDigitChars_padded] at read
  exact read

theorem exists_digits_of_takeNumber_go {start : Nat} {text : List Char}
    (h : takeNumber.go start width text = some (number, rest)) :
    ∃ digits, AllDigits digits ∧ digits.length = width
      ∧ number = Nat.ofDigitChars 10 digits start ∧ text = digits ++ rest := by
  induction width generalizing start text with
  | zero =>
    cases h
    exact ⟨[], nofun, rfl, rfl, rfl⟩
  | succ width ih =>
    cases text with
    | nil => cases h
    | cons char text =>
      rw [takeNumber.go] at h
      split at h
      · next value read =>
        have first : isDigit char = true := by rw [isDigit, read]; rfl
        obtain rfl := Option.some.inj ((digit?_eq_some first).symm.trans read)
        obtain ⟨digits, others, rfl, rfl, rfl⟩ := ih h
        refine ⟨char :: digits, List.forall_mem_cons.2 ⟨first, others⟩, rfl, ?_, rfl⟩
        rw [Nat.ofDigitChars_cons, Nat.mul_comm]
      · cases h

/-- What is read as a field of fixed width is its number with zeros before it. -/
theorem takeNumber_eq_some {text : List Char} (positive : 0 < width) :
    takeNumber width text = some (number, rest)
      ↔ number < 10 ^ width ∧ text = padded width (decimal number) ++ rest := by
  constructor
  · intro h
    obtain ⟨digits, all, rfl, rfl, rfl⟩ := exists_digits_of_takeNumber_go h
    have small := ofDigitChars_lt all 0
    rw [Nat.mul_one] at small
    exact ⟨small, by rw [padded_ofDigitChars all (List.length_pos_iff.1 positive)]⟩
  · intro h
    obtain ⟨small, rfl⟩ := h
    exact takeNumber_padded small positive rest

/-! ### Numbers of a range -/

/-- Digits are read as their number up to the limit, and as the fault beyond it. -/
theorem readUpTo_digits (all : AllDigits digits) {limit : Nat} {beyond : NumeralFault}
    (within : number ≤ limit) :
    readUpTo limit beyond number digits
      = if Nat.ofDigitChars 10 digits number ≤ limit then .ok (Nat.ofDigitChars 10 digits number)
        else .error beyond := by
  induction digits generalizing number with
  | nil => exact (if_pos within).symm
  | cons char digits ih =>
    obtain ⟨first, others⟩ := List.forall_mem_cons.1 all
    rw [readUpTo, digit?_eq_some first, Nat.ofDigitChars_cons, Nat.mul_comm 10]
    dsimp only
    split
    · next large =>
      have grown := le_ofDigitChars digits (number * 10 + (char.toNat - '0'.toNat))
      rw [if_neg (by omega)]
    · next fits => exact ih others (Nat.le_of_not_lt fits)

theorem readUpTo_decimal (limit number : Nat) (beyond : NumeralFault) :
    readUpTo limit beyond 0 (decimal number)
      = if number ≤ limit then .ok number else .error beyond := by
  rw [readUpTo_digits (allDigits_decimal number) (Nat.zero_le limit), ofDigitChars_decimal]

theorem readSigned_minus (limit number : Nat) :
    readSigned limit ('-' :: decimal number)
      = if number ≤ limit + 1 then .ok (-(number : Int)) else .error .tooSmall := by
  obtain ⟨first, others, split, -⟩ := exists_decimal_digit number
  have read := readUpTo_decimal (limit + 1) number .tooSmall
  rw [split] at read ⊢
  show (fun number : Nat => -Int.ofNat number) <$> _ = _
  rw [read]
  split <;> rfl

theorem readSigned_decimal (limit number : Nat) :
    readSigned limit (decimal number)
      = if number ≤ limit then .ok (number : Int) else .error .tooLarge := by
  obtain ⟨first, others, split, digit⟩ := exists_decimal_digit number
  have read := readUpTo_decimal limit number .tooLarge
  rw [split] at read ⊢
  have unsigned : readSigned limit (first :: others)
      = Int.ofNat <$> readUpTo limit .tooLarge 0 (first :: others) := by
    have sign : first ≠ '+' ∧ first ≠ '-' := by
      constructor <;> (rintro rfl; exact absurd digit (by decide))
    unfold readSigned
    split <;> simp_all
  rw [unsigned, read]
  split <;> rfl

/-- The digits of a whole number are read as the number when it is in the range. -/
theorem readSigned_signedDecimal (limit : Nat) (number : Int) :
    (readSigned limit (signedDecimal number)).toOption
      = if -(limit : Int) - 1 ≤ number ∧ number ≤ limit then some number else none := by
  rw [signedDecimal]
  split
  · next negative =>
    have value : -(number.natAbs : Int) = number := by omega
    rw [readSigned_minus, value]
    split
    · rw [if_pos (by omega)]; rfl
    · rw [if_neg (by omega)]; rfl
  · next positive =>
    have value : (number.natAbs : Int) = number := by omega
    rw [readSigned_decimal, value]
    split
    · rw [if_pos (by omega)]; rfl
    · rw [if_neg (by omega)]; rfl

/-! ### Hexadecimal -/

theorem hexDigit?_digitChar : ∀ digit < 16, hexDigit? (Nat.digitChar digit) = some digit := by
  decide

theorem readHex_concat {text : List Char} {digit : Nat} (h : digit < 16)
    (read : readHex text = some number) :
    readHex (text ++ [Nat.digitChar digit]) = some (number * 16 + digit) := by
  rw [readHex] at read ⊢
  rw [List.foldl_append, read]
  show (hexDigit? (Nat.digitChar digit)).bind _ = _
  rw [hexDigit?_digitChar digit h]
  rfl

theorem readHex_nil : readHex [] = some 0 := rfl

theorem readHex_toDigits (number : Nat) : readHex (Nat.toDigits 16 number) = some number := by
  induction number using Nat.strongRecOn with
  | ind number ih =>
    rcases Nat.lt_or_ge number 16 with single | more
    · have read := readHex_concat single readHex_nil
      rw [List.nil_append, Nat.zero_mul, Nat.zero_add] at read
      rw [Nat.toDigits_of_lt_base single, read]
    · rw [Nat.toDigits_of_base_le (by decide) more,
        readHex_concat (by omega) (ih (number / 16) (by omega)), Nat.div_add_mod']

theorem readHex_padded (width number : Nat) :
    readHex (padded width (Nat.toDigits 16 number)) = some number := by
  have zeros : ∀ count, readHex (List.replicate count '0' ++ Nat.toDigits 16 number)
      = readHex (Nat.toDigits 16 number) := by
    intro count
    induction count with
    | zero => rfl
    | succ count ih => exact ih
  rw [padded, zeros, readHex_toDigits]

/-! ### Trimming -/

def NoBlanks (text : List Char) : Prop := ∀ char ∈ text, isBlank char = false

instance (text : List Char) : Decidable (NoBlanks text) :=
  List.decidableBAll _ text

theorem dropWhile_isBlank {text : List Char} (h : NoBlanks text) :
    text.dropWhile isBlank = text := by
  cases text with
  | nil => rfl
  | cons char rest =>
    rw [List.dropWhile_cons_of_neg]
    rw [h char (List.mem_cons_self ..)]
    decide

theorem trim_eq_self {text : List Char} (h : NoBlanks text) : trim text = text := by
  have reversed : NoBlanks text.reverse := fun char member => h char (List.mem_reverse.1 member)
  rw [trim, dropWhile_isBlank h, dropWhile_isBlank reversed, List.reverse_reverse]

theorem trim_trim (text : List Char) : trim (trim text) = trim text := by
  have front : (trim text).dropWhile isBlank = trim text := by
    have stops := List.head?_dropWhile_not isBlank text
    rw [trim]
    generalize text.dropWhile isBlank = kept at stops ⊢
    cases kept with
    | nil => rfl
    | cons char rest =>
      have first : isBlank char = false := stops
      rw [List.reverse_cons, List.dropWhile_append]
      split <;> simp [first]
  have back : ((text.dropWhile isBlank).reverse.dropWhile isBlank).dropWhile isBlank
      = (text.dropWhile isBlank).reverse.dropWhile isBlank := List.dropWhile_idempotent ..
  rw [trim, front, trim, List.reverse_reverse, back]
theorem NoBlanks.append {text text' : List Char} (h : NoBlanks text) (h' : NoBlanks text') :
    NoBlanks (text ++ text') :=
  List.forall_mem_append.2 ⟨h, h'⟩

theorem NoBlanks.cons {text : List Char} (first : isBlank char = false) (h : NoBlanks text) :
    NoBlanks (char :: text) :=
  List.forall_mem_cons.2 ⟨first, h⟩

theorem AllDigits.noBlanks (h : AllDigits digits) : NoBlanks digits := by
  intro char member
  have range := range_of_isDigit (h char member)
  simp only [isBlank, Bool.or_eq_false_iff, Bool.and_eq_false_iff, beq_eq_false_iff_ne,
    decide_eq_false_iff_not]
  omega

theorem exists_digitChar_of_mem {base : Nat} (h : 1 < base)
    (member : char ∈ Nat.toDigits base number) :
    ∃ digit < base, char = Nat.digitChar digit := by
  induction number using Nat.strongRecOn with
  | ind number ih =>
    rcases Nat.lt_or_ge number base with single | more
    · rw [Nat.toDigits_of_lt_base single, List.mem_singleton] at member
      exact ⟨number, single, member⟩
    · have less : number / base < number := Nat.div_lt_self (by omega) h
      rw [Nat.toDigits_of_base_le h more, List.mem_append, List.mem_singleton] at member
      rcases member with earlier | last
      · exact ih _ less earlier
      · exact ⟨number % base, Nat.mod_lt _ (by omega), last⟩

theorem noBlanks_toDigits {base : Nat} (h : 1 < base) (most : base ≤ 16) :
    NoBlanks (Nat.toDigits base number) := by
  intro char member
  obtain ⟨digit, small, rfl⟩ := exists_digitChar_of_mem h member
  exact (by decide : ∀ digit < 16, isBlank (Nat.digitChar digit) = false) digit (by omega)

theorem NoBlanks.padded {text : List Char} (h : NoBlanks text) : NoBlanks (padded width text) := by
  refine NoBlanks.append (fun char member => ?_) h
  rw [List.eq_of_mem_replicate member]
  decide

end ScopedQuery.Text
