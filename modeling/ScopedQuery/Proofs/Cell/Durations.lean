import ScopedQuery.Cell.Interval
import ScopedQuery.Proofs.Calendar.Rfc3339
/-!
# Durations

What an ISO 8601 duration means: amounts of years, months, weeks and days, and behind a `T` of
hours, minutes and seconds, in this order and each only if it is given. Every amount may have a sign
of its own, and seconds may have a fraction. `Duration` is this grammar and `read?` its reader: it
takes what the grammar derives and nothing else (`read?_eq_some`). The text of an interval is a
duration of just this interval (`duration_chars`), which is why nothing of it is lost.
-/

namespace ScopedQuery.Interval

/-! ### Amounts -/

/-- A unit of durations. -/
structure Measure where
  letter : Char
  /-- In months, days or microseconds. -/
  size : Nat
  /-- How many digits a fraction may have; the last of them counts one. -/
  places : Nat
  upper : letter.isUpper = true

/-- The texts of a sign. -/
inductive Sign : Int → List Char → Prop
  | omitted : Sign 1 []
  | plus : Sign 1 ['+']
  | minus : Sign (-1) ['-']

/-- The texts of a fraction. -/
inductive Fraction (places : Nat) : Nat → List Char → Prop
  | omitted : Fraction places 0 []
  | digits {mark : Char} {digits : List Char} : mark = '.' ∨ mark = ',' → Text.AllDigits digits →
    digits ≠ [] → digits.length ≤ places →
    Fraction places (Nat.ofDigitChars 10 digits 0 * 10 ^ (places - digits.length)) (mark :: digits)

/-- The texts of an amount of one unit. -/
inductive Amount (unit : Measure) : Int → List Char → Prop
  | mk {sign : Int} {part : Nat} {front digits fraction : List Char} : Sign sign front →
    Text.AllDigits digits → digits ≠ [] → Fraction unit.places part fraction →
    Amount unit (sign * (Nat.ofDigitChars 10 digits 0 * unit.size + part : Nat))
      (front ++ (digits ++ (fraction ++ [unit.letter])))

/-- The texts of the sum of amounts of some units, which stand in the order of the units. -/
inductive Amounts : List Measure → Int → List Char → Prop
  | nil : Amounts [] 0 []
  | skip {unit : Measure} {units : List Measure} {total : Int} {text : List Char} :
    Amounts units total text → Amounts (unit :: units) total text
  | cons {unit : Measure} {units : List Measure} {amount total : Int} {front text : List Char} :
    Amount unit amount front → Amounts units total text →
    Amounts (unit :: units) (amount + total) (front ++ text)

/-! ### Readers of amounts -/

def takeSign : List Char → Int × List Char
  | '-' :: rest => (-1, rest)
  | '+' :: rest => (1, rest)
  | text => (1, text)

/-- All the digits in front, of which there must be one. -/
def takeDigits (text : List Char) : Option (List Char × List Char) :=
  let digits := text.takeWhile Text.isDigit
  if digits = [] then none else some (digits, text.dropWhile Text.isDigit)

def takeFraction (places : Nat) : List Char → Option (Nat × List Char)
  | [] => some (0, [])
  | mark :: rest =>
    if mark = '.' ∨ mark = ',' then do
      let (digits, rest) ← takeDigits rest
      if digits.length ≤ places then
        return (Nat.ofDigitChars 10 digits 0 * 10 ^ (places - digits.length), rest)
      else none
    else some (0, mark :: rest)

def takeAmount (unit : Measure) (text : List Char) : Option (Int × List Char) := do
  let (sign, rest) := takeSign text
  let (digits, rest) ← takeDigits rest
  let (part, rest) ← takeFraction unit.places rest
  let rest ← Date.expect unit.letter rest
  return (sign * (Nat.ofDigitChars 10 digits 0 * unit.size + part : Nat), rest)

/-- The sum of the amounts in front; a unit that is not there counts nothing. -/
def takeAmounts : List Measure → List Char → Int × List Char
  | [], text => (0, text)
  | unit :: units, text =>
    match takeAmount unit text with
    | some (amount, rest) =>
      let (total, rest) := takeAmounts units rest
      (amount + total, rest)
    | none => takeAmounts units text

/-! ### Amounts are read -/

section

variable {unit other : Measure} {units : List Measure} {sign amount total : Int} {places part : Nat}
  {front digits text rest : List Char}

theorem takeDigits_eq_some :
    takeDigits text = some (digits, rest)
      ↔ Text.AllDigits digits ∧ digits ≠ [] ∧ Text.Stops Text.isDigit rest
        ∧ text = digits ++ rest := by
  constructor
  · intro h
    rw [takeDigits] at h
    split at h
    · cases h
    · next given =>
      cases h
      refine ⟨List.all_eq_true.1 List.all_takeWhile, given, ?_,
        List.takeWhile_append_dropWhile.symm⟩
      have stops := List.head?_dropWhile_not Text.isDigit text
      intro char first
      rw [Option.mem_def] at first
      simpa [first] using stops
  · intro h
    obtain ⟨all, given, stops, rfl⟩ := h
    rw [takeDigits, Text.takeWhile_append_of_stops all stops,
      Text.dropWhile_append_of_stops all stops, if_neg given]

theorem exists_sign (text : List Char) :
    ∃ front, Sign (takeSign text).1 front ∧ text = front ++ (takeSign text).2 := by
  unfold takeSign
  split
  · exact ⟨_, .minus, rfl⟩
  · exact ⟨_, .plus, rfl⟩
  · exact ⟨_, .omitted, rfl⟩

theorem takeSign_append (h : Sign sign front) (all : Text.AllDigits digits) (given : digits ≠ []) :
    takeSign (front ++ (digits ++ rest)) = (sign, digits ++ rest) := by
  cases h with
  | plus | minus => rfl
  | omitted =>
    obtain ⟨first, others, rfl⟩ := List.exists_cons_of_ne_nil given
    have digit : Text.isDigit first = true := all first (List.mem_cons_self ..)
    rw [List.nil_append, List.cons_append]
    unfold takeSign
    split
    · next same =>
      obtain ⟨rfl, -⟩ := List.cons.inj same
      exact absurd digit (by decide)
    · next same =>
      obtain ⟨rfl, -⟩ := List.cons.inj same
      exact absurd digit (by decide)
    · rfl

theorem exists_fraction (h : takeFraction places text = some (part, rest)) :
    ∃ fraction, Fraction places part fraction ∧ text = fraction ++ rest := by
  unfold takeFraction at h
  split at h
  · cases h
    exact ⟨[], .omitted, rfl⟩
  · next mark others =>
    split at h
    · next known =>
      simp only [Option.bind_eq_bind, Option.bind_eq_some_iff, Prod.exists,
        takeDigits_eq_some] at h
      obtain ⟨digits, _, ⟨all, given, -, rfl⟩, made⟩ := h
      split at made
      · next few =>
        cases made
        exact ⟨_, .digits known all given few, rfl⟩
      · cases made
    · cases h
      exact ⟨[], .omitted, rfl⟩

/-- Whether the character is no capital letter. -/
def isLow (char : Char) : Bool := !char.isUpper

theorem isLow_of_isDigit {char : Char} (h : Text.isDigit char = true) : isLow char = true := by
  have range := Text.range_of_isDigit h
  rw [isLow, Bool.not_eq_true', ← Bool.not_eq_true]
  intro upper
  have least : 'A'.val ≤ char.val := (of_decide_eq_true upper).1
  have code : 65 ≤ char.toNat := UInt32.le_iff_toNat_le.1 least
  omega

/-- The text is empty or starts with a capital letter. -/
def Capital (text : List Char) : Prop := Text.Stops isLow text

theorem Measure.capital (unit : Measure) (rest : List Char) : Capital (unit.letter :: rest) := by
  rw [Capital, Text.stops_cons, isLow, unit.upper]
  rfl

theorem Capital.stops (h : Capital text) : Text.Stops Text.isDigit text := by
  intro char first
  rw [← Bool.not_eq_true]
  intro digit
  have high := h char first
  rw [isLow_of_isDigit digit] at high
  cases high

theorem takeFraction_append (h : Fraction places part front) (capital : Capital rest) :
    takeFraction places (front ++ rest) = some (part, rest) := by
  cases h with
  | omitted =>
    cases rest with
    | nil => rfl
    | cons mark others =>
      have high : isLow mark = false := Text.stops_cons.1 capital
      have plain : ¬(mark = '.' ∨ mark = ',') := by
        rintro (rfl | rfl) <;> exact absurd high (by decide)
      rw [List.nil_append, takeFraction, if_neg plain]
  | @digits mark digits known all given few =>
    have read : takeDigits (digits ++ rest) = some (digits, rest) :=
      takeDigits_eq_some.2 ⟨all, given, capital.stops, rfl⟩
    rw [List.cons_append, takeFraction, if_pos known, read]
    simp only [Option.bind_eq_bind, Option.bind_some, if_pos few]
    rfl

theorem Fraction.stops (h : Fraction places part front) (capital : Capital rest) :
    Text.Stops Text.isDigit (front ++ rest) := by
  cases h with
  | omitted => exact capital.stops
  | digits known _ _ _ => rcases known with rfl | rfl <;> exact Text.stops_cons.2 (by decide)

theorem takeAmount_eq_some :
    takeAmount unit text = some (amount, rest)
      ↔ ∃ front, Amount unit amount front ∧ text = front ++ rest := by
  constructor
  · intro h
    obtain ⟨front, signed, split⟩ := exists_sign text
    simp only [takeAmount, Option.bind_eq_bind, Option.bind_eq_some_iff, Prod.exists,
      takeDigits_eq_some, Date.expect_eq_some] at h
    obtain ⟨digits, _, ⟨all, given, -, behind⟩, part, _, read, _, rfl, made⟩ := h
    cases made
    obtain ⟨fraction, fractional, rfl⟩ := exists_fraction read
    refine ⟨_, .mk signed all given fractional, ?_⟩
    rw [split, behind]
    simp only [List.append_assoc, List.cons_append, List.nil_append]
  · intro h
    obtain ⟨_, ⟨signed, all, given, fractional⟩, rfl⟩ := h
    have capital := unit.capital rest
    have digits := takeDigits_eq_some.2 ⟨all, given, fractional.stops capital, rfl⟩
    simp only [List.append_assoc, List.cons_append, List.nil_append, takeAmount,
      takeSign_append signed all given, digits, takeFraction_append fractional capital,
      Option.bind_eq_bind, Option.bind_some, Date.expect, if_true]
    rfl

/-! ### Amounts are told apart

The first capital letter of an amount is its last character, so it says where the amount ends and of
which unit it is. -/

theorem Amount.exists_body (h : Amount unit amount text) :
    ∃ body, text = body ++ [unit.letter] ∧ body ≠ [] ∧ ∀ char ∈ body, isLow char = true := by
  obtain @⟨sign, part, front, digits, fraction, signed, all, given, fractional⟩ := h
  have low {digits : List Char} (all : Text.AllDigits digits) :
      ∀ char ∈ digits, isLow char = true :=
    fun char member => isLow_of_isDigit (all char member)
  refine ⟨front ++ (digits ++ fraction), ?_, ?_, ?_⟩
  · simp only [List.append_assoc]
  · simp [given]
  · rw [List.forall_mem_append, List.forall_mem_append]
    refine ⟨?_, low all, ?_⟩
    · cases signed with
      | omitted => exact List.forall_mem_nil _
      | plus | minus => exact List.forall_mem_singleton.2 rfl
    · cases fractional with
      | omitted => exact List.forall_mem_nil _
      | digits known all _ _ =>
        refine List.forall_mem_cons.2 ⟨?_, low all⟩
        rcases known with rfl | rfl <;> decide

theorem Amount.ne_nil (h : Amount unit amount text) : text ≠ [] := by
  obtain ⟨body, rfl, -⟩ := h.exists_body
  simp

/-- No amount starts with a capital letter. -/
theorem takeAmount_capital (capital : Capital text) : takeAmount unit text = none := by
  rw [Option.eq_none_iff_forall_ne_some]
  intro taken read
  obtain ⟨front, named, rfl⟩ := takeAmount_eq_some.1 read
  obtain ⟨body, rfl, given, low⟩ := named.exists_body
  obtain ⟨first, others, rfl⟩ := List.exists_cons_of_ne_nil given
  have high := capital first rfl
  rw [low first (List.mem_cons_self ..)] at high
  cases high

theorem takeAmount_other (h : Amount other amount front) (apart : unit.letter ≠ other.letter) :
    takeAmount unit (front ++ rest) = none := by
  rw [Option.eq_none_iff_forall_ne_some]
  intro taken read
  obtain ⟨text, named, same⟩ := takeAmount_eq_some.1 read
  obtain ⟨body, rfl, -, low⟩ := h.exists_body
  obtain ⟨body', rfl, -, low'⟩ := named.exists_body
  simp only [List.append_assoc, List.cons_append, List.nil_append] at same
  obtain ⟨-, letters⟩ :=
    Text.append_inj_of_stops low low' (other.capital _) (unit.capital _) same
  exact apart (List.cons.inj letters).1.symm

/-! ### Sums of amounts -/

theorem exists_amounts (h : takeAmounts units text = (total, rest)) :
    ∃ front, Amounts units total front ∧ text = front ++ rest := by
  induction units generalizing text total with
  | nil =>
    cases h
    exact ⟨[], .nil, rfl⟩
  | cons unit units ih =>
    rw [takeAmounts] at h
    split at h
    · next amount others read =>
      obtain ⟨front, named, rfl⟩ := takeAmount_eq_some.1 read
      generalize others_eq : takeAmounts units others = taken at h
      obtain ⟨sum, left⟩ := taken
      cases h
      obtain ⟨text, amounts, rfl⟩ := ih others_eq
      exact ⟨front ++ text, .cons named amounts, (List.append_assoc ..).symm⟩
    · obtain ⟨front, amounts, split⟩ := ih h
      exact ⟨front, .skip amounts, split⟩

theorem Amounts.takeAmount_append (h : Amounts units total text)
    (apart : ∀ other ∈ units, unit.letter ≠ other.letter) (absent : takeAmount unit rest = none) :
    takeAmount unit (text ++ rest) = none := by
  induction h with
  | nil => exact absent
  | skip _ ih => exact ih (List.forall_mem_cons.1 apart).2
  | cons first _ _ =>
    rw [List.append_assoc]
    exact takeAmount_other first (List.forall_mem_cons.1 apart).1

/-- Amounts of different units are read up to where none of them follows. -/
theorem Amounts.takeAmounts_append (h : Amounts units total text)
    (apart : units.Pairwise fun unit other => unit.letter ≠ other.letter)
    (absent : ∀ unit ∈ units, takeAmount unit rest = none) :
    takeAmounts units (text ++ rest) = (total, rest) := by
  induction h with
  | nil => rfl
  | @skip unit units total text amounts ih =>
    obtain ⟨others, apart⟩ := List.pairwise_cons.1 apart
    obtain ⟨first, absent⟩ := List.forall_mem_cons.1 absent
    rw [takeAmounts, amounts.takeAmount_append others first]
    exact ih apart absent
  | @cons unit units amount total front text named amounts ih =>
    have read : takeAmount unit (front ++ (text ++ rest)) = some (amount, text ++ rest) :=
      takeAmount_eq_some.2 ⟨front, named, rfl⟩
    obtain ⟨-, apart⟩ := List.pairwise_cons.1 apart
    obtain ⟨-, absent⟩ := List.forall_mem_cons.1 absent
    rw [List.append_assoc, takeAmounts, read]
    simp only [ih apart absent]

theorem Amounts.eq_zero (h : Amounts units total []) : total = 0 := by
  generalize empty : ([] : List Char) = text at h
  induction h with
  | nil => rfl
  | skip _ ih => exact ih empty
  | cons named _ _ => exact absurd (List.append_eq_nil_iff.1 empty.symm).1 named.ne_nil

end

/-! ### Durations -/

def year : Measure := ⟨'Y', 12, 0, rfl⟩
def month : Measure := ⟨'M', 1, 0, rfl⟩
def week : Measure := ⟨'W', 7, 0, rfl⟩
def day : Measure := ⟨'D', 1, 0, rfl⟩
def hour : Measure := ⟨'H', 3600000000, 0, rfl⟩
def minute : Measure := ⟨'M', 60000000, 0, rfl⟩
def second : Measure := ⟨'S', 1000000, 6, rfl⟩

/-- The texts of durations, and what they mean. -/
inductive Duration : Interval → List Char → Prop
  | date {monthCount dayCount : Int} {months days : List Char} :
    Amounts [year, month] monthCount months → Amounts [week, day] dayCount days →
    months ++ days ≠ [] → Duration ⟨monthCount, dayCount, 0⟩ ('P' :: (months ++ days))
  | clock {monthCount dayCount micros : Int} {months days time : List Char} :
    Amounts [year, month] monthCount months → Amounts [week, day] dayCount days →
    Amounts [hour, minute, second] micros time → time ≠ [] →
    Duration ⟨monthCount, dayCount, micros⟩ ('P' :: (months ++ (days ++ 'T' :: time)))

def read? : List Char → Option Interval
  | 'P' :: text =>
    let (months, rest) := takeAmounts [year, month] text
    let (days, rest) := takeAmounts [week, day] rest
    match rest with
    | [] => if text = [] then none else some ⟨months, days, 0⟩
    | 'T' :: time =>
      let (micros, rest) := takeAmounts [hour, minute, second] time
      if time ≠ [] ∧ rest = [] then some ⟨months, days, micros⟩ else none
    | _ => none
  | _ => none

theorem takeAmounts_date {months days rest : List Char} {monthCount dayCount : Int}
    (first : Amounts [year, month] monthCount months) (second : Amounts [week, day] dayCount days)
    (capital : Capital rest) :
    takeAmounts [year, month] (months ++ (days ++ rest)) = (monthCount, days ++ rest)
      ∧ takeAmounts [week, day] (days ++ rest) = (dayCount, rest) := by
  constructor
  · refine first.takeAmounts_append (by decide) fun unit member => ?_
    refine second.takeAmount_append ?_ (takeAmount_capital capital)
    revert unit
    decide
  · exact second.takeAmounts_append (by decide) fun unit _ => takeAmount_capital capital

theorem read?_eq_some {text : List Char} {interval : Interval} :
    read? text = some interval ↔ Duration interval text := by
  constructor
  · intro h
    unfold read? at h
    split at h
    · next text =>
      split at h
      next monthCount others months =>
      split at h
      next dayCount behind days =>
      obtain ⟨months, first, rfl⟩ := exists_amounts months
      obtain ⟨days, second, rfl⟩ := exists_amounts days
      split at h
      · split at h
        · cases h
        · next given =>
          cases h
          rw [List.append_nil] at given ⊢
          exact .date first second given
      · next time =>
        split at h
        next micros left clock =>
        obtain ⟨clock, third, rfl⟩ := exists_amounts clock
        split at h
        · next given =>
          obtain ⟨given, rfl⟩ := given
          cases h
          rw [List.append_nil] at given ⊢
          exact .clock first second third given
        · cases h
      · cases h
    · cases h
  · intro h
    cases h with
    | date first second given =>
      obtain ⟨months, days⟩ := takeAmounts_date first second Text.stops_nil
      rw [List.append_nil] at months days
      simp only [read?, months, days, if_neg given]
    | @clock _ _ _ _ _ time first second third given =>
      have capital : Capital ('T' :: time) := Text.stops_cons.2 (by decide)
      obtain ⟨months, days⟩ := takeAmounts_date first second capital
      have clock : takeAmounts [hour, minute, Interval.second] (time ++ []) = (_, []) :=
        third.takeAmounts_append (by decide) fun _ _ => takeAmount_capital Text.stops_nil
      rw [List.append_nil] at clock
      simp [read?, months, days, clock, given]

/-! ### The text of an interval -/

/-- A hyphen stands in front of the magnitude of a negative number. -/
theorem exists_sign_natAbs (number : Int) :
    ∃ sign, Sign sign (if number < 0 then ['-'] else []) ∧ sign * number.natAbs = number := by
  split
  · exact ⟨_, .minus, by omega⟩
  · exact ⟨_, .omitted, by omega⟩

theorem amount_signedDecimal (unit : Measure) (number : Int) :
    Amount unit (number * unit.size) (Text.signedDecimal number ++ [unit.letter]) := by
  obtain ⟨sign, signed, value⟩ := exists_sign_natAbs number
  have amount : Amount unit _ _ :=
    .mk signed (Text.allDigits_decimal number.natAbs) Nat.toDigits_ne_nil .omitted
  have size : sign * (number.natAbs * unit.size + 0 : Nat) = number * unit.size := by
    rw [Nat.add_zero, Int.natCast_mul, ← Int.mul_assoc, value]
  have written : Text.signedDecimal number
      = (if number < 0 then ['-'] else []) ++ Text.decimal number.natAbs := by
    rw [Text.signedDecimal]
    split <;> rfl
  rw [Text.ofDigitChars_decimal, size] at amount
  rw [written, List.append_assoc]
  exact amount

/-- A part that is left out when it is zero. -/
theorem Amounts.part {unit : Measure} {units : List Measure} {total : Int} {text : List Char}
    (number : Int) (h : Amounts units total text) :
    Amounts (unit :: units) (number * unit.size + total) (part number unit.letter ++ text) := by
  rw [Interval.part]
  split
  · next zero =>
    rw [zero, Int.zero_mul, Int.zero_add]
    exact .skip h
  · exact .cons (amount_signedDecimal unit number) h

theorem fraction_chars {micros : Nat} (h : micros < 1000000) :
    Fraction second.places micros (Timestamp.fractionChars micros) := by
  rw [Timestamp.fractionChars]
  split
  · next whole =>
    rw [whole]
    exact .omitted
  · next given =>
    have all : Text.AllDigits (DayTime.fractionDigits micros) := Text.allDigits_padded 6 micros
    have six := DayTime.length_fractionDigits h
    have value := DayTime.ofDigitChars_withoutZeros (DayTime.fractionDigits micros)
    have length := DayTime.length_withoutZeros_le (DayTime.fractionDigits micros)
    rw [six] at value length
    have fraction := Fraction.digits (.inl rfl) (DayTime.allDigits_withoutZeros all)
      (DayTime.withoutZeros_ne_nil given) length
    rw [value, DayTime.fractionDigits, Text.ofDigitChars_padded] at fraction
    exact fraction

theorem amount_seconds {micros : Int} (h : micros ≠ 0) :
    Amount second micros (seconds micros) := by
  obtain ⟨sign, signed, value⟩ := exists_sign_natAbs micros
  have amount : Amount second _ _ :=
    .mk signed (Text.allDigits_decimal (micros.natAbs / 1000000)) Nat.toDigits_ne_nil
      (fraction_chars (Nat.mod_lt micros.natAbs (by decide)))
  have parts : micros.natAbs / 1000000 * second.size + micros.natAbs % 1000000 = micros.natAbs :=
    Nat.div_add_mod' ..
  have written : seconds micros = (if micros < 0 then ['-'] else [])
      ++ (Text.decimal (micros.natAbs / 1000000)
        ++ (Timestamp.fractionChars (micros.natAbs % 1000000) ++ [second.letter])) := by
    simp only [seconds, if_neg h, List.append_assoc]
    rfl
  rw [Text.ofDigitChars_decimal, parts, value] at amount
  rw [written]
  exact amount

theorem amounts_seconds (micros : Int) : Amounts [second] micros (seconds micros) := by
  by_cases zero : micros = 0
  · subst zero
    exact .skip .nil
  · have sum := Amounts.cons (amount_seconds zero) .nil
    rw [Int.add_zero, List.append_nil] at sum
    exact sum

theorem amounts_months (count : Int) :
    Amounts [year, month] count (part (count.tdiv 12) 'Y' ++ part (count.tmod 12) 'M') := by
  have sum : Amounts [year, month] _ _ := .part (count.tdiv 12) (.part (count.tmod 12) .nil)
  have parts : count.tdiv 12 * year.size + (count.tmod 12 * month.size + 0) = count := by
    show count.tdiv 12 * 12 + (count.tmod 12 * 1 + 0) = count
    rw [Int.mul_one, Int.add_zero, Int.tdiv_mul_add_tmod]
  rw [parts, List.append_nil] at sum
  exact sum

theorem amounts_days (count : Int) : Amounts [week, day] count (part count 'D') := by
  have sum : Amounts [day] _ _ := .part count .nil
  rw [show count * day.size + 0 = count by simp [day], List.append_nil] at sum
  exact .skip sum

theorem amounts_time (interval : Interval) :
    Amounts [hour, minute, second] interval.micros interval.timeChars := by
  have sum : Amounts [hour, minute, second] _ _ :=
    .part (interval.micros.tdiv 3600000000)
      (.part ((interval.micros.tmod 3600000000).tdiv 60000000)
        (amounts_seconds (interval.micros.tmod 60000000)))
  have rest : interval.micros.tmod 60000000
      = (interval.micros.tmod 3600000000).tmod 60000000 :=
    (Int.tmod_tmod_of_dvd _ (by decide)).symm
  have parts : interval.micros.tdiv 3600000000 * hour.size
      + ((interval.micros.tmod 3600000000).tdiv 60000000 * minute.size
        + interval.micros.tmod 60000000) = interval.micros := by
    show interval.micros.tdiv 3600000000 * 3600000000
      + ((interval.micros.tmod 3600000000).tdiv 60000000 * 60000000 + _) = _
    rw [rest, Int.tdiv_mul_add_tmod, Int.tdiv_mul_add_tmod]
  rw [parts, ← List.append_assoc] at sum
  exact sum

/-- No part is written for nothing, and one is written when there would be none. -/
theorem Duration.ofParts {monthCount dayCount micros : Int} {months days time : List Char}
    (first : Amounts [year, month] monthCount months) (second : Amounts [week, day] dayCount days)
    (third : Amounts [hour, minute, Interval.second] micros time) :
    Duration ⟨monthCount, dayCount, micros⟩
      (if (months ++ days).isEmpty ∧ time.isEmpty then ['P', 'T', '0', 'S']
      else 'P' :: (months ++ days ++ if time.isEmpty then [] else 'T' :: time)) := by
  simp only [List.isEmpty_iff]
  by_cases noTime : time = []
  · subst noTime
    obtain rfl := third.eq_zero
    by_cases noDate : months ++ days = []
    · obtain ⟨rfl, rfl⟩ := List.append_eq_nil_iff.1 noDate
      obtain rfl := first.eq_zero
      obtain rfl := second.eq_zero
      have zero : Amounts [hour, minute, Interval.second] 0 ['0', 'S'] :=
        .skip (.skip (.cons (amount_signedDecimal Interval.second 0) .nil))
      exact .clock first second zero (by decide)
    · rw [if_neg fun nothing => noDate nothing.1, if_pos rfl, List.append_nil]
      exact .date first second noDate
  · rw [if_neg fun nothing => noTime nothing.2, if_neg noTime, List.append_assoc]
    exact .clock first second third noTime

/-- The text of an interval is a duration of the interval. -/
theorem duration_chars (interval : Interval) : Duration interval interval.chars :=
  Duration.ofParts (amounts_months interval.months) (amounts_days interval.days)
    (amounts_time interval)

/-- An ISO 8601 duration is read as what it means and nothing else is read. The text of every
interval is read back as that interval, so different intervals have different texts. -/
theorem chars_read_back :
    (∀ text interval, read? text = some interval ↔ Duration interval text)
      ∧ (∀ interval : Interval, read? interval.chars = some interval)
      ∧ Function.Injective chars := by
  have back : ∀ interval : Interval, read? interval.chars = some interval :=
    fun interval => read?_eq_some.2 interval.duration_chars
  refine ⟨fun text interval => read?_eq_some, back, fun interval other same => ?_⟩
  have read := back interval
  rw [same, back other] at read
  exact (Option.some.inj read).symm

example : read? "P1Y2M3DT4H5M6.5S".toList = some ⟨14, 3, 14706500000⟩ := by decide

end ScopedQuery.Interval
