import ScopedQuery.Proofs.Calendar.Texts
import ScopedQuery.Proofs.Json.WellFormed
import ScopedQuery.Proofs.Uuid
/-!
# Values and their wording

A caller sends a text, a truth value or a whole number as JSON, and a user types it. Either way a
column takes it for the same value or refuses it (`ofJson?_eq_ofText?`), except that a truth value
may be typed as a number but not sent as one. Whole numbers that are typed for a column of another
kind are refused because they are too short for a UUID and have no hyphen where a date has its
first.
-/

namespace ScopedQuery

variable {text rest : List Char}

/-! ### Timestamps -/

namespace Date

variable {date : Date}

theorem Plain.hyphen_mem (h : date.Plain) : '-' ∈ date.chars := by
  rw [h.chars_eq, monthDayChars]
  simp

/-- A sign is no hyphen between year and month. -/
theorem Signed.hyphen_mem_tail (h : date.Signed text) : '-' ∈ (text ++ rest).tail := by
  cases h with
  | plain plain =>
    have member := plain.hyphen_mem
    obtain ⟨first, others, split, digit⟩ := plain.exists_digit
    rw [split, List.mem_cons] at member
    rcases member with rfl | member
    · exact absurd digit (by decide)
    · rw [split]
      exact List.mem_append_left _ member
  | plus plain => exact List.mem_append_left _ plain.hyphen_mem
  | minus _ _ _ =>
    rw [monthDayChars]
    simp

end Date

namespace Timestamp

theorem hyphen_mem_tail {instant : Timestamp} (trimmed : Text.trim text = text)
    (h : read? text = some instant) : '-' ∈ text.tail := by
  rcases (read?_iff trimmed).1 h with spelled | ⟨-, date, rest, plain, rfl, -⟩
  · cases spelled with
    | zoned plain _ _ _ _ | leapSecond plain _ _ _ _ _ _ =>
      exact (Date.Signed.plain plain).hyphen_mem_tail
    | zoneless signed _ _ _ _ => exact signed.hyphen_mem_tail
    | date plain =>
      rw [← List.append_nil (Date.chars _)]
      exact (Date.Signed.plain plain).hyphen_mem_tail
  · exact (Date.Signed.plain plain).hyphen_mem_tail

end Timestamp

/-! ### Whole numbers -/

namespace Text

variable {number : Int}

theorem noBlanks_signedDecimal (number : Int) : NoBlanks (signedDecimal number) := by
  have digits := (allDigits_decimal number.natAbs).noBlanks
  rw [signedDecimal]
  split
  · exact digits.cons (by decide)
  · exact digits

theorem hyphen_not_mem_tail (number : Int) : '-' ∉ (signedDecimal number).tail := by
  have digits : '-' ∉ decimal number.natAbs := fun member =>
    absurd (allDigits_decimal _ _ member) (by decide)
  rw [signedDecimal]
  split
  · exact digits
  · exact fun member => digits (List.mem_of_mem_tail member)

theorem length_signedDecimal_le (h : number.natAbs < 10 ^ 20) :
    (signedDecimal number).length ≤ 21 := by
  have digits := length_decimal_le h (by decide)
  rw [signedDecimal]
  split
  · exact Nat.succ_le_succ digits
  · exact Nat.le_succ_of_le digits

end Text

/-! ### UUIDs -/

namespace Uuid

theorem readHyphenated_of_short (h : text.length < 32) : readHyphenated text = none := by
  rw [readHyphenated, if_neg]
  omega

/-- Nothing shorter than the digits of a UUID is one. -/
theorem read?_of_short (h : text.length < 32) : read? text = none := by
  have plain : readDigits text = none := by
    rw [readDigits, if_neg]
    omega
  have braces : inBraces text >>= readHyphenated = none := by
    rw [Option.bind_eq_bind, Option.bind_eq_none_iff]
    intro inner found
    apply readHyphenated_of_short
    unfold inBraces at found
    split at found
    · split at found
      · cases found
        rw [List.length_cons] at h
        rw [List.length_dropLast]
        omega
      · cases found
    · cases found
  have urn : afterUrn text >>= readHyphenated = none := by
    rw [Option.bind_eq_bind, Option.bind_eq_none_iff]
    intro inner found
    apply readHyphenated_of_short
    simp only [afterUrn] at found
    split at found
    · cases found
      rw [List.length_drop]
      omega
    · cases found
  rw [read?, plain, readHyphenated_of_short h, braces, urn]
  rfl

end Uuid

/-! ### Kinds -/

namespace Kind

/-- The text that stands for a text, a truth value or a whole number. -/
inductive Worded : Json → String → Prop
  | text (text : String) : Worded (.string text) text
  | truth (value : Bool) : Worded (.bool value) (if value then "true" else "false")
  | number {value : Int} : (Json.Number.integer value).WellFormed →
    Worded (.int value) (Text.signedDecimalText value)

variable {kind : Kind} {json : Json} {value : Int}

theorem trim_signedDecimalText (value : Int) :
    Text.trim (Text.signedDecimalText value).toList = Text.signedDecimal value := by
  rw [Text.signedDecimalText, String.toList_ofList,
    Text.trim_eq_self (Text.noBlanks_signedDecimal value)]

theorem integer_ofText? (value : Int) :
    integer.ofText? (Text.signedDecimalText value)
      = if Text.isWord value then some (.int value) else none := by
  simp only [ofText?, trim_signedDecimalText, Text.readSigned_signedDecimal, Text.isWord,
    Bool.and_eq_true, decide_eq_true_eq]
  split <;> rfl

theorem integer_ofJson? (value : Int) :
    integer.ofJson? (.int value) = if Text.isWord value then some (.int value) else none := by
  show (Json.Number.word? (.integer value)).map Value.int = _
  rw [Json.Number.word?]
  split <;> rfl

theorem timestamp_ofText? (value : Int) :
    timestamp.ofText? (Text.signedDecimalText value) = none := by
  have read : Timestamp.read? (Text.signedDecimal value) = none := by
    rw [Option.eq_none_iff_forall_ne_some]
    intro instant read
    have trimmed := Text.trim_eq_self (Text.noBlanks_signedDecimal value)
    exact Text.hyphen_not_mem_tail value (Timestamp.hyphen_mem_tail trimmed read)
  simp only [ofText?, trim_signedDecimalText, read]
  rfl

theorem uuid_ofText? (small : value.natAbs < 10 ^ 20) :
    uuid.ofText? (Text.signedDecimalText value) = none := by
  have read : Uuid.read? (Text.signedDecimal value) = none :=
    Uuid.read?_of_short (Nat.lt_of_le_of_lt (Text.length_signedDecimal_le small) (by decide))
  simp only [ofText?, trim_signedDecimalText, read]
  rfl

theorem ofJson?_number (unstructured : kind ≠ .json) (exact : kind ≠ .numeric)
    (logical : kind ≠ .boolean) (wellFormed : (Json.Number.integer value).WellFormed) :
    kind.ofJson? (.int value) = kind.ofText? (Text.signedDecimalText value) := by
  cases kind with
  | text => rfl
  | integer => rw [integer_ofJson?, integer_ofText?]
  | timestamp =>
    rw [timestamp_ofText?]
    rfl
  | uuid =>
    cases wellFormed with
    | integer least most =>
      simp only [Text.maxWord, Text.maxCount] at least most
      rw [uuid_ofText? (by omega)]
      rfl
  | numeric | boolean | json => contradiction

theorem ofJson?_truth (unstructured : kind ≠ .json) (exact : kind ≠ .numeric) (value : Bool) :
    kind.ofJson? (.bool value) = kind.ofText? (if value then "true" else "false") := by
  cases kind with
  | text => rfl
  | integer | boolean | timestamp | uuid => cases value <;> rfl
  | numeric | json => contradiction

/-- What is sent as a text, a truth value or a whole number is taken for the value that its text is
taken for, and refused when the text is. The one exception is a column of truth values, which takes
some texts of numbers but no number. A column of whole numbers takes those of a signed word, each
for itself. -/
theorem ofJson?_eq_ofText? {text : String} (unstructured : kind ≠ .json) (exact : kind ≠ .numeric)
    (worded : Worded json text) :
    (¬(kind = .boolean ∧ ∃ number, json = .number number) → kind.ofJson? json = kind.ofText? text)
      ∧ (∀ number, boolean.ofJson? (.number number) = none)
      ∧ ∀ value : Int, integer.ofJson? (.int value)
        = if -(2 ^ 63) ≤ value ∧ value < 2 ^ 63 then some (.int value) else none := by
  refine ⟨fun taken => ?_, fun number => rfl, fun value => ?_⟩
  · cases worded with
    | text text =>
      cases kind with
      | text | integer | boolean | timestamp | uuid => rfl
      | numeric | json => contradiction
    | truth value => exact ofJson?_truth unstructured exact value
    | number wellFormed =>
      exact ofJson?_number unstructured exact (fun logical => taken ⟨logical, _, rfl⟩) wellFormed
  · have range : Text.isWord value = true ↔ -(2 ^ 63) ≤ value ∧ value < 2 ^ 63 := by
      rw [Text.isWord, Bool.and_eq_true, decide_eq_true_iff, decide_eq_true_iff, Text.maxWord]
      omega
    simp only [integer_ofJson?, range]

/-- A whole number beyond the signed words, which only a column of texts takes. -/
theorem ofJson?_eq_ofText?_of_large :
    let number : Json := .int (2 ^ 63)
    Kind.text.ofJson? number = Kind.text.ofText? "9223372036854775808"
      ∧ Kind.integer.ofJson? number = Kind.integer.ofText? "9223372036854775808"
      ∧ Kind.uuid.ofJson? number = Kind.uuid.ofText? "9223372036854775808"
      ∧ Kind.integer.ofJson? number = none := by
  intro number
  have worded : Worded number "9223372036854775808" :=
    .number (.integer (by decide) (by decide))
  have numeral {kind : Kind} (logical : kind ≠ .boolean) :
      ¬(kind = .boolean ∧ ∃ value, number = .number value) := fun both => logical both.1
  refine ⟨?_, ?_, ?_, ?_⟩
  · exact (ofJson?_eq_ofText? (by decide) (by decide) worded).1 (numeral (by decide))
  · exact (ofJson?_eq_ofText? (by decide) (by decide) worded).1 (numeral (by decide))
  · exact (ofJson?_eq_ofText? (by decide) (by decide) worded).1 (numeral (by decide))
  · have text : Kind.text ≠ .json ∧ Kind.text ≠ .numeric := by decide
    rw [(ofJson?_eq_ofText? text.1 text.2 worded).2.2]
    rfl

end Kind

end ScopedQuery
