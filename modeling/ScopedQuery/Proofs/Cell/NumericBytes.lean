import Mathlib.Data.List.Induction
import ScopedQuery.Cell.Numeric
import ScopedQuery.Proofs.Text.Bytes
/-!
# The binary form of decimal numbers

A decimal number is sent as words of two bytes: how many digits there are, the weight, the sign, the
scale, and the digits. `read?_eq` says what is read of any bytes, word by word, and when nothing is;
`read?_bytes` that a number is read from the words it is sent as.
-/

namespace ScopedQuery

theorem Bytes.toNat_lt (bytes : Bytes) : toNat bytes < 256 ^ bytes.length := by
  induction bytes using List.reverseRecOn with
  | nil => decide
  | append_singleton bytes byte ih =>
    have small := byte.toNat_lt
    rw [toNat_concat, List.length_append, List.length_singleton, Nat.pow_succ]
    omega

/-- A number of `count` bytes that is read with a sign. -/
theorem Bytes.toInt_range (bytes : Bytes) :
    -(256 ^ bytes.length : Nat) ≤ 2 * toInt bytes
      ∧ 2 * toInt bytes < (256 ^ bytes.length : Nat) := by
  have small := toNat_lt bytes
  unfold toInt
  simp only [Nat.pow_eq]
  split <;> omega

namespace Numeric

variable {numeric : Numeric}

/-! ### Words -/

/-- The signed word at a place. -/
def wordAt (place : Nat) (bytes : Bytes) : Int := Bytes.toInt ((bytes.drop (2 * place)).take 2)

theorem wordAt_succ (place : Nat) (bytes : Bytes) :
    wordAt (place + 1) bytes = wordAt place (bytes.drop 2) := by
  rw [wordAt, wordAt, List.drop_drop, Nat.mul_succ, Nat.add_comm]

theorem wordAt_range (place : Nat) (bytes : Bytes) :
    -32768 ≤ wordAt place bytes ∧ wordAt place bytes ≤ 32767 := by
  obtain ⟨least, most⟩ := Bytes.toInt_range ((bytes.drop (2 * place)).take 2)
  have short : ((bytes.drop (2 * place)).take 2).length ≤ 2 := List.length_take_le ..
  have power : 256 ^ ((bytes.drop (2 * place)).take 2).length ≤ 256 ^ 2 :=
    Nat.pow_le_pow_right (by decide) short
  rw [wordAt]
  omega

theorem readWord_eq (bytes : Bytes) :
    readWord bytes = if 2 ≤ bytes.length then some (wordAt 0 bytes, bytes.drop 2) else none := by
  match bytes with
  | [] | [_] => rfl
  | high :: low :: rest => simp [readWord, wordAt]

theorem readWords_eq (count : Nat) (bytes : Bytes) :
    readWords count bytes
      = if 2 * count ≤ bytes.length then
          some ((List.range count).map (wordAt · bytes), bytes.drop (2 * count))
        else none := by
  induction count generalizing bytes with
  | zero => simp [readWords]
  | succ count ih =>
    rw [readWords, readWord_eq]
    by_cases first : 2 ≤ bytes.length
    · rw [if_pos first, Option.bind_eq_bind, Option.bind_some]
      dsimp only
      rw [ih, List.length_drop]
      by_cases others : 2 * count ≤ bytes.length - 2
      · rw [if_pos others, if_pos (by omega), List.range_succ_eq_map, List.map_cons, List.map_map,
          List.drop_drop, Nat.mul_succ, Nat.add_comm 2]
        simp only [Function.comp_def, Nat.succ_eq_add_one, wordAt_succ]
        rfl
      · rw [if_neg others, if_neg (by omega)]
        rfl
    · rw [if_neg first, if_neg (by omega)]
      rfl

theorem readHeader_eq (bytes : Bytes) :
    readHeader bytes
      = if 8 ≤ bytes.length then
          some (⟨(wordAt 0 bytes % 65536).toNat, wordAt 1 bytes, (wordAt 2 bytes % 65536).toNat,
            wordAt 3 bytes⟩, bytes.drop 8)
        else none := by
  match bytes with
  | [] | [_] | [_, _] | [_, _, _] | [_, _, _, _] | [_, _, _, _, _] | [_, _, _, _, _, _]
  | [_, _, _, _, _, _, _] => rfl
  | _ :: _ :: _ :: _ :: _ :: _ :: _ :: _ :: rest => simp [readHeader, readWord, wordAt]

/-! ### Numbers -/

/-- The bytes end before the header or before the digits that it announces, or a count has its sign
bit set. -/
def Refuses (bytes : Bytes) : Prop :=
  bytes.length < 8 ∨ wordAt 0 bytes < 0 ∨ wordAt 3 bytes < 0
    ∨ (bytes.length : Int) < 8 + 2 * wordAt 0 bytes

instance (bytes : Bytes) : Decidable (Refuses bytes) := inferInstanceAs (Decidable (_ ∨ _))

/-- The number of a header and the words behind it. -/
def ofWords (bytes : Bytes) : Numeric where
  weight := wordAt 1 bytes
  sign := (wordAt 2 bytes % 65536).toNat
  scale := (wordAt 3 bytes).toNat
  digits := (List.range (wordAt 0 bytes).toNat).map (wordAt · (bytes.drop 8))

theorem read?_eq (bytes : Bytes) :
    read? bytes = if Refuses bytes then none else some (ofWords bytes) := by
  obtain ⟨least, most⟩ := wordAt_range 0 bytes
  rw [read?, readHeader_eq]
  by_cases header : 8 ≤ bytes.length
  · rw [if_pos header, Option.bind_eq_bind, Option.bind_some]
    dsimp only
    by_cases signs : wordAt 0 bytes < 0 ∨ wordAt 3 bytes < 0
    · have refuses : Refuses bytes := by
        unfold Refuses
        omega
      rw [if_pos (by omega), if_pos refuses]
    · have count : (wordAt 0 bytes % 65536).toNat = (wordAt 0 bytes).toNat := by omega
      rw [if_neg (by omega), count, readWords_eq, List.length_drop]
      by_cases digits : 2 * (wordAt 0 bytes).toNat ≤ bytes.length - 8
      · have reads : ¬Refuses bytes := by
          unfold Refuses
          omega
        rw [if_pos digits, if_neg reads]
        rfl
      · have refuses : Refuses bytes := by
          unfold Refuses
          omega
        rw [if_neg digits, if_pos refuses]
        rfl
  · rw [if_neg header, if_pos (.inl (by omega))]
    rfl

/-! ### What is sent -/

/-- The words that a number is sent as. -/
def bytes (numeric : Numeric) : Bytes :=
  Bytes.ofInt 2 numeric.digits.length ++ (Bytes.ofInt 2 numeric.weight
    ++ (Bytes.ofNat 2 numeric.sign ++ (Bytes.ofInt 2 numeric.scale
      ++ numeric.digits.flatMap (Bytes.ofInt 2))))

/-- The digits are digits to the base 10000. -/
def InBase (numeric : Numeric) : Prop := ∀ digit ∈ numeric.digits, 0 ≤ digit ∧ digit < 10000

instance (numeric : Numeric) : Decidable numeric.InBase :=
  inferInstanceAs (Decidable (∀ digit ∈ numeric.digits, _))

/-- Finite, with digits to the base 10000 and with all counts in a signed word. -/
structure Sendable (numeric : Numeric) : Prop where
  sign : numeric.sign = positive ∨ numeric.sign = negative
  digits : numeric.InBase
  count : numeric.digits.length < 32768
  weight : -32768 ≤ numeric.weight ∧ numeric.weight < 32768
  scale : numeric.scale < 32768

theorem readWord_of_length {word : Bytes} (h : word.length = 2) (rest : Bytes) :
    readWord (word ++ rest) = some (Bytes.toInt word, rest) := by
  match word, h with
  | [high, low], _ => rfl

theorem readWord_ofInt {word : Int} (least : -32768 ≤ word) (most : word < 32768) (rest : Bytes) :
    readWord (Bytes.ofInt 2 word ++ rest) = some (word, rest) := by
  rw [readWord_of_length (Bytes.length_ofInt 2 word), Bytes.toInt_ofInt] <;> omega

theorem readWords_flatMap {words : List Int}
    (range : ∀ word ∈ words, -32768 ≤ word ∧ word < 32768) :
    readWords words.length (words.flatMap (Bytes.ofInt 2)) = some (words, []) := by
  induction words with
  | nil => rfl
  | cons word words ih =>
    obtain ⟨⟨least, most⟩, others⟩ := List.forall_mem_cons.1 range
    rw [List.length_cons, List.flatMap_cons, readWords, readWord_ofInt least most,
      Option.bind_eq_bind, Option.bind_some]
    dsimp only
    rw [ih others]
    rfl

theorem toInt_ofNat_emod {word : Nat} (h : word < 65536) :
    (Bytes.toInt (Bytes.ofNat 2 word) % 65536).toNat = word := by
  have length := Bytes.length_ofNat 2 word
  have value : Bytes.toNat (Bytes.ofNat 2 word) = word := Bytes.toNat_ofNat_of_lt h
  rw [Bytes.toInt, value, length]
  simp only [Nat.pow_eq]
  split <;> omega

theorem Sendable.readHeader_bytes (h : numeric.Sendable) :
    readHeader numeric.bytes
      = some (⟨numeric.digits.length, numeric.weight, numeric.sign, numeric.scale⟩,
        numeric.digits.flatMap (Bytes.ofInt 2)) := by
  obtain ⟨sign, digits, count, ⟨least, most⟩, scale⟩ := h
  have small : numeric.sign < 65536 := by
    rcases sign with same | same <;> rw [same] <;> decide
  rw [readHeader, bytes, readWord_ofInt (by omega) (by omega)]
  simp only [Option.bind_eq_bind, Option.bind_some]
  rw [readWord_ofInt least most]
  simp only [Option.bind_some]
  rw [readWord_of_length (Bytes.length_ofNat 2 _)]
  simp only [Option.bind_some]
  rw [readWord_ofInt (by omega) (by omega)]
  simp only [Option.bind_some, toInt_ofNat_emod small]
  have length : ((numeric.digits.length : Int) % 65536).toNat = numeric.digits.length := by omega
  rw [length]
  rfl

theorem Sendable.readWords_digits (h : numeric.Sendable) :
    readWords numeric.digits.length (numeric.digits.flatMap (Bytes.ofInt 2))
      = some (numeric.digits, []) := by
  refine readWords_flatMap fun digit member => ?_
  have range := h.digits digit member
  omega

theorem Sendable.read?_bytes (h : numeric.Sendable) : read? numeric.bytes = some numeric := by
  have count := h.count
  rw [read?, h.readHeader_bytes, Option.bind_eq_bind, Option.bind_some]
  dsimp only
  rw [if_neg (by omega), h.readWords_digits]
  rfl

end Numeric

end ScopedQuery
