import Mathlib.Tactic.SplitIfs
import ScopedQuery.Text.Letter
/-!
# Reading UTF-8

The bytes that write characters are read back as these characters, whatever bytes follow.
-/

namespace ScopedQuery.Bytes

variable {first byte low high : UInt8} {code count length index left : Nat} {rest : Bytes}

/-! ### First bytes and the bytes that follow -/

theorem followers_one (h : first.toNat < 0x80) : followers first = some (0, 0x80, 0xBF) := by
  rw [followers, if_pos (UInt8.lt_iff_toNat_lt.2 h)]

theorem followers_two (least : 0xC2 ≤ first.toNat) (most : first.toNat < 0xE0) :
    followers first = some (1, 0x80, 0xBF) := by
  simp only [followers, UInt8.lt_iff_toNat_lt]
  grind

theorem followers_three (least : 0xE0 ≤ first.toNat) (most : first.toNat < 0xF0) :
    followers first = some (2, if first.toNat = 0xE0 then 0xA0 else 0x80,
      if first.toNat = 0xED then 0x9F else 0xBF) := by
  simp only [followers, UInt8.lt_iff_toNat_lt, ← UInt8.toNat_inj]
  grind

theorem followers_four (least : 0xF0 ≤ first.toNat) (most : first.toNat ≤ 0xF4) :
    followers first = some (3, if first.toNat = 0xF0 then 0x90 else 0x80,
      if first.toNat = 0xF4 then 0x8F else 0xBF) := by
  simp only [followers, UInt8.lt_iff_toNat_lt, ← UInt8.toNat_inj]
  grind

theorem go_follower (least : low.toNat ≤ byte.toNat) (most : byte.toNat ≤ high.toNat) :
    decodeChar.go index count code length low high (left + 1) (byte :: rest)
      = decodeChar.go index count (code * 64 + byte.toNat % 64) (length + 1) 0x80 0xBF left
        rest := by
  rw [decodeChar.go, if_pos ⟨UInt8.le_iff_toNat_le.2 least, UInt8.le_iff_toNat_le.2 most⟩]

/-- A byte after the first of those that follow. -/
theorem go_continuation (h : value < 64) :
    decodeChar.go index count code length 0x80 0xBF (left + 1)
        (UInt8.ofNat (value + 128) :: rest)
      = decodeChar.go index count (code * 64 + value) (length + 1) 0x80 0xBF left rest := by
  have byte : (UInt8.ofNat (value + 128)).toNat = value + 128 := by
    rw [UInt8.toNat_ofNat']
    omega
  have least : (0x80 : UInt8).toNat ≤ value + 128 := by
    show 128 ≤ _
    omega
  have most : value + 128 ≤ (0xBF : UInt8).toNat := by
    show _ ≤ 191
    omega
  rw [← byte] at least most
  rw [go_follower least most, byte, show (value + 128) % 64 = value by omega]

/-! ### One character -/

theorem decodeChar_one (h : code < 0x80) :
    decodeChar index (UInt8.ofNat code :: rest) = .ok (Char.ofNat code, rest) := by
  have byte : (UInt8.ofNat code).toNat = code := by
    rw [UInt8.toNat_ofNat']
    omega
  rw [decodeChar, followers_one (by omega)]
  show decodeChar.go _ _ _ _ _ _ _ _ = _
  rw [decodeChar.go, firstBits, byte]

theorem decodeChar_two (least : 0x80 ≤ code) (most : code < 0x800) :
    decodeChar index (UInt8.ofNat (code / 64 % 32 + 192) :: UInt8.ofNat (code % 64 + 128) :: rest)
      = .ok (Char.ofNat code, rest) := by
  have first : (UInt8.ofNat (code / 64 % 32 + 192)).toNat = code / 64 % 32 + 192 := by
    rw [UInt8.toNat_ofNat']
    omega
  rw [decodeChar, followers_two (by omega) (by omega)]
  show decodeChar.go _ _ _ _ _ _ _ _ = _
  rw [go_continuation (by omega), decodeChar.go, firstBits, first,
    show (code / 64 % 32 + 192) % 32 * 64 + code % 64 = code by omega]

theorem decodeChar_three (least : 0x800 ≤ code) (most : code < 0x10000)
    (valid : code < 0xD800 ∨ 0xDFFF < code) :
    decodeChar index (UInt8.ofNat (code / 4096 % 16 + 224) :: UInt8.ofNat (code / 64 % 64 + 128)
        :: UInt8.ofNat (code % 64 + 128) :: rest)
      = .ok (Char.ofNat code, rest) := by
  have first : (UInt8.ofNat (code / 4096 % 16 + 224)).toNat = code / 4096 % 16 + 224 := by
    rw [UInt8.toNat_ofNat']
    omega
  have second : (UInt8.ofNat (code / 64 % 64 + 128)).toNat = code / 64 % 64 + 128 := by
    rw [UInt8.toNat_ofNat']
    omega
  have least' : (if (UInt8.ofNat (code / 4096 % 16 + 224)).toNat = 0xE0 then (0xA0 : UInt8)
      else 0x80).toNat ≤ (UInt8.ofNat (code / 64 % 64 + 128)).toNat := by
    rw [first, second]
    split
    · show 160 ≤ _
      omega
    · show 128 ≤ _
      omega
  have most' : (UInt8.ofNat (code / 64 % 64 + 128)).toNat
      ≤ (if (UInt8.ofNat (code / 4096 % 16 + 224)).toNat = 0xED then (0x9F : UInt8)
        else 0xBF).toNat := by
    rw [first, second]
    split
    · show _ ≤ 159
      omega
    · show _ ≤ 191
      omega
  rw [decodeChar, followers_three (by omega) (by omega)]
  show decodeChar.go _ _ _ _ _ _ _ _ = _
  rw [go_follower least' most', go_continuation (by omega), decodeChar.go, firstBits, first, second,
    show ((code / 4096 % 16 + 224) % 16 * 64 + (code / 64 % 64 + 128) % 64) * 64 + code % 64
      = code by omega]

theorem decodeChar_four (least : 0x10000 ≤ code) (most : code < 0x110000) :
    decodeChar index (UInt8.ofNat (code / 262144 % 8 + 240) :: UInt8.ofNat (code / 4096 % 64 + 128)
        :: UInt8.ofNat (code / 64 % 64 + 128) :: UInt8.ofNat (code % 64 + 128) :: rest)
      = .ok (Char.ofNat code, rest) := by
  have first : (UInt8.ofNat (code / 262144 % 8 + 240)).toNat = code / 262144 % 8 + 240 := by
    rw [UInt8.toNat_ofNat']
    omega
  have second : (UInt8.ofNat (code / 4096 % 64 + 128)).toNat = code / 4096 % 64 + 128 := by
    rw [UInt8.toNat_ofNat']
    omega
  have least' : (if (UInt8.ofNat (code / 262144 % 8 + 240)).toNat = 0xF0 then (0x90 : UInt8)
      else 0x80).toNat ≤ (UInt8.ofNat (code / 4096 % 64 + 128)).toNat := by
    rw [first, second]
    split
    · show 144 ≤ _
      omega
    · show 128 ≤ _
      omega
  have most' : (UInt8.ofNat (code / 4096 % 64 + 128)).toNat
      ≤ (if (UInt8.ofNat (code / 262144 % 8 + 240)).toNat = 0xF4 then (0x8F : UInt8)
        else 0xBF).toNat := by
    rw [first, second]
    split
    · show _ ≤ 143
      omega
    · show _ ≤ 191
      omega
  have bits : firstBits 3 (UInt8.ofNat (code / 262144 % 8 + 240))
      = (code / 262144 % 8 + 240) % 8 := congrArg (· % 8) first
  rw [decodeChar, followers_four (by omega) (by omega)]
  show decodeChar.go _ _ _ _ _ _ _ _ = _
  rw [go_follower least' most', go_continuation (by omega), go_continuation (by omega),
    decodeChar.go, bits, second,
    show (((code / 262144 % 8 + 240) % 8 * 64 + (code / 4096 % 64 + 128) % 64) * 64
      + code / 64 % 64) * 64 + code % 64 = code by omega]

theorem decodeChar_utf8EncodeChar (index : Nat) (char : Char) (rest : Bytes) :
    decodeChar index (String.utf8EncodeChar char ++ rest) = .ok (char, rest) := by
  have valid : char.toNat < 0xD800 ∨ 0xDFFF < char.toNat ∧ char.toNat < 0x110000 := char.valid
  have same : Char.ofNat char.toNat = char := Char.ofNat_toNat char
  have word : char.val.toNat = char.toNat := rfl
  rw [String.utf8EncodeChar, word]
  generalize char.toNat = code at valid same ⊢
  rw [← same]
  split_ifs
  · exact decodeChar_one (by omega)
  · exact decodeChar_two (by omega) (by omega)
  · exact decodeChar_three (by omega) (by omega) (by omega)
  · exact decodeChar_four (by omega) (by omega)

/-! ### Texts -/

theorem utf8EncodeChar_ne_nil (char : Char) : String.utf8EncodeChar char ≠ [] := by
  rw [← List.length_pos_iff, String.length_utf8EncodeChar]
  exact Char.utf8Size_pos char

theorem length_le_ofChars (chars : List Char) : chars.length ≤ (ofChars chars).length := by
  induction chars with
  | nil => exact Nat.zero_le _
  | cons char chars ih =>
    have first := List.length_pos_iff.2 (utf8EncodeChar_ne_nil char)
    rw [ofChars, List.flatMap_cons, List.length_append, List.length_cons]
    rw [ofChars] at ih
    omega

theorem decodeFrom_ofChars {fuel : Nat} (chars : List Char) (index : Nat)
    (h : chars.length ≤ fuel) : decodeFrom fuel index (ofChars chars) = .ok chars := by
  induction chars generalizing fuel index with
  | nil => cases fuel <;> rfl
  | cons char chars ih =>
    obtain ⟨fuel, rfl⟩ : ∃ less, fuel = less + 1 := Nat.exists_eq_succ_of_ne_zero (by
      rw [List.length_cons] at h
      omega)
    have decoded := decodeChar_utf8EncodeChar index char (ofChars chars)
    rw [ofChars, List.flatMap_cons]
    obtain ⟨byte, others, split⟩ := List.exists_cons_of_ne_nil (utf8EncodeChar_ne_nil char)
    rw [split, List.cons_append] at decoded ⊢
    rw [decodeFrom]
    show (decodeChar index (byte :: (others ++ ofChars chars)) >>= _) = _
    rw [decoded]
    show (decodeFrom fuel _ (ofChars chars) >>= _) = _
    rw [ih _ (Nat.le_of_succ_le_succ h)]
    rfl

theorem decodeUtf8_ofChars (chars : List Char) : decodeUtf8 (ofChars chars) = .ok chars :=
  decodeFrom_ofChars chars 0 (length_le_ofChars chars)

end ScopedQuery.Bytes

namespace ScopedQuery.Letter

theorem behind_append (skipped : Bytes) (rest : Bytes) :
    behind skipped.length (skipped ++ rest) = behind 0 rest := by
  induction skipped with
  | nil => rfl
  | cons byte skipped ih => exact ih

theorem behind_ofChars (chars : List Char) : behind 0 (Bytes.ofChars chars) = chars.map .char := by
  induction chars with
  | nil => rfl
  | cons char chars ih =>
    have decoded := Bytes.decodeChar_utf8EncodeChar 0 char (Bytes.ofChars chars)
    rw [Bytes.ofChars, List.flatMap_cons]
    have size := String.length_utf8EncodeChar char
    obtain ⟨byte, others, split⟩ := List.exists_cons_of_ne_nil (Bytes.utf8EncodeChar_ne_nil char)
    rw [split, List.cons_append] at decoded ⊢
    rw [split, List.length_cons] at size
    show behind 0 (byte :: (others ++ Bytes.ofChars chars)) = _
    rw [behind, decoded]
    show .char char :: behind (char.utf8Size - 1) (others ++ Bytes.ofChars chars) = _
    rw [← size, Nat.add_sub_cancel, behind_append, ih]
    rfl

/-- The letters of a text in UTF-8 are its characters. -/
theorem ofBytes_ofChars (chars : List Char) : ofBytes (Bytes.ofChars chars) = chars.map .char :=
  behind_ofChars chars

end ScopedQuery.Letter
