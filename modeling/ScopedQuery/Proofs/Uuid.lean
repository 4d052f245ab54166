import ScopedQuery.Proofs.Text.Bytes
import ScopedQuery.Proofs.Text.Numerals
import ScopedQuery.Uuid
/-!
# Reading UUIDs

A UUID is read back from its bytes and from its text.
-/

namespace ScopedQuery.Uuid

theorem ofBytes_bytes (uuid : Uuid) : ofBytes uuid.bytes = uuid := by
  have fits : uuid.bits.toNat < 256 ^ 16 := uuid.bits.isLt
  rw [ofBytes, bytes, Bytes.toNat_ofNat_of_lt fits, BitVec.ofNat_toNat, BitVec.setWidth_eq]

theorem length_bytes (uuid : Uuid) : uuid.bytes.length = 16 := Bytes.length_ofNat 16 _

theorem length_digits (uuid : Uuid) : uuid.digits.length = 32 := by
  have fits : uuid.bits.toNat < 16 ^ 32 := uuid.bits.isLt
  have short : (Nat.toDigits 16 uuid.bits.toNat).length ≤ 32 :=
    (Nat.length_toDigits_le_iff (by decide) (by decide)).2 fits
  rw [digits, Text.padded, List.length_append, List.length_replicate]
  omega

theorem readDigits_digits (uuid : Uuid) : readDigits uuid.digits = some uuid := by
  rw [readDigits, if_pos uuid.length_digits, digits, Text.readHex_padded, Option.map_some,
    BitVec.ofNat_toNat, BitVec.setWidth_eq]

theorem length_chars (uuid : Uuid) : uuid.chars.length = 36 := by
  simp [chars, length_digits]

theorem readHyphenated_groups {a b c d e : List Char} (ha : a.length = 8) (hb : b.length = 4)
    (hc : c.length = 4) (hd : d.length = 4) (he : e.length = 12) :
    readHyphenated (a ++ '-' :: b ++ '-' :: c ++ '-' :: d ++ '-' :: e)
      = readDigits (a ++ b ++ c ++ d ++ e) := by
  simp [readHyphenated, List.drop_append, List.drop_eq_nil_of_le, ha, hb, hc, hd, he]

theorem readHyphenated_chars (uuid : Uuid) : readHyphenated uuid.chars = some uuid := by
  have length := uuid.length_digits
  have joined : uuid.digits.take 8 ++ (uuid.digits.drop 8).take 4 ++ (uuid.digits.drop 12).take 4
      ++ (uuid.digits.drop 16).take 4 ++ uuid.digits.drop 20 = uuid.digits := by
    simp only [← List.take_add, Nat.reduceAdd, List.take_append_drop]
  have read := uuid.readDigits_digits
  rw [← joined] at read
  rw [chars, readHyphenated_groups, read] <;> simp [length]

theorem read?_chars (uuid : Uuid) : read? uuid.chars = some uuid := by
  have long : readDigits uuid.chars = none := by
    rw [readDigits, if_neg (by rw [length_chars]; decide)]
  rw [read?, long, readHyphenated_chars]
  rfl

theorem trim_chars (uuid : Uuid) : Text.trim uuid.chars = uuid.chars := by
  have digits : Text.NoBlanks uuid.digits :=
    (Text.noBlanks_toDigits (by decide) (Nat.le_refl 16)).padded
  have mark : Text.isBlank '-' = false := by decide
  have taken {count : Nat} {text : List Char} (h : Text.NoBlanks text) :
      Text.NoBlanks (text.take count) := fun char member => h char (List.mem_of_mem_take member)
  have dropped {count : Nat} : Text.NoBlanks (uuid.digits.drop count) :=
    fun char member => digits char (List.mem_of_mem_drop member)
  apply Text.trim_eq_self
  apply Text.NoBlanks.append _ (dropped.cons mark)
  apply Text.NoBlanks.append _ ((taken dropped).cons mark)
  apply Text.NoBlanks.append _ ((taken dropped).cons mark)
  exact (taken digits).append ((taken dropped).cons mark)

end ScopedQuery.Uuid
