import Mathlib.Algebra.Order.Ring.Nat
import ScopedQuery.Text.Bytes
/-!
# Words of bytes

A number that fits so many bytes is read back from them, with and without a sign.
-/

namespace ScopedQuery.Bytes

theorem toNat_concat (bytes : Bytes) (byte : UInt8) :
    toNat (bytes ++ [byte]) = toNat bytes * 256 + byte.toNat := by
  rw [toNat, List.foldl_append]
  rfl

theorem length_ofNat (count number : Nat) : (ofNat count number).length = count := by
  induction count generalizing number with
  | zero => rfl
  | succ count ih => rw [ofNat, List.length_append, ih, List.length_singleton]

theorem toNat_ofNat (count number : Nat) :
    toNat (ofNat count number) = number % 256 ^ count := by
  induction count generalizing number with
  | zero => rw [Nat.pow_zero, Nat.mod_one]; rfl
  | succ count ih =>
    have byte : (UInt8.ofNat (number % 256)).toNat = number % 256 := by
      rw [UInt8.toNat_ofNat']
      omega
    rw [ofNat, toNat_concat, ih, byte, Nat.pow_succ', Nat.mod_mul]
    omega

theorem toNat_ofNat_of_lt {count number : Nat} (h : number < 256 ^ count) :
    toNat (ofNat count number) = number := by
  rw [toNat_ofNat, Nat.mod_eq_of_lt h]

theorem length_ofInt (count : Nat) (number : Int) : (ofInt count number).length = count :=
  length_ofNat count _

theorem toInt_ofInt {count : Nat} {number : Int} (low : -(256 ^ count : Nat) ≤ 2 * number)
    (high : 2 * number < (256 ^ count : Nat)) : toInt (ofInt count number) = number := by
  have positive : 0 < 256 ^ count := Nat.pow_pos (by decide)
  have read : toNat (ofInt count number) = (number % (256 ^ count : Nat)).toNat := by
    apply toNat_ofNat_of_lt
    have := Int.emod_lt_of_pos number (Int.natCast_pos.2 positive)
    show (number % (256 ^ count : Nat)).toNat < 256 ^ count
    omega
  rw [toInt, read, length_ofInt]
  show (if 2 * _ < 256 ^ count then _ else _ - ((256 ^ count : Nat) : Int)) = _
  generalize 256 ^ count = modulus at *
  rcases Int.lt_or_le number 0 with negative | whole
  · have wrapped : number % modulus = number + modulus := by
      rw [← Int.add_emod_right, Int.emod_eq_of_lt] <;> omega
    rw [wrapped, if_neg (by omega)]
    omega
  · rw [Int.emod_eq_of_lt whole (by omega), if_pos (by omega)]
    omega

end ScopedQuery.Bytes
