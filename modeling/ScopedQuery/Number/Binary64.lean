/-!
# Binary64 numbers

The numbers of the 64-bit binary floating-point format, as exact dyadic fractions. All arithmetic is
done on natural numbers, in units of `2⁻¹⁰⁷⁴`, the least positive number of the format, and rounded
once at the end by `ofRatio`: to the nearest number, a tie to the one with the even mantissa. The
rest of the library builds finite numbers only through `ofRatio`, `ofBits` and `negate`, so each
number has one form and equality of forms is equality of numbers (with `0.0` and `-0.0` apart).
-/

namespace ScopedQuery

inductive Binary64
  | nan (negative : Bool)
  | infinite (negative : Bool)
  /-- `± mantissa · 2 ^ scale` units. Either `scale` is zero and `mantissa < 2⁵³`, or the mantissa
  has exactly 53 bits. -/
  | finite (negative : Bool) (mantissa scale : Nat)
deriving DecidableEq, Inhabited

namespace Binary64

def one : Nat := Nat.pow 2 1074

def leadingBit : Nat := 0x10000000000000

def roundHalfEven (numerator denominator : Nat) : Nat :=
  let quotient := numerator / denominator
  let remainder := numerator % denominator
  if 2 * remainder < denominator ∨ (2 * remainder = denominator ∧ quotient % 2 = 0) then quotient
  else quotient + 1

def roundHalfAway (numerator denominator : Nat) : Nat :=
  (2 * numerator + denominator) / (2 * denominator)

def maxScale : Nat := 2045

/-- The number nearest to `± numerator / denominator` units. -/
def ofRatio (negative : Bool) (numerator denominator : Nat) : Binary64 :=
  let scale := (numerator / denominator).log2 - 52
  let mantissa := roundHalfEven numerator (denominator * Nat.pow 2 scale)
  let (mantissa, scale) :=
    if mantissa = 2 * leadingBit then (leadingBit, scale + 1) else (mantissa, scale)
  if maxScale < scale then .infinite negative else .finite negative mantissa scale

def zero (negative : Bool) : Binary64 := .finite negative 0 0

def ofInt (number : Int) : Binary64 :=
  ofRatio (number < 0) (number.natAbs * one) 1

def powerOfTen (exponent : Nat) : Binary64 :=
  ofRatio false (Nat.pow 10 exponent * one) 1

/-- The number nearest to `± digits · 10 ^ exponent`. Beyond 400 decimal places on either side the
answer is certain, and the powers are not computed. -/
def ofDecimal (negative : Bool) (digits : Nat) (exponent : Int) : Binary64 :=
  let size := exponent + (Nat.toDigits 10 digits).length
  if digits = 0 ∨ size < -400 then zero negative
  else if 400 < size then .infinite negative
  else ofRatio negative (digits * Nat.pow 10 exponent.toNat * one) (Nat.pow 10 (-exponent).toNat)

def isFinite : Binary64 → Bool
  | .finite .. => true
  | _ => false

def isZero : Binary64 → Bool
  | .finite _ mantissa _ => mantissa = 0
  | _ => false

def isNegative : Binary64 → Bool
  | .nan negative => negative
  | .infinite negative => negative
  | .finite negative _ _ => negative

def negate : Binary64 → Binary64
  | .nan negative => .nan !negative
  | .infinite negative => .infinite !negative
  | .finite negative mantissa scale => .finite (!negative) mantissa scale

def units (mantissa scale : Nat) : Nat := mantissa * Nat.pow 2 scale

/-! ### Arithmetic -/

def add : Binary64 → Binary64 → Binary64
  | .nan negative, _ => .nan negative
  | _, .nan negative => .nan negative
  | .infinite left, .infinite right => if left = right then .infinite left else .nan false
  | .infinite negative, _ => .infinite negative
  | _, .infinite negative => .infinite negative
  | .finite leftSign leftMantissa leftScale, .finite rightSign rightMantissa rightScale =>
    let left := units leftMantissa leftScale
    let right := units rightMantissa rightScale
    if leftSign = rightSign then ofRatio leftSign (left + right) 1
    else if right < left then ofRatio leftSign (left - right) 1
    else if left < right then ofRatio rightSign (right - left) 1
    else zero false

def mul : Binary64 → Binary64 → Binary64
  | .nan negative, _ => .nan negative
  | _, .nan negative => .nan negative
  | .infinite left, .infinite right => .infinite (left != right)
  | .infinite left, .finite right mantissa _ =>
    if mantissa = 0 then .nan false else .infinite (left != right)
  | .finite left mantissa _, .infinite right =>
    if mantissa = 0 then .nan false else .infinite (left != right)
  | .finite leftSign leftMantissa leftScale, .finite rightSign rightMantissa rightScale =>
    ofRatio (leftSign != rightSign)
      (units leftMantissa leftScale * units rightMantissa rightScale) one

def div : Binary64 → Binary64 → Binary64
  | .nan negative, _ => .nan negative
  | _, .nan negative => .nan negative
  | .infinite _, .infinite _ => .nan false
  | .infinite left, .finite right _ _ => .infinite (left != right)
  | .finite left _ _, .infinite right => zero (left != right)
  | .finite leftSign leftMantissa leftScale, .finite rightSign rightMantissa rightScale =>
    let negative := leftSign != rightSign
    if rightMantissa = 0 then (if leftMantissa = 0 then .nan false else .infinite negative)
    else ofRatio negative (units leftMantissa leftScale * one) (units rightMantissa rightScale)

/-- The nearest whole number, a tie away from zero. -/
def round : Binary64 → Binary64
  | .finite negative mantissa scale =>
    ofRatio negative (roundHalfAway (units mantissa scale) one * one) 1
  | other => other

/-! ### The 64-bit and 32-bit words -/

def toBits : Binary64 → Nat
  | .nan negative => sign negative + 0x7FF8000000000000
  | .infinite negative => sign negative + 0x7FF0000000000000
  | .finite negative mantissa scale =>
    if mantissa < leadingBit then sign negative + mantissa
    else sign negative + (scale + 1) * leadingBit + (mantissa - leadingBit)
where
  sign (negative : Bool) : Nat := if negative then 0x8000000000000000 else 0

def ofBits (word : Nat) : Binary64 :=
  let negative := word / 0x8000000000000000 % 2 = 1
  let exponent := word / leadingBit % 0x800
  let fraction := word % leadingBit
  if exponent = 2047 then (if fraction = 0 then .infinite negative else .nan negative)
  else if exponent = 0 then .finite negative fraction 0
  else .finite negative (leadingBit + fraction) (exponent - 1)

/-- The number of a 32-bit word, which every binary64 number of the same value holds exactly. -/
def ofBits32 (word : Nat) : Binary64 :=
  let negative := word / 0x80000000 % 2 = 1
  let exponent := word / 0x800000 % 0x100
  let fraction := word % 0x800000
  if exponent = 255 then (if fraction = 0 then .infinite negative else .nan negative)
  else if exponent = 0 then ofRatio negative (fraction * Nat.pow 2 925) 1
  else ofRatio negative ((0x800000 + fraction) * Nat.pow 2 (exponent - 1 + 925)) 1

end Binary64

end ScopedQuery
