import ScopedQuery.Json.Basic
import ScopedQuery.Text.Bytes
/-!
# Decimal numbers of arbitrary precision

The binary form of a NUMERIC: a sign, and digits to the base 10000 of which the first has the
weight `10000 ^ weight`; `scale` is the number of decimal places to show. `Numeric.text?` writes
the exact value. `Numeric.fixed?` brings it to a 96-bit coefficient with at most 28 decimal
places, when it fits, and `Fixed.toJson` makes that a JSON number: whole ones stay whole, all
others become binary64.
-/

namespace ScopedQuery

structure Numeric where
  weight : Int
  sign : Nat
  scale : Nat
  /-- Digits to the base 10000, most significant first. -/
  digits : List Int
deriving DecidableEq

namespace Numeric

def readWord : Bytes → Option (Int × Bytes)
  | high :: low :: rest => some (Bytes.toInt [high, low], rest)
  | _ => none

def readWords : Nat → Bytes → Option (List Int × Bytes)
  | 0, rest => some ([], rest)
  | count + 1, bytes => do
    let (word, rest) ← readWord bytes
    let (words, rest) ← readWords count rest
    return (word :: words, rest)

structure Header where
  count : Nat
  weight : Int
  sign : Nat
  scale : Int

def readHeader (bytes : Bytes) : Option (Header × Bytes) := do
  let (count, rest) ← readWord bytes
  let (weight, rest) ← readWord rest
  let (sign, rest) ← readWord rest
  let (scale, rest) ← readWord rest
  return (⟨(count % 65536).toNat, weight, (sign % 65536).toNat, scale⟩, rest)

/-- The header and the digits it announces; neither their number nor the scale may have the sign
bit. -/
def read? (bytes : Bytes) : Option Numeric := do
  let (header, rest) ← readHeader bytes
  if 0x8000 ≤ header.count ∨ header.scale < 0 then none
  else
    let (digits, _) ← readWords header.count rest
    return ⟨header.weight, header.sign, header.scale.toNat, digits⟩

def positive : Nat := 0x0000
def negative : Nat := 0x4000
def notANumber : Nat := 0xC000
def positiveInfinity : Nat := 0xD000
def negativeInfinity : Nat := 0xF000

/-! ### The exact text -/

/-- The digit at a place counted from the first one; zero outside. -/
def digitAt (numeric : Numeric) (place : Int) : Int :=
  if 0 ≤ place then numeric.digits.getD place.toNat 0 else 0

def group (digit : Int) : List Char :=
  if digit < 0 then '-' :: Text.padded 3 (Text.decimal digit.natAbs)
  else Text.padded 4 (Text.decimal digit.natAbs)

/-- The digits before the point: the first group bare, the others with all their zeros. -/
def wholeChars (numeric : Numeric) : List Char :=
  if numeric.weight < 0 then ['0']
  else Text.signedDecimal (numeric.digitAt 0)
    ++ (List.range numeric.weight.toNat).flatMap fun (place : Nat) =>
      group (numeric.digitAt ((place : Int) + 1))

def fractionChars (numeric : Numeric) : List Char :=
  ((List.range ((numeric.scale + 3) / 4)).flatMap fun (place : Nat) =>
    group (numeric.digitAt (numeric.weight + 1 + (place : Int)))).take numeric.scale

def finiteChars (numeric : Numeric) (isNegative : Bool) : List Char :=
  let fraction := numeric.fractionChars
  (if isNegative then ['-'] else []) ++ numeric.wholeChars
    ++ (if fraction.isEmpty then [] else '.' :: fraction)

/-- The exact text, unless the sign is none that is known. -/
def text? (numeric : Numeric) : Option String :=
  if numeric.sign = positive then some (String.ofList (numeric.finiteChars false))
  else if numeric.sign = negative then some (String.ofList (numeric.finiteChars true))
  else if numeric.sign = notANumber then some "NaN"
  else if numeric.sign = positiveInfinity then some "Infinity"
  else if numeric.sign = negativeInfinity then some "-Infinity"
  else none

/-! ### Fixed precision -/

/-- `coefficient / 10 ^ places`. -/
structure Fixed where
  coefficient : Int
  places : Nat
deriving DecidableEq

def maxCoefficient : Nat := 0xFFFFFFFFFFFFFFFFFFFFFFFF

/-- A quotient rounded to the nearest whole number, a tie to the even one. -/
def roundSigned (numerator : Int) (denominator : Nat) : Int :=
  let rounded := Binary64.roundHalfEven numerator.natAbs denominator
  if numerator < 0 then -(rounded : Int) else rounded

/-- Gives up as few decimal places as the size of the coefficient asks for. -/
def Fixed.fit : Nat → Fixed → Option Fixed
  | 0, fixed => if fixed.coefficient.natAbs ≤ maxCoefficient then some fixed else none
  | dropped + 1, fixed =>
    match Fixed.fit dropped fixed with
    | some fitted => some fitted
    | none =>
      if dropped + 1 ≤ fixed.places then
        let coefficient := roundSigned fixed.coefficient (Nat.pow 10 (dropped + 1))
        if coefficient.natAbs ≤ maxCoefficient then some ⟨coefficient, fixed.places - (dropped + 1)⟩
        else none
      else none

def Fixed.add (left right : Fixed) : Option Fixed :=
  if left.coefficient = 0 then some right
  else if right.coefficient = 0 then some left
  else
    let places := max left.places right.places
    let coefficient := left.coefficient * (Nat.pow 10 (places - left.places) : Nat)
      + right.coefficient * (Nat.pow 10 (places - right.places) : Nat)
    Fixed.fit 28 ⟨coefficient, places⟩

def part (digit weight : Int) : Option Fixed :=
  if weight < -7 ∨ 7 < weight then none
  else if 0 ≤ weight then Fixed.fit 0 ⟨digit * (Nat.pow 10000 weight.toNat : Nat), 0⟩
  else some ⟨digit, 4 * (-weight).toNat⟩

def addDigits (sum : Fixed) (weight : Int) : List Int → Option Fixed
  | [] => some sum
  | digit :: rest => do
    let sum ← sum.add (← part digit weight)
    addDigits sum (weight - 1) rest

/-- Rounded to fewer places, a tie away from zero; a number with fewer places already is as it is.
-/
def Fixed.toPlaces (fixed : Fixed) (places : Nat) : Fixed :=
  if fixed.places ≤ places then fixed
  else
    let step := Nat.pow 10 (fixed.places - places)
    ⟨Binary64.roundHalfAway fixed.coefficient.natAbs step, places⟩

/-- The value with a coefficient of 96 bits, shown to the scale. -/
def fixed? (numeric : Numeric) (isNegative : Bool) : Option Fixed := do
  let sum ← addDigits ⟨0, 0⟩ numeric.weight numeric.digits
  let shown := Fixed.toPlaces ⟨sum.coefficient.natAbs, sum.places⟩ numeric.scale
  return ⟨if isNegative then -shown.coefficient else shown.coefficient, shown.places⟩

def Fixed.toBinary64 (fixed : Fixed) : Binary64 :=
  .ofDecimal (fixed.coefficient < 0) fixed.coefficient.natAbs (-(fixed.places : Int))

/-- A JSON number; a whole one that fits a signed 64-bit word stays whole. -/
def Fixed.toJson (fixed : Fixed) : Json :=
  let one : Int := (Nat.pow 10 fixed.places : Nat)
  let whole := Int.tdiv fixed.coefficient one
  if fixed.coefficient % one = 0 ∧ Text.isWord whole then .int whole
  else .ofBinary64 fixed.toBinary64

end Numeric

end ScopedQuery
