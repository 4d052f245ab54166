import ScopedQuery.Number.Binary64
import ScopedQuery.Text.Digits
/-!
# The shortest decimal of a binary64 number

The text of a number has the fewest digits that read back as the same number, and of the decimals
with so few digits it is the nearest one (a tie goes to the even last digit). `shortest` works on
the interval of values that round to the number, ends included when the mantissa is even, and
tests the number's two neighbours on each decimal grid in turn. `Binary64.text` lays the digits
out: positional from `10⁻⁵` up to below `10¹⁶`, and with an exponent outside.
-/

namespace ScopedQuery.Binary64

/-- The numerator of a value, and of the least and the greatest value that round to it, over the
common denominator `4 * one`. -/
structure Interval where
  lower : Nat
  value : Nat
  upper : Nat
  closed : Bool

/-- The gap below a power of two is half the gap above it, except between the least numbers. -/
def interval (mantissa scale : Nat) : Interval where
  lower := 4 * units mantissa scale
    - (if mantissa = leadingBit ∧ scale ≠ 0 then Nat.pow 2 scale else 2 * Nat.pow 2 scale)
  value := 4 * units mantissa scale
  upper := 4 * units mantissa scale + 2 * Nat.pow 2 scale
  closed := mantissa % 2 = 0

def firstExponent (numerator denominator : Nat) : Int :=
  if denominator ≤ numerator then ((Text.decimal (numerator / denominator)).length : Int) - 1
  else -((Text.decimal ((denominator - 1) / numerator)).length : Int)

def Interval.holds (interval : Interval) (step digits : Nat) : Bool :=
  if interval.closed then interval.lower ≤ digits * step && digits * step ≤ interval.upper
  else interval.lower < digits * step && digits * step < interval.upper

/-- The digits, counted in `10 ^ exponent`, of the decimal on this grid that is nearest to the value
among its two neighbours in the interval. -/
def Interval.onGrid (interval : Interval) (exponent : Int) : Option Nat :=
  let shift := Nat.pow 10 (-exponent).toNat
  let scaled : Interval :=
    { interval with
      lower := interval.lower * shift, value := interval.value * shift
      upper := interval.upper * shift }
  let step := 4 * one * Nat.pow 10 exponent.toNat
  let below := scaled.value / step
  let above := below + 1
  match scaled.holds step below, scaled.holds step above with
  | false, false => none
  | true, false => some below
  | false, true => some above
  | true, true =>
    let down := scaled.value - below * step
    let up := above * step - scaled.value
    if down < up ∨ (down = up ∧ below % 2 = 0) then some below else some above

def dropZeros : Nat → Nat → Int → Nat × Int
  | 0, digits, exponent => (digits, exponent)
  | fuel + 1, digits, exponent =>
    if digits % 10 = 0 ∧ digits ≠ 0 then dropZeros fuel (digits / 10) (exponent + 1)
    else (digits, exponent)

/-- The digits and the exponent of the shortest decimal; seventeen digits are always enough. -/
def shortest (mantissa scale : Nat) : Nat × Int :=
  let interval := interval mantissa scale
  let first := firstExponent interval.value (4 * one)
  let found := (List.range 17).findSome? fun (count : Nat) =>
    let exponent := first - (count : Int)
    (interval.onGrid exponent).map fun digits => (digits, exponent)
  match found with
  | some (digits, exponent) => dropZeros 18 digits exponent
  | none => (0, 0)

/-! ### Layout -/

/-- The digits in positional notation, with at least one digit on each side of the point; `first` is
the exponent of the first digit. -/
def positional (digits : List Char) (first : Int) : List Char :=
  if first < 0 then '0' :: '.' :: List.replicate (-first - 1).toNat '0' ++ digits
  else
    let whole := first.toNat + 1
    if digits.length ≤ whole then
      digits ++ List.replicate (whole - digits.length) '0' ++ ['.', '0']
    else digits.take whole ++ '.' :: digits.drop whole

def scientific (digits : List Char) (first : Int) : List Char :=
  let fraction := digits.drop 1
  digits.take 1 ++ (if fraction.isEmpty then [] else '.' :: fraction)
    ++ 'e' :: (if first < 0 then '-' else '+') :: Text.decimal first.natAbs

def magnitudeText (mantissa scale : Nat) : List Char :=
  if mantissa = 0 then ['0', '.', '0']
  else
    let (number, exponent) := shortest mantissa scale
    let digits := Text.decimal number
    let first := exponent + digits.length - 1
    if -5 ≤ first ∧ first < 16 then positional digits first else scientific digits first

def chars : Binary64 → List Char
  | .nan _ => ['N', 'a', 'N']
  | .infinite negative => if negative then ['-', 'i', 'n', 'f'] else ['i', 'n', 'f']
  | .finite negative mantissa scale =>
    if negative then '-' :: magnitudeText mantissa scale else magnitudeText mantissa scale

def text (number : Binary64) : String :=
  String.ofList number.chars

end ScopedQuery.Binary64
