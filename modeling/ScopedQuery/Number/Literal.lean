import ScopedQuery.Number.Binary64
import ScopedQuery.Text.Digits
/-!
# Number literals in text

A literal is an optional sign and then `inf`, `infinity` or `nan` in any case, or digits with an
optional point and an optional exponent; one side of the point may be empty. Its value is the
nearest binary64 number, whatever the number of digits.
-/

namespace ScopedQuery.Binary64

/-- A run of digits: the number it continues, its length, and the rest of the text. -/
def readDigits (number count : Nat) : List Char → Nat × Nat × List Char
  | [] => (number, count, [])
  | char :: rest =>
    match Text.digit? char with
    | some value => readDigits (number * 10 + value) (count + 1) rest
    | none => (number, count, char :: rest)

def readExponent : List Char → Option Int
  | '-' :: rest => (readUnsigned rest).map fun number => -(number : Int)
  | '+' :: rest => (readUnsigned rest).map fun number => (number : Int)
  | text => (readUnsigned text).map fun number => (number : Int)
where
  readUnsigned (text : List Char) : Option Nat :=
    match readDigits 0 0 text with
    | (number, _ + 1, []) => some number
    | _ => none

def lower (char : Char) : Char :=
  if 'A' ≤ char ∧ char ≤ 'Z' then Char.ofNat (char.toNat + 32) else char

def readMagnitude (negative : Bool) (text : List Char) : Option Binary64 :=
  let word := text.map lower
  if word = "inf".toList ∨ word = "infinity".toList then some (.infinite negative)
  else if word = "nan".toList then some (.nan negative)
  else
    let (whole, wholeCount, rest) := readDigits 0 0 text
    let (digits, fractionCount, rest) := match rest with
      | '.' :: rest => readDigits whole 0 rest
      | _ => (whole, 0, rest)
    if wholeCount + fractionCount = 0 then none
    else match rest with
      | [] => some (ofDecimal negative digits (-(fractionCount : Int)))
      | mark :: rest =>
        if mark = 'e' ∨ mark = 'E' then
          (readExponent rest).map fun exponent =>
            ofDecimal negative digits (exponent - fractionCount)
        else none

def read? : List Char → Option Binary64
  | '-' :: rest => readMagnitude true rest
  | '+' :: rest => readMagnitude false rest
  | text => readMagnitude false text

end ScopedQuery.Binary64
