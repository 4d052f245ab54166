/-!
# Digits

Decimal and hexadecimal digits of natural numbers, and the reading of whole numbers that must lie in
a range. Reading goes from left to right, so the first character that is not a digit and the first
digit that leaves the range compete for the fault, and whichever comes first wins.
-/

namespace ScopedQuery.Text

/-- The decimal digits, most significant first; zero has one. -/
def decimal (number : Nat) : List Char :=
  Nat.toDigits 10 number

def decimalText (number : Nat) : String :=
  String.ofList (decimal number)

def signedDecimal (number : Int) : List Char :=
  if number < 0 then '-' :: decimal number.natAbs else decimal number.natAbs

def signedDecimalText (number : Int) : String :=
  String.ofList (signedDecimal number)

def padded (width : Nat) (text : List Char) : List Char :=
  List.replicate (width - text.length) '0' ++ text

def digit? (char : Char) : Option Nat :=
  if '0' ≤ char ∧ char ≤ '9' then some (char.toNat - 48) else none

def isDigit (char : Char) : Bool := (digit? char).isSome

def hexDigit? (char : Char) : Option Nat :=
  if '0' ≤ char ∧ char ≤ '9' then some (char.toNat - 48)
  else if 'a' ≤ char ∧ char ≤ 'f' then some (char.toNat - 87)
  else if 'A' ≤ char ∧ char ≤ 'F' then some (char.toNat - 55)
  else none

/-- The number that a text of hexadecimal digits writes; the empty text writes zero. -/
def readHex (text : List Char) : Option Nat :=
  text.foldl (fun number char => do return (← number) * 16 + (← hexDigit? char)) (some 0)

/-- The number that exactly `width` leading digits write, and what follows them. -/
def takeNumber : Nat → List Char → Option (Nat × List Char) :=
  go 0
where
  go (number : Nat) : Nat → List Char → Option (Nat × List Char)
    | 0, rest => some (number, rest)
    | _ + 1, [] => none
    | width + 1, char :: rest =>
      match digit? char with
      | some value => go (number * 10 + value) width rest
      | none => none

inductive NumeralFault
  | empty
  | invalidDigit
  | tooLarge
  | tooSmall
deriving DecidableEq

def NumeralFault.message : NumeralFault → String
  | .empty => "cannot parse integer from empty string"
  | .invalidDigit => "invalid digit found in string"
  | .tooLarge => "number too large to fit in target type"
  | .tooSmall => "number too small to fit in target type"

/-- Reads digits as a number of at most `limit`, after digits that gave `number`. -/
def readUpTo (limit : Nat) (beyond : NumeralFault) (number : Nat) :
    List Char → Except NumeralFault Nat
  | [] => .ok number
  | char :: rest =>
    match digit? char with
    | none => .error .invalidDigit
    | some value =>
      if limit < number * 10 + value then .error beyond
      else readUpTo limit beyond (number * 10 + value) rest

/-- A number of `0 … limit`. A plus sign may come first; a minus sign is not a digit. -/
def readUnsigned (limit : Nat) : List Char → Except NumeralFault Nat
  | [] => .error .empty
  | ['+'] => .error .invalidDigit
  | '+' :: rest => readUpTo limit .tooLarge 0 rest
  | text => readUpTo limit .tooLarge 0 text

/-- A number of `-(limit + 1) … limit`, with an optional sign. -/
def readSigned (limit : Nat) : List Char → Except NumeralFault Int
  | [] => .error .empty
  | ['+'] => .error .invalidDigit
  | ['-'] => .error .invalidDigit
  | '+' :: rest => Int.ofNat <$> readUpTo limit .tooLarge 0 rest
  | '-' :: rest => (fun number => -Int.ofNat number) <$> readUpTo (limit + 1) .tooSmall 0 rest
  | text => Int.ofNat <$> readUpTo limit .tooLarge 0 text

def maxWord : Nat := 0x7FFFFFFFFFFFFFFF

def maxCount : Nat := 0xFFFFFFFFFFFFFFFF

def isWord (number : Int) : Bool :=
  decide (-(maxWord : Int) - 1 ≤ number) && decide (number ≤ maxWord)

end ScopedQuery.Text
