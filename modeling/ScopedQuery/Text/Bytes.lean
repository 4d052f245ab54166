import ScopedQuery.Text.Digits
/-!
# Bytes

Big-endian words, hexadecimal and base-64 text of byte strings, and UTF-8. `decodeUtf8` says at
which byte a string stops being UTF-8 and how many bytes are to blame, or that it ends in the
middle of a character.
-/

namespace ScopedQuery

abbrev Bytes := List UInt8

namespace Bytes

/-- The number that the bytes write, most significant first. -/
def toNat (bytes : Bytes) : Nat :=
  bytes.foldl (fun number byte => number * 256 + byte.toNat) 0

/-- The number that the bytes write in two's complement. -/
def toInt (bytes : Bytes) : Int :=
  let number := toNat bytes
  let modulus := Nat.pow 256 bytes.length
  if 2 * number < modulus then number else (number : Int) - modulus

/-- The last `count` base-256 digits of a number. -/
def ofNat : Nat → Nat → Bytes
  | 0, _ => []
  | count + 1, number => ofNat count (number / 256) ++ [UInt8.ofNat (number % 256)]

def ofInt (count : Nat) (number : Int) : Bytes :=
  ofNat count (number % (Nat.pow 256 count : Nat)).toNat

def take? (count : Nat) (bytes : Bytes) : Option (Bytes × Bytes) :=
  if count ≤ bytes.length then some (bytes.take count, bytes.drop count) else none

def hex (bytes : Bytes) : List Char :=
  bytes.flatMap fun byte => [Nat.digitChar (byte.toNat / 16), Nat.digitChar (byte.toNat % 16)]

def ofHex? : List Char → Option Bytes
  | [] => some []
  | [_] => none
  | high :: low :: rest => do
    let high ← Text.hexDigit? high
    let low ← Text.hexDigit? low
    return UInt8.ofNat (high * 16 + low) :: (← ofHex? rest)

/-! ### Base 64, with the standard alphabet and padding -/

def base64Digit (value : Nat) : Char :=
  if value < 26 then Char.ofNat (65 + value)
  else if value < 52 then Char.ofNat (97 + (value - 26))
  else if value < 62 then Char.ofNat (48 + (value - 52))
  else if value = 62 then '+' else '/'

def base64 : Bytes → List Char
  | [] => []
  | [a] =>
    let word := a.toNat * 16
    [base64Digit (word / 64), base64Digit (word % 64), '=', '=']
  | [a, b] =>
    let word := (a.toNat * 256 + b.toNat) * 4
    [base64Digit (word / 4096), base64Digit (word / 64 % 64), base64Digit (word % 64), '=']
  | a :: b :: c :: rest =>
    let word := (a.toNat * 256 + b.toNat) * 256 + c.toNat
    base64Digit (word / 262144) :: base64Digit (word / 4096 % 64) :: base64Digit (word / 64 % 64)
      :: base64Digit (word % 64) :: base64 rest

/-! ### UTF-8 -/

def ofChars (chars : List Char) : Bytes :=
  chars.flatMap String.utf8EncodeChar

def ofText (text : String) : Bytes :=
  ofChars text.toList

inductive Utf8Fault
  /-- The `length` bytes from `index` on start no character. -/
  | invalid (length index : Nat)
  /-- The character that starts at `index` is cut off by the end. -/
  | incomplete (index : Nat)
deriving DecidableEq

def Utf8Fault.message : Utf8Fault → String
  | .invalid length index =>
    "invalid utf-8 sequence of " ++ Text.decimalText length ++ " bytes from index "
      ++ Text.decimalText index
  | .incomplete index => "incomplete utf-8 byte sequence from index " ++ Text.decimalText index

/-- How many bytes follow a first byte, and the range of the first of them; a character is never
written longer than need be, nor is a surrogate or a code above `10FFFF`. -/
def followers (first : UInt8) : Option (Nat × UInt8 × UInt8) :=
  if first < 0x80 then some (0, 0x80, 0xBF)
  else if first < 0xC2 then none
  else if first < 0xE0 then some (1, 0x80, 0xBF)
  else if first = 0xE0 then some (2, 0xA0, 0xBF)
  else if first = 0xED then some (2, 0x80, 0x9F)
  else if first < 0xF0 then some (2, 0x80, 0xBF)
  else if first = 0xF0 then some (3, 0x90, 0xBF)
  else if first < 0xF4 then some (3, 0x80, 0xBF)
  else if first = 0xF4 then some (3, 0x80, 0x8F)
  else none

def firstBits (count : Nat) (first : UInt8) : Nat :=
  match count with
  | 0 => first.toNat
  | 1 => first.toNat % 32
  | 2 => first.toNat % 16
  | _ => first.toNat % 8

def decodeChar (index : Nat) : Bytes → Except Utf8Fault (Char × Bytes)
  | [] => .error (.incomplete index)
  | first :: rest =>
    match followers first with
    | none => .error (.invalid 1 index)
    | some (count, low, high) => go count (firstBits count first) 1 low high count rest
where
  go (count code length : Nat) (low high : UInt8) : Nat → Bytes → Except Utf8Fault (Char × Bytes)
    | 0, rest => .ok (Char.ofNat code, rest)
    | _ + 1, [] => .error (.incomplete index)
    | left + 1, byte :: rest =>
      if low ≤ byte ∧ byte ≤ high then
        go count (code * 64 + byte.toNat % 64) (length + 1) 0x80 0xBF left rest
      else .error (.invalid length index)

/-- The characters of a byte string. `fuel` bounds their number; the length of the string is
enough. -/
def decodeFrom : Nat → Nat → Bytes → Except Utf8Fault (List Char)
  | _, _, [] => .ok []
  | 0, index, _ => .error (.incomplete index)
  | fuel + 1, index, byte :: rest => do
    let (char, after) ← decodeChar index (byte :: rest)
    return char :: (← decodeFrom fuel (index + char.utf8Size) after)

def decodeUtf8 (bytes : Bytes) : Except Utf8Fault (List Char) :=
  decodeFrom bytes.length 0 bytes

end Bytes

end ScopedQuery
