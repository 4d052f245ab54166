import ScopedQuery.Text.Digits
import ScopedQuery.Text.Bytes
/-!
# UUIDs

A UUID is 128 bits. Its text is lower-case hexadecimal in groups of 8, 4, 4, 4 and 12 digits. Text
is read in either case, with the hyphens or with none, and the hyphenated form also in braces or
after `urn:uuid:`.
-/

namespace ScopedQuery

structure Uuid where
  bits : BitVec 128
deriving DecidableEq

namespace Uuid

def digits (uuid : Uuid) : List Char :=
  Text.padded 32 (Nat.toDigits 16 uuid.bits.toNat)

def chars (uuid : Uuid) : List Char :=
  let digits := uuid.digits
  digits.take 8 ++ '-' :: (digits.drop 8).take 4 ++ '-' :: (digits.drop 12).take 4
    ++ '-' :: (digits.drop 16).take 4 ++ '-' :: digits.drop 20

def text (uuid : Uuid) : String := String.ofList uuid.chars

def bytes (uuid : Uuid) : Bytes := Bytes.ofNat 16 uuid.bits.toNat

def ofBytes (bytes : Bytes) : Uuid := ⟨BitVec.ofNat 128 (Bytes.toNat bytes)⟩

def readDigits (text : List Char) : Option Uuid :=
  if text.length = 32 then (Text.readHex text).map fun number => ⟨BitVec.ofNat 128 number⟩ else none

def readHyphenated (text : List Char) : Option Uuid :=
  if text.length = 36 ∧ text[8]? = some '-' ∧ text[13]? = some '-' ∧ text[18]? = some '-'
      ∧ text[23]? = some '-' then
    readDigits (text.take 8 ++ (text.drop 9).take 4 ++ (text.drop 14).take 4
      ++ (text.drop 19).take 4 ++ text.drop 24)
  else none

def inBraces : List Char → Option (List Char)
  | '{' :: rest => if rest.getLast? = some '}' then some rest.dropLast else none
  | _ => none

/-- The text after `urn:uuid:`, in any case. -/
def afterUrn (text : List Char) : Option (List Char) :=
  let mark := "urn:uuid:".toList
  if (text.take mark.length).map Char.toLower = mark then some (text.drop mark.length) else none

def read? (text : List Char) : Option Uuid :=
  readDigits text <|> readHyphenated text <|> (inBraces text >>= readHyphenated)
    <|> (afterUrn text >>= readHyphenated)

end Uuid

end ScopedQuery
