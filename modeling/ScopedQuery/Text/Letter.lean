import ScopedQuery.Text.Bytes
/-!
# Letters

A text as it arrives: characters, and bytes that are part of no character. Every byte string is
such a text, so who reads letters decides for each place whether anything but a character will do,
and can tell at which byte something stands.
-/

namespace ScopedQuery

inductive Letter
  | char (value : Char)
  /-- A byte at which the text is not UTF-8. -/
  | stray (byte : UInt8)
deriving DecidableEq

namespace Letter

def size : Letter → Nat
  | .char value => value.utf8Size
  | .stray _ => 1

def char? : Letter → Option Char
  | .char value => some value
  | .stray _ => none

def digit? (letter : Letter) : Option Nat :=
  letter.char?.bind Text.digit?

def isDigit (letter : Letter) : Bool := letter.digit?.isSome

def totalSize (letters : List Letter) : Nat :=
  letters.foldl (fun total letter => total + letter.size) 0

def ofText (text : String) : List Letter := text.toList.map .char

/-- The letters of a byte string, behind `skip` bytes of a character that has been read. -/
def behind : Nat → Bytes → List Letter
  | _, [] => []
  | skip + 1, _ :: rest => behind skip rest
  | 0, byte :: rest =>
    match Bytes.decodeChar 0 (byte :: rest) with
    | .ok (value, _) => .char value :: behind (value.utf8Size - 1) rest
    | .error _ => .stray byte :: behind 0 rest

def ofBytes (bytes : Bytes) : List Letter := behind 0 bytes

end Letter

end ScopedQuery
