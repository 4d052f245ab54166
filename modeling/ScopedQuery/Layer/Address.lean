import ScopedQuery.Fault
import ScopedQuery.Text.Bytes
import ScopedQuery.Text.Parts
/-!
# Addresses of databases

A database is addressed by a URL: a scheme, an authority of a user, a host and a number after a
colon, a path, and parameters behind a question mark. `Address.check` says whether connection
options can be taken from an address, without opening a connection. The authority is looked at
first and then the parameters in order; parameters that are not known do not count.
-/

namespace ScopedQuery

inductive AddressFault
  | noScheme
  | emptyHost
  | portNumber
  | numeral (fault : Text.NumeralFault)
  | sslMode (value : String)
deriving DecidableEq

namespace AddressFault

def shownChar (char : Char) : List Char :=
  if char = '"' then ['\\', '"']
  else if char = '\\' then ['\\', '\\']
  else if char = '\n' then ['\\', 'n']
  else if char = '\r' then ['\\', 'r']
  else if char = '\t' then ['\\', 't']
  else [char]

def shown (value : String) : String :=
  String.ofList ('"' :: (value.toList.flatMap shownChar ++ ['"']))

def message : AddressFault → String
  | .noScheme => "relative URL without a base"
  | .emptyHost => "empty host"
  | .portNumber => "invalid port number"
  | .numeral fault => fault.message
  | .sslMode value =>
    (DatabaseFault.configuration ("unknown value " ++ shown value ++ " for `ssl_mode`")).message

def fault (fault : AddressFault) : Fault :=
  .connection (.driver (.configuration fault.message))

end AddressFault

namespace Address

def isAsciiLetter (char : Char) : Bool :=
  ('a' ≤ char && char ≤ 'z') || ('A' ≤ char && char ≤ 'Z')

def isSchemePart (char : Char) : Bool :=
  isAsciiLetter char || Text.isDigit char || char = '+' || char = '-' || char = '.'

def afterScheme (text : List Char) : Except AddressFault (List Char) :=
  match text.span isSchemePart with
  | (first :: _, ':' :: rest) => if isAsciiLetter first then .ok rest else .error .noScheme
  | _ => .error .noScheme

def endsAuthority (char : Char) : Bool :=
  char = '/' || char = '?' || char = '#'

/-- An authority without its user, who ends at the last `@`. -/
def afterUser (authority : List Char) : List Char :=
  (authority.reverse.takeWhile (· ≠ '@')).reverse

def maxPort : Nat := 0xFFFF

def checkPort (text : List Char) : Except AddressFault Unit :=
  if text.isEmpty then .ok ()
  else match Text.readUpTo maxPort .tooLarge 0 text with
    | .ok _ => .ok ()
    | .error _ => .error .portNumber

/-- A host in brackets may hold colons. -/
def splitHost (text : List Char) : List Char × List Char :=
  match text with
  | '[' :: rest =>
    let (inside, after) := rest.span (· ≠ ']')
    ('[' :: inside ++ after.take 1, after.drop 1)
  | _ => text.span (· ≠ ':')

def checkAuthority (authority : List Char) : Except AddressFault Unit :=
  let (host, rest) := splitHost (afterUser authority)
  match rest with
  | ':' :: number => if host.isEmpty then .error .emptyHost else checkPort number
  | _ => if host.isEmpty ∧ !authority.isEmpty then .error .emptyHost else .ok ()

/-! ### Parameters -/

/-- The bytes of a parameter: a plus sign is a space, and a percent sign with two hexadecimal digits
is the byte that they write. -/
def formBytes : List Char → Bytes
  | [] => []
  | '%' :: high :: low :: rest =>
    match Text.hexDigit? high, Text.hexDigit? low with
    | some h, some l => UInt8.ofNat (h * 16 + l) :: formBytes rest
    | _, _ => UInt8.ofNat '%'.toNat :: formBytes (high :: low :: rest)
  | '+' :: rest => UInt8.ofNat ' '.toNat :: formBytes rest
  | char :: rest => Bytes.ofChars [char] ++ formBytes rest

def formText (text : List Char) : String :=
  match Bytes.decodeUtf8 (formBytes text) with
  | .ok chars => String.ofList chars
  | .error _ => String.ofList text

def parameters (text : List Char) : List (String × String) :=
  let query := (((text.takeWhile (· ≠ '#')).dropWhile (· ≠ '?')).drop 1)
  ((Text.splitAt '&' query).filter (!·.isEmpty)).map fun part =>
    let (name, value) := part.span (· ≠ '=')
    (formText name, formText (value.drop 1))

def sslModes : List String :=
  ["disable", "allow", "prefer", "require", "verify-ca", "verify-full"]

def checkNumeral (limit : Nat) (value : String) : Except AddressFault Unit :=
  match Text.readUnsigned limit value.toList with
  | .ok _ => .ok ()
  | .error fault => .error (.numeral fault)

def checkParameter (name value : String) : Except AddressFault Unit :=
  if name = "sslmode" ∨ name = "ssl-mode" then
    if sslModes.contains (String.ofList (value.toList.map Char.toLower)) then .ok ()
    else .error (.sslMode value)
  else if name = "statement-cache-capacity" then checkNumeral Text.maxCount value
  else if name = "port" then checkNumeral maxPort value
  else .ok ()

/-- Control characters and spaces, which do not count at the ends of an address. -/
def isMargin (char : Char) : Bool := char.toNat ≤ 0x20

def cleaned (text : List Char) : List Char :=
  (((text.dropWhile isMargin).reverse.dropWhile isMargin).reverse).filter fun char =>
    char ≠ '\t' ∧ char ≠ '\n' ∧ char ≠ '\r'

def check (address : String) : Except AddressFault Unit := do
  let rest ← afterScheme (cleaned address.toList)
  match rest with
  | '/' :: '/' :: rest => checkAuthority (rest.takeWhile fun char => !endsAuthority char)
  | _ => pure ()
  (parameters rest).forM fun (name, value) => checkParameter name value

end Address

end ScopedQuery
