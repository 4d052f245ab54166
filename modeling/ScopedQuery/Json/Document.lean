import ScopedQuery.Json.Basic
import ScopedQuery.Text.Letter
/-!
# JSON documents

A document is JSON as it stands in a text: fields in the order written, names possibly repeated.
Some texts that keep the grammar still write no value, such as a number beyond the range of
binary64, an escape of half a surrogate pair, or a string that is not UTF-8. Where such a part
stands, the document has `refused`, so that a reader who skips the part can go on and one who needs
it gets the reason.

An object can also stand for another value: one whose first field has the name `embeddedName` holds
JSON text in that field, and has the value of that text. The document has `embedding` for it.

`Document.value` is the value a document writes, `Json.document` the document that writes a value,
and `Document.chars` its compact text.
-/

namespace ScopedQuery

namespace Json

/-- The name of the field that holds JSON text. -/
def embeddedName : String := "$serde_json::private::RawValue"

/-- What stands where JSON text should. -/
inductive Found
  | null
  | bool (value : Bool)
  | number (value : Number)
  | list
  | map
deriving DecidableEq

def Found.text : Found → String
  | .null => "null"
  | .bool true => "boolean `true`"
  | .bool false => "boolean `false`"
  | .number (.integer value) => "integer `" ++ Text.signedDecimalText value ++ "`"
  | .number (.float value) => "floating point `" ++ String.ofList value.chars ++ "`"
  | .list => "sequence"
  | .map => "map"

/-- Why a text is not a document, or a part of a document writes no value. -/
inductive Cause
  | endInList
  | endInObject
  | endInString
  | endInValue
  | colonExpected
  | listCommaOrEndExpected
  | objectCommaOrEndExpected
  | identExpected
  | valueExpected
  | invalidEscape
  | invalidNumber
  | numberOutOfRange
  | controlCharacter
  | keyNotString
  | loneSurrogate
  | endOfHexEscape
  | invalidCodePoint
  | trailingComma
  | trailingCharacters
  | tooDeep
  | textExpected (found : Found)
deriving DecidableEq

def Cause.message : Cause → String
  | .endInList => "EOF while parsing a list"
  | .endInObject => "EOF while parsing an object"
  | .endInString => "EOF while parsing a string"
  | .endInValue => "EOF while parsing a value"
  | .colonExpected => "expected `:`"
  | .listCommaOrEndExpected => "expected `,` or `]`"
  | .objectCommaOrEndExpected => "expected `,` or `\x7d`"
  | .identExpected => "expected ident"
  | .valueExpected => "expected value"
  | .invalidEscape => "invalid escape"
  | .invalidNumber => "invalid number"
  | .numberOutOfRange => "number out of range"
  | .controlCharacter => "control character (\\u0000-\\u001F) found while parsing a string"
  | .keyNotString => "key must be a string"
  | .loneSurrogate => "lone leading surrogate in hex escape"
  | .endOfHexEscape => "unexpected end of hex escape"
  | .invalidCodePoint => "invalid unicode code point"
  | .trailingComma => "trailing comma"
  | .trailingCharacters => "trailing characters"
  | .tooDeep => "recursion limit exceeded"
  | .textExpected found => "invalid type: " ++ found.text ++ ", expected raw value"

inductive Fault
  /-- A cause and the place: the text from there on, and how many bytes of it count as read. -/
  | before (cause : Cause) (rest : List Letter) (ahead : Nat)
  /-- A fault in a text that stands in the text; its place is the place in there. -/
  | inside (text : String) (fault : Fault)
deriving DecidableEq

end Json

inductive Document
  | null
  | bool (value : Bool)
  | number (value : Json.Number)
  | string (value : String)
  | array (items : List Document)
  | object (fields : List (String × Document))
  /-- An object that stands for another value, if the text that it holds writes one. -/
  | embedding (written : Document) (value : Except Json.Fault Json)
  | refused (fault : Json.Fault)
deriving Inhabited

namespace Document

/-- The document without regard to what it stands for. -/
def asWritten : Document → Document
  | .embedding written _ => written
  | document => document

mutual

def value : Document → Except Json.Fault Json
  | .null => .ok .null
  | .bool value => .ok (.bool value)
  | .number value => .ok (.number value)
  | .string value => .ok (.string value)
  | .array items => do return .array (← values items)
  | .object fields => do return .object (← fieldValues fields)
  | .embedding _ value => value
  | .refused fault => .error fault

def values : List Document → Except Json.Fault (List Json)
  | [] => .ok []
  | item :: rest => do
    let item ← value item
    return item :: (← values rest)

/-- The fields in ascending order; of two fields of one name the later counts. -/
def fieldValues : List (String × Document) → Except Json.Fault (List (String × Json))
  | [] => .ok []
  | (name, item) :: rest => do
    let item ← value item
    return Json.field name item (← fieldValues rest)

end

/-! ### Text -/

def hexDigits (code : Nat) : List Char :=
  [Nat.digitChar (code / 16), Nat.digitChar (code % 16)]

/-- A character inside a quoted string: only the quote, the backslash and the control characters are
escaped, the usual ones by a letter. -/
def escaped (char : Char) : List Char :=
  if char = '"' then ['\\', '"']
  else if char = '\\' then ['\\', '\\']
  else if char.toNat < 0x20 then
    if char.toNat = 8 then ['\\', 'b']
    else if char = '\t' then ['\\', 't']
    else if char = '\n' then ['\\', 'n']
    else if char.toNat = 12 then ['\\', 'f']
    else if char = '\r' then ['\\', 'r']
    else '\\' :: 'u' :: '0' :: '0' :: hexDigits char.toNat
  else [char]

def quoted (text : String) : List Char :=
  '"' :: (text.toList.flatMap escaped ++ ['"'])

mutual

/-- The compact text. A refused part has none. -/
def chars : Document → List Char
  | .null => ['n', 'u', 'l', 'l']
  | .bool true => ['t', 'r', 'u', 'e']
  | .bool false => ['f', 'a', 'l', 's', 'e']
  | .number value => value.chars
  | .string value => quoted value
  | .array [] => ['[', ']']
  | .array (item :: rest) => '[' :: (chars item ++ itemChars rest)
  | .object [] => ['{', '}']
  | .object ((name, item) :: rest) => '{' :: (quoted name ++ ':' :: (chars item ++ fieldChars rest))
  | .embedding written _ => chars written
  | .refused _ => []

def itemChars : List Document → List Char
  | [] => [']']
  | item :: rest => ',' :: (chars item ++ itemChars rest)

def fieldChars : List (String × Document) → List Char
  | [] => ['}']
  | (name, item) :: rest => ',' :: (quoted name ++ ':' :: (chars item ++ fieldChars rest))

end

def text (document : Document) : String :=
  String.ofList document.chars

end Document

namespace Json

mutual

def document : Json → Document
  | .null => .null
  | .bool value => .bool value
  | .number value => .number value
  | .string value => .string value
  | .array items => .array (documents items)
  | .object fields => .object (fieldDocuments fields)

def documents : List Json → List Document
  | [] => []
  | item :: rest => document item :: documents rest

def fieldDocuments : List (String × Json) → List (String × Document)
  | [] => []
  | (name, item) :: rest => (name, document item) :: fieldDocuments rest

end

def text (json : Json) : String := json.document.text

end Json

end ScopedQuery
