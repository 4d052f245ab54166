import ScopedQuery.Json.Document
/-!
# Reading JSON text

`Document.read?` reads a whole text, with blanks (space, tab, line feed, carriage return) allowed
between its parts and nothing after it. Arrays and objects may be nested 127 deep; deeper ones are
refused. `Json.read` gives the value.

An object that holds JSON text has the value of that text, which is read like a whole text of its
own, with 127 nested arrays and objects again; and it may have no second field.

Of several faults the first one counts. A part that writes no value is a fault where that shows, so
it comes before whatever breaks the grammar behind it.

A number without fraction and exponent that fits a 64-bit word is whole. Any other number is read
as its leading digits, as many as fit an unsigned 64-bit word, times or divided by one power of
ten; so a number with many digits may come out as a neighbour of the nearest one.
-/

namespace ScopedQuery.Json

abbrev Part (α : Type) := Except Fault (α × List Letter)

/-- A fault in the next letter, whose first byte counts as read. -/
def failAt {α : Type} (cause : Cause) (text : List Letter) : Except Fault α :=
  .error (.before cause text 1)

/-- A part for which there already is a fault, read on only to find its end. -/
def faulty {α β : Type} (fault : Fault) : Part α → Part (Except Fault β)
  | .ok (_, rest) => .ok (.error fault, rest)
  | .error _ => .error fault

def isSpace (letter : Letter) : Bool :=
  letter = .char ' ' || letter = .char '\t' || letter = .char '\n' || letter = .char '\r'

def skipSpace (text : List Letter) : List Letter := text.dropWhile isSpace

/-! ### Numbers -/

/-- The digits kept of a number so far, and how many further powers of ten it is worth. -/
structure Mantissa where
  digits : Nat
  exponent : Int

/-- Digits before the point: once a digit does not fit, it and all that follow only count. -/
def wholeDigits (digits : Nat) : List Letter → Mantissa × List Letter
  | [] => (⟨digits, 0⟩, [])
  | letter :: rest =>
    match letter.digit? with
    | none => (⟨digits, 0⟩, letter :: rest)
    | some value =>
      if Text.maxCount < digits * 10 + value then
        let after := rest.dropWhile Letter.isDigit
        (⟨digits, 1 + ((rest.length - after.length : Nat) : Int)⟩, after)
      else wholeDigits (digits * 10 + value) rest

/-- Digits after the point: once a digit does not fit, it and all that follow are dropped. -/
def fractionDigits (mantissa : Mantissa) : List Letter → Mantissa × List Letter
  | [] => (mantissa, [])
  | letter :: rest =>
    match letter.digit? with
    | none => (mantissa, letter :: rest)
    | some value =>
      if Text.maxCount < mantissa.digits * 10 + value then (mantissa, rest.dropWhile Letter.isDigit)
      else fractionDigits ⟨mantissa.digits * 10 + value, mantissa.exponent - 1⟩ rest

def maxExponent : Nat := 0x7FFFFFFF

/-- Digits of an exponent after digits that gave `places`; or nothing, with what follows the first
digit that makes it too large. -/
def exponentDigits (places : Nat) : List Letter → Option Nat × List Letter
  | [] => (some places, [])
  | letter :: rest =>
    match letter.digit? with
    | none => (some places, letter :: rest)
    | some value =>
      if maxExponent < places * 10 + value then (none, rest)
      else exponentDigits (places * 10 + value) rest

/-- `digits · 10 ^ exponent`, or nothing when that is beyond the range. -/
def Mantissa.scaled (mantissa : Mantissa) : Option Binary64 :=
  let digits := Binary64.ofInt mantissa.digits
  let places := mantissa.exponent.natAbs
  if 0 ≤ mantissa.exponent then
    if places ≤ 308 then
      let scaled := digits.mul (.powerOfTen places)
      if scaled.isFinite then some scaled else none
    else if digits.isZero then some digits
    else none
  else if places ≤ 308 then some (digits.div (.powerOfTen places))
  else if places ≤ 616 then
    some ((digits.div (.powerOfTen 308)).div (.powerOfTen (places - 308)))
  else some (.zero false)

def Mantissa.document (mantissa : Mantissa) (negative : Bool) (rest : List Letter) : Document :=
  match mantissa.scaled with
  | some scaled => .number (.float (if negative then scaled.negate else scaled))
  | none => .refused (.before .numberOutOfRange rest 0)

/-- The number a mantissa gives with an exponent that is too large to count, and the digits of the
exponent not yet read. -/
def Mantissa.extreme (mantissa : Mantissa) (negative down : Bool) (rest : List Letter) : Document :=
  if down ∨ mantissa.digits = 0 then .number (.float (.zero negative))
  else .refused (.before .numberOutOfRange rest 0)

def readExponent (mantissa : Mantissa) (negative : Bool) (text : List Letter) : Part Document :=
  let (down, text) := match text with
    | .char '+' :: rest => (false, rest)
    | .char '-' :: rest => (true, rest)
    | _ => (false, text)
  match text with
  | [] => failAt .endInValue []
  | letter :: rest =>
    match letter.digit? with
    | none => failAt .invalidNumber (letter :: rest)
    | some value =>
      match exponentDigits value rest with
      | (some places, after) =>
        let exponent := if down then mantissa.exponent - places else mantissa.exponent + places
        .ok (Mantissa.document ⟨mantissa.digits, exponent⟩ negative after, after)
      | (none, after) =>
        .ok (mantissa.extreme negative down after, after.dropWhile Letter.isDigit)

def readFraction (mantissa : Mantissa) (negative : Bool) : List Letter → Part Document
  | .char '.' :: rest =>
    match rest with
    | [] => failAt .endInValue []
    | letter :: _ =>
      if letter.isDigit then
        let (mantissa, after) := fractionDigits mantissa rest
        match after with
        | mark :: afterMark =>
          if mark = .char 'e' ∨ mark = .char 'E' then readExponent mantissa negative afterMark
          else .ok (mantissa.document negative after, after)
        | [] => .ok (mantissa.document negative [], [])
      else failAt .invalidNumber rest
  | text =>
    match text with
    | mark :: rest =>
      if mark = .char 'e' ∨ mark = .char 'E' then readExponent mantissa negative rest
      else .ok (plain text, text)
    | [] => .ok (plain [], [])
where
  plain (rest : List Letter) : Document :=
    if mantissa.exponent ≠ 0 then mantissa.document negative rest
    else if negative then
      if mantissa.digits = 0 ∨ Text.maxWord + 1 < mantissa.digits then
        .number (.float (Binary64.ofInt mantissa.digits).negate)
      else .number (.integer (-(mantissa.digits : Int)))
    else .number (.integer mantissa.digits)

def readMagnitude (negative : Bool) : List Letter → Part Document
  | [] => failAt .endInValue []
  | .char '0' :: rest =>
    match rest with
    | letter :: _ =>
      if letter.isDigit then failAt .invalidNumber rest else readFraction ⟨0, 0⟩ negative rest
    | [] => readFraction ⟨0, 0⟩ negative []
  | letter :: rest =>
    if letter.isDigit then
      let (mantissa, after) := wholeDigits 0 (letter :: rest)
      readFraction mantissa negative after
    else failAt .invalidNumber (letter :: rest)

/-! ### Strings -/

def plainEscape (letter : Letter) : Option Char :=
  match letter.char? with
  | none => none
  | some char =>
    if char = '"' ∨ char = '\\' ∨ char = '/' then some char
    else if char = 'b' then some (Char.ofNat 8)
    else if char = 'f' then some (Char.ofNat 12)
    else if char = 'n' then some '\n'
    else if char = 'r' then some '\r'
    else if char = 't' then some '\t'
    else none

abbrev Content := Except Fault (List Letter)

def Content.push (char : Char) (content : Content) : Content :=
  content.map fun letters => .char char :: letters

/-- A part of a string that must not come first after the first half of a surrogate pair. -/
def unpaired (half : Option Nat) (text : List Letter) (part : Part Content) : Part Content :=
  match half with
  | none => part
  | some _ => faulty (.before .endOfHexEscape text 1) part

/-- A `\u` escape without four hexadecimal digits; always four bytes are taken for them. -/
def failHex {α : Type} (text : List Letter) : Except Fault α :=
  if Letter.totalSize text < 4 then failAt .endInString []
  else .error (.before .invalidEscape text 4)

/-- A quoted string after its opening quote. `half` is the code of a `\u` escape just read when
that is the first half of a surrogate pair, whose other half must follow at once. -/
def readContent (half : Option Nat) : List Letter → Part Content
  | [] => failAt .endInString []
  | .char '"' :: rest => unpaired half (.char '"' :: rest) (.ok (.ok [], rest))
  | .char '\\' :: .char 'u' :: .char a :: .char b :: .char c :: .char d :: rest =>
    match Text.readHex [a, b, c, d] with
    | none => failHex (.char a :: .char b :: .char c :: .char d :: rest)
    | some code =>
      let ends := 0xDC00 ≤ code && code < 0xE000
      match half with
      | some high =>
        if ends then
          let char := Char.ofNat (0x10000 + (high - 0xD800) * 1024 + (code - 0xDC00))
          (readContent none rest).map fun (content, rest) => (content.push char, rest)
        else faulty (.before .loneSurrogate rest 0) (readContent none rest)
      | none =>
        if ends then faulty (.before .loneSurrogate rest 0) (readContent none rest)
        else if 0xD800 ≤ code ∧ code < 0xDC00 then readContent (some code) rest
        else (readContent none rest).map fun (content, rest) =>
          (content.push (Char.ofNat code), rest)
  | .char '\\' :: .char 'u' :: rest => failHex rest
  | .char '\\' :: letter :: rest =>
    unpaired half (letter :: rest) <|
      match plainEscape letter with
      | some char => (readContent none rest).map fun (content, rest) => (content.push char, rest)
      | none => failAt .invalidEscape (letter :: rest)
  | [.char '\\'] => failAt .endInString []
  | letter :: rest =>
    unpaired half (letter :: rest) <|
      if isControl letter then failAt .controlCharacter (letter :: rest)
      else (readContent none rest).map fun (content, rest) =>
        (content.map fun letters => letter :: letters, rest)
where
  isControl (letter : Letter) : Bool :=
    match letter.char? with
    | some char => char.toNat < 0x20
    | none => false

/-- A string after its opening quote, or the fault for which it writes none. That it is not UTF-8
shows at its end, in the first stray byte. -/
def readString (text : List Letter) : Part (Except Fault String) :=
  (readContent none text).map fun (content, rest) =>
    (content.bind fun letters =>
      match letters.mapM Letter.char? with
      | some chars => .ok (String.ofList chars)
      | none => failAt .invalidCodePoint (text.dropWhile fun letter => letter.char?.isSome), rest)

/-! ### Documents -/

def readWord (document : Document) : List Char → List Letter → Part Document
  | [], text => .ok (document, text)
  | _ :: _, [] => failAt .endInValue []
  | char :: chars, letter :: rest =>
    if letter = .char char then readWord document chars rest
    else failAt .identExpected (letter :: rest)

def orRefused {α : Type} (document : α → Document) : Except Fault α → Document
  | .ok content => document content
  | .error fault => .refused fault

def firstOf {α : Type} : Except Fault α → Fault → Fault
  | .ok _, later => later
  | .error fault, _ => fault

def firstFault (document : Document) (later : Fault) : Fault :=
  firstOf document.value later

def complete : Document × List Letter → Except Fault Document
  | (document, rest) =>
    match skipSpace rest with
    | [] => .ok document
    | letter :: rest =>
      .error (firstFault document (.before .trailingCharacters (letter :: rest) 1))

/-- The text that a document is, with `rest` behind it. -/
def textIn (rest : List Letter) : Document → Except Fault String
  | .string text => .ok text
  | .refused fault => .error fault
  | .null => wrong .null
  | .bool value => wrong (.bool value)
  | .number value => wrong (.number value)
  | .array _ => wrong .list
  | .object _ | .embedding _ _ => wrong .map
where
  wrong (found : Found) : Except Fault String :=
    .error (.before (.textExpected found) rest 0)

def readEnd (text : List Letter) : Except Fault Unit :=
  match skipSpace text with
  | [] => failAt .endInObject []
  | .char '}' :: _ => .ok ()
  | .char ',' :: rest => failAt .trailingComma (.char ',' :: rest)
  | letter :: rest => failAt .trailingCharacters (letter :: rest)

def maxDepth : Nat := 127

abbrev Fields := Except Fault (List (String × Document))

mutual

/-- Reads a document of at most `depth` nested arrays and objects, refusing deeper ones. Every call
takes from the `fuel`, and three for each letter and three more are enough. -/
def readDocument : Nat → Nat → List Letter → Part Document
  | 0, _, text => failAt .valueExpected text
  | fuel + 1, depth, text =>
    match skipSpace text with
    | [] => failAt .endInValue []
    | .char '"' :: rest =>
      (readString rest).map fun (content, rest) => (orRefused .string content, rest)
    | .char '[' :: rest =>
      (nested depth (.char '[' :: rest) (readItems fuel (depth - 1) true rest)).map
        fun (items, rest) => (orRefused .array items, rest)
    | .char '{' :: rest =>
      (nested depth (.char '{' :: rest) (readObject fuel (depth - 1) rest)).map
        fun (written, rest) => (orRefused id written, rest)
    | .char 'n' :: rest => readWord .null ['u', 'l', 'l'] rest
    | .char 't' :: rest => readWord (.bool true) ['r', 'u', 'e'] rest
    | .char 'f' :: rest => readWord (.bool false) ['a', 'l', 's', 'e'] rest
    | .char '-' :: rest => readMagnitude true rest
    | letter :: rest =>
      if letter.isDigit then readMagnitude false (letter :: rest)
      else failAt .valueExpected (letter :: rest)
where
  nested {α : Type} (depth : Nat) (text : List Letter) (part : Part α) : Part (Except Fault α) :=
    if depth = 0 then faulty (.before .tooDeep text 1) part
    else part.map fun (content, rest) => (.ok content, rest)

/-- The items of an array and its closing bracket; `first` says that none has been read yet. -/
def readItems : Nat → Nat → Bool → List Letter → Part (List Document)
  | 0, _, _, text => failAt .valueExpected text
  | fuel + 1, depth, first, text =>
    match skipSpace text with
    | [] => failAt .endInList []
    | .char ']' :: rest => .ok ([], rest)
    | letter :: rest =>
      if first then readItem fuel depth (letter :: rest)
      else if letter = .char ',' then
        match skipSpace rest with
        | [] => failAt .endInValue []
        | .char ']' :: rest => failAt .trailingComma (.char ']' :: rest)
        | letter :: rest => readItem fuel depth (letter :: rest)
      else failAt .listCommaOrEndExpected (letter :: rest)

def readItem : Nat → Nat → List Letter → Except Fault (List Document × List Letter)
  | 0, _, text => failAt .valueExpected text
  | fuel + 1, depth, text => do
    let (item, rest) ← readDocument fuel depth text
    let (items, rest) ← (readItems fuel depth false rest).mapError (firstFault item)
    return (item :: items, rest)

/-- An object after its opening brace. Its first name says whether it stands for another value. -/
def readObject : Nat → Nat → List Letter → Except Fault (Document × List Letter)
  | 0, _, text => failAt .valueExpected text
  | fuel + 1, depth, text =>
    match skipSpace text with
    | [] => failAt .endInObject []
    | .char '}' :: rest => .ok (.object [], rest)
    | .char '"' :: rest => do
      let (name, rest) ← readString rest
      match name with
      | .ok name =>
        if name = embeddedName then
          let value := readEmbedded fuel rest
          let (fields, rest) ← (readNamed fuel depth name rest).mapError (firstOf value)
          let document := fun fields => .embedding (.object fields) value
          return (orRefused document (fields.mapError (firstOf value)), rest)
        else
          let (fields, rest) ← readNamed fuel depth name rest
          return (orRefused .object fields, rest)
      | .error fault =>
        (faulty fault (readNamed fuel depth "" rest)).map
          fun (fields, rest) => (orRefused .object fields, rest)
    | letter :: rest => failAt .keyNotString (letter :: rest)

def readFields : Nat → Nat → List Letter → Except Fault (Fields × List Letter)
  | 0, _, text => failAt .valueExpected text
  | fuel + 1, depth, text =>
    match skipSpace text with
    | [] => failAt .endInObject []
    | .char '}' :: rest => .ok (.ok [], rest)
    | .char ',' :: rest =>
      match skipSpace rest with
      | [] => failAt .endInValue []
      | .char '"' :: rest => do
        let (name, rest) ← readString rest
        match name with
        | .ok name => readNamed fuel depth name rest
        | .error fault => faulty fault (readNamed fuel depth "" rest)
      | .char '}' :: rest => failAt .trailingComma (.char '}' :: rest)
      | letter :: rest => failAt .keyNotString (letter :: rest)
    | letter :: rest => failAt .objectCommaOrEndExpected (letter :: rest)

def readNamed : Nat → Nat → String → List Letter → Except Fault (Fields × List Letter)
  | 0, _, _, text => failAt .valueExpected text
  | fuel + 1, depth, name, text =>
    match skipSpace text with
    | [] => failAt .endInObject []
    | .char ':' :: rest => do
      let (item, rest) ← readDocument fuel depth rest
      let (fields, rest) ← (readFields fuel depth rest).mapError (firstFault item)
      return ((fields.map fun fields => (name, item) :: fields).mapError (firstFault item), rest)
    | letter :: rest => failAt .colonExpected (letter :: rest)

/-- The value of the JSON text that an object holds, from behind the name of its only field. -/
def readEmbedded : Nat → List Letter → Except Fault Json
  | 0, text => failAt .valueExpected text
  | fuel + 1, text =>
    match skipSpace text with
    | [] => failAt .endInObject []
    | .char ':' :: rest =>
      match skipSpace rest with
      | .char '[' :: rest => .error (.before (.textExpected .list) (.char '[' :: rest) 0)
      | .char '{' :: rest => .error (.before (.textExpected .map) (.char '{' :: rest) 0)
      | text => do
        let (document, rest) ← readDocument fuel 0 text
        let content ← textIn rest document
        let held := (readDocument fuel maxDepth (Letter.ofText content)).bind complete
        let value ← (held.bind Document.value).mapError (.inside content)
        readEnd rest
        return value
    | letter :: rest => failAt .colonExpected (letter :: rest)

end

def readAll (text : List Letter) : Except Fault Document :=
  (readDocument (3 * text.length + 3) maxDepth text).bind complete

def read (text : List Letter) : Except Fault Json :=
  readAll text >>= Document.value

def read? (text : String) : Option Json :=
  (read (Letter.ofText text)).toOption

/-! ### The place of a fault -/

/-- The line, and the column in bytes, after these bytes. -/
def place (bytes : Bytes) : Nat × Nat :=
  bytes.foldl
    (fun (line, column) (byte : UInt8) =>
      if byte = 0x0A then (line + 1, 0) else (line, column + 1))
    (1, 0)

def Fault.message (bytes : Bytes) : Fault → String
  | .before cause rest ahead =>
    let (line, column) := place (bytes.take (bytes.length - (Letter.totalSize rest - ahead)))
    cause.message ++ " at line " ++ Text.decimalText line ++ " column " ++ Text.decimalText column
  | .inside text fault => fault.message (Bytes.ofText text)

end ScopedQuery.Json

namespace ScopedQuery

def Document.read? (text : String) : Option Document :=
  (Json.readAll (Letter.ofText text)).toOption

end ScopedQuery
