import ScopedQuery.Cell.Interval
import ScopedQuery.Cell.Numeric
import ScopedQuery.Json.Reading
import ScopedQuery.Schema.Table
/-!
# Cells of replies

A reply carries every cell in the binary form of its type. `Cell.read` makes JSON of a cell: a
null of any type is null, a type that is not known is a fault, and so are bytes that do not hold
what the type says. Numbers that JSON cannot hold become null, or text where the exact value would
be lost.
-/

namespace ScopedQuery

inductive ScalarType
  | bool
  | int2
  | int4
  | int8
  | float4
  | float8
  | numeric
  | text
  | json
  | jsonb
  | uuid
  | timestamp
  | date
  | time
  | interval
  | bytes
deriving DecidableEq

inductive CellType
  | scalar (type : ScalarType)
  | array (element : ScalarType)
deriving DecidableEq

namespace CellType

def elements : List (String × ScalarType) :=
  [("TEXT", .text), ("VARCHAR", .text), ("BOOL", .bool), ("INT2", .int2), ("INT4", .int4),
    ("INT8", .int8), ("FLOAT4", .float4), ("FLOAT8", .float8), ("NUMERIC", .numeric),
    ("UUID", .uuid), ("JSON", .json), ("JSONB", .jsonb)]

def scalars : List (String × ScalarType) :=
  elements ++
    [("CHAR", .text), ("BPCHAR", .text), ("NAME", .text), ("TIMESTAMPTZ", .timestamp),
      ("TIMESTAMP", .timestamp), ("DATE", .date), ("TIME", .time), ("INTERVAL", .interval),
      ("BYTEA", .bytes)]

def named : List (String × CellType) :=
  (scalars.map fun (name, type) => (name, .scalar type))
    ++ elements.map fun (name, element) => (name ++ "[]", .array element)

def ofName? (name : String) : Option CellType :=
  (named.find? fun entry => entry.1 = name).map Prod.snd

end CellType

inductive CellFault
  | unexpectedNull
  | cutShort
  | emptyInteger
  | longInteger (size : Nat)
  | integerTooLarge
  | integerTooSmall
  | utf8 (fault : Bytes.Utf8Fault)
  | json (message : String)
  | numericNotANumber
  | numericSign (word : Nat)
  | numericScale (scale : Int)
  | numericTooLarge
  | uuidSize (size : Nat)
  | dimensions (count : Int)
  | arrayLength (count : Int)
  | lowerBound (bound : Int)
  | elementLength (size : Int)
deriving DecidableEq

def CellFault.message : CellFault → String
  | .unexpectedNull => "unexpected null; try decoding as an `Option`"
  | .cutShort => "failed to fill whole buffer"
  | .emptyInteger => "Value Buffer found empty while decoding to integer type"
  | .longInteger size =>
    "Value Buffer exceeds 8 bytes while decoding to integer type. Buffer size = "
      ++ Text.decimalText size ++ " bytes "
  | .integerTooLarge => Text.NumeralFault.tooLarge.message
  | .integerTooSmall => Text.NumeralFault.tooSmall.message
  | .utf8 fault => fault.message
  | .json message => message
  | .numericNotANumber => "Decimal does not support NaN values"
  | .numericSign word =>
    "invalid value for PgNumericSign: 0x"
      ++ String.ofList (Text.padded 2 ((Nat.toDigits 16 word).map Char.toUpper))
  | .numericScale scale =>
    "invalid scale value for Pg Numeric: " ++ Text.signedDecimalText scale
  | .numericTooLarge => "value not representable as rust_decimal::Decimal"
  | .uuidSize size => "invalid length: expected 16 bytes, found " ++ Text.decimalText size
  | .dimensions count =>
    "encountered an array of " ++ Text.signedDecimalText count
      ++ " dimensions; only one-dimensional arrays are supported"
  | .arrayLength count =>
    "overflow converting array len (" ++ Text.signedDecimalText count ++ ") to usize"
  | .elementLength size =>
    "overflow converting element_len (" ++ Text.signedDecimalText size ++ ") to usize"
  | .lowerBound bound =>
    "encountered an array with a lower bound of " ++ Text.signedDecimalText bound
      ++ " in the first dimension; only arrays starting at one are supported"

namespace Cell

def fail {α : Type} (fault : CellFault) : Except Fault α :=
  .error (.database (.decoding fault.message))

/-- A whole number of at most eight bytes that must fit a signed word of `size` bytes. -/
def readInt (size : Nat) (bytes : Bytes) : Except Fault Int :=
  if bytes.isEmpty then fail .emptyInteger
  else if 8 < bytes.length then fail (.longInteger bytes.length)
  else
    let number := Bytes.toInt bytes
    let bound : Int := (Nat.pow 256 size / 2 : Nat)
    if bound ≤ number then fail .integerTooLarge
    else if number < -bound then fail .integerTooSmall
    else .ok number

def takeBytes (count : Nat) (bytes : Bytes) : Except Fault (Bytes × Bytes) :=
  match Bytes.take? count bytes with
  | some split => .ok split
  | none => fail .cutShort

def readText (bytes : Bytes) : Except Fault String :=
  match Bytes.decodeUtf8 bytes with
  | .ok chars => .ok (String.ofList chars)
  | .error fault => fail (.utf8 fault)

def readJson (bytes : Bytes) : Except Fault Json :=
  match Json.read (Letter.ofBytes bytes) with
  | .ok json => .ok json
  | .error fault => fail (.json (fault.message bytes))

/-- A decimal number of fixed precision. Without digits it is zero, whatever its scale. -/
def readFixed (bytes : Bytes) : Except Fault Numeric.Fixed :=
  match Numeric.readHeader bytes with
  | none => fail .cutShort
  | some (header, rest) =>
    if header.sign = Numeric.notANumber then fail .numericNotANumber
    else
      match Numeric.readWords header.count rest with
      | none => fail .cutShort
      | some (digits, _) =>
        if header.sign ≠ Numeric.positive ∧ header.sign ≠ Numeric.negative then
          fail (.numericSign header.sign)
        else if digits.isEmpty then .ok ⟨0, 0⟩
        else if header.scale < 0 then fail (.numericScale header.scale)
        else
          let numeric : Numeric := ⟨header.weight, header.sign, header.scale.toNat, digits⟩
          match numeric.fixed? (header.sign = Numeric.negative) with
          | some fixed => .ok fixed
          | none => fail .numericTooLarge

/-- A decimal number: as JSON number when it fits, else as its exact text when it has one. -/
def readNumeric (bytes : Bytes) : Except Fault Json :=
  match readFixed bytes with
  | .ok fixed => .ok fixed.toJson
  | .error fault =>
    match Numeric.read? bytes >>= Numeric.text? with
    | some text => .ok (.string text)
    | none => .error fault

def readTimestamp (bytes : Bytes) : Except Fault Json := do
  match Timestamp.rfc3339? (← readInt 8 bytes) with
  | some chars => return .string (String.ofList chars)
  | none => throw (.other "The year component cannot be formatted into the requested format.")

def daysTo2000 : Int := 10957

def readInterval (bytes : Bytes) : Except Fault Interval := do
  let (micros, rest) ← takeBytes 8 bytes
  let (days, rest) ← takeBytes 4 rest
  let (months, _) ← takeBytes 4 rest
  return ⟨Bytes.toInt months, Bytes.toInt days, Bytes.toInt micros⟩

def readUuid (bytes : Bytes) : Except Fault Uuid :=
  if bytes.length = 16 then .ok (Uuid.ofBytes bytes) else fail (.uuidSize bytes.length)

def readScalar (type : ScalarType) (bytes : Bytes) : Except Fault Json :=
  match type with
  | .bool => .ok (.bool (bytes.headD 0 ≠ 0))
  | .int2 => Json.int <$> readInt 2 bytes
  | .int4 => Json.int <$> readInt 4 bytes
  | .int8 => Json.int <$> readInt 8 bytes
  | .float4 => .ok (.ofBinary64 (.ofBits32 (Bytes.toNat (bytes.take 4))))
  | .float8 => .ok (.ofBinary64 (.ofBits (Bytes.toNat (bytes.take 8))))
  | .numeric => readNumeric bytes
  | .text => Json.string <$> readText bytes
  | .json => readJson bytes
  | .jsonb => readJson (bytes.drop 1)
  | .uuid => (fun uuid => Json.string uuid.text) <$> readUuid bytes
  | .timestamp => readTimestamp bytes
  | .date => do
    let days ← readInt 4 bytes
    return .string (String.ofList (Date.ofDays (days + daysTo2000)).chars)
  | .time => do
    let micros ← readInt 8 bytes
    return .string (String.ofList (DayTime.mk (micros % 86400000000).toNat).chars)
  | .interval => do return .string (String.ofList (← readInterval bytes).chars)
  | .bytes => .ok (.string (String.ofList (Bytes.base64 bytes)))

/-! ### Arrays -/

def jsonbNumber : Nat := 3802

def otherNumbers : List Nat :=
  [16, 17, 18, 19, 20, 21, 23, 25, 26, 114, 199, 600, 601, 602, 603, 604, 628, 629, 650, 651, 700,
    701, 705, 718, 719, 774, 775, 790, 791, 829, 869, 1000, 1001, 1002, 1003, 1005, 1007, 1009,
    1014, 1015, 1016, 1017, 1018, 1019, 1020, 1021, 1022, 1027, 1028, 1040, 1041, 1042, 1043, 1082,
    1083, 1114, 1115, 1182, 1183, 1184, 1185, 1186, 1187, 1231, 1266, 1270, 1560, 1561, 1562, 1563,
    1700, 2249, 2278, 2287, 2950, 2951, 3807, 3904, 3905, 3906, 3907, 3908, 3909, 3910, 3911, 3912,
    3913, 3926, 3927, 4072, 4073]

/-- The type by which the elements of an array are read. It is the one that the column declares,
whatever number the array gives; but JSON has two binary forms, and of them the number chooses, if
it is known. -/
def elementType (declared : ScalarType) (number : Nat) : ScalarType :=
  if declared ≠ .json ∧ declared ≠ .jsonb then declared
  else if number = jsonbNumber then .jsonb
  else if number ∈ otherNumbers then .json
  else declared

/-- An element of an array. Unlike a cell it may not be null, and a decimal number must have fixed
precision. -/
def readElement (type : ScalarType) : Option Bytes → Except Fault Json
  | none => fail .unexpectedNull
  | some bytes =>
    if type = .numeric then Numeric.Fixed.toJson <$> readFixed bytes else readScalar type bytes

/-- The elements of an array: a size and so many bytes each, or the size -1 for a null. -/
def readElements (type : ScalarType) : Nat → Bytes → Except Fault (List Json)
  | 0, _ => .ok []
  | count + 1, bytes => do
    let (size, rest) ← takeBytes 4 bytes
    let size := Bytes.toInt size
    if size = -1 then
      let element ← readElement type none
      return element :: (← readElements type count rest)
    if size < 0 then fail (.elementLength size)
    let (content, rest) ← takeBytes size.toNat rest
    let element ← readElement type (some content)
    return element :: (← readElements type count rest)

/-- An array of one dimension, whose elements are counted from one. -/
def readArray (declared : ScalarType) (bytes : Bytes) : Except Fault (List Json) := do
  let (dimensions, rest) ← takeBytes 4 bytes
  if Bytes.toInt dimensions = 0 then return []
  if Bytes.toInt dimensions ≠ 1 then fail (.dimensions (Bytes.toInt dimensions))
  let (_, rest) ← takeBytes 4 rest
  let (number, rest) ← takeBytes 4 rest
  let (count, rest) ← takeBytes 4 rest
  if Bytes.toInt count < 0 then fail (.arrayLength (Bytes.toInt count))
  let (bound, rest) ← takeBytes 4 rest
  if Bytes.toInt bound ≠ 1 then fail (.lowerBound (Bytes.toInt bound))
  readElements (elementType declared (Bytes.toNat number)) (Bytes.toNat count) rest

def readTyped (type : CellType) (bytes : Bytes) : Except Fault Json :=
  match type with
  | .array declared => Json.array <$> readArray declared bytes
  | .scalar type => readScalar type bytes

def read (typeName : String) : Option Bytes → Except Fault Json
  | none => .ok .null
  | some bytes =>
    match CellType.ofName? typeName with
    | some type => readTyped type bytes
    | none => .error (.unsupportedType typeName)

end Cell

structure Reply where
  /-- The names and the type names of the columns. -/
  columns : List (String × String)
  rows : List (List (Option Bytes))
  refusal : Option DatabaseFault

namespace Reply

def nothing : Reply := ⟨[], [], none⟩

/-- A row of cells. A column name that is repeated keeps its first place and its last value. -/
def readRow (columns : List (String × String)) (cells : List (Option Bytes)) :
    Except Fault Row := do
  let values ← (columns.zip cells).mapM fun ((name, type), cell) => do
    return (name, ← Cell.read type cell)
  return .ofList values

def readRows (reply : Reply) : Except Fault (List Row) :=
  match reply.refusal with
  | some fault => .error (.database fault)
  | none => reply.rows.mapM (readRow reply.columns)

end Reply

end ScopedQuery
