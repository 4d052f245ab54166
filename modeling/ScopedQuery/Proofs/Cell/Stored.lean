import Mathlib.Tactic.FinCases
import ScopedQuery.Cell.Parameter
import ScopedQuery.Cell.Reading
import ScopedQuery.Proofs.Calendar.Rfc3339
import ScopedQuery.Proofs.Cell.Jsonb
import ScopedQuery.Proofs.Text.Bytes
import ScopedQuery.Proofs.Text.Utf8
import ScopedQuery.Proofs.Uuid
import ScopedQuery.Schema.Coercion
/-!
# Cells read and bound again

A cell is read as JSON, and JSON is brought to the kind of a column before it is bound. Both ways
together give back what was stored: for JSON, as far as its text is read as what it is.
-/

namespace ScopedQuery

/-- The year at UTC. -/
def Timestamp.year (instant : Timestamp) : Int := (Date.ofDays instant.day).year

inductive Stored
  | bool (value : Bool)
  | int2 (value : Int16)
  | int4 (value : Int32)
  | int8 (value : Int64)
  | text (value : String)
  | uuid (value : Uuid)
  | jsonb (value : Jsonb)
  /-- Microseconds since 2000. -/
  | timestamp (micros : Int64)

namespace Stored

def typeName : Stored → String
  | .bool _ => "BOOL"
  | .int2 _ => "INT2"
  | .int4 _ => "INT4"
  | .int8 _ => "INT8"
  | .text _ => "TEXT"
  | .uuid _ => "UUID"
  | .jsonb _ => "JSONB"
  | .timestamp _ => "TIMESTAMPTZ"

/-- The binary form. -/
def bytes : Stored → Bytes
  | .bool value => [if value then 1 else 0]
  | .int2 value => Bytes.ofInt 2 value.toInt
  | .int4 value => Bytes.ofInt 4 value.toInt
  | .int8 value => Bytes.ofInt 8 value.toInt
  | .text value => Bytes.ofText value
  | .uuid value => value.bytes
  | .jsonb value => Parameter.jsonVersion :: Bytes.ofChars value.chars
  | .timestamp micros => Bytes.ofInt 8 micros.toInt

def kind : Stored → Kind
  | .bool _ => .boolean
  | .int2 _ | .int4 _ | .int8 _ => .integer
  | .text _ => .text
  | .uuid _ => .uuid
  | .jsonb _ => .json
  | .timestamp _ => .timestamp

/-- That a value is the stored one. -/
inductive Denotes : Stored → Value → Prop
  | bool (value : Bool) : Denotes (.bool value) (.bool value)
  | int2 (value : Int16) : Denotes (.int2 value) (.int value.toInt)
  | int4 (value : Int32) : Denotes (.int4 value) (.int value.toInt)
  | int8 (value : Int64) : Denotes (.int8 value) (.int value.toInt)
  | text (value : String) : Denotes (.text value) (.text value)
  | uuid (value : Uuid) : Denotes (.uuid value) (.uuid value)
  | jsonb {value : Jsonb} {json : Json} (same : value.Denotes json) :
      Denotes (.jsonb value) (.json json)
  | timestamp {micros : Int64} {instant : Timestamp}
      (same : instant.nanos = (micros.toInt + Timestamp.epoch2000) * 1000) :
      Denotes (.timestamp micros) (.timestamp instant)

/-- No JSON null, and instants in years of at most four digits. -/
def InRange : Stored → Prop
  | .jsonb value => value ≠ .null
  | .timestamp micros =>
    let year := (Timestamp.ofMicros2000 micros.toInt).year
    0 ≤ year ∧ year ≤ 9999
  | _ => True

/-- Only JSON can be stored in forms that are not read as what they are. -/
def Readable : Stored → Prop
  | .jsonb value => value.Readable Json.maxDepth
  | _ => True

/-- That the cell is read, what is read fits the column, and what is then bound is what was stored.
-/
def ReadsBack (stored : Stored) : Prop :=
  ∃ json value, Cell.read stored.typeName (some stored.bytes) = .ok json
    ∧ stored.kind.ofJson? json = some value ∧ stored.Denotes value

/-! ### Reading -/

theorem readInt_ofInt (size : Nat) (number : Int) (some : 0 < size) (most : size ≤ 8)
    (low : -(256 ^ size : Nat) ≤ 2 * number) (high : 2 * number < (256 ^ size : Nat)) :
    Cell.readInt size (Bytes.ofInt size number) = .ok number := by
  have length := Bytes.length_ofInt size number
  have filled : (Bytes.ofInt size number).isEmpty = false := by
    rw [List.isEmpty_eq_false_iff, ← List.length_pos_iff, length]
    exact some
  have halves : 256 ^ size / 2 * 2 = 256 ^ size := by
    obtain ⟨size, rfl⟩ := Nat.exists_eq_succ_of_ne_zero (Nat.ne_of_gt some)
    rw [Nat.pow_succ]
    omega
  rw [Cell.readInt, filled, length, Bytes.toInt_ofInt low high]
  show (if false = true then _ else if 8 < size then _
    else if ((256 ^ size / 2 : Nat) : Int) ≤ number then _
    else if number < -((256 ^ size / 2 : Nat) : Int) then _ else _) = _
  rw [if_neg Bool.false_ne_true, if_neg (by omega), if_neg (by omega), if_neg (by omega)]

theorem ofJson?_int {number : Int} (low : -2 ^ 63 ≤ number) (high : number < 2 ^ 63) :
    Kind.integer.ofJson? (.int number) = some (.int number) := by
  have word : Text.isWord number = true := by
    rw [Text.isWord, Text.maxWord, Bool.and_eq_true, decide_eq_true_iff, decide_eq_true_iff]
    omega
  show (Json.Number.word? (.integer number)).map Value.int = _
  rw [Json.Number.word?, if_pos word]
  rfl

theorem readText_ofText (text : String) : Cell.readText (Bytes.ofText text) = .ok text := by
  show Cell.readText (Bytes.ofChars text.toList) = _
  rw [Cell.readText, Bytes.decodeUtf8_ofChars]
  exact congrArg Except.ok String.ofList_toList

theorem readUuid_bytes (uuid : Uuid) : Cell.readUuid uuid.bytes = .ok uuid := by
  rw [Cell.readUuid, if_pos uuid.length_bytes, Uuid.ofBytes_bytes]

theorem ofJson?_uuid (uuid : Uuid) :
    Kind.uuid.ofJson? (.string uuid.text) = some (.uuid uuid) := by
  show (Uuid.read? (Text.trim (String.ofList uuid.chars).toList)).map Value.uuid = _
  rw [String.toList_ofList, Uuid.trim_chars, Uuid.read?_chars]
  rfl

theorem rfc3339?_of_year {micros : Int} (least : 0 ≤ (Timestamp.ofMicros2000 micros).year)
    (most : (Timestamp.ofMicros2000 micros).year ≤ 9999) :
    ∃ chars, Timestamp.rfc3339? micros = some chars := by
  have day : (Timestamp.ofMicros2000 micros).day
      = (micros + Timestamp.epoch2000) / 86400000000 := by
    simp only [Timestamp.day, Timestamp.ofMicros2000, Timestamp.nanosPerDay,
      Timestamp.secondsPerDay, Timestamp.nanosPerSecond]
    omega
  rw [Timestamp.year, day] at least most
  rw [Timestamp.rfc3339?_eq]
  exact ⟨_, if_pos ⟨least, most⟩⟩

theorem readTimestamp_ofInt {micros : Int64} {chars : List Char}
    (written : Timestamp.rfc3339? micros.toInt = some chars) :
    Cell.readTimestamp (Bytes.ofInt 8 micros.toInt) = .ok (.string (String.ofList chars)) := by
  have low := micros.le_toInt
  have high := micros.toInt_lt
  rw [Cell.readTimestamp,
    readInt_ofInt 8 micros.toInt (by decide) (by decide) (by omega) (by omega)]
  simp only [bind, Except.bind, written]
  rfl

theorem ofJson?_timestamp {micros : Int} {chars : List Char}
    (written : Timestamp.rfc3339? micros = some chars) :
    Kind.timestamp.ofJson? (.string (String.ofList chars))
      = some (.timestamp (.ofMicros2000 micros)) := by
  show (Timestamp.read? (Text.trim (String.ofList chars).toList)).map Value.timestamp = _
  rw [String.toList_ofList, Timestamp.read?_rfc3339 written]
  rfl

theorem isNull_eq_false {stored : Jsonb} {json : Json} (same : stored.Denotes json)
    (some : stored ≠ .null) : json.isNull = false := by
  cases same with
  | null => exact absurd rfl some
  | _ => rfl

theorem ofJson?_json {json : Json} (some : json.isNull = false) :
    Kind.json.ofJson? json = .some (.json json) := by
  cases json with
  | null => cases some
  | _ => rfl

theorem eq_of_ofJson? {json json' : Json} (h : Kind.json.ofJson? json = some (.json json')) :
    json = json' := by
  cases json <;> cases h
  all_goals rfl

theorem read_jsonb (stored : Jsonb) :
    Cell.read "JSONB" (some (bytes (.jsonb stored)))
      = match Json.read (Json.letters stored.chars) with
        | .ok json => .ok json
        | .error fault => Cell.fail (.json (fault.message (Bytes.ofChars stored.chars))) := by
  show Cell.readJson (Bytes.ofChars stored.chars) = _
  rw [Cell.readJson, Letter.ofBytes_ofChars]
  rfl

/-- For JSON all depends on reading its text. -/
theorem readsBack_jsonb {stored : Jsonb} (some : stored ≠ .null) :
    (jsonb stored).ReadsBack
      ↔ ∃ json, Json.read (Json.letters stored.chars) = .ok json ∧ stored.Denotes json := by
  constructor
  · rintro ⟨json, value, read, given, denotes⟩
    cases denotes with
    | jsonb same =>
      obtain rfl := eq_of_ofJson? given
      refine ⟨json, ?_, same⟩
      rw [typeName, read_jsonb] at read
      split at read
      · next parsed => rw [parsed, Except.ok.inj read]
      · cases read
  · rintro ⟨json, read, denotes⟩
    refine ⟨json, .json json, ?_, ofJson?_json (isNull_eq_false denotes some), .jsonb denotes⟩
    rw [typeName, read_jsonb, read]

theorem readsBack (stored : Stored) (h : stored.InRange) (readable : stored.Readable) :
    stored.ReadsBack := by
  cases stored with
  | bool value => exact ⟨.bool value, _, by cases value <;> rfl, rfl, .bool value⟩
  | int2 value =>
    have low := value.le_toInt
    have high := value.toInt_lt
    have read := readInt_ofInt 2 value.toInt (by decide) (by decide) (by omega) (by omega)
    exact ⟨_, _, congrArg (Json.int <$> ·) read, ofJson?_int (by omega) (by omega), .int2 value⟩
  | int4 value =>
    have low := value.le_toInt
    have high := value.toInt_lt
    have read := readInt_ofInt 4 value.toInt (by decide) (by decide) (by omega) (by omega)
    exact ⟨_, _, congrArg (Json.int <$> ·) read, ofJson?_int (by omega) (by omega), .int4 value⟩
  | int8 value =>
    have low := value.le_toInt
    have high := value.toInt_lt
    have read := readInt_ofInt 8 value.toInt (by decide) (by decide) (by omega) (by omega)
    exact ⟨_, _, congrArg (Json.int <$> ·) read, ofJson?_int (by omega) (by omega), .int8 value⟩
  | text value =>
    have read := readText_ofText value
    exact ⟨_, _, congrArg (Json.string <$> ·) read, rfl, .text value⟩
  | uuid value =>
    have read := readUuid_bytes value
    exact ⟨_, _, congrArg ((fun uuid : Uuid => Json.string uuid.text) <$> ·) read,
      ofJson?_uuid value, .uuid value⟩
  | jsonb value => exact (readsBack_jsonb h).2 readable.exists_read
  | timestamp micros =>
    obtain ⟨chars, written⟩ := rfc3339?_of_year h.1 h.2
    exact ⟨_, _, readTimestamp_ofInt written, ofJson?_timestamp written, .timestamp rfl⟩

def order : Jsonb :=
  .object [("id", .number ⟨18446744073709551615, 0⟩), ("total", .number ⟨-1250, 2⟩),
    ("tags", .array [.string "new \"x\"", .bool true, .null])]

theorem readable_order {depth : Nat} : order.Readable (depth + 2) := by
  refine .object (by decide) (by decide) ?_
  intro field member
  fin_cases member
  · exact .number (.inl (.inl ⟨rfl, by decide, by decide⟩))
  · exact .number (.inl (.inr ⟨by decide, by decide⟩))
  · refine .array ?_
    intro item member
    fin_cases member
    · exact .string _
    · exact .bool true
    · exact .null

/-- A document, and the last microsecond before the year 2000. -/
theorem readsBack_of_order :
    ((jsonb order).InRange ∧ (jsonb order).Readable ∧ (jsonb order).ReadsBack)
      ∧ (timestamp (-1)).InRange ∧ (timestamp (-1)).Readable ∧ (timestamp (-1)).ReadsBack := by
  have some : (jsonb order).InRange := by exact nofun
  have year : (timestamp (-1)).InRange := ⟨by decide, by decide⟩
  exact ⟨⟨some, readable_order, readsBack _ some readable_order⟩, year, trivial,
    readsBack _ year trivial⟩

/-! ### Exceptions -/

/-- An empty array within so many others. -/
def nested : Nat → Jsonb
  | 0 => .array []
  | more + 1 => .array [nested more]

theorem chars_nested (more : Nat) : (nested more).chars = Json.brackets more := by
  induction more with
  | zero => rfl
  | succ more ih =>
    rw [nested, Jsonb.chars, ih]
    rfl

theorem nested_ne_null (more : Nat) : nested more ≠ .null := by
  cases more <;> exact nofun

theorem not_readsBack_nested {more : Nat} (deep : Json.maxDepth ≤ more) :
    ¬(jsonb (nested more)).ReadsBack := by
  rw [readsBack_jsonb (nested_ne_null more), chars_nested]
  rintro ⟨json, read, -⟩
  obtain ⟨fault, failed⟩ := Json.read_brackets deep
  rw [failed] at read
  cases read

/-- For numbers it is exactly being kept that counts. -/
theorem readsBack_number (fixed : Numeric.Fixed) :
    (jsonb (.number fixed)).ReadsBack ↔ fixed.Kept := by
  have some : Jsonb.number fixed ≠ .null := nofun
  rw [readsBack_jsonb some]
  constructor
  · rintro ⟨json, read, denotes⟩
    cases denotes with
    | number same =>
      refine ⟨_, ?_, same⟩
      rw [Json.read?, Letter.ofText, String.toList_ofList]
      exact congrArg Except.toOption read
  · exact fun kept => (Jsonb.Readable.number (.inr kept)).exists_read

/-- The least whole number beyond 64 bits that binary64 does not hold. -/
def wide : Numeric.Fixed := ⟨2 ^ 64 + 1, 0⟩

theorem not_kept_wide : ¬wide.Kept := by
  have exponent : (Json.wholeDigits 0 (Json.letters (Text.decimal wide.whole))).1.exponent = 1 := by
    decide +kernel
  have scaled : (Json.wholeDigits 0 (Json.letters (Text.decimal wide.whole))).1.scaled
      = some (.finite false (2 ^ 52) 1086) := by
    decide +kernel
  have shortest : Binary64.shortest (2 ^ 52) 1086 = (18446744073709552, 3) := by decide +kernel
  have reading : wide.reading [] = .number (.float (.finite false (2 ^ 52) 1086)) := by
    have whole : wide.places = 0 := rfl
    rw [Numeric.Fixed.reading, if_pos whole, Json.readFraction.plain,
      if_pos (by rw [exponent]; decide), Json.Mantissa.document, scaled]
    rfl
  rintro ⟨number, read, same⟩
  rw [Numeric.Fixed.read?_chars, reading] at read
  cases read
  rw [Json.Number.decimal?, Binary64.decimal?_finite (by decide), shortest, Option.some.injEq,
    Numeric.Fixed.value] at same
  norm_num [wide] at same

/-- An object that takes the form of one that holds text. -/
def disguised : Jsonb := .object [(Json.embeddedName, .string "1")]

theorem not_readsBack_disguised : ¬(jsonb disguised).ReadsBack := by
  have some : disguised ≠ .null := nofun
  rw [readsBack_jsonb some]
  rintro ⟨json, read, denotes⟩
  have digit : Numeric.Fixed.Common ⟨1, 0⟩ := .inr ⟨by decide, by decide⟩
  obtain ⟨number, -, held⟩ := digit.kept.exists_reads Json.maxDepth
  have embedding : Json.Reads (126 + 1) _ _ := .embedding Jsonb.gap_blank "1" held rfl
  have parsed : Json.readAll (Json.letters disguised.chars) = .ok _ := embedding.readAll
  rw [Json.read, parsed] at read
  cases read
  cases denotes

/-- JSON that is nested too deep, a number of too many digits, and an object that stands for
another value. -/
theorem not_readsBack_of_exceptions :
    ((jsonb (nested 127)).InRange ∧ ¬(jsonb (nested 127)).ReadsBack)
      ∧ ((jsonb (.number wide)).InRange ∧ ¬(jsonb (.number wide)).ReadsBack)
      ∧ (jsonb disguised).InRange ∧ ¬(jsonb disguised).ReadsBack := by
  refine ⟨⟨nested_ne_null _, not_readsBack_nested (Nat.le_refl _)⟩, ⟨nofun, ?_⟩, nofun,
    not_readsBack_disguised⟩
  rw [readsBack_number]
  exact not_kept_wide

end Stored

end ScopedQuery
