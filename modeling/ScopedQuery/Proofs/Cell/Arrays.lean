import Mathlib.Data.List.Forall2
import Mathlib.Tactic.SplitIfs
import ScopedQuery.Proofs.Cell.Stored
import ScopedQuery.Proofs.Cell.WholeNumbers
import ScopedQuery.Proofs.Result
/-!
# Arrays and their elements

An array of one dimension is sent as a count, a lower bound and the elements, each with its size.
Its JSON is made of what its elements would be as cells (`read_array_eq_ok`), with two exceptions:
an element may not be null, and no decimal number may need its text.
-/

namespace ScopedQuery

/-- An array of one dimension. -/
structure FlatArray where
  /-- What the form says of nulls; it is the sizes of the elements that count. -/
  nulls : Bool
  lower : Int
  /-- The bytes of the elements; a null has none. -/
  elements : List (Option Bytes)

namespace FlatArray

def elementBytes : Option Bytes → Bytes
  | none => Bytes.ofInt 4 (-1)
  | some content => Bytes.ofInt 4 content.length ++ content

def bytes (number : Nat) (array : FlatArray) : Bytes :=
  Bytes.ofInt 4 1 ++ (Bytes.ofNat 4 (if array.nulls then 1 else 0) ++ (Bytes.ofNat 4 number
    ++ (Bytes.ofInt 4 array.elements.length ++ (Bytes.ofInt 4 array.lower
      ++ array.elements.flatMap elementBytes))))

/-- An array without elements may also be sent without a dimension. -/
def emptyBytes (number : Nat) (nulls : Bool) : Bytes :=
  Bytes.ofInt 4 0 ++ (Bytes.ofNat 4 (if nulls then 1 else 0) ++ Bytes.ofNat 4 number)

/-- All counts fit a signed word of four bytes. -/
structure Sendable (array : FlatArray) : Prop where
  lower : -(2 ^ 31) ≤ array.lower ∧ array.lower < 2 ^ 31
  count : array.elements.length < 2 ^ 31
  sizes : ∀ content, some content ∈ array.elements → content.length < 2 ^ 31

end FlatArray

theorem Bytes.toNat_eq_toNat_toInt {bytes : Bytes} (h : 0 ≤ toInt bytes) :
    toNat bytes = (toInt bytes).toNat := by
  have small := toNat_lt bytes
  have value : toInt bytes = if 2 * toNat bytes < 256 ^ bytes.length then (toNat bytes : Int)
      else (toNat bytes : Int) - (256 ^ bytes.length : Nat) := rfl
  rw [value] at h ⊢
  split_ifs at h ⊢ <;> omega

namespace Cell

open FlatArray

/-! ### Reading what is sent -/

theorem takeBytes_append {word : Bytes} {count : Nat} (h : word.length = count) (rest : Bytes) :
    takeBytes count (word ++ rest) = .ok (word, rest) := by
  have enough : count ≤ (word ++ rest).length := by
    rw [List.length_append]
    omega
  rw [takeBytes, Bytes.take?, if_pos enough, List.take_left' h, List.drop_left' h]

theorem takeBytes_ofInt (count : Nat) (number : Int) (rest : Bytes) :
    takeBytes count (Bytes.ofInt count number ++ rest) = .ok (Bytes.ofInt count number, rest) :=
  takeBytes_append (Bytes.length_ofInt count number) rest

theorem takeBytes_ofNat (count number : Nat) (rest : Bytes) :
    takeBytes count (Bytes.ofNat count number ++ rest) = .ok (Bytes.ofNat count number, rest) :=
  takeBytes_append (Bytes.length_ofNat count number) rest

theorem readElements_cons_none (type : ScalarType) (count : Nat) (rest : Bytes) :
    readElements type (count + 1) (elementBytes none ++ rest)
      = readElement type none >>= fun element =>
        readElements type count rest >>= fun elements => pure (element :: elements) := by
  have size : Bytes.toInt (Bytes.ofInt 4 (-1)) = -1 := Bytes.toInt_ofInt (by decide) (by decide)
  rw [readElements, elementBytes, takeBytes_ofInt]
  simp only [bind, Except.bind, size, if_true]

theorem readElements_cons_some (type : ScalarType) (count : Nat) {content : Bytes}
    (small : content.length < 2 ^ 31) (rest : Bytes) :
    readElements type (count + 1) (elementBytes (some content) ++ rest)
      = readElement type (some content) >>= fun element =>
        readElements type count rest >>= fun elements => pure (element :: elements) := by
  have size : Bytes.toInt (Bytes.ofInt 4 content.length) = content.length :=
    Bytes.toInt_ofInt (by omega) (by omega)
  rw [readElements, elementBytes, List.append_assoc, takeBytes_ofInt]
  simp only [bind, Except.bind, size]
  rw [if_neg (by omega), if_neg (by omega), Int.toNat_natCast, takeBytes_append rfl]

/-- Elements are read one by one. -/
theorem readElements_flatMap (type : ScalarType) {elements : List (Option Bytes)}
    (sizes : ∀ content, some content ∈ elements → content.length < 2 ^ 31) :
    readElements type elements.length (elements.flatMap elementBytes)
      = elements.mapM (readElement type) := by
  induction elements with
  | nil => rfl
  | cons element elements ih =>
    have ih := ih fun content member => sizes content (List.mem_cons_of_mem _ member)
    rw [List.length_cons, List.flatMap_cons, List.mapM_cons, ← ih]
    cases element with
    | none => exact readElements_cons_none ..
    | some content => exact readElements_cons_some type _ (sizes content (List.mem_cons_self ..)) _

theorem readArray_bytes {declared : ScalarType} {number : Nat} (word : number < 2 ^ 32)
    {array : FlatArray} (h : array.Sendable) :
    readArray declared (array.bytes number)
      = if array.lower = 1 then array.elements.mapM (readElement (elementType declared number))
        else fail (.lowerBound array.lower) := by
  obtain ⟨⟨least, most⟩, count, sizes⟩ := h
  have one : Bytes.toInt (Bytes.ofInt 4 1) = 1 := Bytes.toInt_ofInt (by decide) (by decide)
  have type : Bytes.toNat (Bytes.ofNat 4 number) = number := Bytes.toNat_ofNat_of_lt word
  have length : Bytes.toInt (Bytes.ofInt 4 array.elements.length) = array.elements.length :=
    Bytes.toInt_ofInt (by omega) (by omega)
  have natural : Bytes.toNat (Bytes.ofInt 4 array.elements.length) = array.elements.length := by
    rw [Bytes.toNat_eq_toNat_toInt] <;> rw [length]
    · exact Int.toNat_natCast _
    · exact Int.natCast_nonneg _
  have lower : Bytes.toInt (Bytes.ofInt 4 array.lower) = array.lower :=
    Bytes.toInt_ofInt (by omega) (by omega)
  simp only [readArray, FlatArray.bytes, takeBytes_ofInt, takeBytes_ofNat, bind, Except.bind, one,
    type, length, natural, lower]
  rw [if_neg (by decide), if_neg (by decide), if_neg (by omega)]
  by_cases first : array.lower = 1
  · rw [if_neg (not_not.2 first), if_pos first, readElements_flatMap _ sizes]
  · rw [if_pos first, if_neg first]
    rfl

theorem readArray_emptyBytes (declared : ScalarType) (number : Nat) (nulls : Bool) :
    readArray declared (emptyBytes number nulls) = .ok [] := by
  have zero : Bytes.toInt (Bytes.ofInt 4 0) = 0 := Bytes.toInt_ofInt (by decide) (by decide)
  simp only [readArray, emptyBytes, takeBytes_ofInt, bind, Except.bind, zero]
  rfl

/-! ### Elements and cells -/

/-- The types of which arrays can be read, each with the number that stands for it. -/
def numbered : List (String × ScalarType × Nat) :=
  [("TEXT", .text, 25), ("VARCHAR", .text, 1043), ("BOOL", .bool, 16), ("INT2", .int2, 21),
    ("INT4", .int4, 23), ("INT8", .int8, 20), ("FLOAT4", .float4, 700), ("FLOAT8", .float8, 701),
    ("NUMERIC", .numeric, 1700), ("UUID", .uuid, 2950), ("JSON", .json, 114),
    ("JSONB", .jsonb, 3802)]

variable {name : String} {type : ScalarType} {number : Nat} {json : Json}

theorem read_eq_readScalar (known : (name, type, number) ∈ numbered) (bytes : Bytes) :
    Cell.read name (some bytes) = readScalar type bytes := by
  have named : ∀ entry ∈ numbered, CellType.ofName? entry.1 = some (.scalar entry.2.1) := by
    decide +kernel
  rw [Cell.read, named _ known]
  rfl

theorem read_eq_readArray (known : (name, type, number) ∈ numbered) (bytes : Bytes) :
    Cell.read (name ++ "[]") (some bytes) = Json.array <$> readArray type bytes := by
  have named : ∀ entry ∈ numbered,
      CellType.ofName? (entry.1 ++ "[]") = some (.array entry.2.1) := by
    decide +kernel
  rw [Cell.read, named _ known]
  rfl

theorem elementType_eq (known : (name, type, number) ∈ numbered) :
    elementType type number = type := by
  have all : ∀ entry ∈ numbered, elementType entry.2.1 entry.2.2 = entry.2.1 := by decide
  exact all _ known

theorem number_lt (known : (name, type, number) ∈ numbered) : number < 2 ^ 32 := by
  have all : ∀ entry ∈ numbered, entry.2.2 < 2 ^ 32 := by decide
  exact all _ known

theorem name_eq_iff (known : (name, type, number) ∈ numbered) :
    name = "NUMERIC" ↔ type = .numeric := by
  have all : ∀ entry ∈ numbered, entry.1 = "NUMERIC" ↔ entry.2.1 = .numeric := by decide
  exact all _ known

/-- No null, and no decimal number that is shown as its text. -/
def PlainElement (name : String) (element : Option Bytes) : Prop :=
  element ≠ none
    ∧ (name = "NUMERIC" → ∀ text, Cell.read name element ≠ .ok (.string text))

theorem toJson_ne_string (fixed : Numeric.Fixed) (text : String) : fixed.toJson ≠ .string text := by
  intro same
  rw [Numeric.Fixed.toJson] at same
  split at same
  · cases same
  · rw [Json.ofBinary64] at same
    split at same <;> cases same

/-- Fixed precision gives a number, and all that has none is shown as text or not at all. -/
theorem readFixed_eq_ok (bytes : Bytes) :
    Numeric.Fixed.toJson <$> readFixed bytes = .ok json
      ↔ (∀ text, readNumeric bytes ≠ .ok (.string text)) ∧ readNumeric bytes = .ok json := by
  rw [readNumeric]
  cases readFixed bytes with
  | ok fixed => exact (and_iff_right fun text same =>
      toJson_ne_string fixed text (Except.ok.inj same)).symm
  | error fault =>
    refine iff_of_false (fun same => by cases same) ?_
    rintro ⟨plain, same⟩
    dsimp only at plain same
    split at plain
    · exact plain _ rfl
    · next none =>
      rw [none] at same
      cases same

theorem readElement_eq_ok (known : (name, type, number) ∈ numbered) (element : Option Bytes) :
    readElement type element = .ok json
      ↔ PlainElement name element ∧ Cell.read name element = .ok json := by
  cases element with
  | none => exact iff_of_false (fun same => by cases same) fun both => both.1.1 rfl
  | some bytes =>
    rw [readElement, PlainElement, read_eq_readScalar known, and_iff_right (Option.some_ne_none _)]
    by_cases numeric : type = .numeric
    · rw [if_pos numeric, numeric, forall_prop_of_true ((name_eq_iff known).2 numeric)]
      exact readFixed_eq_ok bytes
    · rw [if_neg numeric, forall_prop_of_false (mt (name_eq_iff known).1 numeric), true_and]

theorem read_bytes_eq_ok (known : (name, type, number) ∈ numbered) {array : FlatArray}
    (sendable : array.Sendable) :
    Cell.read (name ++ "[]") (some (array.bytes number)) = .ok json
      ↔ array.lower = 1 ∧ (∀ element ∈ array.elements, PlainElement name element)
        ∧ Json.array <$> array.elements.mapM (Cell.read name) = .ok json := by
  rw [read_eq_readArray known, readArray_bytes (number_lt known) sendable, elementType_eq known]
  by_cases first : array.lower = 1
  · rw [if_pos first, and_iff_right first, map_eq_ok, map_eq_ok]
    simp only [mapM_eq_ok, readElement_eq_ok known, List.forall₂_and_left, and_assoc,
      exists_and_left]
  · rw [if_neg first]
    exact iff_of_false (fun same => by cases same) fun all => first all.1

/-- An array is read when it counts from one and all its elements are plain and could be read as
cells, and then as the array of what they would be. -/
theorem read_array_eq_ok (known : (name, type, number) ∈ numbered) :
    (∀ array : FlatArray, array.Sendable → ∀ json,
      Cell.read (name ++ "[]") (some (array.bytes number)) = .ok json
        ↔ array.lower = 1 ∧ (∀ element ∈ array.elements, PlainElement name element)
          ∧ Json.array <$> array.elements.mapM (Cell.read name) = .ok json)
    ∧ ∀ nulls, Cell.read (name ++ "[]") (some (emptyBytes number nulls)) = .ok (.array []) := by
  refine ⟨fun array sendable json => read_bytes_eq_ok known sendable, fun nulls => ?_⟩
  rw [read_eq_readArray known, readArray_emptyBytes]
  rfl

theorem read_array_of_two_words :
    let array : FlatArray := ⟨false, 1, [some (Bytes.ofInt 4 7), some (Bytes.ofInt 4 (-7))]⟩
    ("INT4", .int4, 23) ∈ numbered ∧ array.Sendable
      ∧ Cell.read "INT4[]" (some (array.bytes 23)) = .ok (.array [.int 7, .int (-7)])
      ∧ Cell.read "INT4[]" (some (emptyBytes 23 false)) = .ok (.array []) := by
  intro array
  have known : ("INT4", .int4, 23) ∈ numbered := by decide
  have sendable : array.Sendable := by
    refine ⟨by decide, by decide, fun content member => ?_⟩
    rcases List.mem_pair.1 member with same | same <;> cases same <;> decide
  have plain : ∀ element ∈ array.elements, PlainElement "INT4" element := by
    intro element member
    rcases List.mem_pair.1 member with rfl | rfl <;>
      exact ⟨Option.some_ne_none _, fun other => absurd other (by decide)⟩
  have first : Cell.read "INT4" (some (Bytes.ofInt 4 7)) = .ok (.int 7) :=
    congrArg (Json.int <$> ·)
      (Stored.readInt_ofInt 4 7 (by decide) (by decide) (by decide) (by decide))
  have last : Cell.read "INT4" (some (Bytes.ofInt 4 (-7))) = .ok (.int (-7)) :=
    congrArg (Json.int <$> ·)
      (Stored.readInt_ofInt 4 (-7) (by decide) (by decide) (by decide) (by decide))
  have cells : Json.array <$> array.elements.mapM (Cell.read "INT4")
      = .ok (.array [.int 7, .int (-7)]) := by
    rw [List.mapM_cons, List.mapM_cons, first, last]
    rfl
  obtain ⟨all, empty⟩ := read_array_eq_ok known
  exact ⟨known, sendable, (all array sendable _).2 ⟨rfl, plain, cells⟩, empty false⟩

/-- All elements can be read as cells, but not the array: of a null, and of a decimal number that
is shown as its text. -/
theorem read_array_differs_from_elements :
    (let array : FlatArray := ⟨true, 1, [some (Bytes.ofText "a"), none]⟩
     array.Sendable ∧ array.elements.mapM (Cell.read "TEXT") = .ok [.string "a", .null]
       ∧ ¬∃ json, Cell.read "TEXT[]" (some (array.bytes 25)) = .ok json)
    ∧ let numeric : Numeric := ⟨10, Numeric.positive, 0, [1]⟩
      let array : FlatArray := ⟨false, 1, [some numeric.bytes]⟩
      array.Sendable
        ∧ array.elements.mapM (Cell.read "NUMERIC")
          = .ok [.string (String.ofList ('1' :: List.replicate 40 '0'))]
        ∧ ¬∃ json, Cell.read "NUMERIC[]" (some (array.bytes 1700)) = .ok json := by
  constructor
  · intro array
    have known : ("TEXT", .text, 25) ∈ numbered := by decide
    have sendable : array.Sendable := by
      refine ⟨by decide, by decide, fun content member => ?_⟩
      rcases List.mem_pair.1 member with same | same <;> cases same
      decide
    have first : Cell.read "TEXT" (some (Bytes.ofText "a")) = .ok (.string "a") :=
      congrArg (Json.string <$> ·) (Stored.readText_ofText "a")
    refine ⟨sendable, by rw [List.mapM_cons, first]; rfl, ?_⟩
    rintro ⟨json, read⟩
    obtain ⟨-, plain, -⟩ := (read_bytes_eq_ok known sendable).1 read
    exact (plain none (List.mem_pair.2 (.inr rfl))).1 rfl
  · intro numeric array
    have known : ("NUMERIC", .numeric, 1700) ∈ numbered := by decide
    have sendable : array.Sendable := by
      refine ⟨by decide, by decide, fun content member => ?_⟩
      cases List.mem_singleton.1 member
      decide
    have held : numeric.Sendable := ⟨.inl rfl, by decide, by decide, by decide, by decide⟩
    have none : numeric.fixed? (numeric.sign = Numeric.negative) = none := by decide +kernel
    have chars : numeric.text.chars = '1' :: List.replicate 40 '0' := by decide +kernel
    have only : Cell.read "NUMERIC" (some numeric.bytes)
        = .ok (.string (String.ofList ('1' :: List.replicate 40 '0'))) := by
      rw [held.read_bytes, none, chars]
    refine ⟨sendable, by rw [List.mapM_cons, only]; rfl, ?_⟩
    rintro ⟨json, read⟩
    obtain ⟨-, plain, -⟩ := (read_bytes_eq_ok known sendable).1 read
    exact (plain _ (List.mem_singleton.2 rfl)).2 rfl _ only

end Cell

end ScopedQuery
