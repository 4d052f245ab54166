import ScopedQuery.Json.Reading
import ScopedQuery.Ordered
/-!
# Records on the wire

A record is written as an object with one field for each of its parts, and read from such an
object or from a list of the parts in their order. Of an object other fields do not count, but a
field of the record may not be written twice; a list may be short but not long. `Slot` is what
stands in the place of a part, and the readers `required`, `optional` and `defaulted` say what
becomes of an empty place.

Reading fails without a reason, so all readers give an `Option`.
-/

namespace ScopedQuery.Wire

inductive Slot
  | held (document : Document)
  /-- Nothing, in an object. -/
  | missing
  /-- Nothing, because the list is too short. -/
  | beyond

def fieldSlot (fields : List (String × Document)) (name : String) : Option Slot :=
  match fields.filter fun entry => entry.1 = name with
  | [] => some .missing
  | [(_, document)] => some (.held document)
  | _ => none

/-- The places of `count` parts in a list that has no more. -/
def itemSlots : Nat → List Document → Option (List Slot)
  | 0, [] => some []
  | 0, _ :: _ => none
  | count + 1, [] => some (List.replicate (count + 1) .beyond)
  | count + 1, item :: rest => (.held item :: ·) <$> itemSlots count rest

def slots (names : List String) (document : Document) : Option (List Slot) :=
  match document.asWritten with
  | .object fields => names.mapM (fieldSlot fields)
  | .array items => itemSlots names.length items
  | _ => none

/-! ### Parts -/

variable {α : Type}

def required (read : Document → Option α) : Slot → Option α
  | .held document => read document
  | _ => none

def nullable (read : Document → Option α) : Document → Option (Option α)
  | .null => some none
  | document => some <$> read document

/-- A part that may be null, and that an object may leave out. -/
def optional (read : Document → Option α) : Slot → Option (Option α)
  | .held document => nullable read document
  | .missing => some none
  | .beyond => none

def defaulted (value : α) (read : Document → Option α) : Slot → Option α
  | .held document => read document
  | _ => some value

/-! ### Values -/

def readText : Document → Option String
  | .string text => some text
  | _ => none

def readFlag : Document → Option Bool
  | .bool flag => some flag
  | _ => none

def readCount (limit : Nat) : Document → Option Nat
  | .number (.integer number) =>
    if 0 ≤ number ∧ number ≤ limit then some number.toNat else none
  | _ => none

def readJson (document : Document) : Option Json := document.value.toOption

def readList (read : Document → Option α) : Document → Option (List α)
  | .array items => items.mapM read
  | _ => none

/-- An object as a map; of two fields of one name the later counts, at the place of the earlier. -/
def readMap (read : Document → Option α) (document : Document) : Option (Ordered α) :=
  match document.asWritten with
  | .object fields => .ofList <$> fields.mapM fun (name, document) => (name, ·) <$> read document
  | _ => none

/-- One of several words: the word itself, or an object with the word as its only field, holding
null. -/
def readWord (choose : String → Option α) : Document → Option α
  | .string word => choose word
  | .object [(word, .null)] => choose word
  | _ => none

/-! ### Writing -/

def writeTexts (texts : List String) : Document := .array (texts.map .string)

def writeCount (count : Nat) : Document := .number (.integer count)

def writeNullable (write : α → Document) : Option α → Document
  | none => .null
  | some value => write value

def writeMap (write : α → Document) (map : Ordered α) : Document :=
  .object (map.entries.map fun (name, value) => (name, write value))

end ScopedQuery.Wire
