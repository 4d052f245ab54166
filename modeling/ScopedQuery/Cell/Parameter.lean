import ScopedQuery.Calendar.Reading
import ScopedQuery.Value
/-!
# Bound parameters

The type and the binary form in which a statement carries a value to the server. A timestamp is
bound by its date and clock time at UTC, and dates go from the year -9999 to the year 9999; an
instant that the offset puts outside of them can be held but not bound.
-/

namespace ScopedQuery

structure Parameter where
  typeName : String
  /-- Nothing for a null. -/
  bytes : Option Bytes
deriving DecidableEq

def Parameter.jsonVersion : UInt8 := 1

def Date.first : Date := ⟨-9999, 1, 1⟩

def Timestamp.isBindable (instant : Timestamp) : Bool :=
  Date.first.toDays ≤ instant.day && instant.day ≤ Date.last.toDays

namespace Value

def isBindable : Value → Bool
  | .timestamp instant => instant.isBindable
  | _ => true

/-- The parameter of a value that can be bound. -/
def parameter : Value → Parameter
  | .null => ⟨"TEXT", none⟩
  | .bool value => ⟨"BOOL", some [if value then 1 else 0]⟩
  | .int value => ⟨"INT8", some (Bytes.ofInt 8 value)⟩
  | .float value => ⟨"FLOAT8", some (Bytes.ofNat 8 value.toBits)⟩
  | .text value => ⟨"TEXT", some (Bytes.ofText value)⟩
  | .timestamp value => ⟨"TIMESTAMPTZ", some (Bytes.ofInt 8 value.micros2000)⟩
  | .uuid value => ⟨"UUID", some value.bytes⟩
  | .json value => ⟨"JSONB", some (Parameter.jsonVersion :: Bytes.ofText value.text)⟩

end Value

end ScopedQuery
