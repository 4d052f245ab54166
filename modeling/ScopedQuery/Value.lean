import ScopedQuery.Calendar.Timestamp
import ScopedQuery.Json.Document
import ScopedQuery.Uuid
/-!
# Values of statements

The typed scalars that a statement binds. Parameters of a statement are strictly typed, so every
value that comes from outside is brought to the type of its column before it becomes one of these.
A null is never bound: statements write it as the word `NULL`.
-/

namespace ScopedQuery

inductive Value
  | null
  | bool (value : Bool)
  /-- A signed 64-bit number. -/
  | int (value : Int)
  | float (value : Binary64)
  | text (value : String)
  | timestamp (value : Timestamp)
  | uuid (value : Uuid)
  | json (value : Json)
deriving Inhabited

namespace Value

def isNull : Value → Bool
  | .null => true
  | _ => false

/-- The value of the type that JSON itself suggests: a number that fits a signed word is an integer,
and an array or an object stays JSON. -/
def ofJson : Json → Value
  | .null => .null
  | .bool value => .bool value
  | .number number =>
    match number.word? with
    | some word => .int word
    | none => .float number.toBinary64
  | .string value => .text value
  | .array items => .json (.array items)
  | .object fields => .json (.object fields)

end Value

end ScopedQuery
