import ScopedQuery.Number.Shortest
/-!
# JSON values

A number is whole and fits a signed or an unsigned 64-bit word, or it is a finite binary64 number;
`1` and `1.0` are different values. The fields of an object are in ascending order of their names,
by code point, and no name occurs twice: objects are built with `Json.field`, which keeps this.
-/

namespace ScopedQuery

namespace Json

inductive Number
  | integer (value : Int)
  | float (value : Binary64)
deriving DecidableEq

def Number.word? : Number → Option Int
  | .integer value => if Text.isWord value then some value else none
  | .float _ => none

def Number.toBinary64 : Number → Binary64
  | .integer value => .ofInt value
  | .float value => value

def Number.chars : Number → List Char
  | .integer value => Text.signedDecimal value
  | .float value => value.chars

def Number.text (number : Number) : String :=
  String.ofList number.chars

end Json

inductive Json
  | null
  | bool (value : Bool)
  | number (value : Json.Number)
  | string (value : String)
  | array (items : List Json)
  | object (fields : List (String × Json))
deriving Inhabited

namespace Json

def int (value : Int) : Json := .number (.integer value)

/-- A binary64 number as JSON, which has no infinity and no NaN: those become null. -/
def ofBinary64 (value : Binary64) : Json :=
  if value.isFinite then .number (.float value) else .null

def isNull : Json → Bool
  | .null => true
  | _ => false

/-- Puts a field at its place, unless the name is there already. -/
def field (name : String) (value : Json) : List (String × Json) → List (String × Json)
  | [] => [(name, value)]
  | (other, held) :: rest =>
    if name < other then (name, value) :: (other, held) :: rest
    else if name = other then (other, held) :: rest
    else (other, held) :: field name value rest

def get? (name : String) : List (String × Json) → Option Json
  | [] => none
  | (other, value) :: rest => if other = name then some value else get? name rest

end Json

end ScopedQuery
