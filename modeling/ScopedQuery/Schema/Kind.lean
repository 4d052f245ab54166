/-!
# Column kinds

The storage type of a column, which decides how values are brought to it and which rules apply to
it.
-/

namespace ScopedQuery

inductive Kind
  | text
  | integer
  | numeric
  | boolean
  /-- With or without a time zone; filters on these work on calendar days. -/
  | timestamp
  | uuid
  /-- Filters on these address a field. -/
  | json
deriving DecidableEq

namespace Kind

def all : List Kind := [.text, .integer, .numeric, .boolean, .timestamp, .uuid, .json]

def name : Kind → String
  | .text => "text"
  | .integer => "integer"
  | .numeric => "numeric"
  | .boolean => "boolean"
  | .timestamp => "timestamp"
  | .uuid => "uuid"
  | .json => "json"

def ofName? (name : String) : Option Kind := all.find? fun kind => kind.name = name

theorem ofName?_name (kind : Kind) : ofName? kind.name = some kind := by
  cases kind <;> decide

def isJson (kind : Kind) : Bool := kind = .json

def isDate (kind : Kind) : Bool := kind = .timestamp

end Kind

end ScopedQuery
