import ScopedQuery.Calendar.Reading
import ScopedQuery.Json.Reading
import ScopedQuery.Number.Literal
import ScopedQuery.Schema.Kind
import ScopedQuery.Value
/-!
# Bringing values to a column kind

`Kind.ofText?` reads what a user typed, `Kind.ofJson?` takes what a caller sent. Either gives a
value of the variant that belongs to the kind, or nothing when the input does not fit;
`Kind.ofJson?` also lets null through for every kind.
-/

namespace ScopedQuery.Kind

def readBoolean (text : List Char) : Option Bool :=
  let word := text.map Binary64.lower
  if word = ['t', 'r', 'u', 'e'] ∨ word = ['t'] ∨ word = ['1'] then some true
  else if word = ['f', 'a', 'l', 's', 'e'] ∨ word = ['f'] ∨ word = ['0'] then some false
  else none

/-- A number in text, which must be finite. -/
def readFinite (text : List Char) : Option Binary64 :=
  (Binary64.read? (Text.trim text)).filter Binary64.isFinite

/-- Text is taken as it is and JSON is read from the untrimmed text, or is the text itself as a JSON
string; all other kinds are read with the blanks at both ends removed. -/
def ofText? (kind : Kind) (text : String) : Option Value :=
  let trimmed := Text.trim text.toList
  match kind with
  | .text => some (.text text)
  | .integer => (Text.readSigned Text.maxWord trimmed).toOption.map .int
  | .numeric => (readFinite trimmed).map .float
  | .boolean => (readBoolean trimmed).map .bool
  | .timestamp => (Timestamp.read? trimmed).map .timestamp
  | .uuid => (Uuid.read? trimmed).map .uuid
  | .json => some (.json ((Json.read? text).getD (.string text)))

def ofJson? (kind : Kind) (json : Json) : Option Value :=
  match kind, json with
  | _, .null => some .null
  | .json, given => some (.json given)
  | kind, .string content => kind.ofText? content
  | .text, .number number => some (.text number.text)
  | .text, .bool value => some (.text (if value then "true" else "false"))
  | .integer, .number number => number.word?.map .int
  | .numeric, .number number => some (.float number.toBinary64)
  | .boolean, .bool value => some (.bool value)
  | _, _ => none

end ScopedQuery.Kind
