import ScopedQuery.Fault
/-!
# Names in statements

Identifiers are written into a statement as they are, so only `[a-zA-Z_][a-zA-Z0-9_.]*` is let
through. The name of a JSON field may be any text but the empty one and one with a NUL, because it
is always written as a quoted literal.
-/

namespace ScopedQuery.Sql

def isLetter (char : Char) : Bool :=
  ('a' ≤ char && char ≤ 'z') || ('A' ≤ char && char ≤ 'Z')

def isIdentifierStart (char : Char) : Bool := isLetter char || char = '_'

def isIdentifierPart (char : Char) : Bool :=
  isLetter char || Text.isDigit char || char = '_' || char = '.'

def isIdentifier (name : String) : Bool :=
  match name.toList with
  | [] => false
  | first :: rest => isIdentifierStart first && rest.all isIdentifierPart

def checkIdentifier (name : String) : Except Fault Unit :=
  if isIdentifier name then .ok () else .error (.invalidIdentifier name)

def isFieldName (name : String) : Bool :=
  !name.toList.isEmpty && name.toList.all (·.toNat ≠ 0)

def checkFieldName (name : String) : Except Fault Unit :=
  if isFieldName name then .ok () else .error (.invalidJsonField name)

/-- A quote inside a literal is written twice. -/
def doubled (char : Char) : List Char :=
  if char = '\'' then ['\'', '\''] else [char]

def literal (text : String) : String :=
  String.ofList ('\'' :: (text.toList.flatMap doubled ++ ['\'']))

end ScopedQuery.Sql
