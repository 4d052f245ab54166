/-!
# Patterns of LIKE

In a pattern `%` stands for any text and `_` for any character, and a backslash takes the special
meaning from the character after it. `escaped` writes a user's text so that it stands for itself.
-/

namespace ScopedQuery.Pattern

def escapedChar (char : Char) : List Char :=
  if char = '\\' ∨ char = '%' ∨ char = '_' then ['\\', char] else [char]

def escapedChars (text : List Char) : List Char := text.flatMap escapedChar

def escaped (text : String) : String := String.ofList (escapedChars text.toList)

def containing (text : String) : String := "%" ++ escaped text ++ "%"

def startingWith (text : String) : String := escaped text ++ "%"

end ScopedQuery.Pattern
