/-!
# Lists written in one text

A text is cut at every occurrence of a separating character, so that `n` separators give `n + 1`
parts, and parts are put together with a separating text between neighbours.
-/

namespace ScopedQuery.Text

/-- The parts of a text between the occurrences of `separator`; the empty text has one empty part.
-/
def splitAt (separator : Char) : List Char → List (List Char)
  | [] => [[]]
  | char :: rest =>
    if char = separator then [] :: splitAt separator rest
    else match splitAt separator rest with
      | [] => [[char]]
      | part :: parts => (char :: part) :: parts

def parts (separator : Char) (text : String) : List String :=
  (splitAt separator text.toList).map String.ofList

def joined (separator : String) : List String → String
  | [] => ""
  | [part] => part
  | part :: next :: rest => part ++ separator ++ joined separator (next :: rest)

end ScopedQuery.Text
