/-!
# Blank characters

The characters of Unicode's `White_Space` property, and trimming by them. A zero-width space and a
byte order mark are not in the property, so they stay. Everything that reads text a user typed trims
it with `trim` first.
-/

namespace ScopedQuery.Text

def isBlank (char : Char) : Bool :=
  let code := char.toNat
  (0x9 ≤ code && code ≤ 0xD) || code == 0x20 || code == 0x85 || code == 0xA0 || code == 0x1680
    || (0x2000 ≤ code && code ≤ 0x200A) || code == 0x2028 || code == 0x2029 || code == 0x202F
    || code == 0x205F || code == 0x3000

def trim (text : List Char) : List Char :=
  ((text.dropWhile isBlank).reverse.dropWhile isBlank).reverse

def trimmed (text : String) : String :=
  String.ofList (trim text.toList)

end ScopedQuery.Text
