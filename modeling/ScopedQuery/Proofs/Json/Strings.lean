import ScopedQuery.Json.Reading
import ScopedQuery.Proofs.Text.Numerals
/-!
# Reading strings

A quoted text is read as that text, whatever follows the closing quote.
-/

namespace ScopedQuery.Json

variable {rest : List Letter} {char : Char} {cause : Cause}

def letters (chars : List Char) : List Letter := chars.map .char

@[simp] theorem letters_nil : letters [] = [] := rfl

@[simp] theorem letters_cons (char : Char) (chars : List Char) :
    letters (char :: chars) = .char char :: letters chars := rfl

@[simp] theorem letters_append (chars chars' : List Char) :
    letters (chars ++ chars') = letters chars ++ letters chars' :=
  List.map_append

@[simp] theorem length_letters (chars : List Char) : (letters chars).length = chars.length :=
  List.length_map _

/-- The rest of a string with a character in front of it. -/
def pushed (char : Char) (part : Part Content) : Part Content :=
  part.map fun (content, rest) => (content.push char, rest)

/-- A character that stands for itself. -/
theorem readContent_plain (quote : char ≠ '"') (backslash : char ≠ '\\') (h : 0x20 ≤ char.toNat)
    (rest : List Letter) :
    readContent none (.char char :: rest) = pushed char (readContent none rest) := by
  have control : readContent.isControl (.char char) = false := by
    simp only [readContent.isControl, Letter.char?, decide_eq_false_iff_not]
    omega
  rw [readContent] <;> simp [quote, backslash, unpaired, control, pushed, Content.push]

/-- A letter behind a backslash. -/
theorem readContent_letter {mark : Char} (h : plainEscape (.char mark) = some char)
    (other : mark ≠ 'u') (rest : List Letter) :
    readContent none (.char '\\' :: .char mark :: rest) = pushed char (readContent none rest) := by
  rw [readContent] <;> simp [other, h, unpaired, pushed]

/-- A control character, written by its code. -/
theorem readContent_code (h : char.toNat < 0x20) (rest : List Letter) :
    readContent none (letters ('\\' :: 'u' :: '0' :: '0' :: Document.hexDigits char.toNat) ++ rest)
      = pushed char (readContent none rest) := by
  have zeros : Text.readHex ['0', '0'] = some 0 := rfl
  have high := Text.readHex_concat (show char.toNat / 16 < 16 by omega) zeros
  have code := Text.readHex_concat (show char.toNat % 16 < 16 by omega) high
  rw [show (0 * 16 + char.toNat / 16) * 16 + char.toNat % 16 = char.toNat by omega] at code
  show readContent none (.char '\\' :: .char 'u' :: .char '0' :: .char '0'
    :: .char (Nat.digitChar (char.toNat / 16)) :: .char (Nat.digitChar (char.toNat % 16)) :: rest)
      = _
  have ends : ¬(0xDC00 ≤ char.toNat ∧ char.toNat < 0xE000) := by omega
  have starts : ¬(0xD800 ≤ char.toNat ∧ char.toNat < 0xDC00) := by omega
  rw [readContent]
  simp only [List.cons_append, List.nil_append] at code
  simp [code, ends, starts, pushed]

/-- However a character is written, it is read. -/
theorem readContent_escaped (char : Char) (rest : List Letter) :
    readContent none (letters (Document.escaped char) ++ rest)
      = pushed char (readContent none rest) := by
  have eq_ofNat {code : Nat} (same : char.toNat = code) : Char.ofNat code = char := by
    rw [← same, Char.ofNat_toNat]
  unfold Document.escaped
  split
  · next quote =>
    subst quote
    exact readContent_letter rfl (by decide) rest
  split
  · next backslash =>
    subst backslash
    exact readContent_letter rfl (by decide) rest
  split
  · next control =>
    split
    · next backspace =>
      rw [← eq_ofNat backspace]
      exact readContent_letter rfl (by decide) rest
    split
    · next tab =>
      subst tab
      exact readContent_letter rfl (by decide) rest
    split
    · next lineFeed =>
      subst lineFeed
      exact readContent_letter rfl (by decide) rest
    split
    · next formFeed =>
      rw [← eq_ofNat formFeed]
      exact readContent_letter rfl (by decide) rest
    split
    · next back =>
      subst back
      exact readContent_letter rfl (by decide) rest
    · exact readContent_code control rest
  · next quote backslash plain => exact readContent_plain quote backslash (by omega) rest

theorem readContent_flatMap (chars : List Char) (rest : List Letter) :
    readContent none (letters (chars.flatMap Document.escaped ++ ['"']) ++ rest)
      = .ok (.ok (letters chars), rest) := by
  induction chars with
  | nil =>
    show readContent none (.char '"' :: rest) = _
    rw [readContent]
    rfl
  | cons char chars ih =>
    rw [List.flatMap_cons, List.append_assoc, letters_append, List.append_assoc,
      readContent_escaped, ih]
    rfl

theorem mapM_char?_letters (chars : List Char) :
    (letters chars).mapM Letter.char? = some chars := by
  induction chars with
  | nil => rfl
  | cons char chars ih =>
    rw [letters_cons, List.mapM_cons, ih]
    rfl

/-- A string is read from behind its opening quote. -/
theorem readString_quoted (text : String) (rest : List Letter) :
    readString (letters (text.toList.flatMap Document.escaped ++ ['"']) ++ rest)
      = .ok (.ok text, rest) := by
  rw [readString, readContent_flatMap]
  simp only [Except.map, Except.bind, mapM_char?_letters, String.ofList_toList]

end ScopedQuery.Json
