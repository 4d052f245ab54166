import Mathlib.Tactic.SplitIfs
import ScopedQuery.Proofs.Json.Numbers
/-!
# Reading documents

`Reads depth document chars` says that a text is read as a document of at most so many nested arrays
and objects, with whatever may follow a document behind it. There is one lemma for each way to
write a document; a gap of blanks may follow every comma and every colon.
-/

namespace ScopedQuery.Json

variable {fuel depth : Nat} {rest : List Letter} {chars gap more : List Char}
  {document item : Document} {items : List Document} {name : String}
  {fields : List (String × Document)}

/-! ### Blanks -/

def Gap (gap : List Char) : Prop := ∀ char ∈ gap, isSpace (.char char) = true

theorem skipSpace_cons {letter : Letter} (h : isSpace letter = false) :
    skipSpace (letter :: rest) = letter :: rest := by
  rw [skipSpace, List.dropWhile_cons_of_neg]
  rw [h]
  decide

theorem skipSpace_gap (blank : Gap gap) {letter : Letter} (h : isSpace letter = false) :
    skipSpace (letters gap ++ letter :: rest) = letter :: rest := by
  have all : ∀ letter ∈ letters gap, isSpace letter = true := by
    intro letter member
    obtain ⟨char, within, rfl⟩ := List.mem_map.1 member
    exact blank char within
  rw [skipSpace, List.dropWhile_append_of_pos all]
  exact skipSpace_cons h

theorem isSpace_bracket : isSpace (.char '[') = false := by decide

theorem isSpace_closeBracket : isSpace (.char ']') = false := by decide

theorem isSpace_brace : isSpace (.char '{') = false := by decide

theorem isSpace_closeBrace : isSpace (.char '}') = false := by decide

theorem isSpace_comma : isSpace (.char ',') = false := by decide

theorem isSpace_colon : isSpace (.char ':') = false := by decide

theorem isSpace_quote : isSpace (.char '"') = false := by decide

/-! ### Texts of documents -/

structure Reads (depth : Nat) (document : Document) (chars : List Char) : Prop where
  starts : ∃ first others, chars = first :: others ∧ isSpace (.char first) = false ∧ first ≠ ']'
  reads : ∀ fuel rest, 3 * chars.length ≤ fuel → Ends rest →
    readDocument fuel depth (letters chars ++ rest) = .ok (document, rest)

/-- The text of the items after the first one, and the closing bracket. -/
structure ReadsItems (depth : Nat) (items : List Document) (chars : List Char) : Prop where
  starts : ∃ first others, chars = first :: others ∧ (first = ',' ∨ first = ']')
  reads : ∀ fuel rest, 3 * chars.length ≤ fuel →
    readItems fuel depth false (letters chars ++ rest) = .ok (items, rest)

/-- The text of the fields after the first one, and the closing brace. -/
structure ReadsFields (depth : Nat) (fields : List (String × Document)) (chars : List Char) :
    Prop where
  starts : ∃ first others, chars = first :: others ∧ (first = ',' ∨ first = '}')
  reads : ∀ fuel rest, 3 * chars.length ≤ fuel →
    readFields fuel depth (letters chars ++ rest) = .ok (.ok fields, rest)

theorem ends_cons {letter : Letter} (h : letter.isDigit = false ∧ letter ≠ .char '.'
    ∧ letter ≠ .char 'e' ∧ letter ≠ .char 'E') : Ends (letter :: rest) := by
  rintro _ ⟨⟩
  exact h

theorem Reads.length_pos (h : Reads depth document chars) : 0 < chars.length := by
  obtain ⟨first, others, rfl, -⟩ := h.starts
  exact Nat.zero_lt_succ _

theorem ReadsItems.length_pos (h : ReadsItems depth items chars) : 0 < chars.length := by
  obtain ⟨first, others, rfl, -⟩ := h.starts
  exact Nat.zero_lt_succ _

theorem ReadsFields.length_pos (h : ReadsFields depth fields chars) : 0 < chars.length := by
  obtain ⟨first, others, rfl, -⟩ := h.starts
  exact Nat.zero_lt_succ _

theorem ReadsItems.ends (h : ReadsItems depth items chars) : Ends (letters chars ++ rest) := by
  obtain ⟨first, others, rfl, mark⟩ := h.starts
  rcases mark with rfl | rfl <;> exact ends_cons (by decide)

theorem ReadsFields.ends (h : ReadsFields depth fields chars) : Ends (letters chars ++ rest) := by
  obtain ⟨first, others, rfl, mark⟩ := h.starts
  rcases mark with rfl | rfl <;> exact ends_cons (by decide)

/-- Blanks in front of a document are skipped. -/
theorem Reads.behind_gap (h : Reads depth document chars) (blank : Gap gap)
    (enough : 3 * chars.length ≤ fuel) (ends : Ends rest) :
    readDocument fuel depth (letters gap ++ (letters chars ++ rest)) = .ok (document, rest) := by
  have read := h.reads fuel rest enough ends
  have positive := h.length_pos
  obtain ⟨first, others, rfl, start, -⟩ := h.starts
  obtain ⟨fuel, rfl⟩ : ∃ less, fuel = less + 1 := ⟨fuel - 1, by omega⟩
  rw [letters_cons, List.cons_append] at read ⊢
  rw [readDocument, skipSpace_cons start] at read
  rw [readDocument, skipSpace_gap blank start, read]

/-! ### Words, strings and numbers -/

theorem Reads.null : Reads depth .null ['n', 'u', 'l', 'l'] where
  starts := ⟨_, _, rfl, by decide⟩
  reads := by
    intro fuel rest enough _
    obtain ⟨fuel, rfl⟩ : ∃ less, fuel = less + 1 := ⟨fuel - 1, by simp at enough; omega⟩
    have start : isSpace (.char 'n') = false := by decide
    simp only [letters_cons, List.cons_append, readDocument, skipSpace_cons start]
    rfl

theorem Reads.bool (value : Bool) : Reads depth (.bool value)
    (if value then ['t', 'r', 'u', 'e'] else ['f', 'a', 'l', 's', 'e']) where
  starts := by cases value <;> exact ⟨_, _, rfl, by decide⟩
  reads := by
    intro fuel rest enough _
    obtain ⟨fuel, rfl⟩ : ∃ less, fuel = less + 1 := ⟨fuel - 1, by
      cases value <;> simp at enough <;> omega⟩
    have start : isSpace (.char 't') = false := by decide
    have start' : isSpace (.char 'f') = false := by decide
    cases value <;>
      simp only [letters_cons, List.cons_append, readDocument, skipSpace_cons start,
        skipSpace_cons start', Bool.false_eq_true, if_false, if_true] <;>
      rfl

theorem Reads.string (text : String) :
    Reads depth (.string text) (Document.quoted text) where
  starts := ⟨_, _, rfl, by decide⟩
  reads := by
    intro fuel rest enough _
    rw [Document.quoted] at enough ⊢
    obtain ⟨fuel, rfl⟩ : ∃ less, fuel = less + 1 := ⟨fuel - 1, by simp at enough; omega⟩
    rw [letters_cons, List.cons_append, readDocument, skipSpace_cons isSpace_quote]
    simp only [readString_quoted]
    rfl

theorem isSpace_digit {char : Char} (h : Text.isDigit char = true) :
    isSpace (.char char) = false := by
  have range := Text.range_of_isDigit h
  simp only [isSpace, Bool.or_eq_false_iff, decide_eq_false_iff_not, Letter.char.injEq]
  refine ⟨⟨⟨?_, ?_⟩, ?_⟩, ?_⟩ <;>
    · rintro rfl
      revert range
      decide

theorem readDocument_digit {char : Char} (h : Text.isDigit char = true) :
    readDocument (fuel + 1) depth (.char char :: rest)
      = readMagnitude false (.char char :: rest) := by
  have digit : (Letter.char char).isDigit = true := h
  rw [readDocument, skipSpace_cons (isSpace_digit h)]
  split
  · next none => cases none
  case h_9 split =>
    cases split
    rw [if_pos digit]
  all_goals
    next split =>
      cases split
      exact absurd h (by decide)

/-! ### Arrays -/

theorem nested_succ {α : Type} {text : List Letter} {content : α} :
    readDocument.nested (depth + 1) text (.ok (content, rest)) = .ok (.ok content, rest) :=
  rfl

theorem readDocument_bracket {text : List Letter}
    (read : readItems fuel depth true text = .ok (items, rest)) :
    readDocument (fuel + 1) (depth + 1) (.char '[' :: text) = .ok (.array items, rest) := by
  rw [readDocument, skipSpace_cons isSpace_bracket]
  show (readDocument.nested (depth + 1) _ (readItems fuel depth true text)).map _ = _
  rw [read, nested_succ]
  rfl

theorem readItems_close (first : Bool) :
    readItems (fuel + 1) depth first (.char ']' :: rest) = .ok ([], rest) := by
  rw [readItems, skipSpace_cons isSpace_closeBracket]
  rfl

theorem readItems_first {char : Char} (start : isSpace (.char char) = false) (bracket : char ≠ ']')
    (text : List Letter) :
    readItems (fuel + 1) depth true (.char char :: text)
      = readItem fuel depth (.char char :: text) := by
  rw [readItems, skipSpace_cons start]
  split
  · next none => cases none
  · next closed => exact absurd (Letter.char.inj (List.cons.inj closed).1) bracket
  · next split => rw [if_pos rfl, ← split]

theorem readItems_comma {char : Char} (blank : Gap gap) (start : isSpace (.char char) = false)
    (bracket : char ≠ ']') (text : List Letter) :
    readItems (fuel + 1) depth false (.char ',' :: (letters gap ++ .char char :: text))
      = readItem fuel depth (.char char :: text) := by
  rw [readItems, skipSpace_cons isSpace_comma]
  split
  · next none => cases none
  · next closed => exact absurd (Letter.char.inj (List.cons.inj closed).1) (by decide)
  · next comma =>
    cases comma
    rw [if_neg Bool.false_ne_true, if_pos rfl, skipSpace_gap blank start]
    split
    · next none => cases none
    · next closed => exact absurd (Letter.char.inj (List.cons.inj closed).1) bracket
    · next split => rw [← split]

theorem readItem_eq {text more : List Letter}
    (first : readDocument fuel depth text = .ok (item, more))
    (others : readItems fuel depth false more = .ok (items, rest)) :
    readItem (fuel + 1) depth text = .ok (item :: items, rest) := by
  rw [readItem, first]
  show ((readItems fuel depth false more).mapError _ >>= _) = _
  rw [others]
  rfl

theorem Reads.emptyArray : Reads (depth + 1) (.array []) ['[', ']'] where
  starts := ⟨_, _, rfl, by decide⟩
  reads := by
    intro fuel rest enough _
    obtain ⟨fuel, rfl⟩ : ∃ less, fuel = less + 2 := ⟨fuel - 2, by simp at enough; omega⟩
    exact readDocument_bracket (readItems_close true)

theorem readItem_append (fuel : Nat) (rest : List Letter) (first : Reads depth item chars)
    (others : ReadsItems depth items more) (enough : 3 * (chars.length + more.length) ≤ fuel) :
    readItem fuel depth (letters chars ++ (letters more ++ rest)) = .ok (item :: items, rest) := by
  have positive := first.length_pos
  obtain ⟨fuel, rfl⟩ : ∃ less, fuel = less + 1 := ⟨fuel - 1, by omega⟩
  have positive' := others.length_pos
  exact readItem_eq (first.reads fuel _ (by omega) others.ends) (others.reads fuel rest (by omega))

theorem ReadsItems.nil : ReadsItems depth [] [']'] where
  starts := ⟨_, _, rfl, by decide⟩
  reads := by
    intro fuel rest enough
    obtain ⟨fuel, rfl⟩ : ∃ less, fuel = less + 1 := ⟨fuel - 1, by simp at enough; omega⟩
    exact readItems_close false

theorem ReadsItems.cons (blank : Gap gap) (first : Reads depth item chars)
    (others : ReadsItems depth items more) :
    ReadsItems depth (item :: items) (',' :: (gap ++ (chars ++ more))) where
  starts := ⟨_, _, rfl, by decide⟩
  reads := by
    intro fuel rest enough
    simp only [List.length_cons, List.length_append] at enough
    obtain ⟨fuel, rfl⟩ : ∃ less, fuel = less + 1 := ⟨fuel - 1, by omega⟩
    have read := readItem_append fuel rest first others (by omega)
    obtain ⟨char, chars, rfl, start, bracket⟩ := first.starts
    simp only [letters_cons, letters_append, List.cons_append, List.append_assoc] at read ⊢
    rw [readItems_comma blank start bracket, read]

theorem Reads.array (first : Reads depth item chars) (others : ReadsItems depth items more) :
    Reads (depth + 1) (.array (item :: items)) ('[' :: (chars ++ more)) where
  starts := ⟨_, _, rfl, by decide⟩
  reads := by
    intro fuel rest enough _
    simp only [List.length_cons, List.length_append] at enough
    obtain ⟨fuel, rfl⟩ : ∃ less, fuel = less + 2 := ⟨fuel - 2, by omega⟩
    have read := readItem_append fuel rest first others (by omega)
    obtain ⟨char, chars, rfl, start, bracket⟩ := first.starts
    simp only [letters_cons, letters_append, List.cons_append, List.append_assoc] at read ⊢
    exact readDocument_bracket ((readItems_first start bracket _).trans read)

/-! ### Objects -/

theorem readDocument_brace {text : List Letter}
    (read : readObject fuel depth text = .ok (document, rest)) :
    readDocument (fuel + 1) (depth + 1) (.char '{' :: text) = .ok (document, rest) := by
  rw [readDocument, skipSpace_cons isSpace_brace]
  show (readDocument.nested (depth + 1) _ (readObject fuel depth text)).map _ = _
  rw [read, nested_succ]
  rfl

theorem readObject_close :
    readObject (fuel + 1) depth (.char '}' :: rest) = .ok (.object [], rest) := by
  rw [readObject, skipSpace_cons isSpace_closeBrace]
  rfl

theorem readFields_close :
    readFields (fuel + 1) depth (.char '}' :: rest) = .ok (.ok [], rest) := by
  rw [readFields, skipSpace_cons isSpace_closeBrace]
  rfl

theorem readNamed_eq {text more : List Letter}
    (first : readDocument fuel depth text = .ok (item, more))
    (others : readFields fuel depth more = .ok (.ok fields, rest)) (name : String) :
    readNamed (fuel + 1) depth name (.char ':' :: text)
      = .ok (.ok ((name, item) :: fields), rest) := by
  rw [readNamed, skipSpace_cons isSpace_colon]
  show Except.bind (readDocument fuel depth text) _ = _
  rw [first]
  show ((readFields fuel depth more).mapError _ >>= _) = _
  rw [others]
  rfl

theorem Reads.emptyObject : Reads (depth + 1) (.object []) ['{', '}'] where
  starts := ⟨_, _, rfl, by decide⟩
  reads := by
    intro fuel rest enough _
    obtain ⟨fuel, rfl⟩ : ∃ less, fuel = less + 2 := ⟨fuel - 2, by simp at enough; omega⟩
    exact readDocument_brace readObject_close

/-- A field after its name, and those that follow it. -/
theorem readNamed_append (fuel : Nat) (rest : List Letter) (blank : Gap gap)
    (first : Reads depth item chars)
    (others : ReadsFields depth fields more)
    (enough : 3 * (chars.length + more.length) ≤ fuel) (name : String) :
    readNamed fuel depth name
        (.char ':' :: (letters gap ++ (letters chars ++ (letters more ++ rest))))
      = .ok (.ok ((name, item) :: fields), rest) := by
  have positive := first.length_pos
  have positive' := others.length_pos
  obtain ⟨fuel, rfl⟩ : ∃ less, fuel = less + 1 := ⟨fuel - 1, by omega⟩
  exact readNamed_eq (first.behind_gap blank (by omega) others.ends)
    (others.reads fuel rest (by omega)) name

theorem ReadsFields.nil : ReadsFields depth [] ['}'] where
  starts := ⟨_, _, rfl, by decide⟩
  reads := by
    intro fuel rest enough
    obtain ⟨fuel, rfl⟩ : ∃ less, fuel = less + 1 := ⟨fuel - 1, by simp at enough; omega⟩
    exact readFields_close

theorem letters_named (name : String) (chars : List Char) (rest : List Letter) :
    letters (Document.quoted name ++ chars) ++ rest
      = .char '"' :: (letters (name.toList.flatMap Document.escaped ++ ['"'])
        ++ (letters chars ++ rest)) := by
  simp [Document.quoted]

theorem readFields_comma (blank : Gap gap) (name : String) (chars : List Char)
    (rest : List Letter) :
    readFields (fuel + 1) depth
        (.char ',' :: (letters gap ++ (letters (Document.quoted name ++ chars) ++ rest)))
      = readNamed fuel depth name (letters chars ++ rest) := by
  rw [readFields, skipSpace_cons isSpace_comma, letters_named]
  simp only [skipSpace_gap blank isSpace_quote]
  show Except.bind (readString _) _ = _
  rw [readString_quoted]
  rfl

theorem ReadsFields.cons {gap' : List Char} (blank : Gap gap) (blank' : Gap gap')
    (first : Reads depth item chars) (others : ReadsFields depth fields more) (name : String) :
    ReadsFields depth ((name, item) :: fields)
      (',' :: (gap ++ (Document.quoted name ++ ':' :: (gap' ++ (chars ++ more))))) where
  starts := ⟨_, _, rfl, by decide⟩
  reads := by
    intro fuel rest enough
    simp only [List.length_cons, List.length_append] at enough
    obtain ⟨fuel, rfl⟩ : ∃ less, fuel = less + 1 := ⟨fuel - 1, by omega⟩
    have read := readNamed_append fuel rest blank' first others (by omega) name
    rw [letters_cons, List.cons_append, letters_append, List.append_assoc, readFields_comma blank]
    simp only [letters_cons, letters_append, List.cons_append, List.append_assoc]
    exact read

/-- The first name of an object says whether it holds text. -/
theorem readObject_quoted (name : String) (chars : List Char) (rest : List Letter) :
    readObject (fuel + 1) depth (letters (Document.quoted name ++ chars) ++ rest)
      = if name = embeddedName then do
          let value := readEmbedded fuel (letters chars ++ rest)
          let (fields, rest) ←
            (readNamed fuel depth name (letters chars ++ rest)).mapError (firstOf value)
          let document := fun fields => .embedding (.object fields) value
          return (orRefused document (fields.mapError (firstOf value)), rest)
        else do
          let (fields, rest) ← readNamed fuel depth name (letters chars ++ rest)
          return (orRefused .object fields, rest) := by
  rw [letters_named, readObject, skipSpace_cons isSpace_quote]
  show Except.bind (readString _) _ = _
  rw [readString_quoted]
  rfl

theorem Reads.object (blank : Gap gap) (first : Reads depth item chars)
    (others : ReadsFields depth fields more) (plain : name ≠ embeddedName) :
    Reads (depth + 1) (.object ((name, item) :: fields))
      ('{' :: (Document.quoted name ++ ':' :: (gap ++ (chars ++ more)))) where
  starts := ⟨_, _, rfl, by decide⟩
  reads := by
    intro fuel rest enough _
    simp only [List.length_cons, List.length_append] at enough
    obtain ⟨fuel, rfl⟩ : ∃ less, fuel = less + 2 := ⟨fuel - 2, by omega⟩
    have read := readNamed_append fuel rest blank first others (by omega) name
    have object : readObject (fuel + 1) depth
        (letters (Document.quoted name ++ ':' :: (gap ++ (chars ++ more))) ++ rest)
        = .ok (.object ((name, item) :: fields), rest) := by
      rw [readObject_quoted, if_neg plain]
      simp only [letters_cons, letters_append, List.cons_append, List.append_assoc]
      rw [read]
      rfl
    exact readDocument_brace object

theorem length_le_quoted (text : String) : text.toList.length ≤ (Document.quoted text).length := by
  have longer (chars : List Char) : chars.length ≤ (chars.flatMap Document.escaped).length := by
    induction chars with
    | nil => exact Nat.le_refl _
    | cons char chars ih =>
      have some : 0 < (Document.escaped char).length := by
        unfold Document.escaped
        split_ifs <;> exact Nat.zero_lt_succ _
      rw [List.flatMap_cons, List.length_append, List.length_cons]
      omega
  have := longer text.toList
  rw [Document.quoted, List.length_cons, List.length_append]
  omega

theorem readEmbedded_quoted {json : Json} (fuel : Nat) (rest : List Letter) (blank : Gap gap)
    (text : String)
    (held : Reads maxDepth document text.toList) (value : document.value = .ok json)
    (enough : 3 * (Document.quoted text).length < fuel) :
    readEmbedded fuel
        (.char ':' :: (letters gap ++ (letters (Document.quoted text) ++ .char '}' :: rest)))
      = .ok json := by
  obtain ⟨fuel, rfl⟩ : ∃ less, fuel = less + 1 := ⟨fuel - 1, by omega⟩
  have close : Ends (.char '}' :: rest) := (ReadsFields.nil : ReadsFields 0 [] ['}']).ends
  have written : Reads 0 (.string text) (Document.quoted text) := .string text
  have string := written.reads fuel _ (by omega) close
  have inner := held.reads fuel [] (by have := length_le_quoted text; omega) ends_nil
  rw [List.append_nil] at inner
  rw [readEmbedded, skipSpace_cons isSpace_colon]
  rw [Document.quoted, letters_cons, List.cons_append] at string ⊢
  simp only [skipSpace_gap blank isSpace_quote]
  show Except.bind (readDocument fuel 0 _) _ = _
  rw [string]
  show Except.bind ((((readDocument fuel maxDepth (letters text.toList)).bind complete).bind
    Document.value).mapError _) _ = _
  rw [inner]
  show Except.bind (document.value.mapError _) _ = _
  rw [value]
  show (readEnd (.char '}' :: rest) >>= fun _ => pure json) = _
  rw [readEnd, skipSpace_cons isSpace_closeBrace]
  rfl

/-- An object that holds text in its only field has the value that the text writes. -/
theorem Reads.embedding {json : Json} (blank : Gap gap) (text : String)
    (held : Reads maxDepth document text.toList) (value : document.value = .ok json) :
    Reads (depth + 1) (.embedding (.object [(embeddedName, .string text)]) (.ok json))
      ('{' :: (Document.quoted embeddedName ++ ':' :: (gap ++ (Document.quoted text ++ ['}']))))
    where
  starts := ⟨_, _, rfl, by decide⟩
  reads := by
    intro fuel rest enough _
    simp only [List.length_cons, List.length_append, List.length_nil] at enough
    obtain ⟨fuel, rfl⟩ : ∃ less, fuel = less + 2 := ⟨fuel - 2, by omega⟩
    have embedded := readEmbedded_quoted fuel rest blank text held value
      (by omega)
    have fields := readNamed_append fuel rest blank (.string text)
      (.nil : ReadsFields depth [] ['}']) (by simp only [List.length_singleton]; omega) embeddedName
    have object : readObject (fuel + 1) depth (letters (Document.quoted embeddedName
        ++ ':' :: (gap ++ (Document.quoted text ++ ['}']))) ++ rest)
        = .ok (.embedding (.object [(embeddedName, .string text)]) (.ok json), rest) := by
      rw [readObject_quoted, if_pos rfl]
      simp only [letters_cons, letters_append, letters_nil, List.cons_append, List.append_assoc,
        List.nil_append] at fields ⊢
      rw [fields, embedded]
      rfl
    exact readDocument_brace object

/-! ### Depth -/

def brackets : Nat → List Char
  | 0 => ['[', ']']
  | more + 1 => '[' :: (brackets more ++ [']'])

theorem exists_brackets_cons (more : Nat) : ∃ others, brackets more = '[' :: others := by
  cases more <;> exact ⟨_, rfl⟩

/-- The only item of an array. -/
theorem readItems_brackets {more : Nat} {rest : List Letter}
    (read : readDocument fuel depth (letters (brackets more) ++ (.char ']' :: rest))
      = .ok (item, .char ']' :: rest)) (enough : 0 < fuel) :
    readItems (fuel + 2) depth true (letters (brackets more) ++ (.char ']' :: rest))
      = .ok ([item], rest) := by
  obtain ⟨fuel, rfl⟩ : ∃ less, fuel = less + 1 := ⟨fuel - 1, by omega⟩
  obtain ⟨others, split⟩ := exists_brackets_cons more
  rw [split, letters_cons, List.cons_append] at read ⊢
  rw [readItems, skipSpace_cons isSpace_bracket]
  show readItem (fuel + 2) depth _ = _
  rw [readItem, read]
  show ((readItems (fuel + 1) depth false (.char ']' :: rest)).mapError _ >>= _) = _
  rw [readItems, skipSpace_cons isSpace_closeBracket]
  rfl

/-- Brackets that are nested too deep are no fault of the grammar, but they have no value. -/
theorem readDocument_brackets {more : Nat} (fuel : Nat) (deep : depth ≤ more)
    (enough : 3 * (brackets more).length ≤ fuel) (rest : List Letter) :
    ∃ document fault, readDocument fuel depth (letters (brackets more) ++ rest)
        = .ok (document, rest) ∧ document.value = .error fault := by
  induction more generalizing depth fuel rest with
  | zero =>
    obtain rfl := Nat.le_zero.1 deep
    obtain ⟨fuel, rfl⟩ : ∃ less, fuel = less + 2 := ⟨fuel - 2, by simp [brackets] at enough; omega⟩
    refine ⟨.refused (.before .tooDeep (letters ['[', ']'] ++ rest) 1), _, ?_, rfl⟩
    simp only [brackets, letters_cons, letters_nil, List.cons_append, List.nil_append,
      readDocument, readItems, skipSpace_cons isSpace_bracket, skipSpace_cons isSpace_closeBracket]
    rfl
  | succ more ih =>
    rw [brackets] at enough ⊢
    simp only [List.length_cons, List.length_append, List.length_nil] at enough
    obtain ⟨fuel, rfl⟩ : ∃ less, fuel = less + 3 := ⟨fuel - 3, by omega⟩
    obtain ⟨inner, fault, read, value⟩ :=
      ih fuel (show depth - 1 ≤ more by omega) (by omega) (.char ']' :: rest)
    have items := readItems_brackets read (by omega)
    rw [letters_cons, letters_append, List.cons_append, List.append_assoc, readDocument,
      skipSpace_cons isSpace_bracket]
    show ∃ document fault, (readDocument.nested depth _ (readItems (fuel + 2) (depth - 1) true
      (letters (brackets more) ++ (.char ']' :: rest)))).map _ = _ ∧ _
    rw [items]
    cases depth with
    | zero => exact ⟨.refused _, _, rfl, rfl⟩
    | succ depth =>
      refine ⟨.array [inner], fault, rfl, ?_⟩
      rw [Document.value, Document.values, value]
      rfl

/-! ### Whole texts -/

theorem Reads.readAll (h : Reads maxDepth document chars) :
    readAll (letters chars) = .ok document := by
  have read := h.reads (3 * (letters chars).length + 3) [] (by rw [length_letters]; omega) ends_nil
  rw [List.append_nil] at read
  rw [Json.readAll, read]
  rfl

theorem read_brackets {more : Nat} (deep : maxDepth ≤ more) :
    ∃ fault, read (letters (brackets more)) = .error fault := by
  obtain ⟨document, fault, brackets, value⟩ := readDocument_brackets
    (3 * (letters (brackets more)).length + 3) deep (by rw [length_letters]; omega) []
  rw [List.append_nil] at brackets
  refine ⟨fault, ?_⟩
  rw [read, Json.readAll, brackets]
  exact value

end ScopedQuery.Json
