import ScopedQuery.Proofs.Json.NumberTexts
/-!
# Reading what was written

The text of a document is read as that document again, with one difference: an object whose first
field has the name `embeddedName` comes back with the value that it stands for, whatever it is, next
to the object as it was written. `ReadAs` is this relation. It holds for every document whose
numbers read back and that is not nested too deep.
-/

namespace ScopedQuery

open Json

namespace Document

mutual

/-- How deep arrays and objects are nested. -/
def nesting : Document → Nat
  | .array items => itemsNesting items + 1
  | .object fields => fieldsNesting fields + 1
  | .embedding written _ => nesting written
  | _ => 0

def itemsNesting : List Document → Nat
  | [] => 0
  | item :: rest => max (nesting item) (itemsNesting rest)

def fieldsNesting : List (String × Document) → Nat
  | [] => 0
  | (_, item) :: rest => max (nesting item) (fieldsNesting rest)

end

variable {items : List Document} {fields : List (String × Document)}

theorem nesting_le_itemsNesting {item : Document} (h : item ∈ items) :
    nesting item ≤ itemsNesting items := by
  induction items with
  | nil => cases h
  | cons first rest ih =>
    rw [itemsNesting]
    rcases List.mem_cons.1 h with rfl | member
    · exact Nat.le_max_left ..
    · exact Nat.le_trans (ih member) (Nat.le_max_right ..)

theorem nesting_le_fieldsNesting {field : String × Document} (h : field ∈ fields) :
    nesting field.2 ≤ fieldsNesting fields := by
  induction fields with
  | nil => cases h
  | cons first rest ih =>
    rw [fieldsNesting]
    rcases List.mem_cons.1 h with rfl | member
    · exact Nat.le_max_left ..
    · exact Nat.le_trans (ih member) (Nat.le_max_right ..)

theorem nesting_array_le {depth : Nat} (h : ∀ item ∈ items, nesting item ≤ depth) :
    nesting (.array items) ≤ depth + 1 := by
  rw [nesting]
  refine Nat.succ_le_succ ?_
  induction items with
  | nil => exact Nat.zero_le _
  | cons item rest ih =>
    obtain ⟨first, others⟩ := List.forall_mem_cons.1 h
    exact Nat.max_le.2 ⟨first, ih others⟩

theorem nesting_object_le {depth : Nat} (h : ∀ field ∈ fields, nesting field.2 ≤ depth) :
    nesting (.object fields) ≤ depth + 1 := by
  rw [nesting]
  refine Nat.succ_le_succ ?_
  induction fields with
  | nil => exact Nat.zero_le _
  | cons field rest ih =>
    obtain ⟨first, others⟩ := List.forall_mem_cons.1 h
    exact Nat.max_le.2 ⟨first, ih others⟩

/-- What is written for data: all its numbers read back. -/
inductive Written : Document → Prop
  | null : Written .null
  | bool (value : Bool) : Written (.bool value)
  | number {number : Json.Number} (numeral : Numeral number.chars) (back : number.ReadsBack) :
    Written (.number number)
  | string (value : String) : Written (.string value)
  | array {items : List Document} (each : ∀ item ∈ items, Written item) : Written (.array items)
  | object {fields : List (String × Document)} (each : ∀ field ∈ fields, Written field.2) :
    Written (.object fields)

mutual

/-- What a written document is read as. -/
inductive ReadAs : Document → Document → Prop
  | null : ReadAs .null .null
  | bool (value : Bool) : ReadAs (.bool value) (.bool value)
  | number (number : Json.Number) : ReadAs (.number number) (.number number)
  | string (value : String) : ReadAs (.string value) (.string value)
  | array {items items' : List Document} (each : ItemsReadAs items items') :
    ReadAs (.array items) (.array items')
  | object {fields fields' : List (String × Document)} (each : FieldsReadAs fields fields') :
    ReadAs (.object fields) (.object fields')
  | embedding {item : Document} {fields fields' : List (String × Document)}
    (value : Except Json.Fault Json)
    (each : FieldsReadAs ((embeddedName, item) :: fields) fields') :
    ReadAs (.object ((embeddedName, item) :: fields)) (.embedding (.object fields') value)

inductive ItemsReadAs : List Document → List Document → Prop
  | nil : ItemsReadAs [] []
  | cons {item item' : Document} {items items' : List Document} (first : ReadAs item item')
    (others : ItemsReadAs items items') : ItemsReadAs (item :: items) (item' :: items')

inductive FieldsReadAs : List (String × Document) → List (String × Document) → Prop
  | nil : FieldsReadAs [] []
  | cons (name : String) {item item' : Document} {fields fields' : List (String × Document)}
    (first : ReadAs item item') (others : FieldsReadAs fields fields') :
    FieldsReadAs ((name, item) :: fields) ((name, item') :: fields')

end

/-- An object is read as one with the same names, whatever it stands for. -/
theorem exists_asWritten {document : Document} (h : ReadAs (.object fields) document) :
    ∃ fields', document.asWritten = .object fields' ∧ FieldsReadAs fields fields' := by
  cases h with
  | object same => exact ⟨_, rfl, same⟩
  | embedding value same => exact ⟨_, rfl, same⟩

/-- Only the first name can make an object stand for something else. -/
theorem exists_object {document : Document} (h : ReadAs (.object fields) document)
    (plain : (fields.map Prod.fst).head? ≠ some embeddedName) :
    ∃ fields', document = .object fields' ∧ FieldsReadAs fields fields' := by
  cases h with
  | object same => exact ⟨_, rfl, same⟩
  | embedding value same => exact absurd rfl plain

end Document

namespace Json

open Document

variable {depth : Nat} {document : Document} {items : List Document}
  {fields : List (String × Document)}

/-- The text of a document is read as it, with whatever may follow a document behind it. -/
structure ReadsBack (depth : Nat) (document : Document) : Prop where
  starts : ∃ first others, document.chars = first :: others ∧ isSpace (.char first) = false
    ∧ first ≠ ']'
  reads : ∀ fuel rest, 3 * document.chars.length ≤ fuel → Ends rest → ∃ read,
    ReadAs document read
      ∧ readDocument fuel depth (letters document.chars ++ rest) = .ok (read, rest)

theorem Reads.asItself (h : Reads depth document document.chars) (same : ReadAs document document) :
    ReadsBack depth document :=
  ⟨h.starts, fun fuel rest enough ends => ⟨document, same, h.reads fuel rest enough ends⟩⟩

theorem ReadsBack.length_pos (h : ReadsBack depth document) : 0 < document.chars.length := by
  obtain ⟨first, others, chars, -⟩ := h.starts
  rw [chars]
  exact Nat.zero_lt_succ _

theorem ends_itemChars (items : List Document) (rest : List Letter) :
    Ends (letters (itemChars items) ++ rest) := by
  cases items <;> exact ends_cons (by decide)

theorem ends_fieldChars (fields : List (String × Document)) (rest : List Letter) :
    Ends (letters (fieldChars fields) ++ rest) := by
  rcases fields with - | ⟨⟨name, item⟩, rest⟩ <;> exact ends_cons (by decide)

theorem gap_nil : Gap [] := nofun

def ItemsReadBack (depth : Nat) (items : List Document) : Prop :=
  ∀ fuel rest, 3 * (itemChars items).length ≤ fuel → ∃ read, ItemsReadAs items read
    ∧ readItems fuel depth false (letters (itemChars items) ++ rest) = .ok (read, rest)

def FieldsReadBack (depth : Nat) (fields : List (String × Document)) : Prop :=
  ∀ fuel rest, 3 * (fieldChars fields).length ≤ fuel → ∃ read, FieldsReadAs fields read
    ∧ readFields fuel depth (letters (fieldChars fields) ++ rest) = .ok (.ok read, rest)

theorem length_itemChars_pos (items : List Document) : 0 < (itemChars items).length := by
  cases items <;> exact Nat.zero_lt_succ _

theorem length_fieldChars_pos (fields : List (String × Document)) :
    0 < (fieldChars fields).length := by
  rcases fields with - | ⟨⟨name, item⟩, rest⟩ <;> exact Nat.zero_lt_succ _

theorem exists_readItem (fuel : Nat) (rest : List Letter) (first : ReadsBack depth document)
    (others : ItemsReadBack depth items)
    (enough : 3 * (document.chars.length + (itemChars items).length) ≤ fuel) :
    ∃ read, ItemsReadAs (document :: items) read
      ∧ readItem fuel depth (letters document.chars ++ (letters (itemChars items) ++ rest))
        = .ok (read, rest) := by
  have positive := first.length_pos
  have positive' := length_itemChars_pos items
  obtain ⟨fuel, rfl⟩ : ∃ less, fuel = less + 1 := ⟨fuel - 1, by omega⟩
  obtain ⟨item, same, read⟩ := first.reads fuel _ (by omega) (ends_itemChars items rest)
  obtain ⟨items, sames, reads⟩ := others fuel rest (by omega)
  exact ⟨item :: items, .cons same sames, readItem_eq read reads⟩

theorem itemsReadBack (back : ∀ item ∈ items, ReadsBack depth item) :
    ItemsReadBack depth items := by
  induction items with
  | nil =>
    intro fuel rest enough
    simp only [itemChars, List.length_singleton] at enough
    obtain ⟨fuel, rfl⟩ : ∃ less, fuel = less + 1 := ⟨fuel - 1, by omega⟩
    exact ⟨[], .nil, readItems_close false⟩
  | cons item items ih =>
    intro fuel rest enough
    obtain ⟨first, others⟩ := List.forall_mem_cons.1 back
    simp only [itemChars, List.length_cons, List.length_append] at enough
    obtain ⟨fuel, rfl⟩ : ∃ less, fuel = less + 1 := ⟨fuel - 1, by omega⟩
    obtain ⟨documents, same, read⟩ :=
      exists_readItem fuel rest first (ih others) (by omega)
    obtain ⟨char, chars, split, start, bracket⟩ := first.starts
    refine ⟨documents, same, ?_⟩
    simp only [itemChars, split, letters_cons, letters_append, List.cons_append,
      List.append_assoc] at read ⊢
    rw [← read]
    exact readItems_comma gap_nil start bracket _

theorem ReadsBack.array (back : ∀ item ∈ items, ReadsBack depth item) :
    ReadsBack (depth + 1) (.array items) := by
  cases items with
  | nil => exact Reads.emptyArray.asItself (.array .nil)
  | cons item items =>
    refine ⟨⟨_, _, rfl, by decide⟩, fun fuel rest enough _ => ?_⟩
    obtain ⟨first, others⟩ := List.forall_mem_cons.1 back
    simp only [Document.chars, List.length_cons, List.length_append] at enough
    obtain ⟨fuel, rfl⟩ : ∃ less, fuel = less + 2 := ⟨fuel - 2, by omega⟩
    obtain ⟨documents, same, read⟩ :=
      exists_readItem fuel rest first (itemsReadBack others) (by omega)
    obtain ⟨char, chars, split, start, bracket⟩ := first.starts
    refine ⟨.array documents, .array same, ?_⟩
    simp only [Document.chars, split, letters_cons, letters_append, List.cons_append,
      List.append_assoc] at read ⊢
    exact readDocument_bracket ((readItems_first start bracket _).trans read)

theorem exists_readNamed (fuel : Nat) (rest : List Letter) (first : ReadsBack depth document)
    (others : FieldsReadBack depth fields) (name : String)
    (enough : 3 * (document.chars.length + (fieldChars fields).length) ≤ fuel) :
    ∃ read, FieldsReadAs ((name, document) :: fields) read
      ∧ readNamed fuel depth name
          (letters (':' :: (document.chars ++ fieldChars fields)) ++ rest)
        = .ok (.ok read, rest) := by
  have positive := first.length_pos
  have positive' := length_fieldChars_pos fields
  obtain ⟨fuel, rfl⟩ : ∃ less, fuel = less + 1 := ⟨fuel - 1, by omega⟩
  obtain ⟨item, same, read⟩ := first.reads fuel _ (by omega) (ends_fieldChars fields rest)
  obtain ⟨fields, sames, reads⟩ := others fuel rest (by omega)
  refine ⟨(name, item) :: fields, .cons name same sames, ?_⟩
  simp only [letters_cons, letters_append, List.cons_append, List.append_assoc]
  exact readNamed_eq read reads name

theorem fieldsReadBack (back : ∀ field ∈ fields, ReadsBack depth field.2) :
    FieldsReadBack depth fields := by
  induction fields with
  | nil =>
    intro fuel rest enough
    simp only [fieldChars, List.length_singleton] at enough
    obtain ⟨fuel, rfl⟩ : ∃ less, fuel = less + 1 := ⟨fuel - 1, by omega⟩
    exact ⟨[], .nil, readFields_close⟩
  | cons field fields ih =>
    obtain ⟨name, item⟩ := field
    intro fuel rest enough
    obtain ⟨(first : ReadsBack depth item), others⟩ := List.forall_mem_cons.1 back
    simp only [fieldChars, List.length_cons, List.length_append] at enough
    obtain ⟨fuel, rfl⟩ : ∃ less, fuel = less + 1 := ⟨fuel - 1, by omega⟩
    obtain ⟨named, same, read⟩ :=
      exists_readNamed fuel rest first (ih others) name (by omega)
    refine ⟨named, same, ?_⟩
    rw [fieldChars, letters_cons, List.cons_append, ← read]
    exact readFields_comma gap_nil name _ rest

theorem ReadsBack.object (back : ∀ field ∈ fields, ReadsBack depth field.2) :
    ReadsBack (depth + 1) (.object fields) := by
  cases fields with
  | nil => exact Reads.emptyObject.asItself (.object .nil)
  | cons field fields =>
    obtain ⟨name, item⟩ := field
    refine ⟨⟨_, _, rfl, by decide⟩, fun fuel rest enough _ => ?_⟩
    obtain ⟨(first : ReadsBack depth item), others⟩ := List.forall_mem_cons.1 back
    simp only [Document.chars, List.length_cons, List.length_append] at enough
    obtain ⟨fuel, rfl⟩ : ∃ less, fuel = less + 2 := ⟨fuel - 2, by omega⟩
    obtain ⟨named, same, read⟩ :=
      exists_readNamed fuel rest first (fieldsReadBack others) name (by omega)
    rw [Document.chars, letters_cons, List.cons_append]
    by_cases embedded : name = embeddedName
    · subst embedded
      refine ⟨_, .embedding (readEmbedded fuel
        (letters (':' :: (item.chars ++ fieldChars fields)) ++ rest)) same,
        readDocument_brace ?_⟩
      rw [readObject_quoted, if_pos rfl]
      simp only [read]
      rfl
    · refine ⟨.object named, .object same, readDocument_brace ?_⟩
      rw [readObject_quoted, if_neg embedded, read]
      rfl

/-- A written document that is not nested too deep reads back. -/
theorem readsBack_of_written (h : document.Written) (nested : document.nesting ≤ depth) :
    ReadsBack depth document := by
  induction h generalizing depth with
  | null => exact Reads.null.asItself .null
  | bool value =>
    have read : Reads depth (.bool value) (if value then ['t', 'r', 'u', 'e']
        else ['f', 'a', 'l', 's', 'e']) := .bool value
    cases value <;> exact read.asItself (.bool _)
  | number numeral back => exact (back.reads numeral depth).asItself (.number _)
  | string value => exact (Reads.string value).asItself (.string value)
  | @array items _ ih =>
    rw [nesting] at nested
    obtain ⟨depth, rfl⟩ : ∃ less, depth = less + 1 := ⟨depth - 1, by omega⟩
    refine .array fun item member => ih item member ?_
    exact Nat.le_trans (nesting_le_itemsNesting member) (Nat.le_of_succ_le_succ nested)
  | @object fields _ ih =>
    rw [nesting] at nested
    obtain ⟨depth, rfl⟩ : ∃ less, depth = less + 1 := ⟨depth - 1, by omega⟩
    refine .object fun field member => ih field member ?_
    exact Nat.le_trans (nesting_le_fieldsNesting member) (Nat.le_of_succ_le_succ nested)

/-- The whole text of a written document is read as it. -/
theorem exists_read?_text (h : document.Written) (nested : document.nesting ≤ maxDepth) :
    ∃ read, ReadAs document read ∧ Document.read? document.text = some read := by
  obtain ⟨read, same, all⟩ := (readsBack_of_written h nested).reads
    (3 * (letters document.chars).length + 3) [] (by rw [length_letters]; omega) ends_nil
  rw [List.append_nil] at all
  refine ⟨read, same, ?_⟩
  rw [Document.read?, Letter.ofText, Document.text, String.toList_ofList]
  show (readAll (letters document.chars)).toOption = _
  rw [readAll, all]
  rfl

end Json

end ScopedQuery
