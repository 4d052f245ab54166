import Mathlib.Data.List.Perm.Basic
import ScopedQuery.Proofs.Cell.Decimals
/-!
# Stored JSON

What a database keeps as JSON has exact decimals for numbers and fields in an order of its own, and
is sent as text with a blank after every comma and colon. Here is which JSON values denote it, and
that its text is read as one of them: unless it is nested too deep, has a number that is not kept,
or an object that takes the form of one that holds text.
-/

namespace ScopedQuery

open Json

inductive Jsonb
  | null
  | bool (value : Bool)
  | number (value : Numeric.Fixed)
  | string (value : String)
  | array (items : List Jsonb)
  | object (fields : List (String × Jsonb))

namespace Jsonb

variable {depth : Nat} {stored : Jsonb} {items : List Jsonb} {fields : List (String × Jsonb)}
  {document : Document} {documents : List Document} {named : List (String × Document)}
  {name : String}

/-! ### Text -/

mutual

def chars : Jsonb → List Char
  | .null => ['n', 'u', 'l', 'l']
  | .bool value => if value then ['t', 'r', 'u', 'e'] else ['f', 'a', 'l', 's', 'e']
  | .number value => value.chars
  | .string value => Document.quoted value
  | .array [] => ['[', ']']
  | .array (item :: rest) => '[' :: (chars item ++ itemChars rest)
  | .object [] => ['{', '}']
  | .object ((name, item) :: rest) =>
    '{' :: (Document.quoted name ++ ':' :: ([' '] ++ (chars item ++ fieldChars rest)))

/-- The items after the first, and the closing bracket. -/
def itemChars : List Jsonb → List Char
  | [] => [']']
  | item :: rest => ',' :: ([' '] ++ (chars item ++ itemChars rest))

/-- The fields after the first, and the closing brace. -/
def fieldChars : List (String × Jsonb) → List Char
  | [] => ['}']
  | (name, item) :: rest =>
    ',' :: ([' '] ++ (Document.quoted name ++ ':' :: ([' '] ++ (chars item ++ fieldChars rest))))

end

/-! ### Meaning -/

/-- That a JSON value is the stored one: numbers have the same value, arrays the same items, and
objects the same fields, in whatever order. -/
inductive Denotes : Jsonb → Json → Prop
  | null : Denotes .null .null
  | bool (value : Bool) : Denotes (.bool value) (.bool value)
  | number {fixed : Numeric.Fixed} {number : Json.Number}
      (same : number.decimal? = some fixed.value) : Denotes (.number fixed) (.number number)
  | string (value : String) : Denotes (.string value) (.string value)
  | array {items : List Jsonb} {values : List Json} (size : values.length = items.length)
      (each : ∀ pair ∈ items.zip values, Denotes pair.1 pair.2) :
      Denotes (.array items) (.array values)
  | object {fields : List (String × Jsonb)} {sorted values : List (String × Json)}
      (order : sorted.Perm values) (names : values.map Prod.fst = fields.map Prod.fst)
      (each : ∀ pair ∈ fields.zip values, Denotes pair.1.2 pair.2.2) :
      Denotes (.object fields) (.object sorted)

/-- What is read as the value that it is: at most so many nested arrays and objects, numbers that
are common or kept otherwise, and no object whose first field says that it holds text. That no two
fields of an object have one name is true of all stored JSON. -/
inductive Readable : Nat → Jsonb → Prop
  | null {depth : Nat} : Readable depth .null
  | bool {depth : Nat} (value : Bool) : Readable depth (.bool value)
  | number {depth : Nat} {fixed : Numeric.Fixed} (kept : fixed.Common ∨ fixed.Kept) :
      Readable depth (.number fixed)
  | string {depth : Nat} (value : String) : Readable depth (.string value)
  | array {depth : Nat} {items : List Jsonb} (each : ∀ item ∈ items, Readable depth item) :
      Readable (depth + 1) (.array items)
  | object {depth : Nat} {fields : List (String × Jsonb)}
      (distinct : (fields.map Prod.fst).Nodup)
      (plain : (fields.map Prod.fst).head? ≠ some embeddedName)
      (each : ∀ field ∈ fields, Readable depth field.2) :
      Readable (depth + 1) (.object fields)

/-! ### The value of a document -/

def Means (document : Document) (stored : Jsonb) : Prop :=
  ∃ json, document.value = .ok json ∧ stored.Denotes json

def MeanItems (documents : List Document) (items : List Jsonb) : Prop :=
  ∃ values, Document.values documents = .ok values ∧ values.length = items.length
    ∧ ∀ pair ∈ items.zip values, Denotes pair.1 pair.2

def MeanFields (documents : List (String × Document)) (fields : List (String × Jsonb)) : Prop :=
  ∃ sorted values, Document.fieldValues documents = .ok sorted ∧ sorted.Perm values
    ∧ values.map Prod.fst = fields.map Prod.fst
    ∧ ∀ pair ∈ fields.zip values, Denotes pair.1.2 pair.2.2

theorem MeanItems.nil : MeanItems [] [] := ⟨[], rfl, rfl, nofun⟩

theorem MeanItems.cons (first : Means document stored) (others : MeanItems documents items) :
    MeanItems (document :: documents) (stored :: items) := by
  obtain ⟨json, value, denotes⟩ := first
  obtain ⟨values, rest, size, each⟩ := others
  refine ⟨json :: values, ?_, congrArg Nat.succ size, List.forall_mem_cons.2 ⟨denotes, each⟩⟩
  rw [Document.values, value, rest]
  rfl

theorem Means.array (h : MeanItems documents items) : Means (.array documents) (.array items) := by
  obtain ⟨values, read, size, each⟩ := h
  refine ⟨.array values, ?_, .array size each⟩
  rw [Document.value, read]
  rfl

/-- A field whose name is new is put somewhere between the others. -/
theorem field_perm {value : Json} {sorted : List (String × Json)}
    (new : name ∉ sorted.map Prod.fst) :
    (field name value sorted).Perm ((name, value) :: sorted) := by
  induction sorted with
  | nil => exact .refl _
  | cons held rest ih =>
    rw [List.map_cons, List.mem_cons, not_or] at new
    rw [field, if_neg new.1]
    split
    · exact .refl _
    · exact ((ih new.2).cons held).trans (.swap ..)

theorem MeanFields.nil : MeanFields [] [] := ⟨[], [], rfl, .refl _, rfl, nofun⟩

theorem MeanFields.cons (new : name ∉ fields.map Prod.fst) (first : Means document stored)
    (others : MeanFields named fields) :
    MeanFields ((name, document) :: named) ((name, stored) :: fields) := by
  obtain ⟨json, value, denotes⟩ := first
  obtain ⟨sorted, values, rest, order, names, each⟩ := others
  have fresh : name ∉ sorted.map Prod.fst := by
    rw [(order.map Prod.fst).mem_iff, names]
    exact new
  refine ⟨field name json sorted, (name, json) :: values, ?_,
    (field_perm fresh).trans (order.cons _), congrArg (name :: ·) names,
    List.forall_mem_cons.2 ⟨denotes, each⟩⟩
  rw [Document.fieldValues, value, rest]
  rfl

theorem Means.object (h : MeanFields named fields) : Means (.object named) (.object fields) := by
  obtain ⟨sorted, values, read, order, names, each⟩ := h
  refine ⟨.object sorted, ?_, .object order names each⟩
  rw [Document.value, read]
  rfl

/-! ### Reading -/

/-- That the text is read as a document whose value is the stored one. -/
def ReadsAs (depth : Nat) (stored : Jsonb) : Prop :=
  ∃ document, Reads depth document stored.chars ∧ Means document stored

theorem gap_blank : Gap [' '] := by
  intro char member
  rw [List.mem_singleton.1 member]
  decide

theorem itemChars_readsAs (back : ∀ item ∈ items, ReadsAs depth item) :
    ∃ documents, ReadsItems depth documents (itemChars items) ∧ MeanItems documents items := by
  induction items with
  | nil => exact ⟨[], .nil, .nil⟩
  | cons item rest ih =>
    obtain ⟨⟨document, read, means⟩, others⟩ := List.forall_mem_cons.1 back
    obtain ⟨documents, readRest, meanRest⟩ := ih others
    exact ⟨_, .cons gap_blank read readRest, .cons means meanRest⟩

theorem fieldChars_readsAs (distinct : (fields.map Prod.fst).Nodup)
    (back : ∀ field ∈ fields, ReadsAs depth field.2) :
    ∃ named, ReadsFields depth named (fieldChars fields) ∧ MeanFields named fields := by
  induction fields with
  | nil => exact ⟨[], .nil, .nil⟩
  | cons entry rest ih =>
    obtain ⟨new, distinct⟩ := List.nodup_cons.1 distinct
    obtain ⟨⟨document, read, means⟩, others⟩ := List.forall_mem_cons.1 back
    obtain ⟨named, readRest, meanRest⟩ := ih distinct others
    exact ⟨_, .cons gap_blank gap_blank read readRest entry.1, .cons new means meanRest⟩

theorem Readable.readsAs (h : Readable depth stored) : ReadsAs depth stored := by
  induction h with
  | null => exact ⟨_, .null, _, rfl, .null⟩
  | bool value => exact ⟨_, .bool value, _, rfl, .bool value⟩
  | number kept =>
    obtain ⟨number, same, read⟩ := (kept.elim (·.kept) id).exists_reads _
    exact ⟨_, read, _, rfl, .number same⟩
  | string value => exact ⟨_, .string value, _, rfl, .string value⟩
  | @array depth items _ ih =>
    cases items with
    | nil => exact ⟨_, .emptyArray, .array .nil⟩
    | cons item rest =>
      obtain ⟨⟨document, read, means⟩, others⟩ := List.forall_mem_cons.1 ih
      obtain ⟨documents, readRest, meanRest⟩ := itemChars_readsAs others
      exact ⟨_, .array read readRest, .array (.cons means meanRest)⟩
  | @object depth fields distinct plain _ ih =>
    cases fields with
    | nil => exact ⟨_, .emptyObject, .object .nil⟩
    | cons entry rest =>
      obtain ⟨new, distinct⟩ := List.nodup_cons.1 distinct
      obtain ⟨⟨document, read, means⟩, others⟩ := List.forall_mem_cons.1 ih
      obtain ⟨named, readRest, meanRest⟩ := fieldChars_readsAs distinct others
      have other : entry.1 ≠ embeddedName := fun same => plain (congrArg some same)
      exact ⟨_, .object gap_blank read readRest other, .object (.cons new means meanRest)⟩

/-- The whole text has a value that the stored JSON is. -/
theorem Readable.exists_read (h : Readable maxDepth stored) :
    ∃ json, Json.read (letters stored.chars) = .ok json ∧ stored.Denotes json := by
  obtain ⟨document, read, json, value, denotes⟩ := h.readsAs
  refine ⟨json, ?_, denotes⟩
  rw [Json.read, read.readAll]
  exact value

end Jsonb

end ScopedQuery
