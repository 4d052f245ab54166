import ScopedQuery.Proofs.Json.Written
/-!
# Values that a text can carry

A well-formed value comes back from its text when the texts of its numbers that are not whole read
back and none of its objects takes the form of one that holds text.
-/

namespace ScopedQuery.Json

open Document

/-- The first value is the second one or stands somewhere in it. -/
inductive Occurs (part : Json) : Json → Prop
  | self : Occurs part part
  | item {items : List Json} {item : Json} (member : item ∈ items) (h : Occurs part item) :
    Occurs part (.array items)
  | field {fields : List (String × Json)} {field : String × Json} (member : field ∈ fields)
    (h : Occurs part field.2) : Occurs part (.object fields)

/-- The texts of all numbers in the value that are not whole read back. -/
def FloatsReadBack (json : Json) : Prop :=
  ∀ value, Occurs (.number (.float value)) json → (Number.float value).ReadsBack

/-- No object in the value has `embeddedName` for the name of its first field. -/
def HoldsNoText (json : Json) : Prop :=
  ∀ fields, Occurs (.object fields) json → (fields.map Prod.fst).head? ≠ some embeddedName

structure Portable (json : Json) : Prop where
  wellFormed : json.WellFormed
  floats : json.FloatsReadBack
  plain : json.HoldsNoText

variable {json : Json} {items : List Json} {fields : List (String × Json)}

theorem Portable.null : Portable .null := ⟨.null, nofun, nofun⟩

theorem Portable.string (value : String) : Portable (.string value) :=
  ⟨.string value, nofun, nofun⟩

theorem Portable.number {number : Number} (formed : number.WellFormed) (back : number.ReadsBack) :
    Portable (.number number) where
  wellFormed := .number formed
  floats := by
    rintro _ ⟨⟩
    exact back
  plain := nofun

theorem Portable.array (each : ∀ item ∈ items, Portable item) : Portable (.array items) where
  wellFormed := .array fun item member => (each item member).wellFormed
  floats := by
    intro value inside
    cases inside with
    | item member inside => exact (each _ member).floats value inside
  plain := by
    intro inner inside
    cases inside with
    | item member inside => exact (each _ member).plain inner inside

theorem Portable.object (ascending : (fields.map Prod.fst).Pairwise (· < ·))
    (plain : (fields.map Prod.fst).head? ≠ some embeddedName)
    (each : ∀ field ∈ fields, Portable field.2) : Portable (.object fields) where
  wellFormed := .object ascending fun field member => (each field member).wellFormed
  floats := by
    intro value inside
    cases inside with
    | field member inside => exact (each _ member).floats value inside
  plain := by
    intro inner inside
    cases inside with
    | self => exact plain
    | field member inside => exact (each _ member).plain inner inside

/-! ### Writing -/

theorem documents_eq (items : List Json) : documents items = items.map document := by
  induction items with
  | nil => rfl
  | cons item rest ih => rw [documents, ih, List.map_cons]

theorem fieldDocuments_eq (fields : List (String × Json)) :
    fieldDocuments fields = fields.map fun field => (field.1, field.2.document) := by
  induction fields with
  | nil => rfl
  | cons field rest ih => rw [fieldDocuments, ih, List.map_cons]

theorem written_document (h : json.WellFormed) (floats : json.FloatsReadBack) :
    json.document.Written := by
  induction h with
  | null => exact .null
  | bool value => exact .bool value
  | @number number formed =>
    refine .number formed.numeral ?_
    cases formed with
    | integer least most => exact readsBack_integer least most
    | float => exact floats _ .self
  | string value => exact .string value
  | @array items _ ih =>
    rw [document, documents_eq]
    refine .array (List.forall_mem_map.2 fun item member => ih item member ?_)
    exact fun value inside => floats value (.item member inside)
  | @object fields _ _ ih =>
    rw [document, fieldDocuments_eq]
    refine .object (List.forall_mem_map.2 fun field member => ih field member ?_)
    exact fun value inside => floats value (.field member inside)

/-! ### Reading -/

/-- Whatever the document is read as has the value. -/
def Returns (json : Json) : Prop := ∀ read, ReadAs json.document read → read.value = .ok json

theorem values_of_readAs (back : ∀ item ∈ items, Returns item) {read : List Document}
    (same : ItemsReadAs (documents items) read) : Document.values read = .ok items := by
  induction items generalizing read with
  | nil =>
    cases same
    rfl
  | cons item rest ih =>
    obtain ⟨first, others⟩ := List.forall_mem_cons.1 back
    cases same with
    | cons same sames =>
      rw [Document.values, first _ same, ih others sames]
      rfl

/-- A field whose name comes before all others is put in front. -/
theorem field_of_lt {name : String} (first : ∀ other ∈ fields.map Prod.fst, name < other)
    (value : Json) : field name value fields = (name, value) :: fields := by
  cases fields with
  | nil => rfl
  | cons entry rest => rw [field, if_pos (first entry.1 (List.mem_cons_self ..))]

theorem fieldValues_of_readAs (ascending : (fields.map Prod.fst).Pairwise (· < ·))
    (back : ∀ field ∈ fields, Returns field.2) {read : List (String × Document)}
    (same : FieldsReadAs (fieldDocuments fields) read) :
    Document.fieldValues read = .ok fields := by
  induction fields generalizing read with
  | nil =>
    cases same
    rfl
  | cons entry rest ih =>
    obtain ⟨first, others⟩ := List.forall_mem_cons.1 back
    obtain ⟨lowest, ascending⟩ := List.pairwise_cons.1 ascending
    cases same with
    | cons name same sames =>
      rw [Document.fieldValues, first _ same, ih ascending others sames]
      exact congrArg Except.ok (field_of_lt lowest entry.2)

theorem returns_of_wellFormed (h : json.WellFormed) (plain : json.HoldsNoText) : json.Returns := by
  induction h with
  | null =>
    rintro _ ⟨⟩
    rfl
  | bool value =>
    rintro _ ⟨⟩
    rfl
  | number =>
    rintro _ ⟨⟩
    rfl
  | string value =>
    rintro _ ⟨⟩
    rfl
  | @array items _ ih =>
    intro read same
    have back : ∀ item ∈ items, Returns item := fun item member =>
      ih item member fun fields inside => plain fields (.item member inside)
    cases same with
    | array sames =>
      rw [Document.value, values_of_readAs back sames]
      rfl
  | @object fields ascending _ ih =>
    intro read same
    have back : ∀ field ∈ fields, Returns field.2 := fun field member =>
      ih field member fun fields inside => plain fields (.field member inside)
    have first : ((fieldDocuments fields).map Prod.fst).head? ≠ some embeddedName := by
      have names : (fieldDocuments fields).map Prod.fst = fields.map Prod.fst := by
        rw [fieldDocuments_eq, List.map_map]
        rfl
      rw [names]
      exact plain fields .self
    obtain ⟨named, rfl, sames⟩ := exists_object same first
    rw [Document.value, fieldValues_of_readAs ascending back sames]
    rfl

end ScopedQuery.Json
