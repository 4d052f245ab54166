import ScopedQuery.Flat.Layout
import ScopedQuery.Proofs.Ordered
/-!
# Fields of JSON columns

A row has a field when its cell is an object, or a string that holds the text of one, with a value
under that name. The discovered names are the names of these fields over all rows, each once, and
the cell of a field is read back from the row by the same rule.
-/

namespace ScopedQuery

namespace Json

variable {name : String} {fields : List (String × Json)}

theorem exists_get?_iff :
    (∃ value, get? name fields = some value) ↔ name ∈ fields.map Prod.fst := by
  induction fields with
  | nil => simp [get?]
  | cons entry rest ih =>
    rw [List.map_cons, List.mem_cons, get?]
    by_cases same : entry.1 = name
    · simp [same]
    · rw [if_neg same, ih]
      simp [Ne.symm same]

end Json

namespace Flat

variable {rows : List Row} {row : Row} {column key name : String} {value cell : Json}
  {fields : List (String × Json)} {names : List String}

/-! ### What a row holds -/

inductive HoldsObject : Json → List (String × Json) → Prop
  | object (fields : List (String × Json)) : HoldsObject (.object fields) fields
  | text {text : String} {fields : List (String × Json)} :
    Json.read? text = some (.object fields) → HoldsObject (.string text) fields

def HasField (row : Row) (column key : String) (value : Json) : Prop :=
  ∃ cell fields, (column, cell) ∈ row.entries ∧ HoldsObject cell fields
    ∧ Json.get? key fields = some value

/-- The form in which a value of a field is shown. -/
inductive Shown : Json → Json → Prop
  | null : Shown .null (.string "")
  | bool (value : Bool) : Shown (.bool value) (.string (if value then "true" else "false"))
  | number (number : Json.Number) : Shown (.number number) (.number number)
  | string (text : String) : Shown (.string text) (.string text)
  | array (items : List Json) : Shown (.array items) (.string (Json.array items).text)
  | object (fields : List (String × Json)) :
    Shown (.object fields) (.string (Json.object fields).text)

theorem shown_cell (value : Json) : Shown value (Flat.cell (some value)) := by
  cases value with
  | null => exact .null
  | bool value => exact .bool value
  | number number => exact .number number
  | string text => exact .string text
  | array items => exact .array items
  | object fields => exact .object fields

theorem HoldsObject.objectFields_eq (h : HoldsObject cell fields) :
    objectFields (some cell) = fields := by
  cases h with
  | object fields => rfl
  | text read => simp only [objectFields, read]

theorem exists_holdsObject (h : Json.get? key (objectFields (some cell)) = some value) :
    ∃ fields, HoldsObject cell fields ∧ Json.get? key fields = some value := by
  cases cell with
  | object fields => exact ⟨fields, .object fields, h⟩
  | string text =>
    simp only [objectFields] at h
    split at h
    · next fields read => exact ⟨fields, .text read, h⟩
    · cases h
  | _ => cases h

theorem hasField_iff :
    HasField row column key value
      ↔ Json.get? key (objectFields (row.find? column)) = some value := by
  constructor
  · intro h
    obtain ⟨cell, fields, held, object, found⟩ := h
    rw [Ordered.find?_eq_some.2 held, object.objectFields_eq, found]
  · intro h
    cases held : row.find? column with
    | none => simp [held, objectFields, Json.get?] at h
    | some cell =>
      rw [held] at h
      obtain ⟨fields, object, found⟩ := exists_holdsObject h
      exact ⟨cell, fields, Ordered.find?_eq_some.1 held, object, found⟩

/-! ### Discovered names -/

theorem mem_addName {other : String} :
    other ∈ addName name names ↔ other = name ∨ other ∈ names := by
  induction names with
  | nil => simp [addName]
  | cons first rest ih =>
    rw [addName]
    split_ifs with before same
    · exact List.mem_cons
    · rw [same, List.mem_cons, or_self_left]
    · rw [List.mem_cons, ih, List.mem_cons, or_left_comm]

theorem ascending_addName (h : names.Pairwise (· < ·)) : (addName name names).Pairwise (· < ·) := by
  induction names with
  | nil => exact List.pairwise_singleton _ _
  | cons first rest ih =>
    obtain ⟨least, ascending⟩ := List.pairwise_cons.1 h
    rw [addName]
    split_ifs with before same
    · refine List.pairwise_cons.2 ⟨List.forall_mem_cons.2 ⟨before, ?_⟩, h⟩
      exact fun other member => String.lt_trans before (least other member)
    · exact h
    · refine List.pairwise_cons.2 ⟨fun other member => ?_, ih ascending⟩
      rcases mem_addName.1 member with rfl | member
      · exact Std.lt_of_le_of_ne (String.not_lt.1 before) (Ne.symm same)
      · exact least other member

theorem mem_foldl_addName {found : List String} :
    name ∈ found.foldl (fun names name => addName name names) names
      ↔ name ∈ found ∨ name ∈ names := by
  induction found generalizing names with
  | nil => simp
  | cons first rest ih =>
    rw [List.foldl_cons, ih, mem_addName, List.mem_cons, or_assoc, or_left_comm]

theorem ascending_foldl_addName {found : List String} (h : names.Pairwise (· < ·)) :
    (found.foldl (fun names name => addName name names) names).Pairwise (· < ·) := by
  induction found generalizing names with
  | nil => exact h
  | cons first rest ih => exact ih (ascending_addName h)

theorem mem_discoveredFields :
    key ∈ discoveredFields rows column ↔ ∃ row ∈ rows, ∃ value, HasField row column key value := by
  rw [discoveredFields, mem_foldl_addName, List.mem_flatMap, or_iff_left List.not_mem_nil]
  simp only [hasField_iff, Json.exists_get?_iff]

theorem nodup_discoveredFields : (discoveredFields rows column).Nodup := by
  have ascending : (discoveredFields rows column).Pairwise (· < ·) :=
    ascending_foldl_addName List.Pairwise.nil
  apply ascending.imp
  intro name other before same
  rw [same] at before
  exact String.lt_irrefl other before

/-! ### Cells -/

/-- The columns of a row that an output column looks at. -/
def Column.reads : Column → List String
  | .basic name => [name]
  | .derived sum => sum.sumOf
  | .field _ column _ => [column]

theorem cellOf_congr {column : Column} {row row' : Row}
    (h : ∀ name ∈ column.reads, row.find? name = row'.find? name) :
    Layout.cellOf row column = Layout.cellOf row' column := by
  cases column with
  | basic name =>
    have same : row.find? name = row'.find? name := h name (List.mem_singleton_self name)
    simp only [Layout.cellOf, same]
  | derived derived =>
    have same : derived.sumOf.filterMap (fun name => summand (row.find? name))
        = derived.sumOf.filterMap fun name => summand (row'.find? name) := by
      apply List.filterMap_congr
      exact fun name member => congrArg summand (h name member)
    simp only [Layout.cellOf, Flat.sum, same]
  | field _ column _ =>
    have same : row.find? column = row'.find? column := h column (List.mem_singleton_self column)
    simp only [Layout.cellOf, same]

variable {layout : Layout}

theorem entries_flatten (h : layout.header.Nodup) (row : Row) :
    (layout.flatten row).entries
      = layout.columns.map fun column => (column.name, Layout.cellOf row column) := by
  apply Ordered.entries_ofList
  rw [List.map_map]
  exact h

theorem names_flatten (h : layout.header.Nodup) (row : Row) :
    (layout.flatten row).names = layout.header := by
  rw [Ordered.names, entries_flatten h, List.map_map]
  rfl

theorem mem_entries_flatten (h : layout.header.Nodup) {column : Column}
    (member : column ∈ layout.columns) (row : Row) :
    (column.name, Layout.cellOf row column) ∈ (layout.flatten row).entries := by
  rw [entries_flatten h]
  exact List.mem_map_of_mem member

end Flat

end ScopedQuery
