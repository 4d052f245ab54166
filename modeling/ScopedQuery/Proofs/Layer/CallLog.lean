import ScopedQuery.Layer.CallLog
import ScopedQuery.Proofs.Flat.Rows
/-!
# The export of call logs

The columns of the export are those stored, the total of the costs, and one for each field of the
metadata and of the metrics of any of the calls. No two of them share a name, whatever names the
fields have, because the name of a field stands behind its label.
-/

namespace ScopedQuery.Layer.CallLog

open Flat (HasField Shown discoveredFields)

variable {rows : List Row} {row : Row} {column key : String} {value : Json}

/-- The name under which a field is shown. -/
def fieldName (column key : String) : String := column ++ "_" ++ key

def fieldNames (rows : List Row) (column : String) : List String :=
  (discoveredFields rows column).map (fieldName column)

/-- The names that are there for every set of rows. -/
def storedNames : List String := basicColumns ++ ["cost_total"]

/-! ### The header -/

def fieldColumns (rows : List Row) (column : String) : List Flat.Column :=
  (discoveredFields rows column).map fun key => .field (fieldName column key) column key

theorem columns_eq (rows : List Row) :
    (spec.layout rows).columns
      = basicColumns.map Flat.Column.basic ++ [.derived ⟨"cost_total", costColumns⟩]
        ++ (fieldColumns rows "metadata" ++ fieldColumns rows "metrics") := by
  have kept : (basicColumns.filter fun name => !(spec.derived.any fun sum => sum.name = name))
      = basicColumns := by
    decide +kernel
  have sources : spec.jsonSources.flatMap (fun source =>
        (Flat.Spec.sourceFields rows source).map fun field =>
          Flat.Column.field (source.label ++ "_" ++ field) source.column field)
      = fieldColumns rows "metadata" ++ fieldColumns rows "metrics" := by
    simp only [spec, jsonColumns, List.map_cons, List.map_nil, List.flatMap_cons,
      List.flatMap_nil, List.append_nil]
    rfl
  rw [← sources]
  exact congrArg (fun names => names.map Flat.Column.basic ++ _ ++ _) kept

theorem header_eq (rows : List Row) :
    (exportOf rows).header
      = storedNames ++ (fieldNames rows "metadata" ++ fieldNames rows "metrics") := by
  show (spec.layout rows).columns.map Flat.Column.name = _
  rw [columns_eq, List.map_append, List.map_append, List.map_append, List.map_map,
    fieldColumns, fieldColumns, List.map_map, List.map_map]
  rfl

theorem nodup_fieldNames : (fieldNames rows column).Nodup := by
  apply Flat.nodup_discoveredFields.map
  intro key other same
  exact (String.append_right_inj _).1 same

theorem fieldName_metadata_ne_metrics (key other : String) :
    fieldName "metadata" key ≠ fieldName "metrics" other := by
  intro same
  have chars := congrArg String.toList same
  simp [fieldName] at chars

theorem fieldName_not_mem_storedNames (member : column ∈ jsonColumns) (key : String) :
    fieldName column key ∉ storedNames := by
  have apart : ∀ column ∈ jsonColumns, ∀ name ∈ storedNames,
      ¬(column ++ "_").toList <+: name.toList := by decide +kernel
  intro stored
  apply apart column member _ stored
  exact ⟨key.toList, String.toList_append.symm⟩

theorem nodup_header (rows : List Row) : (exportOf rows).header.Nodup := by
  have stored : storedNames.Nodup := by decide +kernel
  rw [header_eq, List.nodup_append, List.nodup_append]
  refine ⟨stored, ⟨nodup_fieldNames, nodup_fieldNames, ?_⟩, ?_⟩
  · intro name shown other shown'
    obtain ⟨key, -, rfl⟩ := List.mem_map.1 shown
    obtain ⟨key', -, rfl⟩ := List.mem_map.1 shown'
    exact fieldName_metadata_ne_metrics key key'
  · intro name member other shown same
    rw [same] at member
    rcases List.mem_append.1 shown with shown | shown
    · obtain ⟨key, -, rfl⟩ := List.mem_map.1 shown
      exact fieldName_not_mem_storedNames (by simp [jsonColumns]) key member
    · obtain ⟨key, -, rfl⟩ := List.mem_map.1 shown
      exact fieldName_not_mem_storedNames (by simp [jsonColumns]) key member

theorem mem_fieldNames :
    fieldName column key ∈ fieldNames rows column ↔ key ∈ discoveredFields rows column := by
  apply List.mem_map_of_injective
  intro key other same
  exact (String.append_right_inj _).1 same

theorem fieldName_mem_header (member : column ∈ jsonColumns) :
    fieldName column key ∈ (exportOf rows).header ↔ key ∈ discoveredFields rows column := by
  rw [header_eq, List.mem_append, or_iff_right (fieldName_not_mem_storedNames member key),
    List.mem_append]
  have member : column = "metadata" ∨ column = "metrics" := by simpa [jsonColumns] using member
  rcases member with rfl | rfl
  · refine (or_iff_left fun shown => ?_).trans mem_fieldNames
    obtain ⟨other, -, same⟩ := List.mem_map.1 shown
    exact fieldName_metadata_ne_metrics key other same.symm
  · refine (or_iff_right fun shown => ?_).trans mem_fieldNames
    obtain ⟨other, -, same⟩ := List.mem_map.1 shown
    exact fieldName_metadata_ne_metrics other key same

/-! ### The rows -/

/-- A flat row shows a row under a header. Its names are all different, so that it has one cell for
each of them. -/
structure Shows (header : List String) (row flat : Row) : Prop where
  names : flat.names = header
  total : ("cost_total", Flat.sum row costColumns) ∈ flat.entries
  field : ∀ column ∈ jsonColumns, ∀ key value, HasField row column key value →
    ∃ cell, Shown value cell ∧ (fieldName column key, cell) ∈ flat.entries
  absent : ∀ column ∈ jsonColumns, ∀ key, fieldName column key ∈ header →
    (∀ value, ¬HasField row column key value) →
      (fieldName column key, .string "") ∈ flat.entries

theorem field_mem_columns (member : column ∈ jsonColumns)
    (found : key ∈ discoveredFields rows column) :
    Flat.Column.field (fieldName column key) column key ∈ (spec.layout rows).columns := by
  have shown : Flat.Column.field (fieldName column key) column key ∈ fieldColumns rows column :=
    List.mem_map_of_mem found
  rw [columns_eq, List.mem_append, List.mem_append (s := fieldColumns rows "metadata")]
  have member : column = "metadata" ∨ column = "metrics" := by simpa [jsonColumns] using member
  rcases member with rfl | rfl
  · exact .inr (.inl shown)
  · exact .inr (.inr shown)

theorem shows_flatten (member : row ∈ rows) :
    Shows (exportOf rows).header row ((spec.layout rows).flatten row) where
  names := Flat.names_flatten (nodup_header rows) row
  total := by
    have listed : .derived ⟨"cost_total", costColumns⟩ ∈ (spec.layout rows).columns := by
      rw [columns_eq]
      simp
    exact Flat.mem_entries_flatten (nodup_header rows) listed row
  field := by
    intro column source key value held
    have found : key ∈ discoveredFields rows column :=
      Flat.mem_discoveredFields.2 ⟨row, member, value, held⟩
    refine ⟨Flat.cell (some value), Flat.shown_cell value, ?_⟩
    have shown := Flat.mem_entries_flatten (nodup_header rows) (field_mem_columns source found) row
    rw [Flat.Layout.cellOf, Flat.hasField_iff.1 held] at shown
    exact shown
  absent := by
    intro column source key listed lacks
    have found := (fieldName_mem_header source).1 listed
    have shown := Flat.mem_entries_flatten (nodup_header rows) (field_mem_columns source found) row
    have nothing : Json.get? key (Flat.objectFields (row.find? column)) = none := by
      rw [Option.eq_none_iff_forall_ne_some]
      exact fun value held => lacks value (Flat.hasField_iff.2 held)
    rw [Flat.Layout.cellOf, nothing] at shown
    exact shown

/-! ### A stored total -/

/-- The spec looks at no stored total. -/
theorem ne_total_of_reads {name : String} (read : spec.Reads name) : name ≠ "cost_total" := by
  cases read with
  | copied _ apart => exact fun same => apart ⟨"cost_total", costColumns⟩ (by decide) same.symm
  | @summed sum name listed summed =>
    obtain rfl := List.mem_singleton.1 listed
    rintro rfl
    exact absurd summed (by decide)
  | @source source listed =>
    obtain ⟨column, known, rfl⟩ := List.mem_map.1 listed
    rintro rfl
    exact absurd known (by decide)

/-- A column that is stored under the name of the total changes nothing. -/
theorem exportOf_insert_total (rows : List Row) (stored : Row → Json) :
    exportOf (rows.map fun row => row.insert "cost_total" (stored row)) = exportOf rows := by
  have alike (row : Row) : spec.Alike (row.insert "cost_total" (stored row)) row :=
    fun name read => Ordered.find?_insert_of_ne (ne_total_of_reads read)
  have layout : spec.layout (rows.map fun row => row.insert "cost_total" (stored row))
      = spec.layout rows := by
    apply Flat.layout_alike
    rw [List.forall₂_map_left_iff, List.forall₂_same]
    exact fun row _ => alike row
  have flat (row : Row) : (spec.layout rows).flatten (row.insert "cost_total" (stored row))
      = (spec.layout rows).flatten row := Flat.flatten_alike (alike row)
  simp only [exportOf, layout, List.map_map, Function.comp_def, flat]

/-! ### The whole export -/

/-- Whatever the calls hold, the export has no name twice and shows every call under its header, in
order and with every field that any call has; a total is never taken from what is stored. -/
theorem exportOf_uniform (rows : List Row) :
    (exportOf rows).header.Nodup
      ∧ List.Forall₂ (Shows (exportOf rows).header) rows (exportOf rows).rows
      ∧ (∀ column ∈ jsonColumns, ∀ key, fieldName column key ∈ (exportOf rows).header
        ↔ ∃ row ∈ rows, ∃ value, HasField row column key value)
      ∧ ∀ stored : Row → Json,
        exportOf (rows.map fun row => row.insert "cost_total" (stored row)) = exportOf rows := by
  refine ⟨nodup_header rows, ?_, fun column source key => ?_, exportOf_insert_total rows⟩
  · rw [exportOf, List.forall₂_map_right_iff, List.forall₂_same]
    exact fun row member => shows_flatten member
  · exact (fieldName_mem_header source).trans Flat.mem_discoveredFields

end ScopedQuery.Layer.CallLog
