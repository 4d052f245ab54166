import Mathlib.Data.List.Forall2
import ScopedQuery.Proofs.Flat.Fields
/-!
# Flat rows of a spec

A spec may give a name to several columns, and a row may lack what the columns ask for or hold
anything else. Still every flat row has the names of the header, each once, and under each name the
text or the number of the last column that has it. Nothing but the stored columns of `Spec.Reads`
matters to a flat row, and a stored column with the name of a derived one is not among those that
are copied.
-/

namespace ScopedQuery.Flat

variable {spec : Spec} {rows rows' : List Row} {row row' : Row} {column name : String}
  {layout : Layout}

/-! ### Names and values -/

/-- What flat rows hold. -/
inductive Scalar : Json → Prop
  | string (text : String) : Scalar (.string text)
  | number (number : Json.Number) : Scalar (.number number)

theorem scalar_cell (value : Option Json) : Scalar (cell value) := by
  cases value with
  | none => exact .string _
  | some value =>
    cases shown_cell value with
    | null | bool | string | array | object => exact .string _
    | number number => exact .number number

theorem scalar_cellOf (row : Row) (column : Column) : Scalar (Layout.cellOf row column) := by
  cases column with
  | basic | field => exact scalar_cell _
  | derived derived =>
    rw [Layout.cellOf, Flat.sum]
    split
    · exact .number _
    · exact .string _

theorem names_flatten_eraseDups (layout : Layout) (row : Row) :
    (layout.flatten row).names = layout.header.eraseDups := by
  rw [Layout.flatten, Ordered.names_ofList, List.map_map]
  rfl

theorem find?_flatten (layout : Layout) (row : Row) (name : String) :
    (layout.flatten row).find? name
      = ((layout.columns.filter fun column => column.name = name).getLast?).map
        (Layout.cellOf row) := by
  rw [Layout.flatten, Ordered.find?_ofList, List.filter_map, List.getLast?_map, Option.map_map]
  rfl

theorem scalar_flatten {value : Json} (member : value ∈ (layout.flatten row).values) :
    Scalar value := by
  obtain ⟨entry, listed, rfl⟩ := List.mem_map.1 member
  have found : (layout.flatten row).find? entry.1 = some entry.2 := Ordered.find?_eq_some.2 listed
  rw [find?_flatten, Option.map_eq_some_iff] at found
  obtain ⟨column, -, cell⟩ := found
  rw [← cell]
  exact scalar_cellOf row column

/-! ### What a flat row is made of -/

namespace Spec

/-- The stored columns that the spec looks at: those that it copies, because no derived column has
their name, those that it adds up and those whose fields it shows. -/
inductive Reads (spec : Spec) : String → Prop
  | copied {name : String} : name ∈ spec.basicColumns → (∀ sum ∈ spec.derived, sum.name ≠ name) →
    Reads spec name
  | summed {sum : Derived} {name : String} : sum ∈ spec.derived → name ∈ sum.sumOf →
    Reads spec name
  | source {source : JsonSource} : source ∈ spec.jsonSources → Reads spec source.column

/-- Two rows agree in what the spec reads. -/
def Alike (spec : Spec) (row row' : Row) : Prop :=
  ∀ name, spec.Reads name → row.find? name = row'.find? name

theorem basic_mem_layout :
    .basic name ∈ (spec.layout rows).columns
      ↔ name ∈ spec.basicColumns ∧ ∀ sum ∈ spec.derived, sum.name ≠ name := by
  simp [layout]

theorem reads_of_mem_layout {column : Column} (member : column ∈ (spec.layout rows).columns) :
    ∀ name ∈ column.reads, spec.Reads name := by
  cases column with
  | basic name =>
    obtain ⟨listed, apart⟩ := basic_mem_layout.1 member
    exact List.forall_mem_singleton.2 (.copied listed apart)
  | derived derived =>
    have listed : derived ∈ spec.derived := by simpa [layout] using member
    exact fun name summed => .summed listed summed
  | field label column field =>
    obtain ⟨source, listed, _, _, _, rfl, -⟩ : ∃ source ∈ spec.jsonSources,
        ∃ key ∈ sourceFields rows source, source.label ++ "_" ++ key = label
          ∧ source.column = column ∧ key = field := by
      simpa [layout] using member
    exact List.forall_mem_singleton.2 (.source listed)

end Spec

theorem discoveredFields_congr
    (same : List.Forall₂ (fun row row' => row.find? column = row'.find? column) rows rows') :
    discoveredFields rows column = discoveredFields rows' column := by
  have found : rows.flatMap (fun row => (objectFields (row.find? column)).map Prod.fst)
      = rows'.flatMap fun row => (objectFields (row.find? column)).map Prod.fst := by
    induction same with
    | nil => rfl
    | cons first _ ih => rw [List.flatMap_cons, List.flatMap_cons, first, ih]
  rw [discoveredFields, discoveredFields, found]

/-- Of the rows that a layout is settled for, only the columns matter whose fields are shown. -/
theorem layout_congr
    (same : ∀ source ∈ spec.jsonSources, List.Forall₂
      (fun row row' => row.find? source.column = row'.find? source.column) rows rows') :
    spec.layout rows = spec.layout rows' := by
  have fields : ∀ source ∈ spec.jsonSources,
      Spec.sourceFields rows source = Spec.sourceFields rows' source := by
    intro source listed
    rw [Spec.sourceFields, Spec.sourceFields, discoveredFields_congr (same source listed)]
  rw [Spec.layout, Spec.layout]
  congr 2
  exact List.flatMap_congr fun source listed => by rw [fields source listed]

theorem layout_alike (same : List.Forall₂ spec.Alike rows rows') :
    spec.layout rows = spec.layout rows' :=
  layout_congr fun _ listed => same.imp fun _ _ alike => alike _ (.source listed)

theorem flatten_alike (same : spec.Alike row row') :
    (spec.layout rows).flatten row = (spec.layout rows).flatten row' := by
  apply congrArg Ordered.ofList
  apply List.map_congr_left
  intro column listed
  have cells : Layout.cellOf row column = Layout.cellOf row' column :=
    cellOf_congr fun name read => same name (Spec.reads_of_mem_layout listed name read)
  rw [cells]

/-- A flat row has each name of the header once, in the place where it first stands, and under it
the text or the number of the last column of that name. It depends on nothing but the columns that
the spec reads, of the row and of the rows that the layout is settled for, and no stored column with
the name of a derived one is copied. -/
theorem flatten_uniform (spec : Spec) (rows : List Row) (row : Row) :
    let layout := spec.layout rows
    let flat := layout.flatten row
    flat.names = layout.header.eraseDups
      ∧ (∀ value ∈ flat.values, Scalar value)
      ∧ (∀ name, flat.find? name
        = ((layout.columns.filter fun column => column.name = name).getLast?).map
          (Layout.cellOf row))
      ∧ (∀ rows' row', List.Forall₂ spec.Alike rows rows' → spec.Alike row row' →
        spec.layout rows' = layout ∧ (spec.layout rows').flatten row' = flat)
      ∧ ∀ sum ∈ spec.derived, .basic sum.name ∉ layout.columns := by
  intro layout flat
  refine ⟨names_flatten_eraseDups layout row, fun value => scalar_flatten,
    find?_flatten layout row, fun rows' row' sameRows same => ?_, fun sum listed copied => ?_⟩
  · have settled : spec.layout rows' = layout := (layout_alike sameRows).symm
    refine ⟨settled, ?_⟩
    rw [settled]
    exact (flatten_alike same).symm
  · exact (Spec.basic_mem_layout.1 copied).2 sum listed rfl

/-- Names that are given twice, and a stored column with the name of a derived one. -/
theorem flatten_uniform_of_shared_names :
    let spec : Spec := ⟨["id", "total", "id"], [⟨"total", ["a"]⟩, ⟨"m_x", ["a"]⟩],
      [⟨"meta", "m", .named ["x", "x"]⟩]⟩
    let row : Row := .ofList [("id", .string "1"), ("total", .string "5"), ("meta", .null)]
    let flat := (spec.layout []).flatten row
    flat.names = ["id", "total", "m_x"]
      ∧ flat.find? "m_x" = some (.string "")
      ∧ (spec.layout []).flatten (row.insert "total" (.string "6")) = flat := by
  intro spec row flat
  obtain ⟨names, -, found, same, -⟩ := flatten_uniform spec [] row
  refine ⟨names.trans (by decide), (found "m_x").trans rfl, ?_⟩
  have unread : ∀ name, spec.Reads name → name ≠ "total" := by
    intro name read
    cases read with
    | copied _ apart => exact fun same => apart ⟨"total", ["a"]⟩ (List.mem_cons_self ..) same.symm
    | @summed sum name listed summed =>
      have only : ∀ sum ∈ spec.derived, ∀ name ∈ sum.sumOf, name ≠ "total" := by decide
      exact only sum listed name summed
    | @source source listed =>
      have only : ∀ source ∈ spec.jsonSources, source.column ≠ "total" := by decide
      exact only source listed
  have alike : spec.Alike row (row.insert "total" (.string "6")) := fun name read =>
    (Ordered.find?_insert_of_ne (unread name read)).symm
  exact (same [] _ .nil alike).2

end ScopedQuery.Flat
