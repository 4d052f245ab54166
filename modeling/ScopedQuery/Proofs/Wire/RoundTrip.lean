import ScopedQuery.Proofs.Wire.Readers
import ScopedQuery.Wire.Flat
import ScopedQuery.Wire.Request
import ScopedQuery.Wire.Response
import ScopedQuery.Wire.Rule
/-!
# Round trips on the wire

Rules, tables, specs, reports, requests and exports come back from their texts. Each of them is
carried by what is written for it (`Carries`), place by place. Most are written flat enough to be
read whatever they hold; requests and exports hold values that may be nested too deep.

The values in requests and exports come back unless one of their objects takes the form of an object
that holds text. An operation that is not known comes back unless it has the name of a known one.
-/

namespace ScopedQuery

/-- Not unknown under the name of a known operation. -/
def Operation.Proper (operation : Operation) : Prop :=
  ∀ name, operation = .unknown name → ∀ known ∈ Operation.known, known.name ≠ name

theorem Operation.Proper.ofName_name {operation : Operation} (h : operation.Proper) :
    Operation.ofName operation.name = operation := by
  cases operation with
  | unknown name =>
    have none : (known.find? fun operation => operation.name = name) = none := by
      rw [List.find?_eq_none]
      exact fun known member => by simpa using h name rfl known member
    rw [Operation.name, Operation.ofName, none]
    rfl
  | equals | contains | startsWith | greaterThan | lessThan | jsonEquals | jsonContains
    | jsonExists => decide

namespace Wire

open Document

/-! ### Parts that are left out -/

/-- The place of a text that is left out where there is none. -/
def placeOf : Option String → Slot
  | none => .missing
  | some text => .held (.string text)

theorem defaulted_placeOf {text? : Option String} {slot : Slot}
    (same : SlotReadAs (placeOf text?) slot) :
    defaulted none (nullable readText) slot = some text? := by
  cases text? with
  | none => exact defaulted_missing same _ _
  | some text =>
    have carries : Carries (nullable readText) (writeNullable .string (some text)) (some text) :=
      carries_nullable fun _ _ => ⟨carries_text _, nofun⟩
    exact carries.defaulted same none

theorem written_placeOf {name : String} (text? : Option String) :
    ∀ field ∈ text?.toList.map fun text => (name, string text), field.2.Written :=
  List.forall_mem_map.2 fun text _ => .string text

/-! ### Rules -/

theorem carries_operation {operation : Operation} (h : operation.Proper) :
    Carries readOperation (writeOperation operation) operation where
  written := .string _
  reads := by
    rintro _ ⟨⟩
    exact congrArg some h.ofName_name

theorem carries_rule {rule : Rule} (h : rule.operation.Proper) :
    Carries readRule (writeRule rule) rule where
  written := by
    refine .object (List.forall_mem_append.2 ⟨?_, written_placeOf rule.jsonField⟩)
    simp only [List.forall_mem_cons]
    exact ⟨.string _, .string _, .string _, .string _, nofun⟩
  reads document' same := by
    obtain ⟨id, column, operation, value, field?⟩ := rule
    obtain ⟨_, found, _ | ⟨id, _ | ⟨column, _ | ⟨operation, _ | ⟨value, _ | ⟨field, ⟨⟩⟩⟩⟩⟩⟩⟩ :=
      exists_slots same ["id", "column", "operation", "value", "jsonField"]
        [.held _, .held _, .held _, .held _, placeOf field?] (by cases field? <;> rfl)
    simp only [readRule, found, Option.bind_eq_bind, Option.bind_some]
    rw [(carries_text _).required id, (carries_text _).required column,
      (carries_operation h).required operation, (carries_text _).defaulted value,
      defaulted_placeOf field]
    rfl

/-- A rule is written the same under the name of its operation, known or not. -/
theorem writeRule_ofName (rule : Rule) (name : String) :
    writeRule { rule with operation := .ofName name }
      = writeRule { rule with operation := .unknown name } := by
  have written : writeOperation (.ofName name) = writeOperation (.unknown name) :=
    congrArg Document.string (Operation.name_ofName name)
  rw [writeRule, writeRule, written]

theorem carries_rules {rules : List Rule} (h : ∀ rule ∈ rules, rule.operation.Proper) :
    Carries readRules (writeRules rules) rules :=
  carries_list fun rule member => carries_rule (h rule member)

/-! ### Tables -/

theorem carries_ordering (order : Sql.Ordering) :
    Carries readOrdering (writeOrdering order) order where
  written := by
    refine .object ?_
    simp only [List.forall_mem_cons]
    exact ⟨.string _, .bool _, nofun⟩
  reads document' same := by
    obtain ⟨_, found, _ | ⟨column, _ | ⟨ascending, ⟨⟩⟩⟩⟩ :=
      exists_slots same ["column", "ascending"] _ rfl
    simp only [readOrdering, found, Option.bind_eq_bind, Option.bind_some]
    rw [(carries_text _).required column, (carries_flag _).required ascending]
    rfl

theorem carries_kind (kind : Kind) : Carries readKind (writeKind kind) kind :=
  carries_word (Kind.ofName?_name kind)

theorem carries_table (table : Table) : Carries readTable (writeTable table) table := by
  have columns : Carries (readMap readKind) (writeMap writeKind table.columns) table.columns :=
    carries_map fun entry _ => carries_kind entry.2
  refine ⟨.object ?_, fun document' same => ?_⟩
  · simp only [List.forall_mem_cons]
    exact ⟨.string _, .string _, columns.written, nofun⟩
  · obtain ⟨_, found, _ | ⟨name, _ | ⟨key, _ | ⟨listed, ⟨⟩⟩⟩⟩⟩ :=
      exists_slots same ["name", "primary_key", "columns"] _ rfl
    simp only [readTable, found, Option.bind_eq_bind, Option.bind_some]
    rw [(carries_text _).required name, (carries_text _).required key, columns.required listed]
    rfl

theorem carries_catalog (catalog : Catalog) :
    Carries readCatalog (writeCatalog catalog) catalog := by
  have tables : Carries (readMap readTable) (writeMap writeTable catalog.tables) catalog.tables :=
    carries_map fun entry _ => carries_table entry.2
  refine ⟨.object (List.forall_mem_singleton.2 tables.written), fun document' same => ?_⟩
  obtain ⟨_, found, _ | ⟨listed, ⟨⟩⟩⟩ := exists_slots same ["tables"] _ rfl
  simp only [readCatalog, found, Option.bind_eq_bind, Option.bind_some]
  rw [tables.required listed]
  rfl

theorem carries_row {row : Row} (h : ∀ entry ∈ row.entries, entry.2.Portable) :
    Carries readRow (writeRow row) row :=
  carries_map fun entry member => carries_json (h entry member)

/-! ### Specs and exports -/

theorem carries_texts (texts : List String) :
    Carries (readList readText) (writeTexts texts) texts :=
  carries_list fun text _ => carries_text text

theorem carries_fields (choice : Flat.FieldChoice) :
    Carries readFields (writeFields choice) choice := by
  cases choice with
  | discovered =>
    have carries : Carries (readWord readFields.choose) (.string "discovered")
        Flat.FieldChoice.discovered := carries_word rfl
    refine ⟨.string _, ?_⟩
    rintro _ ⟨⟩
    rfl
  | named fields =>
    have texts := carries_texts fields
    refine ⟨.object (List.forall_mem_singleton.2 texts.written), fun document' same => ?_⟩
    have plain : some "named" ≠ some Json.embeddedName := by decide
    obtain ⟨_, rfl, listed⟩ := exists_object same plain
    cases listed with
    | cons _ listed none =>
      cases none
      rw [readFields, texts.reads _ listed]
      rfl

theorem carries_source (source : Flat.JsonSource) :
    Carries readSource (writeSource source) source where
  written := by
    refine .object ?_
    simp only [List.forall_mem_cons]
    exact ⟨.string _, .string _, (carries_fields source.fields).written, nofun⟩
  reads document' same := by
    obtain ⟨_, found, _ | ⟨column, _ | ⟨label, _ | ⟨fields, ⟨⟩⟩⟩⟩⟩ :=
      exists_slots same ["column", "prefix", "fields"] _ rfl
    simp only [readSource, found, Option.bind_eq_bind, Option.bind_some]
    rw [(carries_text _).required column, (carries_text _).required label,
      (carries_fields _).required fields]
    rfl

theorem carries_derived (derived : Flat.Derived) :
    Carries readDerived (writeDerived derived) derived where
  written := by
    refine .object ?_
    simp only [List.forall_mem_cons]
    exact ⟨.string _, (carries_texts derived.sumOf).written, nofun⟩
  reads document' same := by
    obtain ⟨_, found, _ | ⟨name, _ | ⟨columns, ⟨⟩⟩⟩⟩ :=
      exists_slots same ["name", "sum_of"] _ rfl
    simp only [readDerived, found, Option.bind_eq_bind, Option.bind_some]
    rw [(carries_text _).required name, (carries_texts _).required columns]
    rfl

theorem carries_spec (spec : Flat.Spec) : Carries readSpec (writeSpec spec) spec := by
  have basic := carries_texts spec.basicColumns
  have derived : Carries (readList readDerived) (.array (spec.derived.map writeDerived))
      spec.derived := carries_list fun derived _ => carries_derived derived
  have sources : Carries (readList readSource) (.array (spec.jsonSources.map writeSource))
      spec.jsonSources := carries_list fun source _ => carries_source source
  refine ⟨.object ?_, fun document' same => ?_⟩
  · simp only [List.forall_mem_cons]
    exact ⟨basic.written, derived.written, sources.written, nofun⟩
  · obtain ⟨_, found, _ | ⟨first, _ | ⟨second, _ | ⟨third, ⟨⟩⟩⟩⟩⟩ :=
      exists_slots same ["basic_columns", "derived", "json_sources"] _ rfl
    simp only [readSpec, found, Option.bind_eq_bind, Option.bind_some]
    rw [basic.required first, derived.required second, sources.required third]
    rfl

theorem carries_export {result : CallLogExport}
    (h : ∀ row ∈ result.rows, ∀ entry ∈ row.entries, entry.2.Portable) :
    Carries readExport (writeExport result) result := by
  have header := carries_texts result.header
  have rows : Carries (readList readRow) (.array (result.rows.map writeRow)) result.rows :=
    carries_list fun row member => carries_row (h row member)
  refine ⟨.object ?_, fun document' same => ?_⟩
  · simp only [List.forall_mem_cons]
    exact ⟨header.written, rows.written, nofun⟩
  · obtain ⟨_, found, _ | ⟨first, _ | ⟨second, ⟨⟩⟩⟩⟩ := exists_slots same ["header", "rows"] _ rfl
    simp only [readExport, found, Option.bind_eq_bind, Option.bind_some]
    rw [header.required first, rows.required second]
    rfl

/-! ### Reports and requests -/

theorem carries_report (report : FaultReport) :
    Carries readReport (writeReport report) report where
  written := by
    refine .object (List.forall_mem_append.2 ⟨?_, written_placeOf report.detail⟩)
    exact List.forall_mem_cons.2 ⟨.string _, written_placeOf report.code⟩
  reads document' same := by
    obtain ⟨message, code, detail⟩ := report
    obtain ⟨_, found, _ | ⟨first, _ | ⟨second, _ | ⟨third, ⟨⟩⟩⟩⟩⟩ :=
      exists_slots same ["message", "code", "detail"]
        [.held _, placeOf code, placeOf detail] (by cases code <;> cases detail <;> rfl)
    simp only [readReport, found, Option.bind_eq_bind, Option.bind_some]
    rw [(carries_text _).required first, defaulted_placeOf second, defaulted_placeOf third]
    rfl

theorem carries_predicate {predicate : Predicate} (h : predicate.value.Portable) :
    Carries readPredicate (writePredicate predicate) predicate where
  written := by
    refine .object ?_
    simp only [List.forall_mem_cons]
    exact ⟨.string _, .string _, (carries_json h).written, nofun⟩
  reads document' same := by
    obtain ⟨_, found, _ | ⟨column, _ | ⟨operator, _ | ⟨value, ⟨⟩⟩⟩⟩⟩ :=
      exists_slots same ["column", "operator", "value"] _ rfl
    simp only [readPredicate, found, Option.bind_eq_bind, Option.bind_some]
    rw [(carries_text _).required column, (carries_text _).required operator,
      (carries_json h).defaulted value]
    rfl

/-- That the parts of a request are such as it can have: counts are words, and the values come back
from their texts. -/
structure Portable (request : FetchRequest) : Prop where
  limit : ∀ limit ∈ request.limit, limit ≤ Text.maxCount
  offset : ∀ offset ∈ request.offset, offset ≤ Text.maxCount
  values : ∀ predicate ∈ request.predicates, predicate.value.Portable

theorem carries_optionalCount {count? : Option Nat} (h : ∀ count ∈ count?, count ≤ Text.maxCount) :
    Carries (nullable (readCount Text.maxCount)) (writeNullable writeCount count?) count? :=
  carries_nullable fun count member => ⟨carries_count (h count member) (Nat.le_refl _), nofun⟩

theorem carries_request {request : FetchRequest} (h : Portable request) :
    Carries readRequest (writeRequest request) request := by
  have predicates : Carries (readList readPredicate)
      (.array (request.predicates.map writePredicate)) request.predicates :=
    carries_list fun predicate member => carries_predicate (h.values predicate member)
  have orderBy : Carries (nullable readOrdering) (writeNullable writeOrdering request.orderBy)
      request.orderBy := carries_nullable fun order _ => ⟨carries_ordering order, nofun⟩
  have limit := carries_optionalCount h.limit
  have offset := carries_optionalCount h.offset
  refine ⟨.object ?_, fun document' same => ?_⟩
  · simp only [List.forall_mem_cons]
    exact ⟨.string _, .string _, predicates.written, orderBy.written, limit.written,
      offset.written, nofun⟩
  · obtain ⟨_, found, _ | ⟨table, _ | ⟨select, _ | ⟨third, _ | ⟨fourth, _ | ⟨fifth, _ |
      ⟨sixth, ⟨⟩⟩⟩⟩⟩⟩⟩⟩ :=
      exists_slots same ["table", "select", "filters", "orderBy", "limit", "offset"] _ rfl
    simp only [readRequest, found, Option.bind_eq_bind, Option.bind_some]
    rw [(carries_text _).required table, (carries_text _).defaulted select,
      predicates.defaulted third, orderBy.defaulted fourth, limit.defaulted fifth,
      offset.defaulted sixth]
    rfl

/-! ### Nesting -/

theorem nesting_rule (rule : Rule) : (writeRule rule).nesting = 1 := by
  obtain ⟨id, column, operation, value, field?⟩ := rule
  cases field? <;> rfl

theorem nesting_rules (rules : List Rule) : (writeRules rules).nesting ≤ 2 :=
  nesting_array_le (List.forall_mem_map.2 fun rule _ => Nat.le_of_eq (nesting_rule rule))

theorem nesting_ordering (order : Sql.Ordering) : (writeOrdering order).nesting = 1 := rfl

theorem nesting_table (table : Table) : (writeTable table).nesting ≤ 2 := by
  have columns : (writeMap writeKind table.columns).nesting ≤ 1 :=
    nesting_object_le (List.forall_mem_map.2 fun _ _ => Nat.le_refl 0)
  refine nesting_object_le ?_
  simp only [List.forall_mem_cons]
  exact ⟨Nat.zero_le _, Nat.zero_le _, columns, nofun⟩

theorem nesting_catalog (catalog : Catalog) : (writeCatalog catalog).nesting ≤ 4 := by
  have tables : (writeMap writeTable catalog.tables).nesting ≤ 3 :=
    nesting_object_le (List.forall_mem_map.2 fun entry _ => nesting_table entry.2)
  exact nesting_object_le (List.forall_mem_singleton.2 tables)

theorem nesting_texts (texts : List String) : (writeTexts texts).nesting ≤ 1 :=
  nesting_array_le (List.forall_mem_map.2 fun _ _ => Nat.le_refl 0)

theorem nesting_fields (choice : Flat.FieldChoice) : (writeFields choice).nesting ≤ 2 := by
  cases choice with
  | discovered => exact Nat.zero_le _
  | named fields => exact nesting_object_le (List.forall_mem_singleton.2 (nesting_texts fields))

theorem nesting_spec (spec : Flat.Spec) : (writeSpec spec).nesting ≤ 5 := by
  have derived : (Document.array (spec.derived.map writeDerived)).nesting ≤ 3 := by
    refine nesting_array_le (List.forall_mem_map.2 fun derived _ => nesting_object_le ?_)
    simp only [List.forall_mem_cons]
    exact ⟨Nat.zero_le _, nesting_texts derived.sumOf, nofun⟩
  have sources : (Document.array (spec.jsonSources.map writeSource)).nesting ≤ 4 := by
    refine nesting_array_le (List.forall_mem_map.2 fun source _ => nesting_object_le ?_)
    simp only [List.forall_mem_cons]
    exact ⟨Nat.zero_le _, Nat.zero_le _, nesting_fields source.fields, nofun⟩
  refine nesting_object_le ?_
  simp only [List.forall_mem_cons]
  exact ⟨Nat.le_trans (nesting_texts spec.basicColumns) (by decide),
    Nat.le_trans derived (by decide), sources, nofun⟩

theorem nesting_report (report : FaultReport) : (writeReport report).nesting = 1 := by
  obtain ⟨message, code, detail⟩ := report
  cases code <;> cases detail <;> rfl

/-! ### Texts -/

/-- What a reader makes of a text. -/
def decode {α : Type} (read : Document → Option α) (text : String) : Option α :=
  Document.read? text >>= read

theorem Carries.decode_text {α : Type} {read : Document → Option α} {document : Document}
    {value : α} (h : Carries read document value) (nested : document.nesting ≤ Json.maxDepth) :
    decode read document.text = some value := by
  obtain ⟨document', same, found⟩ := Json.exists_read?_text h.written nested
  rw [decode, found]
  exact h.reads document' same

end Wire

theorem Operation.proper_ofName (name : String) : (Operation.ofName name).Proper := by
  intro other unknown known member
  unfold ofName at unknown
  cases found : Operation.known.find? fun operation => operation.name = name with
  | none =>
    rw [found] at unknown
    cases unknown
    simpa using List.find?_eq_none.1 found known member
  | some operation =>
    rw [found] at unknown
    cases unknown
    exact absurd (List.mem_of_find?_eq_some found) (by simp [Operation.known])

namespace Wire

/-- Decoding undoes encoding, and keeps the order of columns, tables and cells. The name of an
operation comes back whatever it is. -/
theorem decode_encode :
    (∀ rule : Rule, rule.operation.Proper → decode readRule (writeRule rule).text = some rule)
      ∧ (∀ rules : List Rule, (∀ rule ∈ rules, rule.operation.Proper) →
        decode readRules (writeRules rules).text = some rules)
      ∧ (∀ order, decode readOrdering (writeOrdering order).text = some order)
      ∧ (∀ table, decode readTable (writeTable table).text = some table)
      ∧ (∀ catalog, decode readCatalog (writeCatalog catalog).text = some catalog)
      ∧ (∀ spec, decode readSpec (writeSpec spec).text = some spec)
      ∧ (∀ report, decode readReport (writeReport report).text = some report)
      ∧ (∀ request, Portable request → (writeRequest request).nesting ≤ 127 →
        decode readRequest (writeRequest request).text = some request)
      ∧ (∀ result : CallLogExport, (∀ row ∈ result.rows, ∀ entry ∈ row.entries, entry.2.Portable) →
        (writeExport result).nesting ≤ 127 →
        decode readExport (writeExport result).text = some result)
      ∧ ∀ (rule : Rule) (name : String),
        let text := (writeRule { rule with operation := .unknown name }).text
        let decoded := { rule with operation := .ofName name }
        decode readRule text = some decoded ∧ (writeRule decoded).text = text := by
  have shallow {depth : Nat} {document : Document} (nested : document.nesting ≤ depth)
      (small : depth ≤ 127) : document.nesting ≤ Json.maxDepth := Nat.le_trans nested small
  have rules (rule : Rule) (h : rule.operation.Proper) :
      decode readRule (writeRule rule).text = some rule :=
    (carries_rule h).decode_text (shallow (Nat.le_of_eq (nesting_rule rule)) (by decide))
  refine ⟨rules, ?_, ?_, ?_, ?_, ?_, ?_, ?_, ?_, ?_⟩
  · exact fun rules h => (carries_rules h).decode_text (shallow (nesting_rules rules) (by decide))
  · exact fun order => (carries_ordering order).decode_text
      (shallow (Nat.le_of_eq (nesting_ordering order)) (by decide))
  · exact fun table => (carries_table table).decode_text (shallow (nesting_table table) (by decide))
  · exact fun catalog =>
      (carries_catalog catalog).decode_text (shallow (nesting_catalog catalog) (by decide))
  · exact fun spec => (carries_spec spec).decode_text (shallow (nesting_spec spec) (by decide))
  · exact fun report => (carries_report report).decode_text
      (shallow (Nat.le_of_eq (nesting_report report)) (by decide))
  · exact fun request h nested => (carries_request h).decode_text nested
  · exact fun result h nested => (carries_export h).decode_text nested
  · intro rule name text decoded
    have same : (writeRule decoded).text = text :=
      congrArg Document.text (writeRule_ofName rule name)
    exact ⟨same ▸ rules decoded (Operation.proper_ofName name), same⟩

/-- A rule with an operation of its own, a table with a column whose name means something only in
JSON values, and values with a half in them. -/
theorem decode_encode_of_half :
    let half : Json := .number (.float (.finite false Binary64.leadingBit 1021))
    let rule : Rule := ⟨"r1", "status", .unknown "regex", "\"", none⟩
    let table : Table := .ofColumns "t" "id" [(Json.embeddedName, .text), ("id", .uuid)]
    let request : FetchRequest := ⟨"call_logs", "*",
      [⟨"metrics", "eq", .object [("a", .array [half, .null]), ("b", .string "\n")]⟩],
      some ⟨"created_at", false⟩, some 50, none⟩
    let result : CallLogExport := ⟨["id", "cost"], [.ofList [("cost", half), ("id", .null)]]⟩
    decode readRule (writeRule rule).text = some rule
      ∧ decode readRules (writeRules [rule]).text = some [rule]
      ∧ decode readTable (writeTable table).text = some table
      ∧ decode readRequest (writeRequest request).text = some request
      ∧ decode readExport (writeExport result).text = some result := by
  intro half rule table request result
  obtain ⟨rules, lists, -, tables, -, -, -, requests, results, -⟩ := decode_encode
  have proper : rule.operation.Proper := by
    rintro _ ⟨⟩
    decide
  have float : half.Portable := .number (.float rfl) (by decide +kernel)
  have ascending : ["a", "b"].Pairwise (· < ·) := by decide
  have other : some "a" ≠ some Json.embeddedName := by decide
  have list : (Json.array [half, .null]).Portable :=
    .array (List.forall_mem_cons.2 ⟨float, List.forall_mem_singleton.2 .null⟩)
  have metrics : (Json.object [("a", .array [half, .null]), ("b", .string "\n")]).Portable :=
    .object ascending other (List.forall_mem_cons.2 ⟨list, List.forall_mem_singleton.2 (.string _)⟩)
  have portable : Portable request := by
    refine ⟨?_, nofun, List.forall_mem_singleton.2 metrics⟩
    rintro _ ⟨⟩
    decide
  have cells : ∀ row ∈ result.rows, ∀ entry ∈ row.entries, entry.2.Portable :=
    List.forall_mem_singleton.2
      (List.forall_mem_cons.2 ⟨float, List.forall_mem_singleton.2 .null⟩)
  have flat : (writeExport result).nesting ≤ 127 := by
    show 3 ≤ 127
    decide
  have nested : (writeRequest request).nesting ≤ 127 := by
    show 5 ≤ 127
    decide
  exact ⟨rules rule proper, lists [rule] (List.forall_mem_singleton.2 proper), tables table,
    requests request portable nested, results result cells flat⟩

/-- A JSON value in the form of an object that holds text does not come back: what the text writes
is read in its place. -/
theorem not_decode_encode_of_text :
    let held : Json := .object [(Json.embeddedName, .string "1")]
    let result (value : Json) : CallLogExport := ⟨[], [.ofList [("c", value)]]⟩
    let encode (result : CallLogExport) := (writeExport result).text
    held.WellFormed ∧ held.FloatsReadBack ∧ (writeExport (result held)).nesting ≤ 127
      ∧ encode <$> decode readExport (encode (result held)) = some (encode (result (.int 1)))
      ∧ decode readExport (encode (result held)) ≠ some (result held) := by
  have floats : (Json.object [(Json.embeddedName, .string "1")]).FloatsReadBack := by
    intro value inside
    cases inside with
    | field member inside =>
      rw [List.mem_singleton.1 member] at inside
      cases inside
  intro held result encode
  have read : encode <$> decode readExport (encode (result held))
      = some (encode (result (.int 1))) := by decide +kernel
  have apart : encode (result held) ≠ encode (result (.int 1)) := by decide +kernel
  refine ⟨.object (List.pairwise_singleton ..) (List.forall_mem_singleton.2 (.string _)), floats,
    ?_, read, ?_⟩
  · show 4 ≤ 127
    decide
  · intro back
    rw [back] at read
    exact apart (Option.some.inj read)

end Wire

end ScopedQuery
