import ScopedQuery.Proofs.Rule.Forms
import ScopedQuery.Proofs.Schema.Kinds
import ScopedQuery.Schema.Dashboard
/-!
# Shapes of compiled rules

A predicate that comes from a rule has one of six shapes, and in each the value has the type of what
it is compared with. Together with what rows and predicates of callers are brought to, this is all
that is ever bound for a user.
-/

namespace ScopedQuery

namespace Rule

/-- The predicates that a rule can give on a table. -/
inductive Shape (table : Table) (rule : Rule) : Sql.Filter → Prop
  | comparison {kind : Kind} {operator : Sql.Operator} {value : Value} :
    (rule.column, kind) ∈ table.columns.entries → kind ≠ .json →
    operator ∈ [.eq, .gt, .lt, .gte, .lte] → kind.Holds value →
    Shape table rule (.compare (.plain rule.column) operator value)
  | pattern (text : String) : (rule.column, .text) ∈ table.columns.entries →
    Shape table rule (.compare (.plain rule.column) .ilike (.text text))
  | fieldText {operator : Sql.Operator} (field text : String) :
    (rule.column, .json) ∈ table.columns.entries → operator ∈ [.eq, .ilike] →
    Shape table rule (.compare (.jsonText rule.column field) operator (.text text))
  | fieldNumber {operator : Sql.Operator} {number : Binary64} (field : String) :
    (rule.column, .json) ∈ table.columns.entries → operator ∈ [.gt, .lt] →
    number.isFinite = true →
    Shape table rule (.compare (.jsonNumeric rule.column field) operator (.float number))
  | existence : (rule.column, .json) ∈ table.columns.entries →
    Shape table rule (.notNull (.plain rule.column))
  | fieldExistence (field : String) : (rule.column, .json) ∈ table.columns.entries →
    Shape table rule (.notNull (.jsonRaw rule.column field))

variable {table : Table} {rule : Rule} {kind : Kind} {filters : List Sql.Filter}
  {filter : Sql.Filter}

theorem Shape.notNull (h : rule.Shape table filter) :
    ∀ value ∈ filter.value, value.isNull = false := by
  cases h with
  | comparison _ _ _ holds =>
    rintro _ ⟨⟩
    exact holds.isNull_eq
  | pattern | fieldText | fieldNumber =>
    rintro _ ⟨⟩
    rfl
  | existence | fieldExistence => nofun

theorem FieldForm.shape (h : rule.FieldForm filters)
    (listed : (rule.column, .json) ∈ table.columns.entries) :
    ∀ filter ∈ filters, rule.Shape table filter := by
  cases h with
  | existence => exact List.forall_mem_singleton.2 (.existence listed)
  | fieldExistence => exact List.forall_mem_singleton.2 (.fieldExistence _ listed)
  | equality | pattern =>
    exact List.forall_mem_singleton.2 (.fieldText _ _ listed (by decide))
  | number notEquals compares _ _ read =>
    refine List.forall_mem_singleton.2 (.fieldNumber _ listed ?_ (Kind.isFinite_of_readFinite read))
    rcases Operation.comparison?_eq_some.1 compares with ⟨equals, -⟩ | ⟨-, rfl⟩ | ⟨-, rfl⟩
    · exact absurd equals notEquals
    · decide
    · decide

theorem DayForm.shape (h : rule.DayForm filters)
    (listed : (rule.column, .timestamp) ∈ table.columns.entries) :
    ∀ filter ∈ filters, rule.Shape table filter := by
  have shape {operator : Sql.Operator} (known : operator ∈ [.eq, .gt, .lt, .gte, .lte])
      (instant : Timestamp) :
      rule.Shape table (.compare (.plain rule.column) operator (.timestamp instant)) :=
    .comparison listed (by decide) known (.timestamp instant)
  cases h with
  | during =>
    exact List.forall_mem_cons.2
      ⟨shape (by decide) _, List.forall_mem_singleton.2 (shape (by decide) _)⟩
  | after | before => exact List.forall_mem_singleton.2 (shape (by decide) _)

theorem PlainForm.shape (h : rule.PlainForm kind filters)
    (listed : (rule.column, kind) ∈ table.columns.entries) (scalar : kind ≠ .json) :
    ∀ filter ∈ filters, rule.Shape table filter := by
  cases h with
  | comparison compares read =>
    refine List.forall_mem_singleton.2 (.comparison listed scalar ?_ (Kind.holds_ofText? read))
    rcases Operation.comparison?_eq_some.1 compares with ⟨-, rfl⟩ | ⟨-, rfl⟩ | ⟨-, rfl⟩ <;> decide
  | pattern isText => exact List.forall_mem_singleton.2 (.pattern _ (isText ▸ listed))

theorem Form.shape (h : rule.Form table filters) :
    ∀ filter ∈ filters, rule.Shape table filter := by
  cases h with
  | onField stands form => exact form.shape stands.listed
  | onDay stands form => exact form.shape stands.listed
  | onPlain stands json _ form => exact form.shape stands.listed json

end Rule

/-- Behind the predicate of the scope every predicate has a shape that one of the rules can give. -/
theorem Compiled.shapes (table : Table) (rules : List Rule) :
    ∀ filter ∈ (ofRules table rules).filters, ∃ rule ∈ rules, rule.Shape table filter := by
  intro filter member
  obtain ⟨rule, given, filters, form, member⟩ := exists_form member
  exact ⟨rule, given, form.shape filter member⟩

/-- What is bound for rules, for predicates of callers and for rows to store has the type of what it
is compared with or stored in, and only callers can ask for null. -/
theorem Table.bound_values_fit (table : Table) :
    (∀ (scope : Scope) rules compiled, scope.compile table rules = .ok compiled →
        ∃ first derived, scope.filter table = .ok first ∧ compiled.filters = first :: derived
          ∧ ∀ filter ∈ derived, (∃ rule ∈ rules, rule.Shape table filter)
            ∧ ∀ value ∈ filter.value, value.isNull = false)
      ∧ (∀ (predicate : Predicate) filter, predicate.value.WellFormed →
        predicate.filter table = .ok filter → predicate.Typed table filter)
      ∧ ∀ row data, (∀ entry ∈ row.entries, entry.2.WellFormed) →
        table.coerceRow row = .ok data →
          ∀ entry ∈ data.entries, ∃ kind, (entry.1, kind) ∈ table.columns.entries
            ∧ (entry.2 = .null ∨ kind.Holds entry.2) := by
  refine ⟨fun scope rules compiled made => ?_, fun _ _ => Predicate.typed_of_filter,
    fun _ _ => Table.holds_of_coerceRow⟩
  simp only [Scope.compile, bind_eq_ok, pure_eq_ok] at made
  obtain ⟨first, bound, rfl⟩ := made
  refine ⟨first, _, bound, rfl, fun filter member => ?_⟩
  obtain ⟨rule, given, shape⟩ := Compiled.shapes table rules filter member
  exact ⟨⟨rule, given, shape⟩, shape.notNull⟩

/-- Rules on a field and on a text, a predicate with a whole number and a row with a null. -/
theorem Table.bound_values_fit_of_calls :
    let scope : Scope := ⟨"status", .text "ended"⟩
    let rules : List Rule := [⟨"r1", "metrics", .greaterThan, "1.5", some "latency"⟩,
      ⟨"r2", "direction", .contains, "in_", none⟩]
    let predicate : Predicate := ⟨"duration_seconds", "gte", .int 60⟩
    let row : Row := .ofList [("cost_llm", .int 7), ("ended_reason", .null)]
    (∃ compiled first derived, scope.compile Dashboard.callLogs rules = .ok compiled
        ∧ compiled.filters = first :: derived
        ∧ ∀ filter ∈ derived, ∃ rule ∈ rules, rule.Shape Dashboard.callLogs filter)
      ∧ (∃ filter, predicate.filter Dashboard.callLogs = .ok filter
        ∧ predicate.Typed Dashboard.callLogs filter)
      ∧ ∃ data, Dashboard.callLogs.coerceRow row = .ok data
        ∧ ∀ entry ∈ data.entries, ∃ kind, (entry.1, kind) ∈ Dashboard.callLogs.columns.entries
          ∧ (entry.2 = .null ∨ kind.Holds entry.2) := by
  have bound : (⟨"status", .text "ended"⟩ : Scope).filter Dashboard.callLogs
      = .ok (.compare (.plain "status") .eq (.text "ended")) := rfl
  have compared : (⟨"duration_seconds", "gte", .int 60⟩ : Predicate).filter Dashboard.callLogs
      = .ok (.compare (.plain "duration_seconds") .gte (.int 60)) := rfl
  obtain ⟨data, stored⟩ : ∃ data, Dashboard.callLogs.coerceRow
      (.ofList [("cost_llm", .int 7), ("ended_reason", .null)]) = .ok data := ⟨_, rfl⟩
  intro scope rules predicate row
  have whole (value : Int) (low : 0 ≤ value) (high : value ≤ 60) : (Json.int value).WellFormed := by
    refine .number (.integer ?_ ?_) <;> simp only [Text.maxWord, Text.maxCount] <;> omega
  obtain ⟨compiled, made⟩ : ∃ compiled, scope.compile Dashboard.callLogs rules = .ok compiled :=
    ⟨_, bind_eq_ok.2 ⟨_, bound, rfl⟩⟩
  have wellFormed : ∀ entry ∈ row.entries, entry.2.WellFormed :=
    List.forall_mem_cons.2
      ⟨whole 7 (by decide) (by decide), List.forall_mem_singleton.2 .null⟩
  obtain ⟨compile, compare, store⟩ := Table.bound_values_fit Dashboard.callLogs
  obtain ⟨first, derived, -, split, shapes⟩ := compile scope rules compiled made
  exact ⟨⟨compiled, first, derived, made, split, fun filter member => (shapes filter member).1⟩,
    ⟨_, compared, compare predicate _ (whole 60 (by decide) (by decide)) compared⟩,
    ⟨data, stored, store row data wellFormed stored⟩⟩

end ScopedQuery
