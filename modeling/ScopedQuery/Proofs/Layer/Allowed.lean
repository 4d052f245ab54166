import ScopedQuery.Layer.Basic
import ScopedQuery.Proofs.Layer.Checks
import ScopedQuery.Proofs.Sql.Content
/-!
# Allowed calls

What a caller may ask of a layer is said here without the checks that decide it: the table is in
the catalog, every column is one of its columns, every value can be brought to the kind of its
column, an operator is one of the nine, and a call that changes or stores something is neither
empty nor for all rows. These are the calls that a statement can be made for, and the text of this
statement names that table and columns of it and nothing else.
-/

namespace ScopedQuery

/-- What is read names the table, columns of it, and nothing else. -/
structure Sql.Reading.Within (name : String) (table : Table) (reading : Sql.Reading) : Prop where
  named : reading.table = name
  columns : ∀ column ∈ reading.columns, table.Knows column
  predicates : ∀ predicate ∈ reading.predicates, ∃ column, predicate.1 = .plain column
    ∧ table.Knows column

theorem Sql.Reading.Within.accepted {name : String} {table : Table} {command : Sql.Command}
    (h : command.reading.Within name table) (named : Sql.isIdentifier name = true)
    (wellNamed : ∀ column, table.Knows column → Sql.isIdentifier column = true)
    (data : command.storesData → command.data ≠ [])
    (filters : command.touchesRows → command.filters ≠ []) : command.Accepted where
  names := by
    rw [command.names_eq, h.named]
    refine List.forall_mem_cons.2 ⟨named, fun column member => ?_⟩
    exact wellNamed column (h.columns column member)
  columns := by
    have predicates := h.predicates
    rw [command.predicates_reading, List.forall_mem_map] at predicates
    intro filter member
    obtain ⟨column, plain, known⟩ := predicates filter member
    have plain : filter.column = .plain column := plain
    rw [plain]
    exact ⟨wellNamed column known, fun _ field => nomatch field⟩
  data := data
  filters := filters

inductive Call
  | fetch (request : FetchRequest)
  | insert (name : String) (data : Row)
  | update (name : String) (data : Row) (predicates : List Predicate)
  | delete (name : String) (predicates : List Predicate)
  | deleteWhereEqual (name column : String) (value : Json)

namespace Call

def name : Call → String
  | .fetch request => request.table
  | .insert name _ => name
  | .update name _ _ => name
  | .delete name _ => name
  | .deleteWhereEqual name _ _ => name

/-- What a table lets a caller ask of it. -/
def Fits (table : Table) (maxLimit : Nat) : Call → Prop
  | .fetch request =>
    table.Lists request.select ∧ (∀ predicate ∈ request.predicates, predicate.Fits table)
      ∧ (∀ order ∈ request.orderBy, table.Knows order.column)
      ∧ ∀ limit ∈ request.limit, limit ≤ maxLimit
  | .insert _ data =>
    data.entries ≠ [] ∧ ∀ entry ∈ data.entries, table.Takes entry.1 entry.2
  | .update _ data predicates =>
    data.entries ≠ [] ∧ (∀ entry ∈ data.entries, table.Takes entry.1 entry.2)
      ∧ predicates ≠ [] ∧ ∀ predicate ∈ predicates, predicate.Fits table
  | .delete _ predicates =>
    predicates ≠ [] ∧ ∀ predicate ∈ predicates, predicate.Fits table
  | .deleteWhereEqual _ column value => table.Takes column value

def Allowed (layer : Layer) (call : Call) : Prop :=
  ∃ table, (call.name, table) ∈ layer.catalog.tables.entries
    ∧ call.Fits table layer.settings.maxFetchLimit

/-- The command a call comes to once its table is known. -/
def command (layer : Layer) (table : Table) : Call → Except Fault Sql.Command
  | .fetch request => do
    table.checkSelect request.select
    let filters ← Predicate.filters table request.predicates
    layer.checkLimit request.limit
    Layer.checkOrdering table request.orderBy
    return .select
      ⟨request.table, request.select, filters, request.orderBy, request.limit, request.offset⟩
  | .insert name data => return .insert name (← table.coerceRow data)
  | .update name data predicates => do
    let data ← table.coerceRow data
    return .update name data (← Predicate.filters table predicates)
  | .delete name predicates => return .delete name (← Predicate.filters table predicates)
  | .deleteWhereEqual name column value =>
    return .deleteWhereEqual name column (← table.coerce column value)

/-- The statement a call comes to. -/
def statement (layer : Layer) (call : Call) : Except Fault Sql.Statement := do
  let table ← layer.catalog.table call.name
  (← call.command layer table).statement

variable {layer : Layer} {table : Table} {call : Call} {command : Sql.Command}

end Call

end ScopedQuery
