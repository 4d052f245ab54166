import ScopedQuery.Proofs.Result
import ScopedQuery.Sql.Statement
/-!
# Accepted statements

A command gathers what one of the five kinds of statement is asked for. `statement_eq_ok_iff` says
which commands are accepted and what the statement is then made of; no other proof looks at the
checks themselves.
-/

namespace ScopedQuery.Sql

/-! ### Names -/

theorem checkIdentifier_eq_ok {name : String} {result : Unit} :
    checkIdentifier name = .ok result ↔ isIdentifier name = true := by
  unfold checkIdentifier
  split <;> simp_all

theorem checkNames_eq_ok {names : List String} {result : Unit} :
    checkNames names = .ok result ↔ ∀ name ∈ names, isIdentifier name = true := by
  rw [checkNames, forM_eq_ok]
  simp only [checkIdentifier_eq_ok]

theorem checkFieldName_eq_ok {name : String} {result : Unit} :
    checkFieldName name = .ok result ↔ isFieldName name = true := by
  unfold checkFieldName
  split <;> simp_all

/-- Both names of a column expression may be written. -/
def Column.Writable (column : Column) : Prop :=
  isIdentifier column.base = true ∧ ∀ field ∈ column.field?, isFieldName field = true

theorem Column.check_eq_ok {column : Column} {result : Unit} :
    column.check = .ok result ↔ column.Writable := by
  rw [check, bind_eq_ok]
  simp only [checkIdentifier_eq_ok, Writable]
  cases column.field? with
  | none => simp [pure_eq_ok]
  | some field => simp [checkFieldName_eq_ok]

theorem Column.checked_eq_ok {column result : Column} :
    column.checked = .ok result ↔ column.Writable ∧ result = column := by
  rw [checked, bind_eq_ok]
  simp only [check_eq_ok, pure_eq_ok, exists_const, eq_comm (a := column)]

theorem checkFilters_eq_ok {filters : List Filter} {result : Unit} :
    checkFilters filters = .ok result ↔ ∀ filter ∈ filters, filter.column.Writable := by
  rw [checkFilters, forM_eq_ok]
  simp only [Column.check_eq_ok]

theorem Filter.equals_eq_ok {column : String} {value : Value} {result : Filter} :
    Filter.equals column value = .ok result
      ↔ (Column.plain column).Writable ∧ result = .compare (.plain column) .eq value := by
  rw [equals, bind_eq_ok]
  simp only [Column.checked_eq_ok, pure_eq_ok]
  grind

/-! ### Commands -/

/-- What a statement is asked for. -/
inductive Command
  | select (fetch : Fetch)
  | insert (table : String) (data : Record)
  | update (table : String) (data : Record) (filters : List Filter)
  | delete (table : String) (filters : List Filter)
  | deleteWhereEqual (table column : String) (value : Value)

namespace Command

def statement : Command → Except Fault Statement
  | .select fetch => Sql.select fetch
  | .insert table data => Sql.insert table data
  | .update table data filters => Sql.update table data filters
  | .delete table filters => Sql.delete table filters
  | .deleteWhereEqual table column value => Sql.deleteWhereEqual table column value

/-- The columns to store in, with the values for them. -/
def data : Command → List (String × Value)
  | .insert _ data => data.entries
  | .update _ data _ => data.entries
  | _ => []

def filters : Command → List Filter
  | .select fetch => fetch.filters
  | .insert .. => []
  | .update _ _ filters => filters
  | .delete _ filters => filters
  | .deleteWhereEqual _ column value => [.compare (.plain column) .eq value]

/-- The identifiers of a command outside its filters. -/
def names : Command → List String
  | .select fetch =>
    fetch.table :: (selectedColumns fetch.select).getD []
      ++ fetch.orderBy.toList.map Ordering.column
  | .insert table data => table :: data.names
  | .update table data _ => table :: data.names
  | .delete table _ => [table]
  | .deleteWhereEqual table _ _ => [table]

def storesData : Command → Bool
  | .insert .. | .update .. => true
  | _ => false

/-- Whether stored rows are changed or removed. -/
def touchesRows : Command → Bool
  | .update .. | .delete .. | .deleteWhereEqual .. => true
  | _ => false

def fragments : Command → List Fragment
  | .select fetch => fetch.fragments
  | .insert table data => insertFragments table data
  | .update table data filters => updateFragments table data filters
  | .delete table filters => deleteFragments table filters
  | .deleteWhereEqual table column value =>
    deleteFragments table [.compare (.plain column) .eq value]

structure Accepted (command : Command) : Prop where
  names : ∀ name ∈ command.names, isIdentifier name = true
  columns : ∀ filter ∈ command.filters, filter.column.Writable
  data : command.storesData → command.data ≠ []
  filters : command.touchesRows → command.filters ≠ []

theorem Accepted.of_select {fetch : Fetch} (h : (select fetch).Accepted) :
    isIdentifier fetch.table = true
      ∧ (∀ name ∈ (selectedColumns fetch.select).getD [], isIdentifier name = true)
      ∧ ∀ name ∈ fetch.orderBy.toList.map Ordering.column, isIdentifier name = true := by
  have names := h.names
  simpa only [Command.names, List.cons_append, List.forall_mem_cons, List.forall_mem_append]
    using names

theorem select_eq_ok {fetch : Fetch} {statement : Statement} :
    Sql.select fetch = .ok statement
      ↔ (Command.select fetch).Accepted ∧ statement = .ofFragments fetch.fragments := by
  simp only [Sql.select, bind_eq_ok, pure_eq_ok, checkIdentifier_eq_ok, checkNames_eq_ok,
    checkFilters_eq_ok]
  constructor
  · intro h
    obtain ⟨-, table, -, columns, -, filters, -, order, rfl⟩ := h
    refine ⟨⟨?_, filters, by simp [storesData], by simp [touchesRows]⟩, rfl⟩
    simp only [names, List.mem_cons, List.mem_append, List.cons_append]
    intro name member
    rcases member with rfl | member | member
    · exact table
    · exact columns name member
    · exact order name member
  · intro h
    obtain ⟨accepted, rfl⟩ := h
    obtain ⟨table, columns, order⟩ := accepted.of_select
    exact ⟨(), table, (), columns, (), accepted.columns, (), order, rfl⟩

theorem insert_eq_ok {table : String} {data : Record} {statement : Statement} :
    Sql.insert table data = .ok statement
      ↔ (Command.insert table data).Accepted
        ∧ statement = .ofFragments (insertFragments table data) := by
  simp only [Sql.insert, bind_eq_ok, refuse_eq_ok, pure_eq_ok, checkIdentifier_eq_ok,
    checkNames_eq_ok]
  constructor
  · intro h
    obtain ⟨-, tableName, stored, -, columns, rfl⟩ := h
    refine ⟨⟨?_, by simp [filters], fun _ => ?_, by simp [touchesRows]⟩, rfl⟩
    · exact List.forall_mem_cons.2 ⟨tableName, columns⟩
    · simpa [Command.data, Ordered.isEmpty] using stored
  · intro h
    obtain ⟨⟨names, -, stored, -⟩, rfl⟩ := h
    obtain ⟨tableName, columns⟩ := List.forall_mem_cons.1 names
    refine ⟨(), tableName, ?_, (), columns, rfl⟩
    simpa [Command.data, Ordered.isEmpty] using stored rfl

theorem update_eq_ok {table : String} {data : Record} {filters : List Filter}
    {statement : Statement} :
    Sql.update table data filters = .ok statement
      ↔ (Command.update table data filters).Accepted
        ∧ statement = .ofFragments (updateFragments table data filters) := by
  simp only [Sql.update, bind_eq_ok, refuse_eq_ok, pure_eq_ok, checkIdentifier_eq_ok,
    checkNames_eq_ok, checkFilters_eq_ok]
  constructor
  · intro h
    obtain ⟨-, tableName, stored, narrowed, -, columns, -, writable, rfl⟩ := h
    refine ⟨⟨?_, writable, fun _ => ?_, fun _ => ?_⟩, rfl⟩
    · exact List.forall_mem_cons.2 ⟨tableName, columns⟩
    · simpa [Command.data, Ordered.isEmpty] using stored
    · simpa [Command.filters] using narrowed
  · intro h
    obtain ⟨⟨names, writable, stored, narrowed⟩, rfl⟩ := h
    obtain ⟨tableName, columns⟩ := List.forall_mem_cons.1 names
    refine ⟨(), tableName, ?_, ?_, (), columns, (), writable, rfl⟩
    · simpa [Command.data, Ordered.isEmpty] using stored rfl
    · simpa [Command.filters] using narrowed rfl

theorem delete_eq_ok {table : String} {filters : List Filter} {statement : Statement} :
    Sql.delete table filters = .ok statement
      ↔ (Command.delete table filters).Accepted
        ∧ statement = .ofFragments (deleteFragments table filters) := by
  simp only [Sql.delete, bind_eq_ok, refuse_eq_ok, pure_eq_ok, checkIdentifier_eq_ok,
    checkFilters_eq_ok]
  constructor
  · intro h
    obtain ⟨-, tableName, narrowed, -, writable, rfl⟩ := h
    refine ⟨⟨?_, writable, by simp [storesData], fun _ => ?_⟩, rfl⟩
    · simpa [Command.names] using tableName
    · simpa [Command.filters] using narrowed
  · intro h
    obtain ⟨⟨names, writable, -, narrowed⟩, rfl⟩ := h
    refine ⟨(), ?_, ?_, (), writable, rfl⟩
    · simpa [Command.names] using names
    · simpa [Command.filters] using narrowed rfl

theorem deleteWhereEqual_eq_ok {table column : String} {value : Value} {statement : Statement} :
    Sql.deleteWhereEqual table column value = .ok statement
      ↔ (Command.deleteWhereEqual table column value).Accepted
        ∧ statement
          = .ofFragments (deleteFragments table [.compare (.plain column) .eq value]) := by
  simp only [Sql.deleteWhereEqual, bind_eq_ok, Filter.equals_eq_ok]
  constructor
  · intro h
    obtain ⟨-, ⟨-, rfl⟩, written⟩ := h
    obtain ⟨⟨names, writable, -, -⟩, rfl⟩ := delete_eq_ok.1 written
    exact ⟨⟨names, writable, by simp [storesData], by simp [filters]⟩, rfl⟩
  · intro h
    obtain ⟨⟨names, writable, -, -⟩, rfl⟩ := h
    refine ⟨_, ⟨writable (.compare (.plain column) .eq value) (by simp [filters]), rfl⟩, ?_⟩
    exact delete_eq_ok.2 ⟨⟨names, writable, by simp [storesData], by simp [filters]⟩, rfl⟩

/-- When a command is accepted, and what is then written. -/
theorem statement_eq_ok_iff {command : Command} {statement : Statement} :
    command.statement = .ok statement
      ↔ command.Accepted ∧ statement = .ofFragments command.fragments := by
  cases command with
  | select fetch => exact select_eq_ok
  | insert table data => exact insert_eq_ok
  | update table data filters => exact update_eq_ok
  | delete table filters => exact delete_eq_ok
  | deleteWhereEqual table column value => exact deleteWhereEqual_eq_ok

end Command

end ScopedQuery.Sql
