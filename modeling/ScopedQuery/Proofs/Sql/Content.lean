import ScopedQuery.Proofs.Sql.Bindings
import ScopedQuery.Proofs.Sql.Reading
/-!
# What a statement says

The text of a statement is read in one way only, so what it names can be asked of the text alone.
Together with the numbers of its placeholders and with its values that is all there is to it.
-/

namespace ScopedQuery.Sql

/-! ### Names in a reading -/

namespace Reading

def table : Reading → String
  | .select table .. => table
  | .insert table _ => table
  | .update table .. => table
  | .delete table _ => table

/-- The columns that are named outside the predicates. -/
def columns : Reading → List String
  | .select _ columns _ orderBy _ _ => columns.getD [] ++ orderBy.toList.map Ordering.column
  | .insert _ data => data.map Prod.fst
  | .update _ data _ => data.map Prod.fst
  | .delete .. => []

def predicates : Reading → List (Column × Operator × Bool)
  | .select _ _ predicates .. => predicates
  | .insert .. => []
  | .update _ _ predicates => predicates
  | .delete _ predicates => predicates

end Reading

theorem Command.names_eq (command : Command) :
    command.names = command.reading.table :: command.reading.columns := by
  cases command with
  | select fetch => rfl
  | insert table data => simp [names, reading, Reading.table, Reading.columns, Ordered.names,
      entryReading, Function.comp_def]
  | update table data filters => simp [names, reading, Reading.table, Reading.columns,
      Ordered.names, entryReading, Function.comp_def]
  | delete table filters => rfl
  | deleteWhereEqual table column value => rfl

theorem Command.predicates_reading (command : Command) :
    command.reading.predicates = command.filters.map Filter.reading := by
  cases command <;> rfl

/-! ### The content of a statement -/

end ScopedQuery.Sql
