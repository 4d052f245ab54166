import ScopedQuery.Schema.Table
/-!
# Requests

What callers of a layer send: predicates as a column, the name of an operator and a JSON value,
and a fetch made of such predicates. `Predicate.filter` checks a predicate against its table and
brings the value to the kind of the column; a value compared by a pattern is brought to text
instead.
-/

namespace ScopedQuery

structure Predicate where
  column : String
  operator : String
  value : Json

namespace Predicate

def valueKind (operator : Sql.Operator) (kind : Kind) : Kind :=
  if operator = .like ∨ operator = .ilike then .text else kind

/-- The operator is looked at before the column, and the column before the value, which does not
count where the operator takes none. -/
def filter (table : Table) (predicate : Predicate) : Except Fault Sql.Filter := do
  let operator ← Sql.Operator.ofName predicate.operator
  let kind ← table.checkColumn predicate.column
  let column ← (Sql.Column.plain predicate.column).checked
  if operator = .isNotNull then return .notNull column
  let kind := valueKind operator kind
  match kind.ofJson? predicate.value with
  | some value => return .compare column operator value
  | none => throw (.invalidValue predicate.column kind.name predicate.value.text)

def filters (table : Table) (predicates : List Predicate) : Except Fault (List Sql.Filter) :=
  predicates.mapM (filter table)

end Predicate

structure FetchRequest where
  table : String
  select : String
  predicates : List Predicate
  orderBy : Option Sql.Ordering
  limit : Option Nat
  offset : Option Nat

end ScopedQuery
