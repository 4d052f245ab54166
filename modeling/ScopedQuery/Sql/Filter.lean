import ScopedQuery.Sql.Name
import ScopedQuery.Value
/-!
# Predicates

A predicate compares a column, or a field of a JSON column, with a value. Predicates may be built by
hand from any names, so the names are checked again whenever a statement is written.
-/

namespace ScopedQuery.Sql

inductive Column
  | plain (column : String)
  | jsonText (column field : String)
  | jsonRaw (column field : String)
  | jsonNumeric (column field : String)
deriving DecidableEq

namespace Column

def base : Column → String
  | .plain column => column
  | .jsonText column _ => column
  | .jsonRaw column _ => column
  | .jsonNumeric column _ => column

def field? : Column → Option String
  | .plain _ => none
  | .jsonText _ field => some field
  | .jsonRaw _ field => some field
  | .jsonNumeric _ field => some field

def check (column : Column) : Except Fault Unit := do
  checkIdentifier column.base
  match column.field? with
  | some field => checkFieldName field
  | none => return ()

/-- The expression itself, when its names may be written. -/
def checked (column : Column) : Except Fault Column := do
  column.check
  return column

def text : Column → String
  | .plain column => column
  | .jsonText column field => column ++ "->>" ++ literal field
  | .jsonRaw column field => column ++ "->" ++ literal field
  | .jsonNumeric column field => "(" ++ column ++ "->" ++ literal field ++ ")::numeric"

end Column

inductive Operator
  | eq
  | neq
  | gt
  | gte
  | lt
  | lte
  | like
  | ilike
  | isNotNull
deriving DecidableEq

namespace Operator

def all : List Operator := [.eq, .neq, .gt, .gte, .lt, .lte, .like, .ilike, .isNotNull]

def name : Operator → String
  | .eq => "eq"
  | .neq => "neq"
  | .gt => "gt"
  | .gte => "gte"
  | .lt => "lt"
  | .lte => "lte"
  | .like => "like"
  | .ilike => "ilike"
  | .isNotNull => "is_not_null"

def symbol : Operator → String
  | .eq => "="
  | .neq => "!="
  | .gt => ">"
  | .gte => ">="
  | .lt => "<"
  | .lte => "<="
  | .like => "LIKE"
  | .ilike => "ILIKE"
  | .isNotNull => "IS NOT NULL"

def ofName? (name : String) : Option Operator :=
  all.find? fun operator => operator.name = name

theorem ofName?_name (operator : Operator) : ofName? operator.name = some operator := by
  cases operator <;> decide

def ofName (name : String) : Except Fault Operator :=
  match ofName? name with
  | some operator => .ok operator
  | none => .error (.unsupportedOperator name)

end Operator

structure Filter where
  column : Column
  operator : Operator
  /-- A missing value counts as null. -/
  value : Option Value

namespace Filter

def compare (column : Column) (operator : Operator) (value : Value) : Filter :=
  ⟨column, operator, some value⟩

def notNull (column : Column) : Filter := ⟨column, .isNotNull, none⟩

def equals (column : String) (value : Value) : Except Fault Filter := do
  let column ← (Column.plain column).checked
  return compare column .eq value

def ofTriple (column operator : String) (value : Value) : Except Fault Filter := do
  let operator ← Operator.ofName operator
  let column ← (Column.plain column).checked
  return if operator = .isNotNull then notNull column else compare column operator value

/-- Whether the predicate takes a placeholder. -/
def binds (filter : Filter) : Bool :=
  filter.operator ≠ .isNotNull && !(filter.value.getD .null).isNull

end Filter

end ScopedQuery.Sql
