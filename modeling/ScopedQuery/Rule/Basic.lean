import ScopedQuery.Schema.Table
/-!
# Filter rules and scopes

A rule is what a user puts together in a filter form: a column, an operation, a typed value and,
for a JSON column, the field that is meant. The name of an operation is kept even when it is not
known, so that one bad rule does not make a whole list unreadable. A scope is the predicate that
every query of one caller must start with.
-/

namespace ScopedQuery

inductive Operation
  | equals
  | contains
  | startsWith
  | greaterThan
  | lessThan
  | jsonEquals
  | jsonContains
  | jsonExists
  | unknown (name : String)
deriving DecidableEq

namespace Operation

def known : List Operation :=
  [.equals, .contains, .startsWith, .greaterThan, .lessThan, .jsonEquals, .jsonContains,
    .jsonExists]

def name : Operation → String
  | .equals => "equals"
  | .contains => "contains"
  | .startsWith => "starts_with"
  | .greaterThan => "greater_than"
  | .lessThan => "less_than"
  | .jsonEquals => "json_equals"
  | .jsonContains => "json_contains"
  | .jsonExists => "json_exists"
  | .unknown name => name

def ofName (name : String) : Operation :=
  (known.find? fun operation => operation.name = name).getD (.unknown name)

theorem name_ofName (name : String) : (ofName name).name = name := by
  unfold ofName
  cases found : known.find? fun operation => operation.name = name with
  | none => rfl
  | some operation => simpa using List.find?_some found

theorem ofName_name {operation : Operation} (h : operation ∈ known) :
    ofName operation.name = operation := by
  simp only [known, List.mem_cons, List.not_mem_nil, or_false] at h
  rcases h with rfl | rfl | rfl | rfl | rfl | rfl | rfl | rfl <;> decide

def takesValue (operation : Operation) : Bool := operation ≠ .jsonExists

def isUnknown : Operation → Bool
  | .unknown _ => true
  | _ => false

end Operation

structure Rule where
  id : String
  column : String
  operation : Operation
  value : String
  jsonField : Option String
deriving DecidableEq

inductive Rejection
  | unsupportedOperation (name : String)
  | notApplicable (operation : String) (kind : Kind)
  | missingValue
  | missingJsonField
  | invalidValue (value expected : String)
  | fault (fault : Fault)
deriving DecidableEq

def Rejection.message : Rejection → String
  | .unsupportedOperation name => "unsupported operation '" ++ name ++ "'"
  | .notApplicable operation kind =>
    "operation '" ++ operation ++ "' does not apply to " ++ kind.name ++ " columns"
  | .missingValue => "a value is required"
  | .missingJsonField => "JSON column requires a jsonField"
  | .invalidValue value expected => "'" ++ value ++ "' is not a valid " ++ expected
  | .fault cause => cause.message

structure Scope where
  column : String
  value : Value

namespace Scope

/-- The value that a scope compares with: never null, and text brought to the kind of the column. -/
def boundValue (scope : Scope) (kind : Kind) : Except Fault Value :=
  match scope.value with
  | .null => .error (.invalidValue scope.column "non-null scope value" "null")
  | .text entered =>
    match kind.ofText? entered with
    | some value => .ok value
    | none => .error (.invalidValue scope.column kind.name entered)
  | value => .ok value

def filter (scope : Scope) (table : Table) : Except Fault Sql.Filter := do
  let kind ← table.checkColumn scope.column
  let value ← scope.boundValue kind
  Sql.Filter.equals scope.column value

end Scope

end ScopedQuery
