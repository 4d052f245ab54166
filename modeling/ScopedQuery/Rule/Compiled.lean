import ScopedQuery.Rule.Basic
import ScopedQuery.Rule.Pattern
/-!
# Compiling rules

Rules become predicates one by one, behind the predicate of the scope. A rule that cannot be
compiled is dropped with a reason, and the query runs without it; only a scope that cannot be
compiled is a fault, so no query without its scope ever comes out.

Rules on dates work on UTC calendar days, whatever clock time or offset the user's value carries:
`equals` asks for the instants from the first to the last microsecond of the day.
-/

namespace ScopedQuery

namespace Rule

abbrev Outcome := Except Rejection (List Sql.Filter)

def writable (expression : Sql.Column) : Except Rejection Sql.Column :=
  match expression.checked with
  | .ok expression => .ok expression
  | .error fault => .error (.fault fault)

/-- The JSON field of a rule; an empty name is no field. -/
def field? (rule : Rule) : Option String :=
  rule.jsonField.filter fun field => field ≠ ""

def requiredField (rule : Rule) : Except Rejection String :=
  match rule.field? with
  | some field => .ok field
  | none => .error .missingJsonField

def number (rule : Rule) : Except Rejection Binary64 :=
  match Kind.readFinite rule.value.toList with
  | some number => .ok number
  | none => .error (.invalidValue rule.value "number")

def date (rule : Rule) : Except Rejection Date :=
  match Date.read? rule.value.toList with
  | some date => .ok date
  | none => .error (.invalidValue rule.value "date")

def typed (rule : Rule) (kind : Kind) : Except Rejection Value :=
  match kind.ofText? rule.value with
  | some value => .ok value
  | none => .error (.invalidValue rule.value kind.name)

def notApplicable {α : Type} (rule : Rule) (kind : Kind) : Except Rejection α :=
  .error (.notApplicable rule.operation.name kind)

def onFieldText (rule : Rule) (operator : Sql.Operator) (value : String) : Outcome := do
  let column ← writable (.jsonText rule.column (← rule.requiredField))
  return [.compare column operator (.text value)]

def onFieldNumber (rule : Rule) (operator : Sql.Operator) : Outcome := do
  let column ← writable (.jsonNumeric rule.column (← rule.requiredField))
  return [.compare column operator (.float (← rule.number))]

def onJson (rule : Rule) : Outcome :=
  match rule.operation with
  | .jsonExists => do
    let column ← match rule.field? with
      | some field => writable (.jsonRaw rule.column field)
      | none => writable (.plain rule.column)
    return [.notNull column]
  | .equals | .jsonEquals => rule.onFieldText .eq rule.value
  | .contains | .jsonContains => rule.onFieldText .ilike (Pattern.containing rule.value)
  | .startsWith => rule.onFieldText .ilike (Pattern.startingWith rule.value)
  | .greaterThan => rule.onFieldNumber .gt
  | .lessThan => rule.onFieldNumber .lt
  | .unknown name => .error (.unsupportedOperation name)

def onDate (rule : Rule) (kind : Kind) : Outcome :=
  match rule.operation with
  | .equals => do
    let day := (← rule.date).toDays
    let column ← writable (.plain rule.column)
    return [.compare column .gte (.timestamp (.startOfDay day)),
      .compare column .lte (.timestamp (.endOfDay day))]
  | .greaterThan => do
    match (← rule.date).nextDay? with
    | some next =>
      let column ← writable (.plain rule.column)
      return [.compare column .gte (.timestamp (.startOfDay next))]
    | none => throw (.invalidValue rule.value "date")
  | .lessThan => do
    let day := (← rule.date).toDays
    let column ← writable (.plain rule.column)
    return [.compare column .lt (.timestamp (.startOfDay day))]
  | _ => rule.notApplicable kind

def onTyped (rule : Rule) (kind : Kind) (column : Sql.Column) (operator : Sql.Operator) :
    Outcome := do
  return [.compare column operator (← rule.typed kind)]

def onPattern (rule : Rule) (kind : Kind) (column : Sql.Column) (pattern : String) : Outcome :=
  if kind = .text then .ok [.compare column .ilike (.text pattern)] else rule.notApplicable kind

def onPlain (rule : Rule) (kind : Kind) : Outcome := do
  let column ← writable (.plain rule.column)
  match rule.operation with
  | .equals => rule.onTyped kind column .eq
  | .greaterThan => rule.onTyped kind column .gt
  | .lessThan => rule.onTyped kind column .lt
  | .contains => rule.onPattern kind column (Pattern.containing rule.value)
  | .startsWith => rule.onPattern kind column (Pattern.startingWith rule.value)
  | _ => rule.notApplicable kind

/-- The kind of the column of a rule that names a known operation and has the value it needs. -/
def checkedKind (rule : Rule) (table : Table) : Except Rejection Kind :=
  match rule.operation with
  | .unknown name => .error (.unsupportedOperation name)
  | operation =>
    match table.checkColumn rule.column with
    | .error fault => .error (.fault fault)
    | .ok kind =>
      if operation.takesValue ∧ rule.value = "" then .error .missingValue else .ok kind

def filters (rule : Rule) (table : Table) : Outcome := do
  let kind ← rule.checkedKind table
  if kind.isJson then rule.onJson
  else if kind.isDate then rule.onDate kind
  else rule.onPlain kind

end Rule

structure Compiled where
  filters : List Sql.Filter
  /-- The dropped rules with the reasons, in order. -/
  dropped : List (Rule × Rejection)

namespace Compiled

def ofRule (table : Table) (rule : Rule) : Compiled :=
  match rule.filters table with
  | .ok filters => ⟨filters, []⟩
  | .error reason => ⟨[], [(rule, reason)]⟩

def ofRules (table : Table) (rules : List Rule) : Compiled where
  filters := rules.flatMap fun rule => (ofRule table rule).filters
  dropped := rules.flatMap fun rule => (ofRule table rule).dropped

end Compiled

def Scope.compile (scope : Scope) (table : Table) (rules : List Rule) : Except Fault Compiled := do
  let scopeFilter ← scope.filter table
  let compiled := Compiled.ofRules table rules
  return ⟨scopeFilter :: compiled.filters, compiled.dropped⟩

end ScopedQuery
