import ScopedQuery.Rule.Basic
import ScopedQuery.Wire.Field
/-!
# Rules on the wire

Any text is an operation, because a name that is not known is kept. The operators of predicates
are a fixed set.
-/

namespace ScopedQuery.Wire

def readOperation (document : Document) : Option Operation :=
  Operation.ofName <$> readText document

def writeOperation (operation : Operation) : Document := .string operation.name

def readOperator : Document → Option Sql.Operator := readWord Sql.Operator.ofName?

def writeOperator (operator : Sql.Operator) : Document := .string operator.name

def readRule (document : Document) : Option Rule := do
  let [id, column, operation, value, field] ←
    slots ["id", "column", "operation", "value", "jsonField"] document | none
  return ⟨← required readText id, ← required readText column, ← required readOperation operation,
    ← defaulted "" readText value, ← defaulted none (nullable readText) field⟩

def writeRule (rule : Rule) : Document :=
  .object ([("id", .string rule.id), ("column", .string rule.column),
    ("operation", writeOperation rule.operation), ("value", .string rule.value)]
    ++ rule.jsonField.toList.map fun field => ("jsonField", .string field))

def readRules : Document → Option (List Rule) := readList readRule

def writeRules (rules : List Rule) : Document := .array (rules.map writeRule)

end ScopedQuery.Wire
