import ScopedQuery.Layer.Request
import ScopedQuery.Wire.Schema
/-!
# Requests on the wire
-/

namespace ScopedQuery.Wire

def readPredicate (document : Document) : Option Predicate := do
  let [column, operator, value] ← slots ["column", "operator", "value"] document | none
  return ⟨← required readText column, ← required readText operator,
    ← defaulted .null readJson value⟩

def writePredicate (predicate : Predicate) : Document :=
  .object [("column", .string predicate.column), ("operator", .string predicate.operator),
    ("value", predicate.value.document)]

/-- Counts are unsigned 64-bit words. -/
def readRequest (document : Document) : Option FetchRequest := do
  let [table, select, predicates, orderBy, limit, offset] ←
    slots ["table", "select", "filters", "orderBy", "limit", "offset"] document | none
  return ⟨← required readText table, ← defaulted "*" readText select,
    ← defaulted [] (readList readPredicate) predicates,
    ← defaulted none (nullable readOrdering) orderBy,
    ← defaulted none (nullable (readCount Text.maxCount)) limit,
    ← defaulted none (nullable (readCount Text.maxCount)) offset⟩

def writeRequest (request : FetchRequest) : Document :=
  .object [("table", .string request.table), ("select", .string request.select),
    ("filters", .array (request.predicates.map writePredicate)),
    ("orderBy", writeNullable writeOrdering request.orderBy),
    ("limit", writeNullable writeCount request.limit),
    ("offset", writeNullable writeCount request.offset)]

end ScopedQuery.Wire
