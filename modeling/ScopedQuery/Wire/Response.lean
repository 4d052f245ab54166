import ScopedQuery.Fault
import ScopedQuery.Page.Pager
import ScopedQuery.Wire.Schema
/-!
# Answers on the wire

A report leaves out what it does not have; a response always has both its fields. The state of a
pager is only written.
-/

namespace ScopedQuery.Wire

def readReport (document : Document) : Option FaultReport := do
  let [message, code, detail] ← slots ["message", "code", "detail"] document | none
  return ⟨← required readText message, ← defaulted none (nullable readText) code,
    ← defaulted none (nullable readText) detail⟩

def writeReport (report : FaultReport) : Document :=
  .object (("message", .string report.message)
    :: (report.code.toList.map fun code => ("code", .string code))
    ++ report.detail.toList.map fun detail => ("detail", .string detail))

def readResponse {α : Type} (read : Document → Option α) (document : Document) :
    Option (Response α) := do
  let [data, error] ← slots ["data", "error"] document | none
  return ⟨← optional read data, ← optional readReport error⟩

def writeResponse {α : Type} (write : α → Document) (response : Response α) : Document :=
  .object [("data", writeNullable write response.data),
    ("error", writeNullable writeReport response.error)]

def writePagerState (state : Pager.State) : Document :=
  .object [("rows", .array (state.rows.map writeRow)), ("offset", writeCount state.offset),
    ("hasMore", .bool state.hasMore), ("loading", .bool state.loading),
    ("error", writeNullable writeReport state.error)]

end ScopedQuery.Wire
