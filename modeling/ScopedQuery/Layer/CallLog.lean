import ScopedQuery.Flat.Layout
import ScopedQuery.Layer.Basic
import ScopedQuery.Page.Export
/-!
# Exporting call logs

All calls of one agent that some rules let through, newest first, flattened: the stored columns,
the total of the costs, and a column for every field that the metadata and the metrics of any of
the calls have. The export gives all rows or none.
-/

namespace ScopedQuery

structure CallLogExport where
  header : List String
  rows : List Row

namespace Layer

namespace CallLog

def table : String := "call_logs"

def basicColumns : List String :=
  ["id", "call_started_at", "call_ended_at", "duration_seconds", "from_number", "to_number",
    "direction", "status", "ended_reason", "cost_transport", "cost_llm", "cost_tts",
    "recording_url"]

def costColumns : List String := ["cost_transport", "cost_llm", "cost_tts"]

def jsonColumns : List String := ["metadata", "metrics"]

def select : String := Text.joined ", " (basicColumns ++ jsonColumns)

def spec : Flat.Spec where
  basicColumns := basicColumns
  derived := [⟨"cost_total", costColumns⟩]
  jsonSources := jsonColumns.map fun column => ⟨column, column, .discovered⟩

end CallLog

/-- The query of the export, whose scope is the agent. -/
def callLogs (layer : Layer) (agent : Uuid) (rules : List Rule) : Except Fault Sql.Fetch := do
  let table ← layer.catalog.table CallLog.table
  table.checkSelect CallLog.select
  let scope : Scope := ⟨"agent_id", .uuid agent⟩
  let compiled ← scope.compile table rules
  return { Sql.Fetch.ofTable CallLog.table CallLog.select with
    filters := compiled.filters, orderBy := some ⟨"call_started_at", false⟩ }

def exportOf (rows : List Row) : CallLogExport :=
  let layout := CallLog.spec.layout rows
  ⟨layout.header, rows.map layout.flatten⟩

/-- A session answers a page at once. The values of an export can all be bound, so there always is
an answer. -/
def ask (server : Server) (session : Session) (query : Sql.Fetch) : Export.PageRun × Session :=
  let (answer, session) := session.rows server query
  (⟨answer.getD (.error .exportCancelled), some 0, none⟩, session)

/-- Fetches page after page over a session. `cancelled` says that the caller cancelled before. A
page that is answered at once always ends, so there always is a result. -/
def exportCallLogs (layer : Layer) (server : Server) (session : Session) (agent : Uuid)
    (rules : List Rule) (cancelled : Bool) : Except Fault CallLogExport × Session :=
  match layer.callLogs agent rules with
  | .error fault => (.error fault, session)
  | .ok query =>
    let finished := Export.all (ask server) layer.settings.exportLimits query cancelled session
    (exportOf <$> finished.result.getD (.error .exportCancelled), finished.source)

end Layer

end ScopedQuery
