import ScopedQuery.Schema.Table
/-!
# The tables of the call dashboard

One row per call, scoped by its agent; the agents; and their phone numbers.
-/

namespace ScopedQuery.Dashboard

def callLogs : Table :=
  .ofColumns "call_logs" "id"
    [("id", .uuid), ("agent_id", .uuid), ("phone_number_id", .uuid),
      ("call_started_at", .timestamp), ("call_ended_at", .timestamp),
      ("duration_seconds", .integer), ("from_number", .text), ("to_number", .text),
      ("direction", .text), ("status", .text), ("ended_reason", .text),
      ("cost_transport", .numeric), ("cost_llm", .numeric), ("cost_tts", .numeric),
      ("recording_url", .text), ("transcript", .text), ("metadata", .json), ("metrics", .json),
      ("created_at", .timestamp)]

def agents : Table :=
  .ofColumns "agents" "id"
    [("id", .uuid), ("name", .text), ("voice", .text), ("language", .text),
      ("system_prompt", .text), ("is_active", .boolean), ("created_at", .timestamp),
      ("metadata", .json)]

def phoneNumbers : Table :=
  .ofColumns "phone_numbers" "id"
    [("id", .uuid), ("agent_id", .uuid), ("number", .text), ("provider", .text),
      ("country_code", .text), ("is_active", .boolean), ("created_at", .timestamp)]

def catalog : Catalog := .ofTables [callLogs, agents, phoneNumbers]

end ScopedQuery.Dashboard
