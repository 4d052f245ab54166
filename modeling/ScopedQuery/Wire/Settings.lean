import ScopedQuery.Layer.Settings
import ScopedQuery.Wire.Field
/-!
# Settings on the wire

Every part has its default. Times are whole seconds.
-/

namespace ScopedQuery.Wire

def readMilliseconds (document : Document) : Option Nat :=
  (· * 1000) <$> readCount Text.maxCount document

def readPool (document : Document) : Option PoolSettings := do
  let standard : PoolSettings := {}
  let [maxConnections, minConnections, acquire, idle, statement] ←
    slots ["max_connections", "min_connections", "acquire_timeout", "idle_timeout",
      "statement_timeout"] document | none
  let connections := readCount Settings.maxConnections
  return ⟨← defaulted standard.maxConnections connections maxConnections,
    ← defaulted standard.minConnections connections minConnections,
    ← defaulted standard.acquireTimeout readMilliseconds acquire,
    ← defaulted standard.idleTimeout readMilliseconds idle,
    ← defaulted standard.statementTimeout (nullable readMilliseconds) statement⟩

def readSettings (document : Document) : Option Settings := do
  let standard : Settings := {}
  let [url, pool, pageSize, maxFetchLimit, chunkSize, maxPages, timeout] ←
    slots ["database_url", "pool", "page_size", "max_fetch_limit", "export_chunk_size",
      "export_max_pages", "export_fetch_timeout_secs"] document | none
  let count := readCount Text.maxCount
  return ⟨← defaulted standard.databaseUrl readText url, ← defaulted standard.pool readPool pool,
    ← defaulted standard.pageSize count pageSize,
    ← defaulted standard.maxFetchLimit count maxFetchLimit,
    ← defaulted standard.exportChunkSize count chunkSize,
    ← defaulted standard.exportMaxPages count maxPages,
    ← defaulted standard.exportTimeout (nullable count) timeout⟩

end ScopedQuery.Wire
