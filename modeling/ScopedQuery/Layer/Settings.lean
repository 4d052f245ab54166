import ScopedQuery.Fault
import ScopedQuery.Page.Export
import ScopedQuery.Text.Blank
import ScopedQuery.Text.Digits
/-!
# Settings

The limits of a layer and of the connection pool under it, with their defaults, and how they are
taken from the environment. A variable that is set must hold a number of its range, blanks at its
ends apart; the first that does not is the fault. For the two timeouts zero seconds means no
limit.
-/

namespace ScopedQuery

/-- The connection pool. All times are in milliseconds. -/
structure PoolSettings where
  maxConnections : Nat := 10
  minConnections : Nat := 0
  acquireTimeout : Nat := 5000
  idleTimeout : Nat := 30000
  statementTimeout : Option Nat := some 30000
deriving DecidableEq

/-- The command that every new connection starts with. -/
def PoolSettings.setup (pool : PoolSettings) : List String :=
  pool.statementTimeout.toList.map fun milliseconds =>
    "SET statement_timeout = " ++ Text.decimalText milliseconds

structure Settings where
  databaseUrl : String := "postgres://localhost:5432/call_analytics"
  pool : PoolSettings := {}
  pageSize : Nat := 50
  maxFetchLimit : Nat := 1000
  exportChunkSize : Nat := 1000
  exportMaxPages : Nat := 1000
  /-- The seconds that a page of an export may take. -/
  exportTimeout : Option Nat := some 60
deriving DecidableEq

structure SettingFault where
  name : String
  value : String
  reason : Text.NumeralFault
deriving DecidableEq

namespace SettingFault

def message (fault : SettingFault) : String :=
  "invalid value '" ++ fault.value ++ "' for " ++ fault.name ++ ": " ++ fault.reason.message

def code : String := "INVALID_CONFIG"

def report (fault : SettingFault) : FaultReport := ⟨fault.message, some code, none⟩

end SettingFault

namespace Settings

def exportLimits (settings : Settings) : Export.Limits where
  chunkSize := settings.exportChunkSize
  maxPages := settings.exportMaxPages
  timeout := settings.exportTimeout.map (· * 1000000)

def maxConnections : Nat := 0xFFFFFFFF

/-- The number in a variable, or `current` when the variable is not set. -/
def readCount (environment : String → Option String) (limit : Nat) (name : String)
    (current : Nat) : Except SettingFault Nat :=
  match environment name with
  | none => .ok current
  | some value =>
    match Text.readUnsigned limit (Text.trim value.toList) with
    | .ok number => .ok number
    | .error reason => .error ⟨name, value, reason⟩

/-- The seconds in a variable, counted in parts of which a second has `parts`. Zero stands for no
limit. -/
def readTimeout (environment : String → Option String) (parts : Nat) (name : String)
    (current : Option Nat) : Except SettingFault (Option Nat) :=
  match environment name with
  | none => .ok current
  | some value =>
    match Text.readUnsigned Text.maxCount (Text.trim value.toList) with
    | .ok seconds => .ok (if seconds = 0 then none else some (seconds * parts))
    | .error reason => .error ⟨name, value, reason⟩

def ofEnvironment (environment : String → Option String) : Except SettingFault Settings := do
  let standard : Settings := {}
  let count := readCount environment
  let timeout := readTimeout environment
  let maxConnections ←
    count maxConnections "CALL_ANALYTICS_MAX_CONNECTIONS" standard.pool.maxConnections
  let statementTimeout ←
    timeout 1000 "CALL_ANALYTICS_STATEMENT_TIMEOUT_SECS" standard.pool.statementTimeout
  let pageSize ← count Text.maxCount "CALL_ANALYTICS_PAGE_SIZE" standard.pageSize
  let exportChunkSize ←
    count Text.maxCount "CALL_ANALYTICS_EXPORT_CHUNK_SIZE" standard.exportChunkSize
  let exportMaxPages ←
    count Text.maxCount "CALL_ANALYTICS_EXPORT_MAX_PAGES" standard.exportMaxPages
  let exportTimeout ← timeout 1 "CALL_ANALYTICS_EXPORT_TIMEOUT_SECS" standard.exportTimeout
  return { standard with
    databaseUrl := (environment "CALL_ANALYTICS_DATABASE_URL").getD standard.databaseUrl
    pool := { standard.pool with maxConnections, statementTimeout }
    pageSize, exportChunkSize, exportMaxPages, exportTimeout }

end Settings

end ScopedQuery
