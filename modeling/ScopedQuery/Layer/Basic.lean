import ScopedQuery.Layer.Request
import ScopedQuery.Layer.Session
import ScopedQuery.Layer.Settings
import ScopedQuery.Rule.Compiled
import ScopedQuery.Schema.Dashboard
/-!
# The query layer

A layer holds a catalog and settings and turns what callers ask for into plans. Only tables and
columns of the catalog get into a plan, every value is brought to the kind of its column, and a
limit above the highest one is refused rather than cut down.
-/

namespace ScopedQuery

structure Layer where
  catalog : Catalog := Dashboard.catalog
  settings : Settings := {}

namespace Layer

def checkLimit (layer : Layer) : Option Nat → Except Fault Unit
  | none => .ok ()
  | some limit =>
    if layer.settings.maxFetchLimit < limit then
      .error (.limitTooLarge limit layer.settings.maxFetchLimit)
    else .ok ()

def checkOrdering (table : Table) : Option Sql.Ordering → Except Fault Unit
  | none => .ok ()
  | some order => discard (table.checkColumn order.column)

def query (layer : Layer) (request : FetchRequest) : Except Fault Sql.Fetch := do
  let table ← layer.catalog.table request.table
  table.checkSelect request.select
  let filters ← Predicate.filters table request.predicates
  layer.checkLimit request.limit
  checkOrdering table request.orderBy
  return ⟨request.table, request.select, filters, request.orderBy, request.limit, request.offset⟩

def fetch (layer : Layer) (request : FetchRequest) : Except Fault (Plan (List Row)) := do
  Plan.fetch (← layer.query request)

def insert (layer : Layer) (name : String) (data : Row) : Except Fault (Plan Row) := do
  let table ← layer.catalog.table name
  Plan.insert name (← table.coerceRow data)

def update (layer : Layer) (name : String) (data : Row) (predicates : List Predicate) :
    Except Fault (Plan (Option Row)) := do
  let table ← layer.catalog.table name
  let data ← table.coerceRow data
  Plan.update name data (← Predicate.filters table predicates)

def delete (layer : Layer) (name : String) (predicates : List Predicate) :
    Except Fault (Plan (Option Row)) := do
  let table ← layer.catalog.table name
  Plan.delete name (← Predicate.filters table predicates)

def deleteWhereEqual (layer : Layer) (name column : String) (value : Json) :
    Except Fault (Plan (Option Row)) := do
  let table ← layer.catalog.table name
  Plan.deleteWhereEqual name column (← table.coerce column value)

def scopedQuery (layer : Layer) (name : String) (scope : Scope) (rules : List Rule) :
    Except Fault Sql.Fetch := do
  let table ← layer.catalog.table name
  let compiled ← scope.compile table rules
  return { Sql.Fetch.ofTable name "*" with filters := compiled.filters }

def fetchFiltered (layer : Layer) (name : String) (scope : Scope) (rules : List Rule)
    (orderBy : Option Sql.Ordering) : Except Fault (Plan (List Row)) := do
  let query ← layer.scopedQuery name scope rules
  checkOrdering (← layer.catalog.table name) orderBy
  Plan.fetch { query with orderBy }

/-- The commands that the connection of a session has begun with. A connection is opened at once,
for an eager layer, or else with the first statement. -/
def setup (layer : Layer) (eager : Bool) (session : Session) : List String :=
  if eager || !session.sent.isEmpty then layer.settings.pool.setup else []

def pager (layer : Layer) (name : String) : Except Fault Pager := do
  let table ← layer.catalog.table name
  Pager.ofSize layer.settings.pageSize table.primaryKey

end Layer

end ScopedQuery
