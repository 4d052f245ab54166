import ScopedQuery.Cell.Parameter
import ScopedQuery.Cell.Reading
import ScopedQuery.Page.Pager
import ScopedQuery.Sql.Statement
/-!
# Sessions

A session is a connection to a database server, seen through the statements that were sent over
it. A `Plan` is one statement together with what is made of the rows that come back, so everything
that can be refused without asking the server is refused while the plan is made. Performing a plan
sends its statement and nothing else, and a closed session sends nothing.

Before a statement is sent its values are bound, and a value that cannot be bound breaks the call
off: nothing is sent, and there is no answer, not even a fault. So every answer below is optional.
-/

namespace ScopedQuery

/-- What a server replies to the last of the statements it has been sent. -/
abbrev Server := List Sql.Statement → Reply

def Sql.Statement.isBindable (statement : Sql.Statement) : Bool :=
  statement.values.all Value.isBindable

structure Plan (α : Type) where
  statement : Sql.Statement
  outcome : List Row → Except Fault α

namespace Plan

def run (statement : Sql.Statement) : Plan (List Row) := ⟨statement, .ok⟩

def firstRow? (statement : Sql.Statement) : Plan (Option Row) :=
  ⟨statement, fun rows => .ok rows.head?⟩

/-- The first row, which must be there. -/
def firstRow (statement : Sql.Statement) : Plan Row :=
  ⟨statement, fun rows =>
    match rows.head? with
    | some row => .ok row
    | none => .error (.database .rowNotFound)⟩

def fetch (query : Sql.Fetch) : Except Fault (Plan (List Row)) :=
  run <$> Sql.select query

def insert (table : String) (data : Sql.Record) : Except Fault (Plan Row) :=
  firstRow <$> Sql.insert table data

def update (table : String) (data : Sql.Record) (filters : List Sql.Filter) :
    Except Fault (Plan (Option Row)) :=
  firstRow? <$> Sql.update table data filters

def delete (table : String) (filters : List Sql.Filter) : Except Fault (Plan (Option Row)) :=
  firstRow? <$> Sql.delete table filters

def deleteWhereEqual (table column : String) (value : Value) : Except Fault (Plan (Option Row)) :=
  firstRow? <$> Sql.deleteWhereEqual table column value

end Plan

structure Session where
  /-- The statements sent so far, the first one first. -/
  sent : List Sql.Statement
  closed : Bool

namespace Session

def opened : Session := ⟨[], false⟩

def close (session : Session) : Session := { session with closed := true }

/-- Sends a statement and takes the rows of the reply. -/
def send (server : Server) (session : Session) (statement : Sql.Statement) :
    Option (Except Fault (List Row)) × Session :=
  if session.closed then (some (.error (.connection .closed)), session)
  else if statement.isBindable then
    let sent := session.sent ++ [statement]
    (some (server sent).readRows, { session with sent })
  else (none, session)

def perform {α : Type} (server : Server) (session : Session) :
    Except Fault (Plan α) → Option (Except Fault α) × Session
  | .error fault => (some (.error fault), session)
  | .ok plan =>
    let (rows, session) := session.send server plan.statement
    (rows.map (· >>= plan.outcome), session)

def respond {α : Type} (server : Server) (session : Session) (plan : Except Fault (Plan α)) :
    Option (Response α) × Session :=
  let (result, session) := session.perform server plan
  (result.map .ofExcept, session)

/-- Performs a plan for a caller, who gets neither data nor a fault when there was no row. -/
def respondOptional {α : Type} (server : Server) (session : Session)
    (plan : Except Fault (Plan (Option α))) : Option (Response α) × Session :=
  let (result, session) := session.perform server plan
  (result.map .ofOptional, session)

def rows (server : Server) (session : Session) (query : Sql.Fetch) :
    Option (Except Fault (List Row)) × Session :=
  session.perform server (Plan.fetch query)

/-! ### Paging over a session

Every call is answered or given up before the next one starts. -/

/-- What a pager makes of the answer to its request, or of a request that broke off. -/
def settle (pager : Pager) (state : Pager.State) (ticket : Pager.Ticket) :
    Option (Except Fault (List Row)) → Pager.State × Option Pager.Outcome
  | some answer =>
    let (state, outcome) := pager.finish state ticket answer
    (state, some outcome)
  | none => (Pager.abandon state ticket, none)

def reset (server : Server) (pager : Pager) (state : Pager.State) (query : Sql.Fetch)
    (session : Session) : (Pager.State × Option Pager.Outcome) × Session :=
  let (state, ticket) := pager.reset state query
  let (answer, session) := session.rows server ticket.request
  (settle pager state ticket answer, session)

def loadMore (server : Server) (pager : Pager) (state : Pager.State) (session : Session) :
    (Pager.State × Option Pager.Outcome) × Session :=
  match pager.loadMore state with
  | (state, .settled outcome) => ((state, some outcome), session)
  | (state, .sent ticket) =>
    let (answer, session) := session.rows server ticket.request
    (settle pager state ticket answer, session)

end Session

end ScopedQuery
