import ScopedQuery.Schema.Table
/-!
# Paging

A pager holds the rows fetched so far for one query. `reset` starts over with a new query,
`loadMore` asks for the page behind the rows held. Both only start a call: they hand out a ticket
with the request to send, and the answer comes back later through `finish`, or never, which
`abandon` reports.

At most one call counts at a time. While one is under way `loadMore` starts nothing; `reset`
always starts one, and each reset begins a new generation, so that calls of earlier generations
change nothing when they come back. The offset advances by the rows that a page brought, not by
those that were new, and there is more to fetch exactly when the last page was full.
-/

namespace ScopedQuery

structure Pager where
  pageSize : Nat
  /-- Rows with the same value in this column are held once. -/
  primaryKey : String
  pageSize_pos : 0 < pageSize

namespace Pager

def ofSize (pageSize : Nat) (primaryKey : String) : Except Fault Pager :=
  if positive : 0 < pageSize then .ok ⟨pageSize, primaryKey, positive⟩ else .error .invalidPageSize

structure State where
  query : Option Sql.Fetch
  rows : List Row
  /-- The keys of the rows held, as JSON text. -/
  seen : List String
  offset : Nat
  hasMore : Bool
  loading : Bool
  error : Option FaultReport
  generation : Nat

def State.initial : State := ⟨none, [], [], 0, false, false, none, 0⟩

structure Snapshot where
  rows : List Row
  offset : Nat
  hasMore : Bool
  loading : Bool
  error : Option FaultReport

def State.snapshot (state : State) : Snapshot :=
  ⟨state.rows, state.offset, state.hasMore, state.loading, state.error⟩

structure Ticket where
  generation : Nat
  request : Sql.Fetch

inductive Outcome
  /-- A page was taken in: its rows, and how many of them were new. -/
  | loaded (fetched appended : Nat)
  | skipped
  /-- There is no further page, or no query yet. -/
  | exhausted
  /-- A reset came between; the rows were dropped. -/
  | superseded
  | failed (report : FaultReport)
deriving DecidableEq

/-- What starting a call comes to: a request to send, or an outcome at once. -/
inductive Start
  | sent (ticket : Ticket)
  | settled (outcome : Outcome)

def reset (pager : Pager) (state : State) (query : Sql.Fetch) : State × Ticket :=
  let generation := state.generation + 1
  ({ query := some query, rows := [], seen := [], offset := 0, hasMore := false, loading := true
     error := none, generation },
    ⟨generation, query.page pager.pageSize 0⟩)

def loadMore (pager : Pager) (state : State) : State × Start :=
  if state.loading then (state, .settled .skipped)
  else if !state.hasMore then (state, .settled .exhausted)
  else match state.query with
    | none => (state, .settled .exhausted)
    | some query =>
      ({ state with loading := true },
        .sent ⟨state.generation, query.page pager.pageSize state.offset⟩)

/-- The key of a row; a row without one, or with null, is like no other. -/
def key? (pager : Pager) (row : Row) : Option String :=
  ((row.find? pager.primaryKey).filter fun json => !json.isNull).map Json.text

/-- The rows whose keys are not among `seen` nor occur earlier in the list, and all keys then
seen. -/
def fresh (pager : Pager) (seen : List String) : List Row → List Row × List String
  | [] => ([], seen)
  | row :: rest =>
    match pager.key? row with
    | none =>
      let (kept, seen) := pager.fresh seen rest
      (row :: kept, seen)
    | some key =>
      if seen.contains key then pager.fresh seen rest
      else
        let (kept, seen) := pager.fresh (key :: seen) rest
        (row :: kept, seen)

def finish (pager : Pager) (state : State) (ticket : Ticket) (answer : Except Fault (List Row)) :
    State × Outcome :=
  if state.generation ≠ ticket.generation then (state, .superseded)
  else match answer with
    | .error fault =>
      ({ state with loading := false, error := some fault.report }, .failed fault.report)
    | .ok rows =>
      let (kept, seen) := pager.fresh state.seen rows
      ({ state with
          rows := state.rows ++ kept, seen, offset := state.offset + rows.length
          hasMore := rows.length = pager.pageSize, loading := false, error := none },
        .loaded rows.length kept.length)

/-- Gives up a call that will never be answered. -/
def abandon (state : State) (ticket : Ticket) : State :=
  if state.generation = ticket.generation then { state with loading := false } else state

end Pager

end ScopedQuery
