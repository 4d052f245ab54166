import ScopedQuery.Page.Export
/-!
# A table in memory

A source of rows that needs no database: it answers a request with the rows of a list from the
offset on, as many as the limit allows. It can be told to fail, and for exports to be slow, to
hang, to cancel the caller or to disregard the limit.
-/

namespace ScopedQuery

structure Memory where
  rows : List Row
  failure : Option Fault

namespace Memory

def slice (rows : List Row) (request : Sql.Fetch) : List Row :=
  let rest := rows.drop (request.offset.getD 0)
  match request.limit with
  | some limit => rest.take limit
  | none => rest

/-- The answer to a request; a failure is given once. -/
def answer (memory : Memory) (request : Sql.Fetch) : Except Fault (List Row) × Memory :=
  match memory.failure with
  | some fault => (.error fault, { memory with failure := none })
  | none => (.ok (slice memory.rows request), memory)

structure Action where
  delay : Nat
  cancels : Bool
  hangs : Bool
  failure : Option Fault
  /-- How many rows it serves instead of the limit. -/
  serves : Option Nat

def Action.plain : Action := ⟨0, false, false, none, none⟩

def Action.run (action : Action) (rows : List Row) (request : Sql.Fetch) : Export.PageRun where
  answer :=
    match action.failure with
    | some fault => .error fault
    | none =>
      match action.serves with
      | some count => .ok (slice rows { request with limit := some count })
      | none => .ok (slice rows request)
  answeredAfter := if action.hangs then none else some action.delay
  cancelledAfter := if action.cancels then some action.delay else none

/-- Answers the requests of an export, each by the next action, and plainly when none is left. -/
def ask (rows : List Row) (actions : List Action) (request : Sql.Fetch) :
    Export.PageRun × List Action :=
  ((actions.headD .plain).run rows request, actions.tail)

end Memory

end ScopedQuery
