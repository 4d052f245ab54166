import ScopedQuery.Schema.Table
/-!
# Exporting whole results

An export asks for page after page of one fixed size and stops at the first page that is not full.
Three things bound it: the number of pages, a deadline for each page, and a cancellation that may
come at any time. An export that fails gives no rows.

What a page request meets is described by `PageRun`: when the source answers and what, and when
the caller cancels, both counted from the request. Of an answer, a deadline and a cancellation the
earliest counts. An answer counts even when one of the others comes at the same instant, but a
cancellation that has come by then stops the export before the next page.
-/

namespace ScopedQuery.Export

structure Limits where
  chunkSize : Nat
  maxPages : Nat
  /-- Microseconds that a page may take. -/
  timeout : Option Nat
deriving DecidableEq

/-- What a page request meets; the times are in microseconds, and nothing means never. -/
structure PageRun where
  answer : Except Fault (List Row)
  answeredAfter : Option Nat
  cancelledAfter : Option Nat

inductive PageEnd
  /-- With the answer of the source, and whether the caller has cancelled by then. -/
  | answered (answer : Except Fault (List Row)) (cancelled : Bool)
  | timedOut (after : Nat)
  | cancelled
  | waiting

/-- Whether something that happens after `first`, if at all, comes no later than `second`. -/
def noLater (first : Nat) : Option Nat → Bool
  | none => true
  | some second => first ≤ second

def PageRun.ending (run : PageRun) (timeout : Option Nat) : PageEnd :=
  match run.answeredAfter with
  | some answered =>
    if noLater answered timeout ∧ noLater answered run.cancelledAfter then
      .answered run.answer (run.cancelledAfter = some answered)
    else stopped
  | none => stopped
where
  stopped : PageEnd :=
    match run.cancelledAfter, timeout with
    | some cancelled, timeout =>
      if noLater cancelled timeout then .cancelled else .timedOut (timeout.getD 0)
    | none, some timeout => .timedOut timeout
    | none, none => .waiting

/-- A finished export: its result, or nothing when a page never ends, with the requests it made in
order and the state in which it left the source. -/
structure Finished (σ : Type) where
  result : Option (Except Fault (List Row))
  requests : List Sql.Fetch
  source : σ

/-- The pages from number `page` on, when `left` more may be asked for. -/
def pages {σ : Type} (ask : σ → Sql.Fetch → PageRun × σ) (limits : Limits) (query : Sql.Fetch)
    (page : Nat) (gathered : List Row) (cancelled : Bool) (source : σ) : Nat → Finished σ
  | 0 => ⟨some (.error (.exportPageLimit limits.maxPages)), [], source⟩
  | left + 1 =>
    if cancelled then ⟨some (.error .exportCancelled), [], source⟩
    else
      let request := query.page limits.chunkSize (page * limits.chunkSize)
      let (run, source) := ask source request
      match run.ending limits.timeout with
      | .answered (.ok rows) cancelled =>
        if rows.length < limits.chunkSize then ⟨some (.ok (gathered ++ rows)), [request], source⟩
        else
          let rest :=
            pages ask limits query (page + 1) (gathered ++ rows) cancelled source left
          { rest with requests := request :: rest.requests }
      | .answered (.error fault) _ => ⟨some (.error fault), [request], source⟩
      | .timedOut after => ⟨some (.error (.timeout after)), [request], source⟩
      | .cancelled => ⟨some (.error .exportCancelled), [request], source⟩
      | .waiting => ⟨none, [request], source⟩

/-- All rows of a query; the limit and the offset it may have do not count. `cancelled` says that
the caller cancelled before the start. -/
def all {σ : Type} (ask : σ → Sql.Fetch → PageRun × σ) (limits : Limits) (query : Sql.Fetch)
    (cancelled : Bool) (source : σ) : Finished σ :=
  if limits.chunkSize = 0 then ⟨some (.error .invalidPageSize), [], source⟩
  else pages ask limits query 0 [] cancelled source limits.maxPages

end ScopedQuery.Export
