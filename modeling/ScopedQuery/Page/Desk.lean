import ScopedQuery.Page.Pager
/-!
# Calls under way

A pager together with the calls that have been started on it and not yet come back. Calls are
numbered in the order in which they were started and may come back in any order.
-/

namespace ScopedQuery.Pager

structure Desk where
  state : State
  calls : List (Nat × Ticket)
  started : Nat

namespace Desk

def initial : Desk := ⟨.initial, [], 0⟩

def ticket? (desk : Desk) (call : Nat) : Option Ticket :=
  (desk.calls.find? fun entry => entry.1 = call).map Prod.snd

def without (desk : Desk) (call : Nat) : List (Nat × Ticket) :=
  desk.calls.filter fun entry => entry.1 ≠ call

/-- Starts a reset; the number of its call is the count of calls started before. -/
def reset (pager : Pager) (desk : Desk) (query : Sql.Fetch) : Desk × Ticket :=
  let (state, ticket) := pager.reset desk.state query
  (⟨state, desk.calls ++ [(desk.started, ticket)], desk.started + 1⟩, ticket)

def loadMore (pager : Pager) (desk : Desk) : Desk × Start :=
  match pager.loadMore desk.state with
  | (state, .sent ticket) =>
    (⟨state, desk.calls ++ [(desk.started, ticket)], desk.started + 1⟩, .sent ticket)
  | (state, .settled outcome) => ({ desk with state }, .settled outcome)

/-- Takes the answer of a call; nothing happens when no such call is under way. -/
def finish (pager : Pager) (desk : Desk) (call : Nat) (answer : Except Fault (List Row)) :
    Desk × Option Outcome :=
  match desk.ticket? call with
  | none => (desk, none)
  | some ticket =>
    let (state, outcome) := pager.finish desk.state ticket answer
    ({ desk with state, calls := desk.without call }, some outcome)

def abandon (desk : Desk) (call : Nat) : Desk :=
  match desk.ticket? call with
  | none => desk
  | some ticket =>
    { desk with state := Pager.abandon desk.state ticket, calls := desk.without call }

end Desk

end ScopedQuery.Pager
