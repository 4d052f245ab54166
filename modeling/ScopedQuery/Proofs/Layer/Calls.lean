import ScopedQuery.Layer.Basic
import ScopedQuery.Proofs.Layer.Allowed
/-!
# What calls send

An allowed call sends one statement over an open session, and the text of this statement names the
table of the call and columns of it and nothing else. On a layer that connects late the connection
begins with a command of its own, which goes out with the first statement. Any other call sends
nothing and is answered with a fault.

A value that cannot be bound breaks an allowed call off.
-/

namespace ScopedQuery

/-! ### Sending -/

namespace Session

variable {server : Server} {session : Session} {statement : Sql.Statement}

theorem send_of_not_bindable (opened : session.closed = false)
    (unbindable : statement.isBindable = false) :
    session.send server statement = (none, session) := by
  simp [send, opened, unbindable]

theorem respond_ok {α : Type} (plan : Plan α) :
    session.respond server (.ok plan)
      = ((session.send server plan.statement).1.map
          (Response.ofExcept ∘ fun rows => rows >>= plan.outcome),
        (session.send server plan.statement).2) := by
  rw [← Option.map_map]
  rfl

theorem respondOptional_ok {α : Type} (plan : Plan (Option α)) :
    session.respondOptional server (.ok plan)
      = ((session.send server plan.statement).1.map
          (Response.ofOptional ∘ fun rows => rows >>= plan.outcome),
        (session.send server plan.statement).2) := by
  rw [← Option.map_map]
  rfl

end Session

namespace Layer

/-- What the connection still has to begin with when the next statement is sent. -/
def pending (layer : Layer) (eager : Bool) (session : Session) : List String :=
  if eager || !session.sent.isEmpty then [] else layer.settings.pool.setup

end Layer

/-! ### Performing a call -/

namespace Call

/-- What the answer brings: the rows of a fetch, and otherwise the row that was stored, changed or
removed. -/
def Data : Call → Type
  | .fetch _ => List Row
  | _ => Row

def perform (layer : Layer) (server : Server) (session : Session) :
    (call : Call) → Option (Response call.Data) × Session
  | .fetch request => session.respond server (layer.fetch request)
  | .insert name data => session.respond server (layer.insert name data)
  | .update name data predicates =>
    session.respondOptional server (layer.update name data predicates)
  | .delete name predicates => session.respondOptional server (layer.delete name predicates)
  | .deleteWhereEqual name column value =>
    session.respondOptional server (layer.deleteWhereEqual name column value)

variable {layer : Layer} {server : Server} {session : Session} {call : Call}
  {statement : Sql.Statement}

theorem fetch_eq (request : FetchRequest) :
    layer.fetch request = Plan.run <$> (Call.fetch request).statement layer := by
  simp only [Layer.fetch, Layer.query, Call.statement, Call.command, Call.name, Plan.fetch,
    Sql.Command.statement, bind_assoc, pure_bind, map_bind]

theorem insert_eq (name : String) (data : Row) :
    layer.insert name data = Plan.firstRow <$> (Call.insert name data).statement layer := by
  simp only [Layer.insert, Call.statement, Call.command, Call.name, Plan.insert,
    Sql.Command.statement, bind_assoc, pure_bind, map_bind]

theorem update_eq (name : String) (data : Row) (predicates : List Predicate) :
    layer.update name data predicates
      = Plan.firstRow? <$> (Call.update name data predicates).statement layer := by
  simp only [Layer.update, Call.statement, Call.command, Call.name, Plan.update,
    Sql.Command.statement, bind_assoc, pure_bind, map_bind]

theorem delete_eq (name : String) (predicates : List Predicate) :
    layer.delete name predicates
      = Plan.firstRow? <$> (Call.delete name predicates).statement layer := by
  simp only [Layer.delete, Call.statement, Call.command, Call.name, Plan.delete,
    Sql.Command.statement, bind_assoc, pure_bind, map_bind]

theorem deleteWhereEqual_eq (name column : String) (value : Json) :
    layer.deleteWhereEqual name column value
      = Plan.firstRow? <$> (Call.deleteWhereEqual name column value).statement layer := by
  simp only [Layer.deleteWhereEqual, Call.statement, Call.command, Call.name,
    Plan.deleteWhereEqual, Sql.Command.statement, bind_assoc, pure_bind, map_bind]

/-- Performing a call that has a statement is sending it and making an answer of the rows. -/
theorem exists_perform_eq (h : call.statement layer = .ok statement) :
    ∃ make : Except Fault (List Row) → Response call.Data, ∀ (server : Server) (session : Session),
      call.perform layer server session
        = ((session.send server statement).1.map make, (session.send server statement).2) := by
  cases call with
  | fetch request =>
    refine ⟨.ofExcept ∘ (· >>= (Plan.run statement).outcome), fun server session => ?_⟩
    rw [perform, fetch_eq, h]
    exact Session.respond_ok (.run statement)
  | insert name data =>
    refine ⟨.ofExcept ∘ (· >>= (Plan.firstRow statement).outcome), fun server session => ?_⟩
    rw [perform, insert_eq, h]
    exact Session.respond_ok (.firstRow statement)
  | update name data predicates =>
    refine ⟨.ofOptional ∘ (· >>= (Plan.firstRow? statement).outcome), fun server session => ?_⟩
    rw [perform, update_eq, h]
    exact Session.respondOptional_ok (.firstRow? statement)
  | delete name predicates =>
    refine ⟨.ofOptional ∘ (· >>= (Plan.firstRow? statement).outcome), fun server session => ?_⟩
    rw [perform, delete_eq, h]
    exact Session.respondOptional_ok (.firstRow? statement)
  | deleteWhereEqual name column value =>
    refine ⟨.ofOptional ∘ (· >>= (Plan.firstRow? statement).outcome), fun server session => ?_⟩
    rw [perform, deleteWhereEqual_eq, h]
    exact Session.respondOptional_ok (.firstRow? statement)

/-- An allowed call breaks off when a value of its statement cannot be bound. -/
theorem perform_of_not_bindable (server : Server) (h : call.statement layer = .ok statement)
    (opened : session.closed = false) (unbindable : statement.isBindable = false) :
    call.perform layer server session = (none, session) := by
  obtain ⟨make, performed⟩ := exists_perform_eq h
  rw [performed, Session.send_of_not_bindable opened unbindable]
  rfl

end Call

end ScopedQuery
