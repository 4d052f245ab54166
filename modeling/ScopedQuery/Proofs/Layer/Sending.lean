import ScopedQuery.Layer.CallLog
import ScopedQuery.Proofs.Page.Exporting
import ScopedQuery.Proofs.Result
/-!
# What a session sends

`Sends P before after` says that a session went from one state to another by sending statements
that are all as `P` asks. One lemma for each operation of a session says what it sends, so that
nothing else looks at the list of statements.
-/

namespace ScopedQuery

/-- Between the two states only statements were sent that are as `P` asks. -/
def Session.Sends (P : Sql.Statement → Prop) (before after : Session) : Prop :=
  ∃ statements, after.sent = before.sent ++ statements ∧ ∀ statement ∈ statements, P statement

namespace Session

variable {P : Sql.Statement → Prop} {server : Server} {session : Session} {α : Type}

theorem Sends.refl (P : Sql.Statement → Prop) (session : Session) : Sends P session session :=
  ⟨[], by simp, by simp⟩

theorem Sends.trans {first second third : Session} (h : Sends P first second)
    (h' : Sends P second third) : Sends P first third := by
  obtain ⟨statements, sent, all⟩ := h
  obtain ⟨statements', sent', all'⟩ := h'
  refine ⟨statements ++ statements', by rw [sent', sent, List.append_assoc], ?_⟩
  exact List.forall_mem_append.2 ⟨all, all'⟩

theorem sends_send {statement : Sql.Statement} (h : P statement) :
    Sends P session (session.send server statement).2 := by
  unfold send
  split
  · exact .refl P session
  · split
    · exact ⟨[statement], rfl, by simpa using h⟩
    · exact .refl P session

theorem sends_perform {plan : Except Fault (Plan α)}
    (h : ∀ made, plan = .ok made → P made.statement) :
    Sends P session (session.perform server plan).2 := by
  cases plan with
  | error fault => exact .refl P session
  | ok made => exact sends_send (h made rfl)

theorem sends_respond {plan : Except Fault (Plan α)}
    (h : ∀ made, plan = .ok made → P made.statement) :
    Sends P session (session.respond server plan).2 :=
  sends_perform h

theorem sends_rows {query : Sql.Fetch}
    (h : ∀ statement, Sql.select query = .ok statement → P statement) :
    Sends P session (session.rows server query).2 := by
  refine sends_perform fun plan made => ?_
  obtain ⟨statement, selected, rfl⟩ := map_eq_ok.1 made
  exact h statement selected

/-- A fetch is answered unless a value of its statement cannot be bound. -/
theorem exists_rows {query : Sql.Fetch}
    (h : ∀ statement, Sql.select query = .ok statement → statement.isBindable = true) :
    ∃ answer, (session.rows server query).1 = some answer := by
  unfold rows
  cases made : Plan.fetch query with
  | error fault => exact ⟨_, rfl⟩
  | ok plan =>
    obtain ⟨statement, selected, rfl⟩ := map_eq_ok.1 made
    simp only [perform, send, Plan.run, h statement selected, if_true]
    split <;> exact ⟨_, rfl⟩

/-- Nothing is sent for a plan that could not be made. -/
theorem respond_error (fault : Fault) :
    session.respond server (.error fault : Except Fault (Plan α))
      = (some (.failed fault.report), session) :=
  rfl

end Session

namespace Export

variable {σ : Type} {ask : σ → Sql.Fetch → PageRun × σ} {limits : Limits} {query : Sql.Fetch}

/-- What the pages from one on ask for first, if anything, and how they go on. -/
theorem pages_cases (ask : σ → Sql.Fetch → PageRun × σ) (limits : Limits) (query : Sql.Fetch)
    (page : Nat) (gathered : List Row) (cancelled : Bool) (source : σ) (left : Nat) :
    let finished := pages ask limits query page gathered cancelled source (left + 1)
    let request := query.page limits.chunkSize (page * limits.chunkSize)
    (finished.requests = [] ∧ finished.source = source)
      ∨ (finished.requests = [request] ∧ finished.source = (ask source request).2)
      ∨ ∃ gathered' cancelled',
        let rest :=
          pages ask limits query (page + 1) gathered' cancelled' (ask source request).2 left
        finished.requests = request :: rest.requests ∧ finished.source = rest.source := by
  intro finished request
  rcases pages_step ask limits query page gathered cancelled source left with
    ⟨requests, source, -⟩ | ⟨requests, source, -⟩ | ⟨cancelled', -, onward⟩
  · exact .inl ⟨requests, source⟩
  · exact .inr (.inl ⟨requests, source⟩)
  · right
    right
    simp only [finished, onward]
    exact ⟨_, cancelled', rfl, rfl⟩

/-- Whatever the source does, an export asks for pages of its query. -/
theorem mem_requests_pages {left page : Nat} {gathered : List Row} {cancelled : Bool} {source : σ}
    {request : Sql.Fetch}
    (member : request ∈ (pages ask limits query page gathered cancelled source left).requests) :
    ∃ offset, request = query.page limits.chunkSize offset := by
  induction left generalizing page gathered cancelled source with
  | zero => simp [pages] at member
  | succ left ih =>
    rcases pages_cases ask limits query page gathered cancelled source left with
      ⟨requests, -⟩ | ⟨requests, -⟩ | ⟨_, _, requests, -⟩
    · simp [requests] at member
    · rw [requests, List.mem_singleton] at member
      exact ⟨_, member⟩
    · rw [requests, List.mem_cons] at member
      rcases member with first | later
      · exact ⟨_, first⟩
      · exact ih later

theorem mem_requests_all {cancelled : Bool} {source : σ} {request : Sql.Fetch}
    (member : request ∈ (all ask limits query cancelled source).requests) :
    ∃ offset, request = query.page limits.chunkSize offset := by
  unfold all at member
  split at member
  · simp at member
  · exact mem_requests_pages member

/-- An export over a session sends what its pages send. -/
theorem sends_pages {P : Sql.Statement → Prop} {server : Server} {session : Session}
    (h : ∀ offset statement,
      Sql.select (query.page limits.chunkSize offset) = .ok statement → P statement)
    {left page : Nat} {gathered : List Row} {cancelled : Bool} :
    session.Sends P
      (pages (Layer.ask server) limits query page gathered cancelled session left).source := by
  induction left generalizing page gathered cancelled session with
  | zero => exact .refl P session
  | succ left ih =>
    have asked : session.Sends P (Layer.ask server session
        (query.page limits.chunkSize (page * limits.chunkSize))).2 := Session.sends_rows (h _)
    rcases pages_cases (Layer.ask server) limits query page gathered cancelled session left with
      ⟨-, source⟩ | ⟨-, source⟩ | ⟨_, _, -, source⟩
    · rw [source]
      exact .refl P session
    · rw [source]
      exact asked
    · rw [source]
      exact asked.trans ih

theorem sends_all {P : Sql.Statement → Prop} {server : Server} {session : Session}
    (h : ∀ offset statement,
      Sql.select (query.page limits.chunkSize offset) = .ok statement → P statement)
    {cancelled : Bool} :
    session.Sends P (all (Layer.ask server) limits query cancelled session).source := by
  unfold all
  split
  · exact .refl P session
  · exact sends_pages h

end Export

end ScopedQuery
