import ScopedQuery.Proofs.Layer.Binding
import ScopedQuery.Proofs.Layer.Calls
/-!
# Closing

A layer, its clones and the pagers made from them share one session. Once that session is closed
nothing is sent over it again, whoever asks: what an open session would have sent something for is
refused, and everything else is answered as an open session answers it. A call that would have
broken off is refused too, since a session looks at whether it is closed before it binds a value.

`Session.Declines` says this of one operation. Sending a statement is where a session looks at
whether it is closed, and every other operation gets the property from there: those that only turn
the answer into something else by `Declines.map`, and an export because its first page decides.
-/

namespace ScopedQuery

namespace Session

/-- The session in the same state, but open. -/
def reopened (session : Session) : Session := { session with closed := false }

/-- What a closed session does when asked for an operation, beside what an open one would do: both
give the same answer and send nothing; or the closed one only gives the refusal, where the open one
sends something or breaks off. `Mute` tells what is left of an operation that broke off. -/
inductive Declines {α : Type} (session : Session) (refusal : α) (Mute : α → Prop)
    (operation : Session → α × Session) : Prop
  | answered (answer : α) (given : ¬Mute answer) (here : operation session = (answer, session))
    (there : operation session.reopened = (answer, session.reopened))
  | refused (here : operation session = (refusal, session))
    (there : session.sent.length < (operation session.reopened).2.sent.length)
  | brokenOff (left : α) (mute : Mute left) (here : operation session = (refusal, session))
    (there : operation session.reopened = (left, session.reopened))

variable {α β : Type} {session : Session} {server : Server}

/-- Making something else of the answer does not touch the session. -/
theorem Declines.map {refusal : α} {Mute : α → Prop} {Mute' : β → Prop}
    {operation : Session → α × Session} (h : session.Declines refusal Mute operation) (make : α → β)
    (same : ∀ answer, Mute' (make answer) ↔ Mute answer) :
    session.Declines (make refusal) Mute' fun before =>
      (make (operation before).1, (operation before).2) := by
  cases h with
  | answered answer given here there =>
    exact .answered (make answer) (mt (same answer).1 given) (by simp only [here])
      (by simp only [there])
  | refused here there => exact .refused (by simp only [here]) there
  | brokenOff left mute here there =>
    exact .brokenOff (make left) ((same left).2 mute) (by simp only [here]) (by simp only [there])

/-- The same for an answer that may be missing. -/
theorem Declines.map_option {refusal : Option α} {operation : Session → Option α × Session}
    (h : session.Declines refusal (· = none) operation) (make : α → β) :
    session.Declines (refusal.map make) (· = none) fun before =>
      ((operation before).1.map make, (operation before).2) :=
  h.map (Option.map make) fun _ => Option.map_eq_none_iff

theorem declines_send (closed : session.closed = true) (statement : Sql.Statement) :
    session.Declines (some (.error (.connection .closed))) (· = none) fun before =>
      before.send server statement := by
  have here : session.send server statement = (some (.error (.connection .closed)), session) :=
    if_pos closed
  cases bindable : statement.isBindable with
  | true =>
    refine .refused here ?_
    simp [send, reopened, bindable]
  | false => exact .brokenOff none rfl here (send_of_not_bindable rfl bindable)

theorem declines_perform (closed : session.closed = true) (plan : Except Fault (Plan α)) :
    session.Declines (some (.error (.connection .closed))) (· = none) fun before =>
      before.perform server plan := by
  cases plan with
  | error fault => exact .answered (some (.error fault)) (Option.some_ne_none _) rfl rfl
  | ok plan => exact (declines_send closed plan.statement).map_option (· >>= plan.outcome)

/-- The report of what a closed session refuses. -/
def closedReport : FaultReport := ⟨"Database has been closed", some "CONNECTION_ERROR", none⟩

theorem declines_respond (closed : session.closed = true) (plan : Except Fault (Plan α)) :
    session.Declines (some (.failed closedReport)) (· = none) fun before =>
      before.respond server plan :=
  (declines_perform closed plan).map_option Response.ofExcept

theorem declines_respondOptional (closed : session.closed = true)
    (plan : Except Fault (Plan (Option α))) :
    session.Declines (some (.failed closedReport)) (· = none) fun before =>
      before.respondOptional server plan :=
  (declines_perform closed plan).map_option Response.ofOptional

theorem declines_call (closed : session.closed = true) (layer : Layer) (call : Call) :
    session.Declines (some (.failed closedReport)) (· = none) fun before =>
      call.perform layer server before := by
  cases call with
  | fetch request => exact declines_respond closed _
  | insert name data => exact declines_respond closed _
  | update name data predicates => exact declines_respondOptional closed _
  | delete name predicates => exact declines_respondOptional closed _
  | deleteWhereEqual name column value => exact declines_respondOptional closed _

/-! ### Exports -/

/-- A page over a session always ends with its answer. -/
theorem ending_ask (session : Session) (query : Sql.Fetch) (timeout : Option Nat) :
    (Layer.ask server session query).1.ending timeout
      = .answered ((session.rows server query).1.getD (.error .exportCancelled)) false := by
  have intime : Export.noLater 0 timeout = true := by cases timeout <;> rfl
  have never : Export.noLater 0 none = true := rfl
  simp [Layer.ask, Export.PageRun.ending, intime, never]

theorem Sends.length_le {P : Sql.Statement → Prop} {before after : Session}
    (h : before.Sends P after) : before.sent.length ≤ after.sent.length := by
  obtain ⟨statements, sent, -⟩ := h
  rw [sent, List.length_append]
  exact Nat.le_add_right _ _

/-- An export that is not cancelled goes on from what its first page left. -/
theorem sends_first_page (session : Session) (limits : Export.Limits) (query : Sql.Fetch)
    (page left : Nat) (gathered : List Row) :
    (session.rows server (query.page limits.chunkSize (page * limits.chunkSize))).2.Sends
      (fun _ => True) (Export.pages (Layer.ask server) limits query page gathered false session
        (left + 1)).source := by
  simp only [Export.pages, Bool.false_eq_true, if_false, ending_ask]
  split
  · split
    · exact .refl _ _
    · exact Export.sends_pages fun _ _ _ => trivial
  all_goals exact .refl _ _

/-- An export whose first page fails ends with the fault of that page. -/
theorem pages_of_fault (limits : Export.Limits) (query : Sql.Fetch) (page left : Nat)
    (gathered : List Row) {fault : Fault}
    (h : session.rows server (query.page limits.chunkSize (page * limits.chunkSize))
      = (some (.error fault), session)) :
    let finished :=
      Export.pages (Layer.ask server) limits query page gathered false session (left + 1)
    (finished.result, finished.source) = (some (.error fault), session) := by
  simp only [Export.pages, Bool.false_eq_true, if_false, ending_ask]
  simp only [Layer.ask, h, Option.getD_some]

theorem declines_pages (closed : session.closed = true) (limits : Export.Limits)
    (query : Sql.Fetch) (page left : Nat) (gathered : List Row) (cancelled : Bool)
    (bindable : ∀ statement,
      Sql.select (query.page limits.chunkSize (page * limits.chunkSize)) = .ok statement →
        statement.isBindable = true) :
    session.Declines (some (.error (.connection .closed))) (fun _ => False) fun before =>
      let finished :=
        Export.pages (Layer.ask server) limits query page gathered cancelled before left
      (finished.result, finished.source) := by
  cases left with
  | zero => exact .answered _ not_false rfl rfl
  | succ left =>
    cases cancelled with
    | true => exact .answered _ not_false rfl rfl
    | false =>
      cases made : Sql.select (query.page limits.chunkSize (page * limits.chunkSize)) with
      | error fault =>
        refine .answered (some (.error fault)) not_false
          (pages_of_fault limits query page left gathered ?_)
          (pages_of_fault limits query page left gathered ?_)
        all_goals
          rw [rows, Plan.fetch, made]
          rfl
      | ok statement =>
        refine .refused (pages_of_fault limits query page left gathered ?_) ?_
        · rw [rows, Plan.fetch, made, perform.eq_def]
          simp [send, closed]
          rfl
        · refine Nat.lt_of_lt_of_le ?_ (sends_first_page _ _ _ _ _ _).length_le
          simp [rows, Plan.fetch, made, perform, send, reopened, bindable statement made, Plan.run]

theorem declines_exportCallLogs (closed : session.closed = true) (layer : Layer) (agent : Uuid)
    (rules : List Rule) (cancelled : Bool) :
    session.Declines (.error (.connection .closed)) (fun _ => False) fun before =>
      layer.exportCallLogs server before agent rules cancelled := by
  unfold Layer.exportCallLogs
  split
  · exact .answered _ not_false rfl rfl
  · next query made =>
    unfold Export.all
    split
    · exact .answered _ not_false rfl rfl
    · exact (declines_pages closed layer.settings.exportLimits query 0
        layer.settings.exportLimits.maxPages [] cancelled
        fun _ => Layer.isBindable_of_page made).map
        (fun result => Layer.exportOf <$> result.getD (.error .exportCancelled)) fun _ => .rfl

/-! ### Pagers -/

/-- The state in which a refused call leaves a pager. -/
def refusedState (state : Pager.State) : Pager.State :=
  { state with loading := false, error := some closedReport }

theorem declines_settle (closed : session.closed = true) (pager : Pager) {state : Pager.State}
    {ticket : Pager.Ticket} (current : state.generation = ticket.generation) :
    session.Declines (refusedState state, some (Pager.Outcome.failed closedReport))
      (fun settled => settled.2 = none) fun before =>
        let answered := before.rows server ticket.request
        (settle pager state ticket answered.1, answered.2) := by
  have refused : settle pager state ticket (some (.error (.connection .closed)))
      = (refusedState state, some (.failed closedReport)) := by
    rw [settle, Pager.finish, if_neg (not_not.2 current)]
    rfl
  rw [← refused]
  refine (declines_perform closed (Plan.fetch ticket.request)).map (settle pager state ticket) ?_
  intro answer
  cases answer <;> simp [settle]

theorem declines_reset (closed : session.closed = true) (pager : Pager) (state : Pager.State)
    (query : Sql.Fetch) :
    session.Declines
      (refusedState (pager.reset state query).1, some (Pager.Outcome.failed closedReport))
      (fun settled => settled.2 = none) fun before => before.reset server pager state query :=
  declines_settle closed pager rfl

theorem generation_of_sent {pager : Pager} {state next : Pager.State} {ticket : Pager.Ticket}
    (h : pager.loadMore state = (next, .sent ticket)) : next.generation = ticket.generation := by
  unfold Pager.loadMore at h
  split at h
  · cases h
  · split at h
    · cases h
    · split at h <;> cases h
      rfl

theorem declines_loadMore (closed : session.closed = true) (pager : Pager) (state : Pager.State) :
    session.Declines
      (refusedState (pager.loadMore state).1, some (Pager.Outcome.failed closedReport))
      (fun settled => settled.2 = none) fun before => before.loadMore server pager state := by
  unfold loadMore
  cases started : pager.loadMore state with
  | mk next start =>
    cases start with
    | settled outcome => exact .answered (next, some outcome) (Option.some_ne_none _) rfl rfl
    | sent ticket => exact declines_settle closed pager (generation_of_sent started)

end Session

/-! ### Everything that shares a session -/

namespace Layer

/-- What callers do with a layer, with its clones and with the pagers made from them. -/
inductive Action
  | call (asked : Call)
  | fetchFiltered (name : String) (scope : Scope) (rules : List Rule)
    (orderBy : Option Sql.Ordering)
  | exportCallLogs (agent : Uuid) (rules : List Rule) (cancelled : Bool)
  | makePager (name : String)
  /-- Pagers are numbered in the order in which they were made. -/
  | reset (index : Nat) (query : Sql.Fetch)
  | loadMore (index : Nat)
  | close

inductive Answer
  | called (asked : Call) (response : Response asked.Data)
  | fetched (response : Response (List Row))
  | exported (response : Response CallLogExport)
  | made (result : Except Fault Unit)
  /-- Nothing when there is no such pager. -/
  | paged (outcome : Option Pager.Outcome)
  | closed

/-- The answer says that the connection is closed, and brings no data. -/
inductive Answer.Refused : Answer → Prop
  | called (asked : Call) : Refused (.called asked (.failed Session.closedReport))
  | fetched : Refused (.fetched (.failed Session.closedReport))
  | exported : Refused (.exported (.failed Session.closedReport))
  | paged : Refused (.paged (some (.failed Session.closedReport)))

/-- The pagers made so far, each with its state. -/
abbrev Pagers := List (Pager × Pager.State)

/-- The answer to an action, with the pagers and the session as the action leaves them. An action
that breaks off has no answer. -/
def perform (layer : Layer) (server : Server) (pagers : Pagers) (session : Session) :
    Action → (Option Answer × Pagers) × Session
  | .call asked =>
    let called := asked.perform layer server session
    ((called.1.map (.called asked), pagers), called.2)
  | .fetchFiltered name scope rules orderBy =>
    let fetched := session.respond server (layer.fetchFiltered name scope rules orderBy)
    ((fetched.1.map .fetched, pagers), fetched.2)
  | .exportCallLogs agent rules cancelled =>
    let exported := layer.exportCallLogs server session agent rules cancelled
    ((some (.exported (.ofExcept exported.1)), pagers), exported.2)
  | .makePager name =>
    match layer.pager name with
    | .error fault => ((some (.made (.error fault)), pagers), session)
    | .ok pager => ((some (.made (.ok ())), pagers ++ [(pager, .initial)]), session)
  | .reset index query =>
    match pagers[index]? with
    | none => ((some (.paged none), pagers), session)
    | some entry =>
      let paged := session.reset server entry.1 entry.2 query
      ((paged.1.2.map fun outcome => .paged (some outcome),
        pagers.set index (entry.1, paged.1.1)), paged.2)
  | .loadMore index =>
    match pagers[index]? with
    | none => ((some (.paged none), pagers), session)
    | some entry =>
      let paged := session.loadMore server entry.1 entry.2
      ((paged.1.2.map fun outcome => .paged (some outcome),
        pagers.set index (entry.1, paged.1.1)), paged.2)
  | .close => ((some .closed, pagers), session.close)

variable {session : Session}

/-- A closed session declines whatever is done, unless it is closed once more. -/
theorem declines_action (closed : session.closed = true) (layer : Layer) (server : Server)
    (pagers : Pagers) {action : Action} (other : action ≠ .close) :
    ∃ (refusal : Answer) (pagers' : Pagers), refusal.Refused
      ∧ session.Declines (some refusal, pagers') (fun performed => performed.1 = none)
        fun before => layer.perform server pagers before action := by
  have answered {made : Option Answer × Pagers} (given : made.1 ≠ none) (refusal : Option Answer) :
      session.Declines (refusal, pagers) (fun performed => performed.1 = none)
        fun before => (made, before) := .answered made given rfl rfl
  cases action with
  | call asked =>
    exact ⟨_, pagers, .called asked, (Session.declines_call closed layer asked).map
      (fun response => (response.map (Answer.called asked), pagers))
      fun _ => Option.map_eq_none_iff⟩
  | fetchFiltered name scope rules orderBy =>
    exact ⟨_, pagers, .fetched, (Session.declines_respond closed
      (layer.fetchFiltered name scope rules orderBy)).map
      (fun response => (response.map Answer.fetched, pagers)) fun _ => Option.map_eq_none_iff⟩
  | exportCallLogs agent rules cancelled =>
    refine ⟨_, pagers, .exported,
      (Session.declines_exportCallLogs closed layer agent rules cancelled).map
        (fun result => (some (Answer.exported (.ofExcept result)), pagers)) fun _ => ?_⟩
    simp
  | makePager name =>
    refine ⟨_, pagers, .fetched, ?_⟩
    simp only [perform]
    split
    · exact answered (Option.some_ne_none _) _
    · exact .answered _ (Option.some_ne_none _) rfl rfl
  | reset index query =>
    simp only [perform]
    split
    · exact ⟨_, pagers, .paged, answered (Option.some_ne_none _) _⟩
    · next entry _ =>
      exact ⟨_, _, .paged, (Session.declines_reset closed entry.1 entry.2 query).map
        (fun paged => (paged.2.map fun outcome => Answer.paged (some outcome),
          pagers.set index (entry.1, paged.1))) fun _ => Option.map_eq_none_iff⟩
  | loadMore index =>
    simp only [perform]
    split
    · exact ⟨_, pagers, .paged, answered (Option.some_ne_none _) _⟩
    · next entry _ =>
      exact ⟨_, _, .paged, (Session.declines_loadMore closed entry.1 entry.2).map
        (fun paged => (paged.2.map fun outcome => Answer.paged (some outcome),
          pagers.set index (entry.1, paged.1))) fun _ => Option.map_eq_none_iff⟩
  | close => exact absurd rfl other

/-- A session with the pagers that were made over it. -/
structure World where
  session : Session
  pagers : Pagers

namespace World

/-- The same pagers, and the session open. -/
def reopened (world : World) : World := { world with session := world.session.reopened }

/-- The answer to an action and the world after it. -/
def step (layer : Layer) (server : Server) (world : World) (action : Action) :
    Option Answer × World :=
  let performed := layer.perform server world.pagers world.session action
  (performed.1.1, ⟨performed.2, performed.1.2⟩)

/-- The world after some actions, one after the other. -/
def run (layer : Layer) (server : Server) (world : World) (actions : List Action) : World :=
  actions.foldl (fun world action => (world.step layer server action).2) world

variable {layer : Layer} {server : Server} {world : World}

theorem run_append (before after : List Action) :
    world.run layer server (before ++ after)
      = (world.run layer server before).run layer server after :=
  List.foldl_append

theorem step_close (closed : world.session.closed = true) :
    world.step layer server .close = (some .closed, world) := by
  obtain ⟨⟨sent, flag⟩, pagers⟩ := world
  cases closed
  rfl

/-- One action on a closed session beside the same action on an open one. -/
theorem step_closed (closed : world.session.closed = true) (layer : Layer) (server : Server)
    (action : Action) :
    let here := world.step layer server action
    let there := world.reopened.step layer server action
    here.2.session = world.session
      ∧ (there.2.session.sent = world.session.sent
          ∧ (∃ answer, here.1 = some answer ∧ there.1 = some answer)
          ∧ here.2.pagers = there.2.pagers
        ∨ (world.session.sent.length < there.2.session.sent.length
            ∨ there.2.session.sent = world.session.sent ∧ there.1 = none)
          ∧ ∃ refusal : Answer, refusal.Refused ∧ here.1 = some refusal) := by
  intro here there
  by_cases again : action = .close
  · subst again
    have settled : here = (some .closed, world) := step_close closed
    rw [settled]
    exact ⟨rfl, .inl ⟨rfl, ⟨.closed, rfl, rfl⟩, rfl⟩⟩
  obtain ⟨refusal, pagers, refused, declines⟩ :=
    declines_action closed layer server world.pagers again
  have opened {performed : (Option Answer × Pagers) × Session}
      (same : layer.perform server world.pagers world.session.reopened action = performed) :
      there = (performed.1.1, ⟨performed.2, performed.1.2⟩) := by
    rw [← same]
    rfl
  have settled {performed : (Option Answer × Pagers) × Session}
      (same : layer.perform server world.pagers world.session action = performed) :
      here = (performed.1.1, ⟨performed.2, performed.1.2⟩) := by
    rw [← same]
    rfl
  cases declines with
  | answered answer given same same' =>
    obtain ⟨answer', some⟩ := Option.ne_none_iff_exists'.1 given
    rw [settled same, opened same']
    exact ⟨rfl, .inl ⟨rfl, ⟨answer', some, some⟩, rfl⟩⟩
  | refused same more =>
    rw [settled same]
    exact ⟨rfl, .inr ⟨.inl more, refusal, refused, rfl⟩⟩
  | brokenOff left mute same same' =>
    rw [settled same, opened same']
    exact ⟨rfl, .inr ⟨.inr ⟨rfl, mute⟩, refusal, refused, rfl⟩⟩

theorem run_closed (closed : world.session.closed = true) (actions : List Action) :
    (world.run layer server actions).session = world.session := by
  induction actions generalizing world with
  | nil => rfl
  | cons action rest ih =>
    have kept := (step_closed closed layer server action).1
    exact (ih (by rw [kept]; exact closed)).trans kept

/-- Closing is final. Whatever is done before and after, nothing is sent after a session was closed;
each action is either answered as over an open session, where that sends nothing, or refused, where
that sends something or breaks off; and closing once more succeeds and changes nothing. -/
theorem closing_is_final (layer : Layer) (server : Server) (world : World)
    (before after : List Action) (action : Action) :
    let now := world.run layer server (before ++ .close :: after)
    let here := now.step layer server action
    let there := now.reopened.step layer server action
    now.session = { (world.run layer server before).session with closed := true }
      ∧ here.2.session = now.session
      ∧ (there.2.session.sent = now.session.sent
          ∧ (∃ answer, here.1 = some answer ∧ there.1 = some answer)
          ∧ here.2.pagers = there.2.pagers
        ∨ (now.session.sent.length < there.2.session.sent.length
            ∨ there.2.session.sent = now.session.sent ∧ there.1 = none)
          ∧ ∃ refusal : Answer, refusal.Refused ∧ here.1 = some refusal)
      ∧ now.step layer server .close = (some .closed, now) := by
  intro now here there
  have session : now.session = { (world.run layer server before).session with closed := true } := by
    simp only [now, run_append]
    exact run_closed rfl after
  have closed : now.session.closed = true := by rw [session]
  obtain ⟨kept, answered⟩ := step_closed closed layer server action
  exact ⟨session, kept, answered, step_close closed⟩

end World

end Layer

end ScopedQuery
