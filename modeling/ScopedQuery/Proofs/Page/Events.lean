import Mathlib.Data.List.Induction
import ScopedQuery.Page.Desk
/-!
# Events at a desk

What may happen to a pager with calls under way, in any order: a reset, a request for more, the
answer of a call, or its loss. One lemma for each kind of event says what the event does, and
`Sound` is what every run keeps of the calls: at most one of them counts, and the pager is loading
exactly while there is one.
-/

namespace ScopedQuery.Pager

inductive Event
  | reset (query : Sql.Fetch)
  | loadMore
  /-- The answer of a call comes. -/
  | finish (call : Nat) (answer : Except Fault (List Row))
  /-- A call is given up and will never be answered. -/
  | abandon (call : Nat)

namespace Desk

variable {pager : Pager} {desk : Desk} {call : Nat}

def step (pager : Pager) (desk : Desk) : Event → Desk
  | .reset query => (desk.reset pager query).1
  | .loadMore => (desk.loadMore pager).1
  | .finish call answer => (desk.finish pager call answer).1
  | .abandon call => desk.abandon call

/-- The request that an event sends. -/
def request? (pager : Pager) (desk : Desk) : Event → Option Sql.Fetch
  | .reset query => some (desk.reset pager query).2.request
  | .loadMore =>
    match (desk.loadMore pager).2 with
    | .sent ticket => some ticket.request
    | .settled _ => none
  | .finish .. | .abandon _ => none

def run (pager : Pager) (events : List Event) : Desk := events.foldl (step pager) initial

theorem run_concat (events : List Event) (event : Event) :
    run pager (events ++ [event]) = (run pager events).step pager event := by
  simp [run]

/-- The call is under way and belongs to the latest reset. -/
def Live (desk : Desk) (call : Nat) : Prop :=
  ∃ ticket, desk.ticket? call = some ticket ∧ ticket.generation = desk.state.generation

/-! ### What an event does -/

theorem step_reset (query : Sql.Fetch) :
    desk.step pager (.reset query)
      = ⟨(pager.reset desk.state query).1,
        desk.calls ++ [(desk.started, ⟨desk.state.generation + 1, query.page pager.pageSize 0⟩)],
        desk.started + 1⟩ := rfl

/-- More is asked for when the last page was full and no call counts. -/
theorem loadMore_cases (pager : Pager) (desk : Desk) :
    (∃ query, desk.state.loading = false ∧ desk.state.hasMore = true
      ∧ desk.state.query = some query
      ∧ desk.request? pager .loadMore = some (query.page pager.pageSize desk.state.offset)
      ∧ desk.step pager .loadMore
        = ⟨{ desk.state with loading := true },
          desk.calls ++ [(desk.started,
            ⟨desk.state.generation, query.page pager.pageSize desk.state.offset⟩)],
          desk.started + 1⟩)
    ∨ ((desk.state.loading = true ∨ desk.state.hasMore = false ∨ desk.state.query = none)
      ∧ desk.request? pager .loadMore = none ∧ desk.step pager .loadMore = desk) := by
  by_cases loading : desk.state.loading = true
  · right
    have start : pager.loadMore desk.state = (desk.state, .settled .skipped) := by
      simp [Pager.loadMore, loading]
    exact ⟨.inl loading, by simp [request?, loadMore, start], by simp [step, loadMore, start]⟩
  · by_cases more : desk.state.hasMore = true
    · cases latest : desk.state.query with
      | none =>
        right
        have start : pager.loadMore desk.state = (desk.state, .settled .exhausted) := by
          simp [Pager.loadMore, loading, latest]
        exact ⟨by simp, by simp [request?, loadMore, start], by simp [step, loadMore, start]⟩
      | some query =>
        left
        have start : pager.loadMore desk.state = ({ desk.state with loading := true },
            .sent ⟨desk.state.generation, query.page pager.pageSize desk.state.offset⟩) := by
          simp [Pager.loadMore, *]
        exact ⟨query, by simpa using loading, more, rfl, by simp [request?, loadMore, start],
          by simp [step, loadMore, start]⟩
    · right
      have start : pager.loadMore desk.state = (desk.state, .settled .exhausted) := by
        simp [Pager.loadMore, loading, more]
      exact ⟨by simp [more], by simp [request?, loadMore, start], by simp [step, loadMore, start]⟩

theorem without_of_ticket?_eq_none (h : desk.ticket? call = none) :
    desk.without call = desk.calls := by
  simp only [ticket?, Option.map_eq_none_iff, List.find?_eq_none] at h
  simpa [without, List.filter_eq_self] using h

/-- The answer of a call that does not count is dropped. -/
theorem step_finish_of_not_live (h : ¬desk.Live call) (answer : Except Fault (List Row)) :
    desk.step pager (.finish call answer) = { desk with calls := desk.without call } := by
  simp only [step, finish]
  cases ticket : desk.ticket? call with
  | none =>
    dsimp only
    rw [without_of_ticket?_eq_none ticket]
  | some held =>
    have other : desk.state.generation ≠ held.generation :=
      fun same => h ⟨held, ticket, same.symm⟩
    simp [Pager.finish, other]

theorem step_finish_error (h : desk.Live call) (fault : Fault) :
    desk.step pager (.finish call (.error fault))
      = ⟨{ desk.state with loading := false, error := some fault.report }, desk.without call,
        desk.started⟩ := by
  obtain ⟨ticket, held, current⟩ := h
  simp [step, finish, held, Pager.finish, current]

theorem step_finish_ok (h : desk.Live call) (rows : List Row) :
    desk.step pager (.finish call (.ok rows))
      = ⟨{ desk.state with
          rows := desk.state.rows ++ (pager.fresh desk.state.seen rows).1
          seen := (pager.fresh desk.state.seen rows).2
          offset := desk.state.offset + rows.length
          hasMore := rows.length = pager.pageSize, loading := false, error := none },
        desk.without call, desk.started⟩ := by
  obtain ⟨ticket, held, current⟩ := h
  simp [step, finish, held, Pager.finish, current]

theorem step_abandon_of_not_live (h : ¬desk.Live call) :
    desk.step pager (.abandon call) = { desk with calls := desk.without call } := by
  simp only [step, abandon]
  cases ticket : desk.ticket? call with
  | none =>
    dsimp only
    rw [without_of_ticket?_eq_none ticket]
  | some held =>
    have other : desk.state.generation ≠ held.generation :=
      fun same => h ⟨held, ticket, same.symm⟩
    simp [Pager.abandon, other]

theorem step_abandon_of_live (h : desk.Live call) :
    desk.step pager (.abandon call)
      = ⟨{ desk.state with loading := false }, desk.without call, desk.started⟩ := by
  obtain ⟨ticket, held, current⟩ := h
  simp [step, abandon, held, Pager.abandon, current]

/-! ### Calls under way -/

/-- A call is started under a number that is not in use. -/
theorem ticket?_append (fresh : desk.ticket? desk.started = none) (state : State)
    (ticket : Ticket) (started : Nat) :
    (⟨state, desk.calls ++ [(desk.started, ticket)], started⟩ : Desk).ticket? call
      = if call = desk.started then some ticket else desk.ticket? call := by
  simp only [ticket?, List.find?_append, Option.map_or] at fresh ⊢
  by_cases same : call = desk.started
  · rw [if_pos same, same, fresh]
    simp
  · have other : desk.started ≠ call := fun equal => same equal.symm
    simp [same, other]

theorem ticket?_without (state : State) (started other : Nat) :
    (⟨state, desk.without call, started⟩ : Desk).ticket? other
      = if other = call then none else desk.ticket? other := by
  simp only [ticket?, without, List.find?_filter]
  by_cases same : other = call
  · rw [if_pos same, Option.map_eq_none_iff, List.find?_eq_none]
    simp [same]
  · rw [if_neg same]
    congr 2
    funext entry
    by_cases here : entry.1 = other
    · simp [here, same]
    · simp [here]

theorem of_ticket?_without {state : State} {started other : Nat} {ticket : Ticket}
    (held : (⟨state, desk.without call, started⟩ : Desk).ticket? other = some ticket) :
    other ≠ call ∧ desk.ticket? other = some ticket := by
  rw [ticket?_without] at held
  split at held
  · cases held
  · next different => exact ⟨different, held⟩

/-- What every run keeps of the calls under way. -/
structure Sound (desk : Desk) : Prop where
  numbers : ∀ call ticket, desk.ticket? call = some ticket → call < desk.started
  generations : ∀ call ticket, desk.ticket? call = some ticket →
    ticket.generation ≤ desk.state.generation
  loading : desk.state.loading = true ↔ ∃ call, desk.Live call
  single : ∀ call call', desk.Live call → desk.Live call' → call = call'

theorem Sound.fresh (sound : desk.Sound) : desk.ticket? desk.started = none := by
  cases ticket : desk.ticket? desk.started with
  | none => rfl
  | some held => exact absurd (sound.numbers _ _ ticket) (Nat.lt_irrefl _)

theorem sound_initial : initial.Sound where
  numbers := by simp [initial, ticket?]
  generations := by simp [initial, ticket?]
  loading := by simp [initial, State.initial, Live, ticket?]
  single := by simp [initial, Live, ticket?]

/-- A call that is started while none counts is the only one that counts. -/
theorem Sound.start (sound : desk.Sound) {state : State} {ticket : Ticket}
    (loading : state.loading = true) (current : ticket.generation = state.generation)
    (later : desk.state.generation ≤ state.generation)
    (none : ∀ call held, desk.ticket? call = some held → held.generation ≠ state.generation) :
    (⟨state, desk.calls ++ [(desk.started, ticket)], desk.started + 1⟩ : Desk).Sound := by
  have live : ∀ call,
      (⟨state, desk.calls ++ [(desk.started, ticket)], desk.started + 1⟩ : Desk).Live call
        ↔ call = desk.started := by
    intro call
    simp only [Live, ticket?_append sound.fresh]
    by_cases same : call = desk.started
    · simp [same, current]
    · simp only [same, if_false, iff_false, not_exists, not_and]
      exact none call
  refine ⟨?_, ?_, ?_, ?_⟩
  · intro call held given
    rw [ticket?_append sound.fresh] at given
    split at given
    · next same =>
      dsimp only
      omega
    · have := sound.numbers call held given
      dsimp only
      omega
  · intro call held given
    rw [ticket?_append sound.fresh] at given
    split at given
    · cases given
      exact Nat.le_of_eq current
    · exact Nat.le_trans (sound.generations call held given) later
  · simp [live, loading]
  · intro call call' hcall hcall'
    rw [(live call).1 hcall, (live call').1 hcall']

/-- A call that ends leaves no call that counts, if it counted. -/
theorem Sound.stop (sound : desk.Sound) (h : desk.Live call) {state : State}
    (loading : state.loading = false) (generation : state.generation = desk.state.generation) :
    (⟨state, desk.without call, desk.started⟩ : Desk).Sound := by
  have live : ∀ other, ¬(⟨state, desk.without call, desk.started⟩ : Desk).Live other := by
    intro other hother
    obtain ⟨ticket, held, current⟩ := hother
    obtain ⟨different, held⟩ := of_ticket?_without held
    exact different (sound.single other call ⟨ticket, held, current.trans generation⟩ h)
  refine ⟨?_, ?_, ?_, ?_⟩
  · intro other ticket held
    exact sound.numbers other ticket (of_ticket?_without held).2
  · intro other ticket held
    rw [generation]
    exact sound.generations other ticket (of_ticket?_without held).2
  · simp [live, loading]
  · exact fun other _ hother => absurd hother (live other)

theorem Sound.without (sound : desk.Sound) (h : ¬desk.Live call) :
    ({ desk with calls := desk.without call } : Desk).Sound := by
  have live : ∀ other, ({ desk with calls := desk.without call } : Desk).Live other
      ↔ desk.Live other := by
    intro other
    simp only [Live, ticket?_without]
    by_cases same : other = call
    · subst same
      simpa [Live] using h
    · simp [same]
  refine ⟨?_, ?_, ?_, ?_⟩
  · intro other ticket held
    exact sound.numbers other ticket (of_ticket?_without held).2
  · intro other ticket held
    exact sound.generations other ticket (of_ticket?_without held).2
  · simp only [live]
    exact sound.loading
  · intro other other' hother hother'
    exact sound.single other other' ((live other).1 hother) ((live other').1 hother')

theorem Sound.step (sound : desk.Sound) (event : Event) : (desk.step pager event).Sound := by
  cases event with
  | reset query =>
    rw [step_reset]
    refine sound.start rfl rfl (Nat.le_succ _) fun call held given => ?_
    have := sound.generations call held given
    dsimp only [Pager.reset]
    omega
  | loadMore =>
    rcases loadMore_cases pager desk with ⟨query, loading, -, -, -, step⟩ | ⟨-, -, step⟩
    · rw [step]
      refine sound.start rfl rfl (Nat.le_refl _) fun call held given current => ?_
      have := sound.loading.2 ⟨call, held, given, current⟩
      simp [loading] at this
    · rw [step]
      exact sound
  | finish call answer =>
    by_cases live : desk.Live call
    · cases answer with
      | error fault =>
        rw [step_finish_error live]
        exact sound.stop live rfl rfl
      | ok rows =>
        rw [step_finish_ok live]
        exact sound.stop live rfl rfl
    · rw [step_finish_of_not_live live]
      exact sound.without live
  | abandon call =>
    by_cases live : desk.Live call
    · rw [step_abandon_of_live live]
      exact sound.stop live rfl rfl
    · rw [step_abandon_of_not_live live]
      exact sound.without live

theorem sound_run (pager : Pager) (events : List Event) : (run pager events).Sound := by
  induction events using List.reverseRecOn with
  | nil => exact sound_initial
  | append_singleton events event ih =>
    rw [run_concat]
    exact ih.step event

/-! ### Requests -/

/-- The query of the latest reset. -/
def latestQuery : List Event → Option Sql.Fetch
  | [] => none
  | .reset query :: rest => (latestQuery rest).or (some query)
  | _ :: rest => latestQuery rest

theorem latestQuery_concat (events : List Event) (event : Event) :
    latestQuery (events ++ [event])
      = match event with
        | .reset query => some query
        | _ => latestQuery events := by
  induction events with
  | nil => cases event <;> rfl
  | cons first rest ih =>
    cases first <;> cases event <;> simp_all [latestQuery]

/-- Only a reset changes the query. -/
theorem query_step (desk : Desk) (event : Event) :
    (desk.step pager event).state.query
      = match event with
        | .reset query => some query
        | _ => desk.state.query := by
  cases event with
  | reset query => rfl
  | loadMore =>
    rcases loadMore_cases pager desk with ⟨_, -, -, -, -, step⟩ | ⟨-, -, step⟩ <;> rw [step]
  | finish call answer =>
    by_cases live : desk.Live call
    · cases answer with
      | error fault => rw [step_finish_error live]
      | ok rows => rw [step_finish_ok live]
    · rw [step_finish_of_not_live live]
  | abandon call =>
    by_cases live : desk.Live call
    · rw [step_abandon_of_live live]
    · rw [step_abandon_of_not_live live]

theorem query_run (pager : Pager) (events : List Event) :
    (run pager events).state.query = latestQuery events := by
  induction events using List.reverseRecOn with
  | nil => rfl
  | append_singleton events event ih => rw [run_concat, latestQuery_concat, query_step, ih]

/-- A request is a page of the latest query. -/
theorem request?_eq {events : List Event} {event : Event} {request : Sql.Fetch}
    (h : (run pager events).request? pager event = some request) :
    ∃ query offset, latestQuery (events ++ [event]) = some query
      ∧ request = query.page pager.pageSize offset := by
  rw [latestQuery_concat]
  cases event with
  | reset query =>
    cases h
    exact ⟨query, 0, rfl, rfl⟩
  | loadMore =>
    rcases loadMore_cases pager (run pager events) with
      ⟨query, -, -, latest, sent, -⟩ | ⟨-, sent, -⟩
    · rw [sent] at h
      cases h
      exact ⟨query, _, (query_run pager events).symm.trans latest, rfl⟩
    · rw [sent] at h
      cases h
  | finish call answer => cases h
  | abandon call => cases h

end Desk

end ScopedQuery.Pager
