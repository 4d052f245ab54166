import ScopedQuery.Proofs.Page.Flight
/-!
# Resets forget

What callers see of a pager from a reset on, at every event that does not belong to an older call,
is what they would see of a new pager. So it does not depend on anything that happened before the
reset, nor on what becomes of the calls that were in flight then: their answers are superseded
whenever they come.

The comparison keeps two counts apart that a run shifts: the numbers of the calls, which go on from
`first`, and the generations, of which `passed` are over.
-/

namespace ScopedQuery.Pager

variable {pager : Pager}

/-! ### Generations that went before -/

def State.onward (passed : Nat) (state : State) : State :=
  { state with generation := passed + state.generation }

def Ticket.onward (passed : Nat) (ticket : Ticket) : Ticket :=
  { ticket with generation := passed + ticket.generation }

def Start.onward (passed : Nat) : Start → Start
  | .sent ticket => .sent (ticket.onward passed)
  | .settled outcome => .settled outcome

theorem reset_onward (passed : Nat) (state : State) (query : Sql.Fetch) :
    pager.reset (state.onward passed) query
      = ((pager.reset state query).1.onward passed, (pager.reset state query).2.onward passed) :=
  rfl

theorem loadMore_onward (passed : Nat) (state : State) :
    pager.loadMore (state.onward passed)
      = ((pager.loadMore state).1.onward passed, (pager.loadMore state).2.onward passed) := by
  by_cases loading : state.loading = true
  · simp [Pager.loadMore, State.onward, Start.onward, loading]
  · by_cases more : state.hasMore = true
    · cases latest : state.query with
      | none => simp [Pager.loadMore, State.onward, Start.onward, loading, latest]
      | some query =>
        simp [Pager.loadMore, State.onward, Start.onward, Ticket.onward, loading, more, latest]
    · simp [Pager.loadMore, State.onward, Start.onward, loading, more]

theorem finish_onward (passed : Nat) (state : State) (ticket : Ticket)
    (answer : Except Fault (List Row)) :
    pager.finish (state.onward passed) (ticket.onward passed) answer
      = ((pager.finish state ticket answer).1.onward passed,
        (pager.finish state ticket answer).2) := by
  by_cases same : state.generation = ticket.generation
  · cases answer with
    | error fault => simp [Pager.finish, State.onward, Ticket.onward, same]
    | ok rows => simp [Pager.finish, State.onward, Ticket.onward, same]
  · simp [Pager.finish, State.onward, Ticket.onward, same]

theorem abandon_onward (passed : Nat) (state : State) (ticket : Ticket) :
    Pager.abandon (state.onward passed) (ticket.onward passed)
      = (Pager.abandon state ticket).onward passed := by
  by_cases same : state.generation = ticket.generation
  · simp [Pager.abandon, State.onward, Ticket.onward, same]
  · simp [Pager.abandon, State.onward, Ticket.onward, same]

/-! Only a reset begins a generation. -/

theorem generation_loadMore (pager : Pager) (state : State) :
    (pager.loadMore state).1.generation = state.generation := by
  simp only [Pager.loadMore]
  repeat' split
  all_goals rfl

theorem generation_finish (pager : Pager) (state : State) (ticket : Ticket)
    (answer : Except Fault (List Row)) :
    (pager.finish state ticket answer).1.generation = state.generation := by
  cases answer <;> simp only [Pager.finish] <;> split <;> rfl

theorem generation_abandon (state : State) (ticket : Ticket) :
    (Pager.abandon state ticket).generation = state.generation := by
  simp only [Pager.abandon]
  split <;> rfl

/-! ### A desk with a past, and one without -/

namespace Desk

variable {desk fresh : Desk} {first passed : Nat}

/-- The desk is where `fresh` is, apart from the calls before `first`, all of which belong to
generations that are over. -/
structure Follows (first passed : Nat) (desk fresh : Desk) : Prop where
  state : desk.state = fresh.state.onward passed
  started : desk.started = first + fresh.started
  calls : ∀ call, desk.ticket? (first + call) = (fresh.ticket? call).map (Ticket.onward passed)
  older : ∀ call ticket, call < first → desk.ticket? call = some ticket →
    ticket.generation ≤ passed
  begun : 0 < fresh.state.generation

theorem Follows.not_live (follows : Follows first passed desk fresh) {call : Nat}
    (old : call < first) : ¬desk.Live call := by
  intro live
  obtain ⟨ticket, held, current⟩ := live
  have before := follows.older call ticket old held
  have now : desk.state.generation = passed + fresh.state.generation := by
    rw [follows.state]
    rfl
  have begun := follows.begun
  omega

theorem Follows.without_old (follows : Follows first passed desk fresh) {call : Nat}
    (old : call < first) : Follows first passed { desk with calls := desk.without call } fresh := by
  refine { follows with calls := ?_, older := ?_ }
  · intro other
    have different : first + other ≠ call := by omega
    rw [ticket?_without, if_neg different]
    exact follows.calls other
  · intro other ticket before held
    exact follows.older other ticket before (of_ticket?_without held).2

theorem Follows.without (follows : Follows first passed desk fresh) {state : State}
    (begun : 0 < state.generation) (call : Nat) :
    Follows first passed ⟨state.onward passed, desk.without (first + call), desk.started⟩
      ⟨state, fresh.without call, fresh.started⟩ := by
  refine ⟨rfl, follows.started, ?_, ?_, begun⟩
  · intro other
    rw [ticket?_without, ticket?_without]
    by_cases same : other = call
    · simp [same]
    · have different : first + other ≠ first + call := by omega
      rw [if_neg different, if_neg same]
      exact follows.calls other
  · intro other ticket before held
    exact follows.older other ticket before (of_ticket?_without held).2

theorem Follows.append (follows : Follows first passed desk fresh) (sound : desk.Sound)
    (sound' : fresh.Sound) {state : State} (begun : 0 < state.generation) (ticket : Ticket) :
    Follows first passed
      ⟨state.onward passed, desk.calls ++ [(desk.started, ticket.onward passed)], desk.started + 1⟩
      ⟨state, fresh.calls ++ [(fresh.started, ticket)], fresh.started + 1⟩ := by
  have started := follows.started
  refine ⟨rfl, by simp only [started, Nat.add_assoc], ?_, ?_, begun⟩
  · intro call
    rw [ticket?_append sound.fresh, ticket?_append sound'.fresh]
    by_cases same : call = fresh.started
    · have same' : first + call = desk.started := by omega
      rw [if_pos same', if_pos same]
      rfl
    · have different : first + call ≠ desk.started := by omega
      rw [if_neg different, if_neg same]
      exact follows.calls call
  · intro call held before given
    rw [ticket?_append sound.fresh] at given
    have different : call ≠ desk.started := by omega
    rw [if_neg different] at given
    exact follows.older call held before given

/-- A reset makes any desk follow a new one. -/
theorem follows_reset (pager : Pager) (sound : desk.Sound) (query : Sql.Fetch) :
    Follows desk.started desk.state.generation (desk.step pager (.reset query))
      (initial.step pager (.reset query)) := by
  have empty : initial.ticket? initial.started = none := rfl
  rw [step_reset, step_reset]
  refine ⟨rfl, rfl, ?_, ?_, Nat.zero_lt_one⟩
  · intro call
    rw [ticket?_append sound.fresh, ticket?_append empty]
    by_cases same : call = initial.started
    · have start : desk.started + call = desk.started := by
        rw [same]
        exact Nat.add_zero _
      rw [if_pos start, if_pos same]
      rfl
    · have positive : call ≠ 0 := same
      have different : desk.started + call ≠ desk.started := by omega
      rw [if_neg different, if_neg same]
      cases held : desk.ticket? (desk.started + call) with
      | none => rfl
      | some ticket =>
        have before := sound.numbers _ ticket held
        omega
  · intro call ticket before held
    rw [ticket?_append sound.fresh, if_neg (by omega)] at held
    exact sound.generations call ticket held

end Desk

/-! ### One event -/

/-- The event in the numbers of a pager that has started `first` calls before. -/
def Event.onward (first : Nat) : Event → Event
  | .finish call answer => .finish (first + call) answer
  | .abandon call => .abandon (first + call)
  | event => event

/-- The event in the numbers of a pager whose first call is this one, or nothing when it belongs to
an earlier call. -/
def Event.since? (first : Nat) : Event → Option Event
  | .reset query => some (.reset query)
  | .loadMore => some .loadMore
  | .finish call answer => if first ≤ call then some (.finish (call - first) answer) else none
  | .abandon call => if first ≤ call then some (.abandon (call - first)) else none

theorem Event.since?_zero (event : Event) : event.since? 0 = some event := by
  cases event <;> simp [since?]

theorem Event.eq_onward_of_since? {first : Nat} {event event' : Event}
    (seen : event.since? first = some event') : event = event'.onward first := by
  cases event with
  | reset query =>
    cases seen
    rfl
  | loadMore =>
    cases seen
    rfl
  | finish call answer =>
    obtain ⟨later, shifted⟩ := Option.ite_none_right_eq_some.1 seen
    cases shifted
    simp [onward, Nat.add_sub_cancel' later]
  | abandon call =>
    obtain ⟨later, shifted⟩ := Option.ite_none_right_eq_some.1 seen
    cases shifted
    simp [onward, Nat.add_sub_cancel' later]

namespace Desk

variable {desk fresh : Desk} {first passed : Nat} {event : Event}

/-- What becomes of an older call is not noticed. -/
theorem Follows.step_old (follows : Follows first passed desk fresh)
    (old : event.since? first = none) :
    (desk.step pager event).state = desk.state
      ∧ Follows first passed (desk.step pager event) fresh := by
  cases event with
  | reset query => cases old
  | loadMore => cases old
  | finish call answer =>
    have before : call < first := by simpa [Event.since?] using old
    rw [step_finish_of_not_live (follows.not_live before)]
    exact ⟨rfl, follows.without_old before⟩
  | abandon call =>
    have before : call < first := by simpa [Event.since?] using old
    rw [step_abandon_of_not_live (follows.not_live before)]
    exact ⟨rfl, follows.without_old before⟩

theorem Follows.finish (pager : Pager) (follows : Follows first passed desk fresh) (call : Nat)
    (answer : Except Fault (List Row)) :
    Follows first passed (desk.finish pager (first + call) answer).1
        (fresh.finish pager call answer).1
      ∧ (desk.finish pager (first + call) answer).2 = (fresh.finish pager call answer).2 := by
  have calls := follows.calls call
  cases held : fresh.ticket? call with
  | none =>
    rw [held] at calls
    simp only [Desk.finish, held, calls, Option.map_none, and_true]
    exact follows
  | some ticket =>
    rw [held] at calls
    have begun : 0 < (pager.finish fresh.state ticket answer).1.generation := by
      rw [generation_finish]
      exact follows.begun
    simp only [Desk.finish, held, calls, Option.map_some, follows.state, finish_onward, and_true]
    exact follows.without begun call

theorem Follows.abandon (follows : Follows first passed desk fresh) (call : Nat) :
    Follows first passed (desk.abandon (first + call)) (fresh.abandon call) := by
  have calls := follows.calls call
  cases held : fresh.ticket? call with
  | none =>
    rw [held] at calls
    simp only [Desk.abandon, held, calls, Option.map_none]
    exact follows
  | some ticket =>
    rw [held] at calls
    have begun : 0 < (Pager.abandon fresh.state ticket).generation := by
      rw [generation_abandon]
      exact follows.begun
    simp only [Desk.abandon, held, calls, Option.map_some, follows.state, abandon_onward]
    exact follows.without begun call

theorem Follows.reset (pager : Pager) (follows : Follows first passed desk fresh)
    (sound : desk.Sound) (sound' : fresh.Sound) (query : Sql.Fetch) :
    Follows first passed (desk.step pager (.reset query)) (fresh.step pager (.reset query)) := by
  have step : desk.step pager (.reset query)
      = ⟨(pager.reset fresh.state query).1.onward passed,
        desk.calls ++ [(desk.started, (pager.reset fresh.state query).2.onward passed)],
        desk.started + 1⟩ := by
    simp only [Desk.step, Desk.reset, follows.state, reset_onward]
  rw [step]
  exact follows.append sound sound' (Nat.succ_pos _) _

theorem Follows.loadMore (pager : Pager) (follows : Follows first passed desk fresh)
    (sound : desk.Sound) (sound' : fresh.Sound) :
    Follows first passed (desk.loadMore pager).1 (fresh.loadMore pager).1
      ∧ (desk.loadMore pager).2 = (fresh.loadMore pager).2.onward passed := by
  have begun : 0 < (pager.loadMore fresh.state).1.generation := by
    rw [generation_loadMore]
    exact follows.begun
  rcases started : pager.loadMore fresh.state with ⟨state, start⟩
  rw [started] at begun
  simp only [Desk.loadMore, follows.state, loadMore_onward, started]
  cases start with
  | sent ticket => exact ⟨follows.append sound sound' begun ticket, rfl⟩
  | settled outcome => exact ⟨{ follows with state := rfl, begun }, rfl⟩

/-- What callers see of an event: the request it sends, the outcome it brings, and the state it
leaves. -/
structure Sight where
  request : Option Sql.Fetch
  outcome : Option Outcome
  snapshot : Snapshot

def sight (pager : Pager) (desk : Desk) (event : Event) : Sight :=
  ⟨desk.request? pager event, desk.outcome? pager event, (desk.step pager event).state.snapshot⟩

/-- What is seen of the events, apart from those of calls before `first`. -/
def sights (pager : Pager) (first : Nat) : Desk → List Event → List Sight
  | _, [] => []
  | desk, event :: rest =>
    match event.since? first with
    | none => sights pager first (desk.step pager event) rest
    | some _ => desk.sight pager event :: sights pager first (desk.step pager event) rest

theorem Follows.step (pager : Pager) (follows : Follows first passed desk fresh)
    (sound : desk.Sound) (sound' : fresh.Sound) (event : Event) :
    Follows first passed (desk.step pager (event.onward first)) (fresh.step pager event)
      ∧ desk.sight pager (event.onward first) = fresh.sight pager event := by
  have shown : ∀ {desk' fresh' : Desk}, Follows first passed desk' fresh' →
      desk'.state.snapshot = fresh'.state.snapshot := by
    intro desk' fresh' follows'
    rw [follows'.state]
    rfl
  cases event with
  | reset query =>
    have next := follows.reset pager sound sound' query
    refine ⟨next, ?_⟩
    simp only [sight, Event.onward, shown next]
    rfl
  | loadMore =>
    obtain ⟨next, start⟩ := follows.loadMore pager sound sound'
    refine ⟨next, ?_⟩
    have snapshot : (desk.step pager .loadMore).state.snapshot
        = (fresh.step pager .loadMore).state.snapshot := shown next
    simp only [sight, Event.onward, snapshot, request?, outcome?, start]
    cases (fresh.loadMore pager).2 <;> rfl
  | finish call answer =>
    obtain ⟨next, outcome⟩ := follows.finish pager call answer
    refine ⟨next, ?_⟩
    have snapshot : (desk.step pager (.finish (first + call) answer)).state.snapshot
        = (fresh.step pager (.finish call answer)).state.snapshot := shown next
    simp only [sight, Event.onward, snapshot, request?, outcome?, outcome]
  | abandon call =>
    have next := follows.abandon call
    refine ⟨next, ?_⟩
    have snapshot : (desk.step pager (.abandon (first + call))).state.snapshot
        = (fresh.step pager (.abandon call)).state.snapshot := shown next
    simp only [sight, Event.onward, snapshot, request?, outcome?]

/-! ### Runs -/

theorem Follows.run (pager : Pager) (follows : Follows first passed desk fresh)
    (sound : desk.Sound) (sound' : fresh.Sound) (events : List Event) :
    Follows first passed (events.foldl (Desk.step pager) desk)
        ((events.filterMap (Event.since? first)).foldl (Desk.step pager) fresh)
      ∧ desk.sights pager first events
        = fresh.sights pager 0 (events.filterMap (Event.since? first)) := by
  induction events generalizing desk fresh with
  | nil => exact ⟨follows, rfl⟩
  | cons event rest ih =>
    cases seen : event.since? first with
    | none =>
      rw [List.filterMap_cons_none seen, List.foldl_cons, sights, seen]
      exact ih (follows.step_old seen).2 (sound.step event) sound'
    | some event' =>
      obtain ⟨next, same⟩ := follows.step pager sound sound' event'
      rw [← Event.eq_onward_of_since? seen] at next same
      obtain ⟨last, others⟩ := ih next (sound.step event) (sound'.step event')
      rw [List.filterMap_cons_some seen, List.foldl_cons, List.foldl_cons, sights, sights, seen,
        event'.since?_zero]
      exact ⟨last, by rw [same, others]⟩

/-- From a reset on a pager shows what a new one shows. -/
theorem sights_reset (pager : Pager) (sound : desk.Sound) (query : Sql.Fetch)
    (later : List Event) :
    desk.sights pager desk.started (.reset query :: later)
      = initial.sights pager 0 (.reset query :: later.filterMap (Event.since? desk.started)) := by
  have next := follows_reset pager sound query
  have onward := (next.run pager (sound.step _) (sound_initial.step _) later).2
  have same : desk.sight pager (.reset query) = initial.sight pager (.reset query) := by
    have shown : (desk.step pager (.reset query)).state.snapshot
        = (initial.step pager (.reset query)).state.snapshot := rfl
    simp only [sight, shown]
    rfl
  change desk.sight pager (.reset query) :: _ = initial.sight pager (.reset query) :: _
  rw [same, onward]

end Desk

/-- A reset erases history. Let two pagers with any pasts be reset with one query and meet the same
events from then on, each mixed with the ends of its own older calls. Then every request, every
outcome and every snapshot at these events is the same in both. An older call that comes back at
any point is superseded and changes nothing, and neither does one that is dropped. -/
theorem sights_after_reset (pager : Pager) (past past' : List Event) (query : Sql.Fetch)
    (later later' : List Event)
    (same : later.filterMap (Event.since? (Desk.run pager past).started)
      = later'.filterMap (Event.since? (Desk.run pager past').started)) :
    let desk := Desk.run pager past
    let desk' := Desk.run pager past'
    desk.sights pager desk.started (.reset query :: later)
        = desk'.sights pager desk'.started (.reset query :: later')
      ∧ ∀ before, before <+: later → ∀ call < desk.started,
        let now := before.foldl (Desk.step pager) (desk.step pager (.reset query))
        (now.ticket? call).isSome →
          (∀ answer, now.outcome? pager (.finish call answer) = some .superseded
            ∧ (now.step pager (.finish call answer)).state = now.state)
          ∧ (now.step pager (.abandon call)).state = now.state := by
  intro desk desk'
  have sound : desk.Sound := Desk.sound_run pager past
  have sound' : desk'.Sound := Desk.sound_run pager past'
  constructor
  · rw [Desk.sights_reset pager sound, Desk.sights_reset pager sound', same]
  · intro before _ call old now held
    have reset := Desk.follows_reset pager sound query
    have follows := (reset.run pager (sound.step _) (Desk.sound_initial.step _) before).1
    have idle : ¬now.Live call := follows.not_live old
    obtain ⟨ticket, held⟩ := Option.isSome_iff_exists.1 held
    refine ⟨fun answer => ⟨Desk.outcome?_of_not_live pager held idle answer, ?_⟩, ?_⟩
    · rw [Desk.step_finish_of_not_live idle]
    · rw [Desk.step_abandon_of_not_live idle]

/-- The page of an older reset comes between a reset and its page. -/
theorem sights_after_reset_of_late_page :
    let pager : Pager := ⟨1, "id", by decide⟩
    let row : Row := .ofList [("id", .string "a")]
    let query := Sql.Fetch.ofTable "calls" "*"
    let old := Desk.run pager [.reset (Sql.Fetch.ofTable "agents" "*")]
    let late := old.sights pager 1
      [.reset query, .finish 0 (.ok [row]), .finish 1 (.ok [row]), .loadMore, .abandon 2]
    late = Desk.initial.sights pager 0 [.reset query, .finish 0 (.ok [row]), .loadMore, .abandon 1]
      ∧ (old.step pager (.reset query)).outcome? pager (.finish 0 (.ok [row]))
        = some .superseded := by
  intro pager row query old late
  obtain ⟨same, ignored⟩ := sights_after_reset pager [.reset (Sql.Fetch.ofTable "agents" "*")] []
    query [.finish 0 (.ok [row]), .finish 1 (.ok [row]), .loadMore, .abandon 2]
    [.finish 0 (.ok [row]), .loadMore, .abandon 1] rfl
  obtain ⟨superseded, -⟩ := ignored [] List.nil_prefix 0 (by decide) rfl
  exact ⟨same, (superseded _).1⟩

end ScopedQuery.Pager
