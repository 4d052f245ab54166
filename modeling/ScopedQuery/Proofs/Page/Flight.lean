import Mathlib.Data.List.Basic
import ScopedQuery.Proofs.Page.Accumulation
/-!
# Calls in flight

Which calls of the latest reset are in flight is told by the account of a run and not by the pager:
a call is one of them when it was started by that reset or later and has not come back. There is at
most one, the pager is loading exactly while there is one, and its request is the page behind the
pages that came before it, all of which were full.
-/

namespace ScopedQuery.Pager

variable {pager : Pager} {desk : Desk} {account : Account} {call : Nat}

/-! ### What a call is told -/

/-- The outcome that an event brings to its call. A call that is still in flight has none. -/
def Desk.outcome? (pager : Pager) (desk : Desk) : Event → Option Outcome
  | .reset _ => none
  | .loadMore =>
    match (desk.loadMore pager).2 with
    | .sent _ => none
    | .settled outcome => some outcome
  | .finish call answer => (desk.finish pager call answer).2
  | .abandon _ => none

theorem Desk.loadMore_eq_of_loading (pager : Pager) (loading : desk.state.loading = true) :
    desk.loadMore pager = (desk, .settled .skipped) := by
  simp [Desk.loadMore, Pager.loadMore, loading]

theorem Desk.loadMore_eq_of_exhausted (pager : Pager) (loading : desk.state.loading = false)
    (exhausted : desk.state.hasMore = false) :
    desk.loadMore pager = (desk, .settled .exhausted) := by
  simp [Desk.loadMore, Pager.loadMore, loading, exhausted]

/-- The answer of a call from before the latest reset. -/
theorem Desk.outcome?_of_not_live (pager : Pager) {ticket : Ticket}
    (held : desk.ticket? call = some ticket) (old : ¬desk.Live call)
    (answer : Except Fault (List Row)) :
    desk.outcome? pager (.finish call answer) = some .superseded := by
  have other : desk.state.generation ≠ ticket.generation :=
    fun same => old ⟨ticket, held, same.symm⟩
  simp [outcome?, finish, held, Pager.finish, other]

theorem Desk.started_le_step (pager : Pager) (desk : Desk) (event : Event) :
    desk.started ≤ (desk.step pager event).started := by
  cases event with
  | reset query => exact Nat.le_succ _
  | loadMore =>
    rcases loadMore_cases pager desk with ⟨_, -, -, -, -, step⟩ | ⟨-, -, step⟩
    · rw [step]
      exact Nat.le_succ _
    · rw [step]
  | finish call answer =>
    simp only [step, finish]
    split <;> exact Nat.le_refl _
  | abandon call =>
    simp only [step, abandon]
    split <;> exact Nat.le_refl _

/-- The event ends the call, with an answer or without. -/
inductive Event.Ends (call : Nat) : Event → Prop
  | finish (answer : Except Fault (List Row)) : Ends call (.finish call answer)
  | abandon : Ends call (.abandon call)

theorem Desk.calls_of_ends (pager : Pager) (desk : Desk) {event : Event}
    (ends : event.Ends call) : (desk.step pager event).calls = desk.without call := by
  cases ends with
  | finish answer =>
    simp only [step, finish]
    split
    · next absent => exact (without_of_ticket?_eq_none absent).symm
    · rfl
  | abandon =>
    simp only [step, abandon]
    split
    · next absent => exact (without_of_ticket?_eq_none absent).symm
    · rfl

theorem Desk.ticket?_of_ends {event : Event} {other : Nat} (ends : event.Ends other)
    {ticket : Ticket} (held : (desk.step pager event).ticket? call = some ticket) :
    desk.ticket? call = some ticket := by
  have calls := calls_of_ends pager desk ends
  have same : (desk.step pager event).ticket? call
      = (⟨desk.state, desk.without other, desk.started⟩ : Desk).ticket? call := by
    simp only [ticket?, calls]
  rw [same] at held
  exact (of_ticket?_without held).2

theorem Desk.loading_of_ends (live : desk.Live call) {event : Event} (ends : event.Ends call) :
    (desk.step pager event).state.loading = false := by
  cases ends with
  | finish answer =>
    cases answer with
    | error fault => rw [step_finish_error live]
    | ok rows => rw [step_finish_ok live]
  | abandon => rw [step_abandon_of_live live]

/-! ### The call of the latest reset -/

namespace Account

/-- The call was started by the latest reset or since then, and has not come back. -/
def InFlight (account : Account) (desk : Desk) (call : Nat) : Prop :=
  (desk.ticket? call).isSome ∧ account.since ≤ call

theorem inFlight_iff : account.InFlight desk call ↔
    ∃ ticket, desk.ticket? call = some ticket ∧ account.since ≤ call := by
  rw [InFlight, Option.isSome_iff_exists, exists_and_right]

/-- An event puts at most the call in flight that it starts. -/
theorem inFlight_step (sound : desk.Sound) {event : Event}
    (flight : (account.after desk event).InFlight (desk.step pager event) call) :
    account.InFlight desk call ∨ desk.started ≤ call := by
  obtain ⟨ticket, held, since⟩ := inFlight_iff.1 flight
  cases event with
  | reset query => exact .inr since
  | loadMore =>
    rcases Desk.loadMore_cases pager desk with ⟨_, -, -, -, -, step⟩ | ⟨-, -, step⟩
    · rw [step, Desk.ticket?_append sound.fresh] at held
      split at held
      · next same => exact .inr (Nat.le_of_eq same.symm)
      · exact .inl (inFlight_iff.2 ⟨ticket, held, since⟩)
    · rw [step] at held
      exact .inl (inFlight_iff.2 ⟨ticket, held, since⟩)
  | finish other answer =>
    have stays : (account.after desk (.finish other answer)).since = account.since := by
      rw [after]
      split
      · cases answer <;> rfl
      · rfl
    rw [stays] at since
    exact .inl (inFlight_iff.2 ⟨ticket, Desk.ticket?_of_ends (.finish answer) held, since⟩)
  | abandon other =>
    exact .inl (inFlight_iff.2 ⟨ticket, Desk.ticket?_of_ends .abandon held, since⟩)

/-- When the call in flight comes back there is no other. -/
theorem Describes.nobody (describes : account.Describes pager desk) (sound : desk.Sound)
    (flight : account.InFlight desk call) (state : State) (other : Nat) :
    ¬account.InFlight ⟨state, desk.without call, desk.started⟩ other := by
  intro flight'
  obtain ⟨ticket, held, since⟩ := inFlight_iff.1 flight'
  obtain ⟨different, held⟩ := Desk.of_ticket?_without held
  have live := describes.live_iff.2 flight
  have live' := describes.live_iff.2 (inFlight_iff.2 ⟨ticket, held, since⟩)
  exact different (sound.single other call live' live)

/-- The pages that were answered are all full, up to the last one. A call is in flight only as long
as the last one is full too, and then it asks for the page behind them. -/
structure Steady (pager : Pager) (account : Account) (desk : Desk) : Prop where
  full : ∀ page ∈ account.pages.dropLast, page.length = pager.pageSize
  begun : account.pages ≠ [] → account.query.isSome
  later : account.query.isSome → account.since < desk.started
  request : ∀ call ticket, desk.ticket? call = some ticket → account.since ≤ call →
    ∃ query, account.query = some query
      ∧ ticket.request = query.page pager.pageSize account.fetched
  earlier : ∀ call, account.InFlight desk call →
    ∀ page ∈ account.pages, page.length = pager.pageSize
  first : ∀ call, account.InFlight desk call → (call = account.since ↔ account.pages = [])

theorem steady_initial (pager : Pager) : initial.Steady pager Desk.initial where
  full := by simp [initial]
  begun := by simp [initial]
  later := by simp [initial]
  request := by simp [Desk.initial, Desk.ticket?]
  earlier := by simp [initial]
  first := by simp [InFlight, Desk.initial, Desk.ticket?]

theorem steady_reset (sound : desk.Sound) (account : Account) (query : Sql.Fetch) :
    (account.after desk (.reset query)).Steady pager (desk.step pager (.reset query)) := by
  have only : ∀ call ticket, (desk.step pager (.reset query)).ticket? call = some ticket →
      desk.started ≤ call → call = desk.started ∧ ticket.request = query.page pager.pageSize 0 := by
    intro call ticket held since
    rw [Desk.step_reset, Desk.ticket?_append sound.fresh] at held
    split at held
    · next same =>
      cases held
      exact ⟨same, rfl⟩
    · have before := sound.numbers call ticket held
      omega
  refine ⟨by simp [after], by simp [after], fun _ => Nat.lt_succ_self _, ?_, by simp [after], ?_⟩
  · intro call ticket held since
    exact ⟨query, rfl, (only call ticket held since).2⟩
  · intro call flight
    obtain ⟨ticket, held, since⟩ := inFlight_iff.1 flight
    have same := (only call ticket held since).1
    simp [after, same]

theorem Steady.loadMore (steady : account.Steady pager desk)
    (describes : account.Describes pager desk) (sound : desk.Sound) :
    account.Steady pager (desk.step pager .loadMore) := by
  rcases Desk.loadMore_cases pager desk with ⟨query, -, more, latest, -, step⟩ | ⟨-, -, step⟩
  · rw [step]
    have known : account.query = some query := describes.query.symm.trans latest
    have since : account.since < desk.started := steady.later (by simp [known])
    have last := describes.hasMore.symm.trans more
    rw [Option.any_eq_true] at last
    obtain ⟨last, isLast, full⟩ := last
    have all : ∀ page ∈ account.pages, page.length = pager.pageSize := by
      intro page member
      rw [← List.dropLast_append_getLast? last isLast, List.mem_append,
        List.mem_singleton] at member
      rcases member with inner | rfl
      · exact steady.full page inner
      · exact of_decide_eq_true full
    have came : account.pages ≠ [] := by
      intro empty
      simp [empty] at isLast
    refine ⟨steady.full, steady.begun, fun _ => Nat.lt_succ_of_lt since, ?_, fun _ _ => all, ?_⟩
    · intro call ticket held later
      rw [Desk.ticket?_append sound.fresh] at held
      split at held
      · cases held
        exact ⟨query, known, by rw [describes.offset]⟩
      · exact steady.request call ticket held later
    · intro call flight
      obtain ⟨ticket, held, later⟩ := inFlight_iff.1 flight
      rw [Desk.ticket?_append sound.fresh] at held
      split at held
      · next same =>
        constructor
        · intro equal
          omega
        · exact fun empty => absurd empty came
      · exact steady.first call (inFlight_iff.2 ⟨ticket, held, later⟩)
  · rw [step]
    exact steady

/-- A call that ends takes nothing from the others. -/
theorem Steady.without (steady : account.Steady pager desk) (state : State) (call : Nat) :
    account.Steady pager ⟨state, desk.without call, desk.started⟩ := by
  have before : ∀ {other}, account.InFlight ⟨state, desk.without call, desk.started⟩ other →
      account.InFlight desk other := by
    intro other flight
    obtain ⟨ticket, held, since⟩ := inFlight_iff.1 flight
    exact inFlight_iff.2 ⟨ticket, (Desk.of_ticket?_without held).2, since⟩
  exact
    { full := steady.full
      begun := steady.begun
      later := steady.later
      request := fun other ticket held =>
        steady.request other ticket (Desk.of_ticket?_without held).2
      earlier := fun other flight => steady.earlier other (before flight)
      first := fun other flight => steady.first other (before flight) }

theorem Steady.finish (steady : account.Steady pager desk)
    (describes : account.Describes pager desk) (sound : desk.Sound) (call : Nat)
    (answer : Except Fault (List Row)) :
    (account.after desk (.finish call answer)).Steady pager
      (desk.step pager (.finish call answer)) := by
  by_cases live : desk.Live call
  · have counts := describes.live_iff.1 live
    cases answer with
    | error fault =>
      rw [Desk.step_finish_error live, after, if_pos counts]
      exact { steady.without _ call with }
    | ok rows =>
      rw [Desk.step_finish_ok live, after, if_pos counts, answered]
      obtain ⟨ticket, held, since⟩ := inFlight_iff.1 counts
      obtain ⟨query, known, -⟩ := steady.request call ticket held since
      have nobody := describes.nobody sound counts
      refine ⟨?_, fun _ => by simp [known], steady.later, ?_, ?_, ?_⟩
      · simpa using steady.earlier call counts
      · intro other ticket held since
        exact absurd (inFlight_iff.2 ⟨ticket, held, since⟩) (nobody _ other)
      · exact fun other flight => absurd flight (nobody _ other)
      · exact fun other flight => absurd flight (nobody _ other)
  · have other := mt describes.live_iff.2 live
    rw [Desk.step_finish_of_not_live live, after, if_neg other]
    exact steady.without _ call

theorem Steady.abandon (steady : account.Steady pager desk) (call : Nat) :
    account.Steady pager (desk.step pager (.abandon call)) := by
  by_cases live : desk.Live call
  · rw [Desk.step_abandon_of_live live]
    exact steady.without _ call
  · rw [Desk.step_abandon_of_not_live live]
    exact steady.without _ call

theorem steady_run (pager : Pager) (events : List Event) :
    (ofRun pager events).Steady pager (Desk.run pager events) := by
  induction events using List.reverseRecOn with
  | nil => exact steady_initial pager
  | append_singleton events event ih =>
    have describes := describes_run pager events
    have sound := Desk.sound_run pager events
    rw [ofRun_concat, Desk.run_concat]
    cases event with
    | reset query => exact steady_reset sound _ query
    | loadMore => exact ih.loadMore describes sound
    | finish call answer => exact ih.finish describes sound call answer
    | abandon call => exact ih.abandon call

end Account

/-- In every run at most one call of the latest reset is in flight, and the pager is loading exactly
while there is one. Asking for more comes to nothing while the pager is loading, and when the last
page is known, and sends a request otherwise. Whatever ends the call in flight ends the loading. -/
theorem one_call_in_flight (pager : Pager) (events : List Event) :
    let desk := Desk.run pager events
    let account := Account.ofRun pager events
    (∀ call call', account.InFlight desk call → account.InFlight desk call' → call = call')
      ∧ (desk.state.loading = true ↔ ∃ call, account.InFlight desk call)
      ∧ (desk.state.loading = true →
        desk.outcome? pager .loadMore = some .skipped ∧ desk.request? pager .loadMore = none
          ∧ desk.step pager .loadMore = desk)
      ∧ (desk.state.loading = false → desk.state.hasMore = false →
        desk.outcome? pager .loadMore = some .exhausted ∧ desk.request? pager .loadMore = none
          ∧ desk.step pager .loadMore = desk)
      ∧ (desk.state.loading = false → desk.state.hasMore = true →
        (desk.request? pager .loadMore).isSome)
      ∧ ∀ call, account.InFlight desk call → ∀ event : Event, event.Ends call →
        (desk.step pager event).state.loading = false := by
  intro desk account
  have sound : desk.Sound := Desk.sound_run pager events
  have describes : account.Describes pager desk := Account.describes_run pager events
  have steady : account.Steady pager desk := Account.steady_run pager events
  have live : ∀ call, account.InFlight desk call ↔ desk.Live call :=
    fun call => describes.live_iff.symm
  refine ⟨?_, ?_, ?_, ?_, ?_, ?_⟩
  · intro call call' flight flight'
    exact sound.single call call' ((live call).1 flight) ((live call').1 flight')
  · simp only [live]
    exact sound.loading
  · intro loading
    have settled := Desk.loadMore_eq_of_loading pager loading
    simp [Desk.outcome?, Desk.request?, Desk.step, settled]
  · intro loading exhausted
    have settled := Desk.loadMore_eq_of_exhausted pager loading exhausted
    simp [Desk.outcome?, Desk.request?, Desk.step, settled]
  · intro loading more
    have came : account.pages ≠ [] := by
      intro empty
      have full := describes.hasMore.symm.trans more
      simp [empty] at full
    obtain ⟨query, known⟩ := Option.isSome_iff_exists.1 (steady.begun came)
    rcases Desk.loadMore_cases pager desk with ⟨_, -, -, -, sent, -⟩ | ⟨idle, -, -⟩
    · rw [sent]
      rfl
    · rw [loading, more, describes.query, known] at idle
      simp at idle
  · intro call flight event ends
    exact Desk.loading_of_ends ((live call).1 flight) ends

/-- A second request for the same page is skipped; once the call is dropped the page is asked for
again, and after a page that is not full nothing is asked for. -/
theorem one_call_in_flight_of_drop :
    let pager : Pager := ⟨1, "id", by decide⟩
    let row : Row := .ofList [("id", .string "a")]
    let query := Sql.Fetch.ofTable "calls" "*"
    let loading := Desk.run pager [.reset query, .finish 0 (.ok [row]), .loadMore]
    let dropped := loading.step pager (.abandon 1)
    let ended := Desk.run pager [.reset query, .finish 0 (.ok [])]
    loading.outcome? pager .loadMore = some .skipped ∧ dropped.state.loading = false
      ∧ (dropped.request? pager .loadMore).isSome
      ∧ ended.outcome? pager .loadMore = some .exhausted := by
  intro pager row query loading dropped ended
  obtain ⟨-, -, skipped, -, -, settled⟩ :=
    one_call_in_flight pager [.reset query, .finish 0 (.ok [row]), .loadMore]
  obtain ⟨-, -, -, -, again, -⟩ :=
    one_call_in_flight pager [.reset query, .finish 0 (.ok [row]), .loadMore, .abandon 1]
  obtain ⟨-, -, -, exhausted, -, -⟩ := one_call_in_flight pager [.reset query, .finish 0 (.ok [])]
  exact ⟨(skipped rfl).1, settled 1 ⟨rfl, Nat.zero_le 1⟩ _ .abandon, again rfl rfl,
    (exhausted rfl rfl).1⟩

end ScopedQuery.Pager
