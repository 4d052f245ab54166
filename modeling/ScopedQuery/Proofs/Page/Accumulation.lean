import Mathlib.Algebra.Order.Ring.Nat
import ScopedQuery.Proofs.Page.Events
/-!
# Accumulated pages

The account of a run is kept from outside: it knows the latest reset, the pages that came for its
calls and how the last of these calls failed. The state of the pager is what the account says at
every point of every run, whatever the answers are and in whatever order they come.
-/

namespace ScopedQuery.Pager

/-! ### Rows held once -/

/-- The row has the key of an earlier one. -/
def repeats (pager : Pager) (earlier : List Row) (row : Row) : Bool :=
  match pager.key? row with
  | none => false
  | some key => earlier.any fun other => pager.key? other = some key

/-- The rows behind `earlier` without those that repeat a row before them. -/
def distinctAfter (pager : Pager) (earlier : List Row) : List Row → List Row
  | [] => []
  | row :: rest =>
    if pager.repeats earlier row then pager.distinctAfter (earlier ++ [row]) rest
    else row :: pager.distinctAfter (earlier ++ [row]) rest

def distinct (pager : Pager) (rows : List Row) : List Row := pager.distinctAfter [] rows

variable {pager : Pager}

theorem distinctAfter_append (earlier left right : List Row) :
    pager.distinctAfter earlier (left ++ right)
      = pager.distinctAfter earlier left ++ pager.distinctAfter (earlier ++ left) right := by
  induction left generalizing earlier with
  | nil => simp [distinctAfter]
  | cons row rest ih =>
    simp only [List.cons_append, distinctAfter, ih, List.append_assoc, List.nil_append]
    split <;> rfl

theorem distinct_append (left right : List Row) :
    pager.distinct (left ++ right) = pager.distinct left ++ pager.distinctAfter left right := by
  rw [distinct, distinctAfter_append, List.nil_append, distinct]

/-- The keys of some rows, as the pager remembers them. -/
def Remembers (pager : Pager) (seen : List String) (rows : List Row) : Prop :=
  ∀ key, key ∈ seen ↔ ∃ row ∈ rows, pager.key? row = some key

variable {seen : List String} {earlier : List Row} {row : Row} {key : String}

theorem Remembers.concat_none (remembers : pager.Remembers seen earlier)
    (h : pager.key? row = none) : pager.Remembers seen (earlier ++ [row]) := by
  intro other
  rw [remembers other]
  simp [or_and_right, exists_or, h]

theorem Remembers.concat_mem (remembers : pager.Remembers seen earlier)
    (h : pager.key? row = some key) (known : key ∈ seen) :
    pager.Remembers seen (earlier ++ [row]) := by
  intro other
  constructor
  · intro member
    obtain ⟨held, there, same⟩ := (remembers other).1 member
    exact ⟨held, List.mem_append_left _ there, same⟩
  · intro h
    obtain ⟨held, there, same⟩ := h
    rcases List.mem_append.1 there with there | there
    · exact (remembers other).2 ⟨held, there, same⟩
    · obtain rfl := List.mem_singleton.1 there
      obtain rfl := Option.some.inj (h.symm.trans same)
      exact known

theorem Remembers.concat_cons (remembers : pager.Remembers seen earlier)
    (h : pager.key? row = some key) : pager.Remembers (key :: seen) (earlier ++ [row]) := by
  intro other
  rw [List.mem_cons, remembers other]
  simp only [List.mem_append, List.mem_singleton, or_and_right, exists_or, exists_eq_left, h,
    Option.some.injEq]
  rw [or_comm, eq_comm]

theorem Remembers.repeats_eq (remembers : pager.Remembers seen earlier)
    (h : pager.key? row = some key) : pager.repeats earlier row = seen.contains key := by
  rw [Bool.eq_iff_iff, List.contains_iff_mem, remembers key]
  simp [repeats, h]

/-- Remembering the keys is enough to tell which rows repeat one before them. -/
theorem Remembers.fresh (remembers : pager.Remembers seen earlier) (rows : List Row) :
    (pager.fresh seen rows).1 = pager.distinctAfter earlier rows
      ∧ pager.Remembers (pager.fresh seen rows).2 (earlier ++ rows) := by
  induction rows generalizing seen earlier with
  | nil => simpa [Pager.fresh, distinctAfter] using remembers
  | cons row rest ih =>
    have onward : earlier ++ row :: rest = (earlier ++ [row]) ++ rest := by simp
    rw [onward]
    cases key : pager.key? row with
    | none =>
      have new : pager.repeats earlier row = false := by simp [repeats, key]
      obtain ⟨kept, known⟩ := ih (remembers.concat_none key)
      simp only [Pager.fresh, distinctAfter, key, new]
      exact ⟨by simp [kept], known⟩
    | some text =>
      by_cases old : text ∈ seen
      · have repeated : pager.repeats earlier row = true := by
          rw [remembers.repeats_eq key, List.contains_iff_mem]
          exact old
        obtain ⟨kept, known⟩ := ih (remembers.concat_mem key old)
        simp only [Pager.fresh, distinctAfter, key, repeated, List.contains_iff_mem, old, if_true]
        exact ⟨kept, known⟩
      · have new : pager.repeats earlier row = false := by
          rw [remembers.repeats_eq key, ← Bool.not_eq_true, List.contains_iff_mem]
          exact old
        obtain ⟨kept, known⟩ := ih (remembers.concat_cons key)
        simp only [Pager.fresh, distinctAfter, key, new, List.contains_iff_mem, old, if_false]
        exact ⟨by simp [kept], known⟩

/-! ### Accounts -/

/-- What came of the latest reset. -/
structure Account where
  query : Option Sql.Fetch
  /-- The number of the call of the reset: calls with smaller numbers belong to earlier resets. -/
  since : Nat
  /-- The pages that were answered, in order. -/
  pages : List (List Row)
  /-- How the last answered call failed, if it did. -/
  failure : Option FaultReport

namespace Account

def initial : Account := ⟨none, 0, [], none⟩

def answered (account : Account) : Except Fault (List Row) → Account
  | .ok rows => { account with pages := account.pages ++ [rows], failure := none }
  | .error fault => { account with failure := some fault.report }

/-- The account behind an event. Only the answer of a call that is under way since the reset
counts. -/
def after (account : Account) (desk : Desk) : Event → Account
  | .reset query => ⟨some query, desk.started, [], none⟩
  | .finish call answer =>
    if (desk.ticket? call).isSome ∧ account.since ≤ call then account.answered answer else account
  | .loadMore | .abandon _ => account

/-- The account of a run. -/
def ofRun (pager : Pager) (events : List Event) : Account :=
  (events.foldl (fun run event => (run.1.step pager event, run.2.after run.1 event))
    (Desk.initial, initial)).2

/-- How many rows the pages brought. -/
def fetched (account : Account) : Nat := (account.pages.map List.length).sum

theorem ofRun_concat (pager : Pager) (events : List Event) (event : Event) :
    ofRun pager (events ++ [event]) = (ofRun pager events).after (Desk.run pager events) event := by
  have desks : ∀ (events : List Event) (run : Desk × Account),
      (events.foldl (fun run event => (run.1.step pager event, run.2.after run.1 event)) run).1
        = events.foldl (Desk.step pager) run.1 := by
    intro events
    induction events with
    | nil => exact fun _ => rfl
    | cons event rest ih => exact fun run => ih _
  rw [ofRun, List.foldl_append, List.foldl_cons, List.foldl_nil, desks]
  rfl

/-- The desk is where the account says. -/
structure Describes (pager : Pager) (account : Account) (desk : Desk) : Prop where
  query : desk.state.query = account.query
  rows : desk.state.rows = pager.distinct account.pages.flatten
  seen : pager.Remembers desk.state.seen account.pages.flatten
  offset : desk.state.offset = account.fetched
  hasMore : desk.state.hasMore = account.pages.getLast?.any fun page => page.length = pager.pageSize
  error : desk.state.error = account.failure
  since : account.since ≤ desk.started
  current : ∀ call ticket, desk.ticket? call = some ticket →
    (ticket.generation = desk.state.generation ↔ account.since ≤ call)

theorem describes_initial (pager : Pager) : initial.Describes pager Desk.initial where
  query := rfl
  rows := rfl
  seen := by simp [Remembers, Desk.initial, State.initial, initial]
  offset := rfl
  hasMore := rfl
  error := rfl
  since := Nat.le_refl _
  current := by simp [Desk.initial, Desk.ticket?]

variable {account : Account} {desk : Desk}

theorem Describes.live_iff (describes : account.Describes pager desk) {call : Nat} :
    desk.Live call ↔ (desk.ticket? call).isSome ∧ account.since ≤ call := by
  constructor
  · intro h
    obtain ⟨ticket, held, current⟩ := h
    exact ⟨by simp [held], (describes.current call ticket held).1 current⟩
  · intro h
    obtain ⟨some, later⟩ := h
    obtain ⟨ticket, held⟩ := Option.isSome_iff_exists.1 some
    exact ⟨ticket, held, (describes.current call ticket held).2 later⟩

theorem describes_reset (sound : desk.Sound) (account : Account) (query : Sql.Fetch) :
    (account.after desk (.reset query)).Describes pager (desk.step pager (.reset query)) := by
  rw [Desk.step_reset]
  refine ⟨rfl, rfl, ?_, rfl, rfl, rfl, Nat.le_succ _, ?_⟩
  · simp [Remembers, Pager.reset, after]
  · intro call ticket held
    rw [Desk.ticket?_append sound.fresh] at held
    simp only [Pager.reset, after]
    split at held
    · next same =>
      cases held
      simp [same]
    · have older := sound.generations call ticket held
      have before := sound.numbers call ticket held
      omega

theorem Describes.loadMore (describes : account.Describes pager desk) (sound : desk.Sound) :
    account.Describes pager (desk.step pager .loadMore) := by
  rcases Desk.loadMore_cases pager desk with ⟨query, -, -, -, -, step⟩ | ⟨-, -, step⟩
  · rw [step]
    refine { describes with since := Nat.le_succ_of_le describes.since, current := ?_ }
    intro call ticket held
    rw [Desk.ticket?_append sound.fresh] at held
    split at held
    · next same =>
      cases held
      simpa [same] using describes.since
    · exact describes.current call ticket held
  · rw [step]
    exact describes

/-- A call that ends leaves the account of the others as it was. -/
theorem Describes.without_current (describes : account.Describes pager desk) {call : Nat}
    {state : State} (generation : state.generation = desk.state.generation) :
    ∀ other ticket, (⟨state, desk.without call, desk.started⟩ : Desk).ticket? other = some ticket →
      (ticket.generation = state.generation ↔ account.since ≤ other) := by
  intro other ticket held
  rw [generation]
  exact describes.current other ticket (Desk.of_ticket?_without held).2

theorem Describes.finish (describes : account.Describes pager desk) (call : Nat)
    (answer : Except Fault (List Row)) :
    (account.after desk (.finish call answer)).Describes pager
      (desk.step pager (.finish call answer)) := by
  by_cases live : desk.Live call
  · have counts := describes.live_iff.1 live
    cases answer with
    | error fault =>
      rw [Desk.step_finish_error live, after, if_pos counts]
      exact { describes with error := rfl, current := describes.without_current rfl }
    | ok rows =>
      obtain ⟨kept, known⟩ := describes.seen.fresh rows
      rw [Desk.step_finish_ok live, after, if_pos counts, answered]
      refine ⟨describes.query, ?_, ?_, ?_, ?_, rfl, describes.since, ?_⟩
      · dsimp only
        rw [describes.rows, kept, List.flatten_append, List.flatten_singleton, distinct_append]
      · dsimp only
        rw [List.flatten_append, List.flatten_singleton]
        exact known
      · simp [describes.offset, fetched]
      · simp
      · exact describes.without_current rfl
  · have other := mt describes.live_iff.2 live
    rw [Desk.step_finish_of_not_live live, after, if_neg other]
    exact { describes with current := describes.without_current rfl }

theorem Describes.abandon (describes : account.Describes pager desk) (call : Nat) :
    account.Describes pager (desk.step pager (.abandon call)) := by
  by_cases live : desk.Live call
  · rw [Desk.step_abandon_of_live live]
    exact { describes with current := describes.without_current rfl }
  · rw [Desk.step_abandon_of_not_live live]
    exact { describes with current := describes.without_current rfl }

theorem Describes.step (describes : account.Describes pager desk) (sound : desk.Sound)
    (event : Event) : (account.after desk event).Describes pager (desk.step pager event) := by
  cases event with
  | reset query => exact describes_reset sound account query
  | loadMore => exact describes.loadMore sound
  | finish call answer => exact describes.finish call answer
  | abandon call => exact describes.abandon call

theorem describes_run (pager : Pager) (events : List Event) :
    (ofRun pager events).Describes pager (Desk.run pager events) := by
  induction events using List.reverseRecOn with
  | nil => exact describes_initial pager
  | append_singleton events event ih =>
    rw [ofRun_concat, Desk.run_concat]
    exact ih.step (Desk.sound_run pager events) event

/-- A request asks for the page behind the pages that were answered. -/
theorem Describes.request (describes : account.Describes pager desk) {event : Event}
    {request : Sql.Fetch} (h : desk.request? pager event = some request) :
    ∃ query, (account.after desk event).query = some query
      ∧ request = query.page pager.pageSize (account.after desk event).fetched := by
  cases event with
  | reset query =>
    cases h
    exact ⟨query, rfl, rfl⟩
  | loadMore =>
    rcases Desk.loadMore_cases pager desk with ⟨query, -, -, latest, sent, -⟩ | ⟨-, sent, -⟩
    · rw [sent] at h
      cases h
      exact ⟨query, describes.query.symm.trans latest, by rw [describes.offset]; rfl⟩
    · rw [sent] at h
      cases h
  | finish call answer => cases h
  | abandon call => cases h

end Account

/-! ### Calls that come to nothing -/

namespace Desk

variable {desk : Desk} {call : Nat} {event : Event}

end Desk

end ScopedQuery.Pager
