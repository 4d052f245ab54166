import Mathlib.Data.Nat.Find
import ScopedQuery.Proofs.Page.Exporting
/-!
# Exports in time

An export on a time axis: the source takes its time over each page, or never answers, a page may
have a deadline, and the caller may cancel at any moment, also before the start. Of what can happen
while a page is under way the earliest counts, and `Timeline.Ends` says what each such event makes
of the export. So an export gives all rows, of every page up to the first one that is not full, or
one fault and no rows.
-/

namespace ScopedQuery.Export

/-- What a source does with a request. -/
structure Service where
  answer : Except Fault (List Row)
  /-- The microseconds that it takes; nothing means that it never answers. -/
  after : Option Nat

/-- An export with all that it meets, in microseconds from its start. -/
structure Timeline (σ : Type) where
  serve : σ → Sql.Fetch → Service × σ
  limits : Limits
  query : Sql.Fetch
  source : σ
  /-- When the caller cancels, if at all. A time below zero is before the start. -/
  cancelAt : Option Int

namespace Timeline

variable {σ : Type} {timeline : Timeline σ} {page : Nat}

/-! ### The pages -/

def request (timeline : Timeline σ) (page : Nat) : Sql.Fetch :=
  { timeline.query with
    limit := some timeline.limits.chunkSize, offset := some (page * timeline.limits.chunkSize) }

/-- The source when all pages before this one have been asked for. -/
def sourceAt (timeline : Timeline σ) : Nat → σ
  | 0 => timeline.source
  | page + 1 => (timeline.serve (timeline.sourceAt page) (timeline.request page)).2

def service (timeline : Timeline σ) (page : Nat) : Service :=
  (timeline.serve (timeline.sourceAt page) (timeline.request page)).1

/-- When a page is asked for, the pages before it having been answered. -/
def askedAt (timeline : Timeline σ) : Nat → Int
  | 0 => 0
  | page + 1 => timeline.askedAt page + (timeline.service page).after.getD 0

def answeredAt (timeline : Timeline σ) (page : Nat) : Option Int :=
  (timeline.service page).after.map fun after : Nat => timeline.askedAt page + after

def deadline (timeline : Timeline σ) (page : Nat) : Option Int :=
  timeline.limits.timeout.map fun after : Nat => timeline.askedAt page + after

/-- The rows of a page that is answered without a fault. -/
def rowsOf (timeline : Timeline σ) (page : Nat) : List Row :=
  (timeline.service page).answer.toOption.getD []

/-- The rows of the first pages, in order. -/
def gathered (timeline : Timeline σ) (count : Nat) : List Row :=
  (List.range count).flatMap timeline.rowsOf

/-! ### What happens first -/

/-- The time is before the other one, which may be never. -/
def Before (time : Int) (other : Option Int) : Prop := ∀ instant ∈ other, time < instant

/-- The answer to a page is its earliest event. -/
def Answers (timeline : Timeline σ) (page : Nat) (answer : Except Fault (List Row)) : Prop :=
  (timeline.service page).answer = answer
    ∧ ∃ time ∈ timeline.answeredAt page,
      Before time (timeline.deadline page) ∧ Before time timeline.cancelAt

/-- The deadline of a page is its earliest event. -/
def Expires (timeline : Timeline σ) (page : Nat) : Prop :=
  ∃ time ∈ timeline.deadline page,
    Before time (timeline.answeredAt page) ∧ Before time timeline.cancelAt

/-- The cancellation is the earliest event of a page. -/
def Cancels (timeline : Timeline σ) (page : Nat) : Prop :=
  ∃ time ∈ timeline.cancelAt,
    Before time (timeline.answeredAt page) ∧ Before time (timeline.deadline page)

/-- Nothing ever happens to a page. -/
def Hangs (timeline : Timeline σ) (page : Nat) : Prop :=
  timeline.answeredAt page = none ∧ timeline.deadline page = none ∧ timeline.cancelAt = none

/-- A page is answered, and is full. -/
def Fills (timeline : Timeline σ) (page : Nat) : Prop :=
  ∃ rows, timeline.Answers page (.ok rows) ∧ timeline.limits.chunkSize ≤ rows.length

/-- All pages before this one are full. -/
def Reaches (timeline : Timeline σ) (page : Nat) : Prop :=
  ∀ earlier < page, timeline.Fills earlier

/-- The caller cancels before the start. -/
def CancelledBefore (timeline : Timeline σ) : Prop := ∃ time ∈ timeline.cancelAt, time < 0

theorem cancelledBefore_iff :
    timeline.CancelledBefore ↔ timeline.cancelAt.any (· < 0) = true := by
  unfold CancelledBefore
  cases timeline.cancelAt <;> simp

/-- The export comes to ask for a page. -/
structure Asks (timeline : Timeline σ) (page : Nat) : Prop where
  started : ¬timeline.CancelledBefore
  within : page < timeline.limits.maxPages
  reaches : timeline.Reaches page

/-- No two events come at the very same instant. -/
structure Apart (timeline : Timeline σ) : Prop where
  cancel_start : timeline.cancelAt ≠ some 0
  answer_deadline : ∀ page, timeline.Asks page →
    ∀ time ∈ timeline.answeredAt page, timeline.deadline page ≠ some time
  answer_cancel : ∀ page, timeline.Asks page →
    ∀ time ∈ timeline.answeredAt page, timeline.cancelAt ≠ some time
  deadline_cancel : ∀ page, timeline.Asks page →
    ∀ time ∈ timeline.deadline page, timeline.cancelAt ≠ some time

/-- What a page makes of the export when it is not full, where no result means that there never is
one. -/
inductive Stops (timeline : Timeline σ) (page : Nat) : Option (Except Fault (List Row)) → Prop
  | short {rows : List Row} : timeline.Answers page (.ok rows) →
    rows.length < timeline.limits.chunkSize →
    Stops timeline page (some (.ok (timeline.gathered (page + 1))))
  | failed {fault : Fault} : timeline.Answers page (.error fault) →
    Stops timeline page (some (.error fault))
  | expired {after : Nat} : timeline.limits.timeout = some after → timeline.Expires page →
    Stops timeline page (some (.error (.timeout after)))
  | cancelled : timeline.Cancels page → Stops timeline page (some (.error .exportCancelled))
  | hanging : timeline.Hangs page → Stops timeline page none

/-- How many pages an export asks for, and its result. -/
inductive Ends (timeline : Timeline σ) : Nat → Option (Except Fault (List Row)) → Prop
  | cancelledBefore : timeline.CancelledBefore → Ends timeline 0 (some (.error .exportCancelled))
  | stopped {page : Nat} {result : Option (Except Fault (List Row))} : timeline.Asks page →
    timeline.Stops page result → Ends timeline (page + 1) result
  | pageLimit : ¬timeline.CancelledBefore → timeline.Reaches timeline.limits.maxPages →
    Ends timeline timeline.limits.maxPages
      (some (.error (.exportPageLimit timeline.limits.maxPages)))

/-! ### The run -/

/-- The source answers a request, and the time of the state goes on to when it does. -/
def ask (timeline : Timeline σ) (state : σ × Int) (request : Sql.Fetch) : PageRun × (σ × Int) :=
  let (service, source) := timeline.serve state.1 request
  (⟨service.answer, service.after, timeline.cancelAt.map fun time => (time - state.2).toNat⟩,
    source, state.2 + service.after.getD 0)

def finished (timeline : Timeline σ) : Finished (σ × Int) :=
  all timeline.ask timeline.limits timeline.query (timeline.cancelAt.any (· < 0))
    (timeline.source, 0)

/-- What a page meets in the run. -/
def pageRun (timeline : Timeline σ) (page : Nat) : PageRun :=
  ⟨(timeline.service page).answer, (timeline.service page).after,
    timeline.cancelAt.map fun time => (time - timeline.askedAt page).toNat⟩

def stateAt (timeline : Timeline σ) (page : Nat) : σ × Int :=
  (timeline.sourceAt page, timeline.askedAt page)

theorem page_eq_request (timeline : Timeline σ) (page : Nat) :
    timeline.query.page timeline.limits.chunkSize (page * timeline.limits.chunkSize)
      = timeline.request page :=
  rfl

theorem ask_stateAt (timeline : Timeline σ) (page : Nat) :
    timeline.ask (timeline.stateAt page) (timeline.request page)
      = (timeline.pageRun page, timeline.stateAt (page + 1)) :=
  rfl

theorem askedAt_nonneg (timeline : Timeline σ) (page : Nat) : 0 ≤ timeline.askedAt page := by
  induction page with
  | zero => exact Int.le_refl 0
  | succ page ih => exact Int.add_nonneg ih (Int.natCast_nonneg _)

theorem gathered_succ (timeline : Timeline σ) (page : Nat) :
    timeline.gathered (page + 1) = timeline.gathered page ++ timeline.rowsOf page := by
  simp [gathered, List.range_succ]

theorem Answers.rowsOf_eq {rows : List Row} (h : timeline.Answers page (.ok rows)) :
    timeline.rowsOf page = rows := by
  rw [rowsOf, h.1]
  rfl

/-- A page is asked for after the one before it was answered, so what happens to it comes later. -/
theorem Reaches.askedAt_le (h : timeline.Reaches page) (started : ¬timeline.CancelledBefore)
    {time : Int} (cancelled : timeline.cancelAt = some time) : timeline.askedAt page ≤ time := by
  cases page with
  | zero => exact Int.not_lt.1 fun negative => started ⟨time, cancelled, negative⟩
  | succ page =>
    obtain ⟨_, ⟨_, answered, atTime, -, before⟩, -⟩ := h page (Nat.lt_succ_self page)
    obtain ⟨after, taken, rfl⟩ := Option.map_eq_some_iff.1 atTime
    have later := before time cancelled
    rw [askedAt, taken]
    exact Int.le_of_lt later

/-! ### The end of a page -/

/-- A page has four possible events, and when no two come at once one of them is the first. -/
theorem Asks.cases (asks : timeline.Asks page) (apart : timeline.Apart) :
    (∃ answer, timeline.Answers page answer) ∨ timeline.Expires page ∨ timeline.Cancels page
      ∨ timeline.Hangs page := by
  have answerDeadline := apart.answer_deadline page asks
  have answerCancel := apart.answer_cancel page asks
  have deadlineCancel := apart.deadline_cancel page asks
  simp only [Answers, Expires, Cancels, Hangs, Before]
  generalize timeline.answeredAt page = answered at *
  generalize timeline.deadline page = deadline at *
  generalize timeline.cancelAt = cancelled at *
  cases answered <;> cases deadline <;> cases cancelled <;> simp at * <;> omega

theorem Answers.ending {answer : Except Fault (List Row)} (h : timeline.Answers page answer) :
    (timeline.pageRun page).ending timeline.limits.timeout = .answered answer false := by
  obtain ⟨rfl, _, answered, beforeDeadline, beforeCancel⟩ := h
  obtain ⟨after, taken, rfl⟩ := Option.map_eq_some_iff.1 answered
  have intime : noLater after timeline.limits.timeout = true := by
    cases limit : timeline.limits.timeout with
    | none => rfl
    | some allowed =>
      have := beforeDeadline (timeline.askedAt page + allowed) (by simp [deadline, limit])
      simp only [noLater, decide_eq_true_eq]
      omega
  cases cancel : timeline.cancelAt with
  | none =>
    have never : noLater after none = true := rfl
    simp [PageRun.ending, pageRun, taken, cancel, intime, never]
  | some time =>
    have later := beforeCancel time cancel
    have notYet : noLater after (some (time - timeline.askedAt page).toNat) = true := by
      simp only [noLater, decide_eq_true_eq]
      omega
    have apart : (time - timeline.askedAt page).toNat ≠ after := by omega
    simp [PageRun.ending, pageRun, taken, cancel, intime, notYet, apart]

theorem Expires.ending {after : Nat} (h : timeline.Expires page)
    (limit : timeline.limits.timeout = some after) :
    (timeline.pageRun page).ending timeline.limits.timeout = .timedOut after := by
  obtain ⟨_, ends, beforeAnswer, beforeCancel⟩ := h
  obtain ⟨_, limit', rfl⟩ := Option.map_eq_some_iff.1 ends
  obtain rfl := Option.some.inj (limit.symm.trans limit')
  have unanswered : ∀ taken, (timeline.service page).after = some taken → ¬taken ≤ after := by
    intro taken answered
    have := beforeAnswer (timeline.askedAt page + taken) (by simp [answeredAt, answered])
    omega
  have stopped : PageRun.ending.stopped (timeline.pageRun page) (some after)
      = .timedOut after := by
    cases cancel : timeline.cancelAt with
    | none => simp [PageRun.ending.stopped, pageRun, cancel]
    | some time =>
      have later := beforeCancel time cancel
      have cancelled : (timeline.pageRun page).cancelledAfter
          = some (time - timeline.askedAt page).toNat := by
        rw [pageRun, cancel]
        rfl
      have notYet : noLater (time - timeline.askedAt page).toNat (some after) = false := by
        rw [noLater, decide_eq_false_iff_not]
        omega
      simp only [PageRun.ending.stopped, cancelled, notYet, Bool.false_eq_true, if_false,
        Option.getD_some]
  rw [limit]
  cases answered : (timeline.service page).after with
  | none => simpa [PageRun.ending, pageRun, answered] using stopped
  | some taken =>
    have late := unanswered taken answered
    simpa [PageRun.ending, pageRun, answered, noLater, late] using stopped

theorem Cancels.ending (h : timeline.Cancels page) (asks : timeline.Asks page) :
    (timeline.pageRun page).ending timeline.limits.timeout = .cancelled := by
  obtain ⟨time, cancel, beforeAnswer, beforeDeadline⟩ := h
  rw [Option.mem_def] at cancel
  have asked := asks.reaches.askedAt_le asks.started cancel
  have stopped : PageRun.ending.stopped (timeline.pageRun page) timeline.limits.timeout
      = .cancelled := by
    cases limit : timeline.limits.timeout with
    | none => simp [PageRun.ending.stopped, pageRun, cancel, noLater]
    | some after =>
      have later := beforeDeadline (timeline.askedAt page + after) (by simp [deadline, limit])
      have soon : time - timeline.askedAt page ≤ after := by omega
      simp [PageRun.ending.stopped, pageRun, cancel, noLater, soon]
  cases answered : (timeline.service page).after with
  | none => simpa [PageRun.ending, pageRun, answered] using stopped
  | some taken =>
    have later := beforeAnswer (timeline.askedAt page + taken) (by simp [answeredAt, answered])
    have late : ¬taken ≤ (time - timeline.askedAt page).toNat := by omega
    simpa [PageRun.ending, pageRun, answered, cancel, noLater, late] using stopped

theorem Hangs.ending (h : timeline.Hangs page) :
    (timeline.pageRun page).ending timeline.limits.timeout = .waiting := by
  obtain ⟨unanswered, unlimited, never⟩ := h
  have answered : (timeline.service page).after = none := Option.map_eq_none_iff.1 unanswered
  have limit : timeline.limits.timeout = none := Option.map_eq_none_iff.1 unlimited
  simp [PageRun.ending, PageRun.ending.stopped, pageRun, answered, limit, never]

/-! ### The run -/

/-- A full page lets the export go on. -/
theorem Fills.pages (h : timeline.Fills page) (left : Nat) :
    let rest := pages timeline.ask timeline.limits timeline.query (page + 1)
      (timeline.gathered (page + 1)) false (timeline.stateAt (page + 1)) left
    pages timeline.ask timeline.limits timeline.query page (timeline.gathered page) false
        (timeline.stateAt page) (left + 1)
      = { rest with requests := timeline.request page :: rest.requests } := by
  obtain ⟨rows, answers, full⟩ := h
  have ended : (timeline.ask (timeline.stateAt page) (timeline.request page)).1.ending
      timeline.limits.timeout = .answered (.ok rows) false := answers.ending
  rw [gathered_succ, answers.rowsOf_eq]
  exact pages_of_full ended full

/-- The export up to a page that it comes to: only full pages, whose rows it holds. -/
theorem Reaches.finished (positive : 0 < timeline.limits.chunkSize)
    (started : ¬timeline.CancelledBefore) (h : timeline.Reaches page)
    (within : page ≤ timeline.limits.maxPages) :
    let rest := pages timeline.ask timeline.limits timeline.query page (timeline.gathered page)
      false (timeline.stateAt page) (timeline.limits.maxPages - page)
    timeline.finished.result = rest.result
      ∧ timeline.finished.requests
        = (List.range page).map timeline.request ++ rest.requests := by
  induction page with
  | zero =>
    have notYet : timeline.cancelAt.any (· < 0) = false := by
      rw [← Bool.not_eq_true, ← cancelledBefore_iff]
      exact started
    have start : timeline.finished = pages timeline.ask timeline.limits timeline.query 0 [] false
        (timeline.source, 0) timeline.limits.maxPages := by
      rw [Timeline.finished, all, if_neg (Nat.ne_of_gt positive), notYet]
    rw [start]
    exact ⟨rfl, rfl⟩
  | succ page ih =>
    obtain ⟨result, requests⟩ := ih (fun earlier before => h earlier (by omega)) (by omega)
    have left : timeline.limits.maxPages - page
        = timeline.limits.maxPages - (page + 1) + 1 := by omega
    rw [left, (h page (Nat.lt_succ_self page)).pages] at result requests
    refine ⟨result, ?_⟩
    rw [requests, List.range_succ, List.map_append, List.append_assoc]
    rfl

/-- A page that is not full ends the export. -/
theorem Stops.pages {result : Option (Except Fault (List Row))} (h : timeline.Stops page result)
    (asks : timeline.Asks page) (left : Nat) :
    let finished := pages timeline.ask timeline.limits timeline.query page (timeline.gathered page)
      false (timeline.stateAt page) (left + 1)
    finished.result = result ∧ finished.requests = [timeline.request page] := by
  have asked := timeline.page_eq_request page
  have step := timeline.ask_stateAt page
  cases h with
  | short answers short =>
    have together := answers.rowsOf_eq ▸ timeline.gathered_succ page
    simp [Export.pages, asked, step, answers.ending, short, together]
  | failed answers => simp [Export.pages, asked, step, answers.ending]
  | expired limit expires => simp [Export.pages, asked, step, expires.ending limit]
  | cancelled cancels => simp [Export.pages, asked, step, cancels.ending asks]
  | hanging hangs => simp [Export.pages, asked, step, hangs.ending]

theorem Ends.finished {count : Nat} {result : Option (Except Fault (List Row))}
    (h : timeline.Ends count result) (positive : 0 < timeline.limits.chunkSize)
    (allowed : 0 < timeline.limits.maxPages) :
    timeline.finished.result = result
      ∧ timeline.finished.requests = (List.range count).map timeline.request := by
  cases h with
  | cancelledBefore cancelled =>
    have before := cancelledBefore_iff.1 cancelled
    obtain ⟨left, limit⟩ := Nat.exists_eq_succ_of_ne_zero (Nat.ne_of_gt allowed)
    simp [Timeline.finished, all, Nat.ne_of_gt positive, before, limit, pages]
  | @stopped page _ asks stops =>
    obtain ⟨result, requests⟩ :=
      asks.reaches.finished positive asks.started (Nat.le_of_lt asks.within)
    have left : timeline.limits.maxPages - page
        = timeline.limits.maxPages - (page + 1) + 1 := by
      have := asks.within
      omega
    obtain ⟨result', requests'⟩ := stops.pages asks (timeline.limits.maxPages - (page + 1))
    rw [left] at result requests
    rw [result, requests, result', requests', List.range_succ, List.map_append]
    exact ⟨rfl, rfl⟩
  | pageLimit started full =>
    obtain ⟨result, requests⟩ := full.finished positive started (Nat.le_refl _)
    rw [Nat.sub_self] at result requests
    rw [result, requests]
    exact ⟨rfl, List.append_nil _⟩

/-! ### Every export ends in one of these ways -/

theorem Asks.exists_stops (asks : timeline.Asks page) (apart : timeline.Apart)
    (notFull : ¬timeline.Fills page) : ∃ result, timeline.Stops page result := by
  rcases asks.cases apart with ⟨answer, answers⟩ | expires | cancels | hangs
  · cases answer with
    | error fault => exact ⟨_, .failed answers⟩
    | ok rows =>
      refine ⟨_, .short answers ?_⟩
      by_contra full
      exact notFull ⟨rows, answers, Nat.not_lt.1 full⟩
  · obtain ⟨after, limit, -⟩ := Option.map_eq_some_iff.1 expires.choose_spec.1
    exact ⟨_, .expired limit expires⟩
  · exact ⟨_, .cancelled cancels⟩
  · exact ⟨_, .hanging hangs⟩

theorem exists_ends (apart : timeline.Apart) : ∃ count result, timeline.Ends count result := by
  by_cases started : timeline.CancelledBefore
  · exact ⟨_, _, .cancelledBefore started⟩
  · by_cases full : timeline.Reaches timeline.limits.maxPages
    · exact ⟨_, _, .pageLimit started full⟩
    · have short : ∃ page, page < timeline.limits.maxPages ∧ ¬timeline.Fills page := by
        simpa [Reaches] using full
      classical
      obtain ⟨within, notFull⟩ := Nat.find_spec short
      have asks : timeline.Asks (Nat.find short) := by
        refine ⟨started, within, fun earlier before => ?_⟩
        by_contra notFull'
        exact Nat.find_min short before ⟨by omega, notFull'⟩
      obtain ⟨result, stops⟩ := asks.exists_stops apart notFull
      exact ⟨_, _, .stopped asks stops⟩

theorem Answers.started {answer : Except Fault (List Row)} (h : timeline.Answers page answer) :
    ¬timeline.CancelledBefore := by
  obtain ⟨-, _, answered, -, before⟩ := h
  obtain ⟨after, -, rfl⟩ := Option.map_eq_some_iff.1 answered
  intro cancelled
  obtain ⟨time, cancel, negative⟩ := cancelled
  have := before time cancel
  have := timeline.askedAt_nonneg page
  omega

/-- An export gives rows exactly when a page within the page limit is answered and not full, and all
pages before it are answered and full; these are then the rows of all those pages. Otherwise it
gives the fault of its earliest event and no rows; only where a page has no answer, no deadline and
no cancellation there is no result. Either way no page is asked for behind the one at which it ends,
and none at all when the caller cancels before the start. -/
theorem all_or_nothing (timeline : Timeline σ) (positive : 0 < timeline.limits.chunkSize)
    (allowed : 0 < timeline.limits.maxPages) (apart : timeline.Apart) :
    let finished := timeline.finished
    let requests := fun count => (List.range count).map timeline.request
    (∀ rows, finished.result = some (.ok rows)
        ↔ ∃ page < timeline.limits.maxPages, (∀ earlier < page, timeline.Fills earlier)
          ∧ (∃ batch, timeline.Answers page (.ok batch)
            ∧ batch.length < timeline.limits.chunkSize)
          ∧ rows = timeline.gathered (page + 1))
      ∧ (∃ count, timeline.Ends count finished.result ∧ finished.requests = requests count)
      ∧ (∀ count result, timeline.Ends count result →
        finished.result = result ∧ finished.requests = requests count)
      ∧ (timeline.CancelledBefore →
        finished.result = some (.error .exportCancelled) ∧ finished.requests = [])
      ∧ (finished.result = none ↔ ∃ page, timeline.Asks page ∧ timeline.Hangs page) := by
  intro finished requests
  have ended : ∀ count result, timeline.Ends count result →
      finished.result = result ∧ finished.requests = requests count :=
    fun _ _ ends => ends.finished positive allowed
  have ends : ∃ count, timeline.Ends count finished.result
      ∧ finished.requests = requests count := by
    obtain ⟨count, result, ends⟩ := exists_ends apart
    obtain ⟨result, requests⟩ := ended count result ends
    exact ⟨count, result ▸ ends, requests⟩
  refine ⟨fun rows => ⟨fun result => ?_, fun h => ?_⟩, ends, ended, ?_, fun result => ?_,
    fun h => ?_⟩
  · obtain ⟨count, ends, -⟩ := ends
    rw [result] at ends
    cases ends with
    | stopped asks stops =>
      cases stops with
      | short answers short => exact ⟨_, asks.within, asks.reaches, ⟨_, answers, short⟩, rfl⟩
  · obtain ⟨page, within, full, ⟨batch, answers, short⟩, rfl⟩ := h
    exact (ended _ _ (.stopped ⟨answers.started, within, full⟩ (.short answers short))).1
  · exact fun cancelled => ended 0 _ (.cancelledBefore cancelled)
  · obtain ⟨count, ends, -⟩ := ends
    rw [result] at ends
    cases ends with
    | stopped asks stops =>
      cases stops with
      | hanging hangs => exact ⟨_, asks, hangs⟩
  · obtain ⟨page, asks, hangs⟩ := h
    exact (ended _ _ (.stopped asks (.hanging hangs))).1

/-- The first page comes in time, and the caller cancels while the second is under way. -/
theorem all_or_nothing_of_cancelled :
    let row : Row := .ofList [("id", .string "a")]
    let timeline : Timeline (List Service) :=
      { serve := fun services _ => (services.headD ⟨.ok [], none⟩, services.tail)
        limits := ⟨2, 3, some 10⟩
        query := .ofTable "calls" "*"
        source := [⟨.ok [row, row], some 4⟩, ⟨.ok [row], some 9⟩]
        cancelAt := some 8 }
    timeline.finished.result = some (.error .exportCancelled)
      ∧ timeline.finished.requests
        = [(Sql.Fetch.ofTable "calls" "*").page 2 0, (Sql.Fetch.ofTable "calls" "*").page 2 2] := by
  intro row timeline
  have first : timeline.Answers 0 (.ok [row, row]) :=
    ⟨rfl, 4, rfl, by simp [Before, deadline, timeline, askedAt], by simp [Before, timeline]⟩
  have cancels : timeline.Cancels 1 := by
    refine ⟨8, rfl, ?_, ?_⟩ <;>
      simp [Before, answeredAt, deadline, timeline, askedAt, service, sourceAt]
  have started : ¬timeline.CancelledBefore := by simp [CancelledBefore, timeline]
  have asks : timeline.Asks 1 := by
    refine ⟨started, by decide, fun earlier before => ?_⟩
    obtain rfl := Nat.lt_one_iff.1 before
    exact ⟨_, first, Nat.le_refl _⟩
  have times : timeline.answeredAt 0 = some 4 ∧ timeline.answeredAt 1 = some 13
      ∧ timeline.deadline 0 = some 10 ∧ timeline.deadline 1 = some 14 := by decide
  have early : ∀ page, timeline.Asks page → page = 0 ∨ page = 1 := by
    intro page asks
    by_contra later
    obtain ⟨_, ⟨-, _, answered, -, before⟩, -⟩ := asks.reaches 1 (by omega)
    obtain rfl := Option.some.inj (times.2.1.symm.trans answered)
    exact absurd (before 8 rfl) (by decide)
  have cancel : timeline.cancelAt = some 8 := rfl
  have apart : timeline.Apart := by
    constructor
    case cancel_start => decide
    all_goals
      intro page asks
      rcases early page asks with rfl | rfl <;> simp [times, cancel]
  obtain ⟨-, -, ended, -⟩ := all_or_nothing timeline (by decide) (by decide) apart
  exact ended 2 _ (.stopped asks (.cancelled cancels))

end Timeline

end ScopedQuery.Export
