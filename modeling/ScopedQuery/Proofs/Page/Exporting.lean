import Mathlib.Data.List.Range
import ScopedQuery.Page.Memory
/-!
# Exports of a table at rest

What an export makes of a source that serves one table by limit and offset, in time and without
being cancelled: all rows of the table in order, or the page limit. The page that stops the export
is the first one that is not full, so a table that fills its last page costs one page more, and
that page counts against the limit as well.
-/

namespace ScopedQuery.Export

variable {σ : Type} {ask : σ → Sql.Fetch → PageRun × σ} {limits : Limits} {query : Sql.Fetch}
  {rows batch : List Row} {page left : Nat} {gathered : List Row} {source : σ}

/-! ### One page -/

/-- The rows of a page that is answered in time and without a fault. -/
def PageEnd.received : PageEnd → List Row
  | .answered (.ok rows) _ => rows
  | _ => []

/-- A page is not asked for, or it ends the export, or it is full and the export goes on with the
rows that it gave. -/
theorem pages_step (ask : σ → Sql.Fetch → PageRun × σ) (limits : Limits) (query : Sql.Fetch)
    (page : Nat) (gathered : List Row) (cancelled : Bool) (source : σ) (left : Nat) :
    let finished := pages ask limits query page gathered cancelled source (left + 1)
    let request := query.page limits.chunkSize (page * limits.chunkSize)
    let ending := (ask source request).1.ending limits.timeout
    (finished.requests = [] ∧ finished.source = source
        ∧ ∀ rows, finished.result ≠ some (.ok rows))
      ∨ (finished.requests = [request] ∧ finished.source = (ask source request).2
        ∧ ∀ rows, finished.result = some (.ok rows) → rows = gathered ++ ending.received)
      ∨ ∃ cancelled', limits.chunkSize ≤ ending.received.length
        ∧ let rest := pages ask limits query (page + 1) (gathered ++ ending.received) cancelled'
            (ask source request).2 left
          finished = { rest with requests := request :: rest.requests } := by
  intro finished request ending
  simp only [finished, request, pages]
  cases cancelled with
  | true => exact .inl ⟨rfl, rfl, nofun⟩
  | false =>
    right
    simp only [Bool.false_eq_true, if_false]
    split
    · next rows cancelled' ended =>
      have same : ending.received = rows := by
        rw [show ending = .answered (.ok rows) cancelled' from ended]
        rfl
      rw [same]
      split
      · left
        refine ⟨rfl, rfl, fun rows result => ?_⟩
        cases result
        rfl
      · next full => exact .inr ⟨cancelled', Nat.le_of_not_lt full, rfl⟩
    all_goals exact .inl ⟨rfl, rfl, nofun⟩

theorem pages_of_short {cancelled : Bool}
    (ended : (ask source (query.page limits.chunkSize (page * limits.chunkSize))).1.ending
      limits.timeout = .answered (.ok batch) cancelled)
    (short : batch.length < limits.chunkSize) :
    let request := query.page limits.chunkSize (page * limits.chunkSize)
    pages ask limits query page gathered false source (left + 1)
      = ⟨some (.ok (gathered ++ batch)), [request], (ask source request).2⟩ := by
  simp [pages, ended, short]

theorem pages_of_full {cancelled : Bool}
    (ended : (ask source (query.page limits.chunkSize (page * limits.chunkSize))).1.ending
      limits.timeout = .answered (.ok batch) cancelled)
    (full : limits.chunkSize ≤ batch.length) :
    let request := query.page limits.chunkSize (page * limits.chunkSize)
    let rest := pages ask limits query (page + 1) (gathered ++ batch) cancelled
      (ask source request).2 left
    pages ask limits query page gathered false source (left + 1)
      = { rest with requests := request :: rest.requests } := by
  have notShort : ¬batch.length < limits.chunkSize := Nat.not_lt.2 full
  simp [pages, ended, notShort]

/-- The limit and the offset of the query are never read. -/
theorem pages_congr {other : Sql.Fetch}
    (same : ∀ limit offset, other.page limit offset = query.page limit offset) {cancelled : Bool} :
    pages ask limits other page gathered cancelled source left
      = pages ask limits query page gathered cancelled source left := by
  induction left generalizing page gathered cancelled source with
  | zero => rfl
  | succ left ih => simp only [pages, same, ih]

/-! ### Serving a table -/

/-- After whatever requests it had, the source answers the next one in time with the rows of the
table that it asks for, and nobody cancels. -/
def Serves (ask : σ → Sql.Fetch → PageRun × σ) (timeout : Option Nat) (rows : List Row)
    (source : σ) : Prop :=
  ∀ (earlier : List Sql.Fetch) (request : Sql.Fetch), ∃ delay, noLater delay timeout = true
    ∧ (ask (earlier.foldl (fun source request => (ask source request).2) source) request).1
      = ⟨.ok (Memory.slice rows request), some delay, none⟩

theorem Serves.ending {timeout : Option Nat} (serves : Serves ask timeout rows source)
    (request : Sql.Fetch) :
    (ask source request).1.ending timeout
      = .answered (.ok (Memory.slice rows request)) false := by
  obtain ⟨delay, intime, run⟩ := serves [] request
  rw [List.foldl_nil] at run
  have never : noLater delay none = true := rfl
  rw [run]
  simp [PageRun.ending, intime, never]

theorem Serves.next {timeout : Option Nat} (serves : Serves ask timeout rows source)
    (request : Sql.Fetch) : Serves ask timeout rows (ask source request).2 :=
  fun earlier => serves (request :: earlier)

/-- The requests for some pages from the first one on. -/
def requestsFrom (query : Sql.Fetch) (chunk first count : Nat) : List Sql.Fetch :=
  (List.range' first count).map fun page => query.page chunk (page * chunk)

theorem requestsFrom_succ (query : Sql.Fetch) (chunk first count : Nat) :
    requestsFrom query chunk first (count + 1)
      = query.page chunk (first * chunk) :: requestsFrom query chunk (first + 1) count := by
  rw [requestsFrom, List.range'_succ, List.map_cons, requestsFrom]

/-- While only full pages came, the rows gathered are the table up to the next page. The page that
ends the table has the number `rows.length / limits.chunkSize`. -/
theorem Serves.pages (positive : 0 < limits.chunkSize)
    (serves : Serves ask limits.timeout rows source) (query : Sql.Fetch)
    (within : page * limits.chunkSize ≤ rows.length) (left : Nat) :
    let finished := Export.pages ask limits query page (rows.take (page * limits.chunkSize)) false
      source left
    let last := rows.length / limits.chunkSize
    (last < page + left →
        finished.result = some (.ok rows)
          ∧ finished.requests = requestsFrom query limits.chunkSize page (last + 1 - page))
      ∧ (page + left ≤ last →
        finished.result = some (.error (.exportPageLimit limits.maxPages))
          ∧ finished.requests = requestsFrom query limits.chunkSize page left) := by
  have reached : page ≤ rows.length / limits.chunkSize := (Nat.le_div_iff_mul_le positive).2 within
  induction left generalizing page source with
  | zero =>
    refine ⟨fun beyond => ?_, fun _ => ⟨rfl, rfl⟩⟩
    omega
  | succ left ih =>
    have ended := serves.ending (query.page limits.chunkSize (page * limits.chunkSize))
    have batch : Memory.slice rows (query.page limits.chunkSize (page * limits.chunkSize))
        = (rows.drop (page * limits.chunkSize)).take limits.chunkSize := rfl
    rw [batch] at ended
    have onward : (page + 1) * limits.chunkSize = page * limits.chunkSize + limits.chunkSize :=
      Nat.succ_mul _ _
    by_cases short : rows.length < (page + 1) * limits.chunkSize
    · have last : rows.length / limits.chunkSize = page := by
        have below := (Nat.div_lt_iff_lt_mul positive).2 short
        omega
      have ends : ((rows.drop (page * limits.chunkSize)).take limits.chunkSize).length
          < limits.chunkSize := by
        rw [List.length_take, List.length_drop]
        omega
      have all : (rows.drop (page * limits.chunkSize)).take limits.chunkSize
          = rows.drop (page * limits.chunkSize) := by
        apply List.take_of_length_le
        rw [List.length_drop]
        omega
      rw [pages_of_short ended ends, all, List.take_append_drop, last]
      refine ⟨fun _ => ⟨rfl, ?_⟩, fun beyond => ?_⟩
      · rw [Nat.add_sub_cancel_left]
        rfl
      · omega
    · have within' : (page + 1) * limits.chunkSize ≤ rows.length := Nat.not_lt.1 short
      have reached' : page + 1 ≤ rows.length / limits.chunkSize :=
        (Nat.le_div_iff_mul_le positive).2 within'
      have full : limits.chunkSize
          ≤ ((rows.drop (page * limits.chunkSize)).take limits.chunkSize).length := by
        rw [List.length_take, List.length_drop]
        omega
      have gathered : rows.take (page * limits.chunkSize)
          ++ (rows.drop (page * limits.chunkSize)).take limits.chunkSize
          = rows.take ((page + 1) * limits.chunkSize) := by
        rw [onward, List.take_add]
      rw [pages_of_full ended full, gathered]
      obtain ⟨done, stopped⟩ := ih (serves.next _) within' reached'
      constructor
      · intro beyond
        obtain ⟨result, requests⟩ := done (by omega)
        refine ⟨result, ?_⟩
        have one : rows.length / limits.chunkSize + 1 - page
            = rows.length / limits.chunkSize + 1 - (page + 1) + 1 := by omega
        rw [one, requestsFrom_succ]
        exact congrArg _ requests
      · intro beyond
        obtain ⟨result, requests⟩ := stopped (by omega)
        refine ⟨result, ?_⟩
        rw [requestsFrom_succ]
        exact congrArg _ requests

/-- An export of a table at rest gives the table in order when its last page, which is never full,
is within the page limit, and the page limit as a fault otherwise. Either way the pages are asked
for one behind the other, and nothing but limit and offset differs from the query; a limit or an
offset that the query has does not count. -/
theorem all_of_serves (positive : 0 < limits.chunkSize)
    (serves : Serves ask limits.timeout rows source) (query : Sql.Fetch) :
    let finished := all ask limits query false source
    let requests := fun count => (List.range count).map fun page =>
      { query with limit := some limits.chunkSize, offset := some (page * limits.chunkSize) }
    (rows.length / limits.chunkSize < limits.maxPages →
        finished.result = some (.ok rows)
          ∧ finished.requests = requests (rows.length / limits.chunkSize + 1))
      ∧ (limits.maxPages ≤ rows.length / limits.chunkSize →
        finished.result = some (.error (.exportPageLimit limits.maxPages))
          ∧ finished.requests = requests limits.maxPages)
      ∧ ∀ limit offset, all ask limits { query with limit, offset } false source = finished := by
  intro finished requests
  have start : finished = pages ask limits query 0 [] false source limits.maxPages := by
    simp [finished, all, Nat.ne_of_gt positive]
  have counted : ∀ count, requestsFrom query limits.chunkSize 0 count = requests count := by
    intro count
    simp only [requests, List.range_eq_range']
    rfl
  have within : 0 * limits.chunkSize ≤ rows.length := by
    rw [Nat.zero_mul]
    exact Nat.zero_le _
  have ends := serves.pages positive query within limits.maxPages
  simp only [Nat.zero_mul, List.take_zero, Nat.zero_add, Nat.sub_zero, ← start, counted] at ends
  refine ⟨ends.1, ends.2, fun limit offset => ?_⟩
  have same : ∀ limit' offset', ({ query with limit, offset } : Sql.Fetch).page limit' offset'
      = query.page limit' offset' := fun _ _ => rfl
  rw [start]
  simp only [all, Nat.ne_of_gt positive, if_false]
  exact pages_congr same

/-- Four rows in chunks of two: the third page is empty and ends the export; a limit of two pages
stops it before. -/
theorem all_of_serves_exact_multiple :
    let row : Row := .ofList [("id", .string "a")]
    let rows := [row, row, row, row]
    let query := Sql.Fetch.ofTable "calls" "*"
    let enough : Limits := ⟨2, 3, none⟩
    let scarce : Limits := ⟨2, 2, none⟩
    let finished := all (Memory.ask rows) enough { query with limit := some 1 } false []
    finished.result = some (.ok rows)
      ∧ finished.requests = [query.page 2 0, query.page 2 2, query.page 2 4]
      ∧ (all (Memory.ask rows) scarce query false []).result
        = some (.error (.exportPageLimit 2)) := by
  intro row rows query enough scarce finished
  have serves : Serves (Memory.ask rows) none rows [] := by
    intro earlier request
    have idle :
        earlier.foldl (fun source request => (Memory.ask rows source request).2) [] = [] := by
      induction earlier with
      | nil => rfl
      | cons _ rest ih => exact ih
    rw [idle]
    exact ⟨0, rfl, rfl⟩
  have positive : 0 < enough.chunkSize := by decide
  have positive' : 0 < scarce.chunkSize := by decide
  obtain ⟨complete, -, same⟩ := all_of_serves positive serves query
  obtain ⟨result, requests⟩ := complete (by decide)
  obtain ⟨-, stops, -⟩ := all_of_serves positive' serves query
  have plain : finished = all (Memory.ask rows) enough query false [] := same (some 1) none
  have three : rows.length / enough.chunkSize + 1 = 3 := by decide
  rw [three] at requests
  rw [plain]
  exact ⟨result, requests.trans rfl, (stops (by decide)).1⟩

end ScopedQuery.Export
