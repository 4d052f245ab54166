import Mathlib.Algebra.Order.BigOperators.Group.List
import Mathlib.Algebra.Order.Ring.Nat
import ScopedQuery.Proofs.Page.Exporting
/-!
# Offsets of exports

An export multiplies the number of a page by the chunk size to say where the page begins. It asks
for a page only after full ones, so the offset never lies behind the rows that it holds, whatever
the source does and however large the numbers are that it was set up with. Hence the product fits a
word as long as the number of these rows does.
-/

namespace ScopedQuery.Export

variable {σ : Type} {ask : σ → Sql.Fetch → PageRun × σ} {limits : Limits} {query : Sql.Fetch}
  {request : Sql.Fetch} {earlier later : List Sql.Fetch} {gathered rows : List Row} {source : σ}
  {cancelled : Bool} {page left : Nat}

/-- What comes for some requests that are made one after the other. -/
def batches (ask : σ → Sql.Fetch → PageRun × σ) (timeout : Option Nat) (source : σ) :
    List Sql.Fetch → List (List Row)
  | [] => []
  | request :: rest =>
    ((ask source request).1.ending timeout).received
      :: batches ask timeout (ask source request).2 rest

theorem length_batches (timeout : Option Nat) (requests : List Sql.Fetch) :
    (batches ask timeout source requests).length = requests.length := by
  induction requests generalizing source with
  | nil => rfl
  | cons request rest ih => rw [batches, List.length_cons, ih, List.length_cons]

/-! ### The run -/

/-- A page that another one follows is full. -/
theorem pages_split
    (split : (pages ask limits query page gathered cancelled source left).requests
      = earlier ++ request :: later) :
    request = query.page limits.chunkSize ((page + earlier.length) * limits.chunkSize)
      ∧ earlier.length < left
      ∧ ∀ batch ∈ batches ask limits.timeout source earlier, limits.chunkSize ≤ batch.length := by
  induction left generalizing page gathered cancelled source earlier with
  | zero => simp [pages] at split
  | succ left ih =>
    rcases pages_step ask limits query page gathered cancelled source left with
      ⟨requests, -⟩ | ⟨requests, -⟩ | ⟨cancelled', full, onward⟩
    · rw [requests] at split
      simp at split
    · rw [requests] at split
      cases earlier with
      | nil =>
        obtain ⟨rfl, -⟩ := List.cons.inj split
        exact ⟨rfl, Nat.succ_pos left, List.forall_mem_nil _⟩
      | cons first earlier => simp at split
    · rw [onward] at split
      dsimp only at split
      cases earlier with
      | nil =>
        obtain ⟨rfl, -⟩ := List.cons.inj split
        exact ⟨rfl, Nat.succ_pos left, List.forall_mem_nil _⟩
      | cons first earlier =>
        obtain ⟨asked, within, others⟩ := ih (List.cons.inj split).2
        obtain ⟨rfl, -⟩ := List.cons.inj split
        refine ⟨?_, Nat.succ_lt_succ within, List.forall_mem_cons.2 ⟨full, others⟩⟩
        rw [asked, List.length_cons, Nat.add_right_comm, Nat.add_assoc]

theorem pages_gathered
    (result : (pages ask limits query page gathered cancelled source left).result
      = some (.ok rows)) :
    rows = gathered ++ (batches ask limits.timeout source
      (pages ask limits query page gathered cancelled source left).requests).flatten := by
  induction left generalizing page gathered cancelled source with
  | zero => cases result
  | succ left ih =>
    rcases pages_step ask limits query page gathered cancelled source left with
      ⟨-, -, none⟩ | ⟨requests, -, last⟩ | ⟨cancelled', -, onward⟩
    · exact absurd result (none rows)
    · rw [last rows result, requests]
      simp [batches]
    · rw [onward] at result ⊢
      rw [ih result, batches, List.flatten_cons, List.append_assoc]

/-! ### Counting -/

theorem le_length_flatten {batches : List (List Row)} {chunk : Nat}
    (full : ∀ batch ∈ batches, chunk ≤ batch.length) :
    batches.length * chunk ≤ batches.flatten.length := by
  have sum := List.card_nsmul_le_sum (batches.map List.length) chunk (by simpa using full)
  rw [List.length_map, Nat.nsmul_eq_mul] at sum
  rw [List.length_flatten]
  exact sum

theorem length_flatten_le {batches : List (List Row)} {chunk : Nat}
    (within : ∀ batch ∈ batches, batch.length ≤ chunk) :
    batches.flatten.length ≤ batches.length * chunk := by
  have sum := List.sum_le_card_nsmul (batches.map List.length) chunk (by simpa using within)
  rw [List.length_map, Nat.nsmul_eq_mul] at sum
  rw [List.length_flatten]
  exact sum

/-- A product of words is exact when it fits a word, also when a factor does not. -/
theorem toNat_mul_ofNat {first second : Nat} (fits : first * second < 2 ^ 64) :
    (UInt64.ofNat first * UInt64.ofNat second).toNat = first * second := by
  rw [UInt64.toNat_mul, UInt64.toNat_ofNat', UInt64.toNat_ofNat', ← Nat.mul_mod,
    Nat.mod_eq_of_lt fits]

/-! ### Offsets -/

/-- Every page is asked for at an offset that does not lie behind the rows gathered before it, and
that is their number when no page gave more rows than it was asked for. While these rows can be
counted in a word of 64 bits, the product that gives the offset does not overflow one. What is
counted here is what the export gives in the end. -/
theorem offset_le_gathered (ask : σ → Sql.Fetch → PageRun × σ) (limits : Limits)
    (query : Sql.Fetch) (cancelled : Bool) (source : σ) :
    let finished := all ask limits query cancelled source
    let batches := batches ask limits.timeout source
    (∀ earlier request later, finished.requests = earlier ++ request :: later →
        let page := earlier.length
        let gathered := (batches earlier).flatten
        request = query.page limits.chunkSize (page * limits.chunkSize)
          ∧ page < limits.maxPages
          ∧ page * limits.chunkSize ≤ gathered.length
          ∧ ((∀ batch ∈ batches earlier, batch.length ≤ limits.chunkSize) →
            page * limits.chunkSize = gathered.length)
          ∧ (gathered.length < 2 ^ 64 →
            page * limits.chunkSize < 2 ^ 64
              ∧ request.offset
                = some (UInt64.ofNat page * UInt64.ofNat limits.chunkSize).toNat))
      ∧ ∀ rows, finished.result = some (.ok rows) → rows = (batches finished.requests).flatten := by
  intro finished batches
  by_cases zero : limits.chunkSize = 0
  · have none : finished = ⟨some (.error .invalidPageSize), [], source⟩ := if_pos zero
    rw [none]
    refine ⟨fun earlier request later split => ?_, nofun⟩
    simp at split
  have start : finished = pages ask limits query 0 [] cancelled source limits.maxPages :=
    if_neg zero
  rw [start]
  constructor
  · intro earlier request later split page gathered
    obtain ⟨asked, within, full⟩ := pages_split split
    rw [Nat.zero_add] at asked
    have count : (batches earlier).length = page := length_batches limits.timeout earlier
    have least : page * limits.chunkSize ≤ gathered.length := count ▸ le_length_flatten full
    refine ⟨asked, within, least, fun obeyed => ?_, fun few => ?_⟩
    · exact Nat.le_antisymm least (count ▸ length_flatten_le obeyed)
    · have fits := Nat.lt_of_le_of_lt least few
      rw [toNat_mul_ofNat fits, asked]
      exact ⟨fits, rfl⟩
  · intro rows result
    exact pages_gathered result

/-- A source that gives five rows for a page of two, so that the second page begins in the middle of
what it gave for the first. -/
theorem offset_le_gathered_of_large_page :
    let row : Row := .ofList [("id", .string "a")]
    let rows := [row, row, row, row, row]
    let source : List Memory.Action := [{ Memory.Action.plain with serves := some 5 }]
    let limits : Limits := ⟨2, 3, none⟩
    let query := Sql.Fetch.ofTable "calls" "*"
    let finished := all (Memory.ask rows) limits query false source
    let gathered := (batches (Memory.ask rows) none source [query.page 2 0]).flatten
    finished.requests = [query.page 2 0, query.page 2 2, query.page 2 4]
      ∧ gathered = rows
      ∧ 1 * 2 ≤ gathered.length
      ∧ (query.page 2 2).offset = some (UInt64.ofNat 1 * UInt64.ofNat 2).toNat := by
  intro row rows source limits query finished gathered
  have asked : finished.requests = [query.page 2 0, query.page 2 2, query.page 2 4] := by rfl
  have all : gathered = rows := by rfl
  obtain ⟨split, -⟩ := offset_le_gathered (Memory.ask rows) limits query false source
  obtain ⟨-, -, least, -, word⟩ := split [query.page 2 0] (query.page 2 2) [query.page 2 4] asked
  refine ⟨asked, all, least, (word ?_).2⟩
  show gathered.length < 2 ^ 64
  rw [all]
  decide

end ScopedQuery.Export
