import Mathlib.Data.List.InsertIdx
import ScopedQuery.Page.Memory
import ScopedQuery.Proofs.Page.Flight
import ScopedQuery.Proofs.Page.Slices
/-!
# Paging while rows are inserted

A pager in front of a table into which rows are inserted at any time and place: between requests,
while a request is under way, and while its page is on the way back. The source reads the page of a
call from the table as it then is. However often calls fail, are dropped or are skipped, once a
page comes that is not full the pager holds every row that the table had when the page of the reset
was read, once and in order.
-/

namespace ScopedQuery.Pager

structure Scene where
  /-- What has happened at the desk, from its beginning. -/
  events : List Event
  table : List Row
  /-- For a call whose page has been read, the table as it was then. -/
  views : Nat → Option (List Row)

inductive Move
  | insert (position : Nat) (row : Row)
  | loadMore
  /-- The source reads the page of a call. -/
  | read (call : Nat)
  /-- The page of a call comes, when it has been read. -/
  | answer (call : Nat)
  | fail (call : Nat) (fault : Fault)
  | abandon (call : Nat)

namespace Scene

/-- A reset has just been started. -/
def start (past : List Event) (query : Sql.Fetch) (table : List Row) : Scene :=
  ⟨past ++ [.reset query], table, fun _ => none⟩

def desk (pager : Pager) (scene : Scene) : Desk := .run pager scene.events

def account (pager : Pager) (scene : Scene) : Account := .ofRun pager scene.events

def meet (scene : Scene) (event : Event) : Scene :=
  { scene with events := scene.events ++ [event] }

def step (pager : Pager) (scene : Scene) : Move → Scene
  | .insert position row => { scene with table := scene.table.insertIdx position row }
  | .loadMore => scene.meet .loadMore
  | .read call =>
    match (scene.desk pager).ticket? call with
    | none => scene
    | some _ =>
      { scene with
        views := fun other => if other = call then some scene.table else scene.views other }
  | .answer call =>
    match (scene.desk pager).ticket? call, scene.views call with
    | some ticket, some view => scene.meet (.finish call (.ok (Memory.slice view ticket.request)))
    | _, _ => scene
  | .fail call fault => scene.meet (.finish call (.error fault))
  | .abandon call => scene.meet (.abandon call)

/-- A row may be inserted when it has a key that no row of the table has. -/
def Admits (pager : Pager) (scene : Scene) : Move → Prop
  | .insert _ row =>
    pager.key? row ≠ none ∧ ∀ other ∈ scene.table, pager.key? other ≠ pager.key? row
  | _ => True

def Allowed (pager : Pager) : Scene → List Move → Prop
  | _, [] => True
  | scene, move :: rest => scene.Admits pager move ∧ Allowed pager (scene.step pager move) rest

def run (pager : Pager) (scene : Scene) (moves : List Move) : Scene :=
  moves.foldl (step pager) scene

variable {pager : Pager} {scene : Scene} {first : Nat}

theorem desk_meet (event : Event) :
    (scene.meet event).desk pager = (scene.desk pager).step pager event :=
  Desk.run_concat scene.events event

theorem account_meet (event : Event) :
    (scene.meet event).account pager = (scene.account pager).after (scene.desk pager) event :=
  Account.ofRun_concat pager scene.events event

theorem sound (pager : Pager) (scene : Scene) : (scene.desk pager).Sound :=
  Desk.sound_run pager scene.events

theorem describes (pager : Pager) (scene : Scene) :
    (scene.account pager).Describes pager (scene.desk pager) :=
  Account.describes_run pager scene.events

theorem steady (pager : Pager) (scene : Scene) :
    (scene.account pager).Steady pager (scene.desk pager) :=
  Account.steady_run pager scene.events

theorem views_read {call other : Nat} {view : List Row}
    (isView : (scene.step pager (.read call)).views other = some view) :
    other = call ∧ view = scene.table ∨ scene.views other = some view := by
  simp only [step] at isView
  split at isView
  · exact .inr isView
  · dsimp only at isView
    split at isView
    · next same =>
      cases isView
      exact .inl ⟨same, rfl⟩
    · exact .inr isView

/-! ### What every scene keeps -/

/-- The pages that came since the reset, whose call has the number `first`, cover a table that has
grown from the one it read. -/
structure Reached (pager : Pager) (first : Nat) (scene : Scene) (original latest : List Row) :
    Prop where
  read : scene.views first = some original
  covers : pager.Covers original latest (scene.account pager).pages
  within : latest.Sublist scene.table
  /-- What has been read for the call in flight is not older than the pages. -/
  ahead : ∀ call view, (scene.account pager).InFlight (scene.desk pager) call →
    scene.views call = some view → latest.Sublist view

structure Tracks (pager : Pager) (first : Nat) (scene : Scene) : Prop where
  since : (scene.account pager).since = first
  keyed : pager.Keyed scene.table
  views : ∀ call view, scene.views call = some view → view.Sublist scene.table
  unread : ∀ call, (scene.desk pager).started ≤ call → scene.views call = none
  reached : (scene.account pager).pages ≠ [] →
    ∃ original latest, Reached pager first scene original latest

theorem tracks_start (pager : Pager) (past : List Event) (query : Sql.Fetch) {table : List Row}
    (keyed : pager.Keyed table) :
    Tracks pager (Desk.run pager past).started (start past query table) := by
  have account : (start past query table).account pager
      = (Account.ofRun pager past).after (Desk.run pager past) (.reset query) :=
    Account.ofRun_concat pager past _
  refine ⟨by rw [account]; rfl, keyed, by simp [start], fun _ _ => rfl, fun came => ?_⟩
  rw [account] at came
  exact absurd rfl came

/-- An event that brings no page. -/
theorem Tracks.meet (tracks : Tracks pager first scene) {event : Event}
    (since : ((scene.account pager).after (scene.desk pager) event).since
      = (scene.account pager).since)
    (pages : ((scene.account pager).after (scene.desk pager) event).pages
      = (scene.account pager).pages) :
    Tracks pager first (scene.meet event) := by
  have sound := scene.sound pager
  refine ⟨?_, tracks.keyed, tracks.views, ?_, ?_⟩
  · rw [account_meet, since]
    exact tracks.since
  · intro call later
    rw [desk_meet] at later
    exact tracks.unread call ((Desk.started_le_step pager _ event).trans later)
  · rw [account_meet, pages]
    intro came
    obtain ⟨original, latest, reached⟩ := tracks.reached came
    refine ⟨original, latest, reached.read, ?_, reached.within, fun call view flight isView => ?_⟩
    · rw [account_meet, pages]
      exact reached.covers
    · rw [account_meet, desk_meet] at flight
      rcases Account.inFlight_step sound flight with before | started
      · exact reached.ahead call view before isView
      · have unread := tracks.unread call started
        exact absurd (unread.symm.trans isView) (Option.some_ne_none view).symm

theorem Tracks.insert (tracks : Tracks pager first scene) {row : Row} (position : Nat)
    (admits : scene.Admits pager (.insert position row)) :
    Tracks pager first (scene.step pager (.insert position row)) := by
  have grown : scene.table.Sublist (scene.table.insertIdx position row) :=
    List.sublist_insertIdx _ _ _
  refine ⟨tracks.since, tracks.keyed.insert admits.1 admits.2 position, ?_, tracks.unread, ?_⟩
  · exact fun call view isView => (tracks.views call view isView).trans grown
  · intro came
    obtain ⟨original, latest, reached⟩ := tracks.reached came
    exact ⟨original, latest, { reached with within := reached.within.trans grown }⟩

theorem Tracks.read (tracks : Tracks pager first scene) (call : Nat) :
    Tracks pager first (scene.step pager (.read call)) := by
  have seen := @views_read pager scene call
  simp only [step] at seen ⊢
  cases held : (scene.desk pager).ticket? call with
  | none => exact tracks
  | some ticket =>
    simp only [held] at seen
    have elsewhere : ∀ other, other ≠ call →
        (if other = call then some scene.table else scene.views other) = scene.views other :=
      fun other different => if_neg different
    refine ⟨tracks.since, tracks.keyed, ?_, ?_, ?_⟩
    · intro other view isView
      rcases seen isView with ⟨-, now⟩ | before
      · rw [now]
      · exact tracks.views other view before
    · intro other later
      have before := (scene.sound pager).numbers call ticket held
      have different : other ≠ call := by
        change (scene.desk pager).started ≤ other at later
        omega
      exact (elsewhere other different).trans (tracks.unread other later)
    · intro came
      obtain ⟨original, latest, reached⟩ := tracks.reached came
      have different : first ≠ call := by
        intro same
        have since := tracks.since
        have flight : (scene.account pager).InFlight (scene.desk pager) call :=
          Account.inFlight_iff.2 ⟨ticket, held, by omega⟩
        exact came (((scene.steady pager).first call flight).1 (by omega))
      refine ⟨original, latest, ?_, reached.covers, reached.within, ?_⟩
      · exact (elsewhere first different).trans reached.read
      · intro other view flight isView
        rcases seen isView with ⟨-, now⟩ | before
        · rw [now]
          exact reached.within
        · exact reached.ahead other view flight before

/-- The page of the call in flight comes. -/
theorem Tracks.page (tracks : Tracks pager first scene) {call : Nat} {ticket : Ticket}
    {view : List Row} (held : (scene.desk pager).ticket? call = some ticket)
    (isView : scene.views call = some view)
    (flight : (scene.account pager).InFlight (scene.desk pager) call) :
    Tracks pager first
      (scene.meet (.finish call (.ok (Memory.slice view ticket.request)))) := by
  have sound := scene.sound pager
  have describes := scene.describes pager
  have steady := scene.steady pager
  have live := describes.live_iff.2 flight
  obtain ⟨query, -, request⟩ := steady.request call ticket held flight.2
  have fetched : (scene.account pager).fetched = (scene.account pager).pages.flatten.length :=
    List.length_flatten.symm
  have slice : Memory.slice view ticket.request
      = (view.drop (scene.account pager).pages.flatten.length).take pager.pageSize := by
    rw [request, fetched]
    rfl
  have account : (scene.account pager).after (scene.desk pager)
      (.finish call (.ok (Memory.slice view ticket.request)))
      = { scene.account pager with
          pages := (scene.account pager).pages ++ [Memory.slice view ticket.request]
          failure := none } := if_pos flight
  have keyed : pager.Keyed view := tracks.keyed.sublist (tracks.views call view isView)
  have before : ∃ original latest, scene.views first = some original
      ∧ pager.Covers original latest (scene.account pager).pages ∧ latest.Sublist view := by
    by_cases came : (scene.account pager).pages = []
    · have isFirst : call = first := ((steady.first call flight).2 came).trans tracks.since
      rw [came]
      exact ⟨view, view, isFirst ▸ isView, covers_nil keyed, List.Sublist.refl view⟩
    · obtain ⟨original, latest, read, covers, -, ahead⟩ := tracks.reached came
      exact ⟨original, latest, read, covers, ahead call view flight isView⟩
  obtain ⟨original, latest, read, covers, grown⟩ := before
  refine ⟨?_, tracks.keyed, tracks.views, ?_, fun _ => ?_⟩
  · rw [account_meet, account]
    exact tracks.since
  · intro other later
    rw [desk_meet] at later
    exact tracks.unread other ((Desk.started_le_step pager _ _).trans later)
  · refine ⟨original, view, read, ?_, tracks.views call view isView, ?_⟩
    · rw [account_meet, account, slice]
      exact covers.next grown keyed
    · intro other otherView flight'
      rw [account_meet, account, desk_meet, Desk.step_finish_ok live] at flight'
      exact absurd flight' (describes.nobody sound flight _ other)

theorem Tracks.answer (tracks : Tracks pager first scene) (call : Nat) :
    Tracks pager first (scene.step pager (.answer call)) := by
  simp only [step]
  cases held : (scene.desk pager).ticket? call with
  | none => exact tracks
  | some ticket =>
    cases isView : scene.views call with
    | none => exact tracks
    | some view =>
      by_cases flight : (scene.account pager).InFlight (scene.desk pager) call
      · exact tracks.page held isView flight
      · have nothing : (scene.account pager).after (scene.desk pager)
            (.finish call (.ok (Memory.slice view ticket.request))) = scene.account pager :=
          if_neg flight
        exact tracks.meet (by rw [nothing]) (by rw [nothing])

theorem Tracks.step (tracks : Tracks pager first scene) {move : Move}
    (admits : scene.Admits pager move) : Tracks pager first (scene.step pager move) := by
  cases move with
  | insert position row => exact tracks.insert position admits
  | loadMore => exact tracks.meet rfl rfl
  | read call => exact tracks.read call
  | answer call => exact tracks.answer call
  | fail call fault =>
    refine tracks.meet ?_ ?_
    · rw [Account.after]
      split <;> rfl
    · rw [Account.after]
      split <;> rfl
  | abandon call => exact tracks.meet rfl rfl

theorem Tracks.run (tracks : Tracks pager first scene) {moves : List Move}
    (allowed : scene.Allowed pager moves) : Tracks pager first (scene.run pager moves) := by
  induction moves generalizing scene with
  | nil => exact tracks
  | cons move rest ih => exact ih (tracks.step allowed.1) allowed.2

/-! ### Tables at rest -/

/-- Nothing has been inserted. -/
structure Rests (rows : List Row) (scene : Scene) : Prop where
  table : scene.table = rows
  views : ∀ call view, scene.views call = some view → view = rows

theorem rests_start (past : List Event) (query : Sql.Fetch) (rows : List Row) :
    Rests rows (start past query rows) :=
  ⟨rfl, fun call view isView => absurd isView (by simp [start])⟩

theorem Rests.step {rows : List Row} (rests : Rests rows scene) {move : Move}
    (still : ∀ position row, move ≠ .insert position row) :
    Rests rows (scene.step pager move) := by
  cases move with
  | insert position row => exact absurd rfl (still position row)
  | loadMore => exact ⟨rests.table, rests.views⟩
  | read call =>
    have unchanged : (scene.step pager (.read call)).table = scene.table := by
      simp only [Scene.step]
      split <;> rfl
    refine ⟨unchanged.trans rests.table, fun other view isView => ?_⟩
    rcases views_read isView with ⟨-, now⟩ | before
    · exact now.trans rests.table
    · exact rests.views other view before
  | answer call =>
    simp only [Scene.step]
    split
    · exact ⟨rests.table, rests.views⟩
    · exact rests
  | fail call fault => exact ⟨rests.table, rests.views⟩
  | abandon call => exact ⟨rests.table, rests.views⟩

theorem Rests.run {rows : List Row} (rests : Rests rows scene) {moves : List Move}
    (still : ∀ position row, .insert position row ∉ moves) :
    Rests rows (scene.run pager moves) := by
  induction moves generalizing scene with
  | nil => exact rests
  | cons move rest ih =>
    refine ih (rests.step fun position row equal => ?_) fun position row member => ?_
    · exact still position row (equal ▸ List.mem_cons_self)
    · exact still position row (List.mem_cons_of_mem _ member)

end Scene

/-- Inserts during paging lose nothing and duplicate nothing. Let rows with fresh keys be inserted
into a table with keys, at any time and place, while a pager that was reset, with whatever past, is
asked for more. Once a page has come that was not full, the pager holds every row that the table had
when the page of the reset was read, once, in the order of the table, and no key twice. If nothing
was inserted it holds the table, and the pages are as many as the table takes. -/
theorem rows_of_growing_table (pager : Pager) (past : List Event) (query : Sql.Fetch)
    (table : List Row) (moves : List Move) (keyed : pager.Keyed table)
    (allowed : (Scene.start past query table).Allowed pager moves) :
    let scene := (Scene.start past query table).run pager moves
    let state := (scene.desk pager).state
    let pages := (scene.account pager).pages
    pages ≠ [] → state.hasMore = false →
      ∃ original, scene.views (Desk.run pager past).started = some original
        ∧ original.Sublist state.rows
        ∧ (∀ row ∈ original,
          state.rows.filter (fun other => pager.key? other = pager.key? row) = [row])
        ∧ (state.rows.map pager.key?).Nodup
        ∧ ((∀ position row, .insert position row ∉ moves) →
          state.rows = table ∧ pages.length = table.length / pager.pageSize + 1) := by
  intro scene state pages came finished
  have tracks := (Scene.tracks_start pager past query keyed).run allowed
  have describes := scene.describes pager
  have steady := scene.steady pager
  obtain ⟨original, latest, read, covers, grown, -⟩ := tracks.reached came
  obtain ⟨page, last⟩ := Option.ne_none_iff_exists'.1 (mt List.getLast?_eq_none_iff.1 came)
  have short : page.length ≠ pager.pageSize := by
    have hasMore := describes.hasMore.symm.trans finished
    rw [show (scene.account pager).pages.getLast? = some page from last] at hasMore
    simpa using hasMore
  have rows : state.rows = pager.distinct pages.flatten := describes.rows
  have held := covers.complete last short
  have keyedRows := covers.keyed_distinct
  have sublist : original.Sublist (pager.distinct pages.flatten) := by
    rw [← held]
    exact List.filter_sublist
  rw [rows]
  refine ⟨original, read, sublist, ?_, keyedRows.distinct, fun still => ?_⟩
  · intro row member
    exact keyedRows.filter_key (sublist.subset member)
  · have rests : Scene.Rests table scene := (Scene.rests_start past query table).run still
    have isTable : original = table := rests.views _ _ read
    have latestIsTable : latest = table := by
      have within : latest.Sublist table := by
        rw [← rests.table]
        exact grown
      exact within.antisymm (isTable ▸ covers.grown)
    refine ⟨?_, ?_⟩
    · have everything : (pager.distinct pages.flatten).filter (pager.repeats original)
          = pager.distinct pages.flatten := by
        rw [List.filter_eq_self]
        intro row member
        have inLatest := covers.within row (covers.mem_distinct.1 member)
        apply (covers.keyed.repeats_iff covers.grown.subset inLatest).2
        rw [isTable, ← latestIsTable]
        exact inLatest
      rw [← everything, held, isTable]
    · rw [← latestIsTable]
      exact covers.length_pages last short steady.full

/-- A row is inserted in front when the first page has been read, and the second page is asked for
again after a failure: it starts with a row that is held. -/
theorem rows_of_growing_table_of_shift :
    let pager : Pager := ⟨2, "id", by decide⟩
    let row (name : String) : Row := .ofList [("id", .string name)]
    let moves : List Move := [.read 0, .insert 0 (row "c"), .answer 0, .loadMore,
      .fail 1 .invalidPageSize, .loadMore, .read 2, .answer 2]
    let scene := (Scene.start [] (.ofTable "calls" "*") [row "a", row "b"]).run pager moves
    (scene.account pager).pages = [[row "a", row "b"], [row "b"]]
      ∧ [row "a", row "b"].Sublist (scene.desk pager).state.rows := by
  intro pager row moves scene
  have keyed : pager.Keyed [row "a", row "b"] := ⟨by decide, by decide⟩
  have allowed :
      (Scene.start [] (.ofTable "calls" "*") [row "a", row "b"]).Allowed pager moves := by
    refine ⟨trivial, ⟨by decide, by decide⟩, ?_⟩
    simp [Scene.Allowed, Scene.Admits]
  have settled := rows_of_growing_table pager [] (.ofTable "calls" "*") [row "a", row "b"] moves
    keyed allowed
  dsimp only [pager, row, moves, scene] at settled ⊢
  obtain ⟨original, read, held, -⟩ := settled (List.cons_ne_nil _ _) rfl
  cases read
  exact ⟨rfl, held⟩

end ScopedQuery.Pager
