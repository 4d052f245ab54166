import Mathlib.Data.List.Nodup
import Mathlib.Data.List.Perm.Basic
import ScopedQuery.Proofs.Page.Accumulation
/-!
# Slices of a growing table

Pages are cut out of a table one behind the other while rows are inserted into it, so that a row
may be read twice but none is passed over. `Covers` says how far the pages have come: of the rows
that the table held at the first page, those held so far are the first ones, in order, and every
row in front of the next offset is among them.
-/

namespace ScopedQuery.Pager

variable {pager : Pager} {rows table earlier part : List Row} {row : Row}

/-! ### Tables with keys -/

/-- Every row has a key, and no two rows have the same one. -/
structure Keyed (pager : Pager) (rows : List Row) : Prop where
  present : ∀ row ∈ rows, pager.key? row ≠ none
  distinct : (rows.map pager.key?).Nodup

theorem Keyed.sublist (keyed : pager.Keyed rows) (h : part.Sublist rows) : pager.Keyed part where
  present := fun row member => keyed.present row (h.subset member)
  distinct := keyed.distinct.sublist (h.map pager.key?)

theorem Keyed.nodup (keyed : pager.Keyed rows) : rows.Nodup := keyed.distinct.of_map

theorem Keyed.insert (keyed : pager.Keyed rows) (present : pager.key? row ≠ none)
    (fresh : ∀ other ∈ rows, pager.key? other ≠ pager.key? row) (position : Nat) :
    pager.Keyed (rows.insertIdx position row) := by
  have front : pager.Keyed (row :: rows) := by
    refine ⟨List.forall_mem_cons.2 ⟨present, keyed.present⟩, ?_⟩
    rw [List.map_cons, List.nodup_cons]
    refine ⟨fun member => ?_, keyed.distinct⟩
    obtain ⟨other, there, same⟩ := List.mem_map.1 member
    exact fresh other there same
  by_cases inside : position ≤ rows.length
  · have perm := List.perm_insertIdx row rows inside
    refine ⟨fun other member => front.present other (perm.subset member), ?_⟩
    exact (perm.map pager.key?).nodup_iff.2 front.distinct
  · rw [List.insertIdx_of_length_lt (Nat.not_le.1 inside)]
    exact keyed

/-- Among the rows of one table only a row itself repeats its key. -/
theorem Keyed.repeats_iff (keyed : pager.Keyed table) (within : ∀ other ∈ earlier, other ∈ table)
    (member : row ∈ table) : pager.repeats earlier row = true ↔ row ∈ earlier := by
  obtain ⟨key, known⟩ := Option.ne_none_iff_exists'.1 (keyed.present row member)
  simp only [repeats, known, List.any_eq_true, decide_eq_true_eq]
  constructor
  · intro h
    obtain ⟨other, there, same⟩ := h
    have equal := List.inj_on_of_nodup_map keyed.distinct (within other there) member
      (same.trans known.symm)
    exact equal ▸ there
  · exact fun there => ⟨row, there, known⟩

theorem Keyed.mem_distinctAfter (keyed : pager.Keyed table)
    (earlierWithin : ∀ other ∈ earlier, other ∈ table) (within : ∀ other ∈ rows, other ∈ table) :
    row ∈ pager.distinctAfter earlier rows ↔ row ∈ rows ∧ row ∉ earlier := by
  induction rows generalizing earlier with
  | nil => simp [distinctAfter]
  | cons first rest ih =>
    obtain ⟨firstWithin, restWithin⟩ := List.forall_mem_cons.1 within
    have next : ∀ other ∈ earlier ++ [first], other ∈ table := by
      simpa [or_imp, forall_and] using ⟨earlierWithin, firstWithin⟩
    have known := keyed.repeats_iff earlierWithin firstWithin
    have others := ih next restWithin
    rw [List.mem_append, List.mem_singleton] at others
    by_cases old : first ∈ earlier
    · rw [distinctAfter, if_pos (known.2 old), others, List.mem_cons]
      grind
    · rw [distinctAfter, if_neg (mt known.1 old), List.mem_cons, others, List.mem_cons]
      grind

theorem Keyed.nodup_distinctAfter (keyed : pager.Keyed table)
    (earlierWithin : ∀ other ∈ earlier, other ∈ table) (within : ∀ other ∈ rows, other ∈ table) :
    (pager.distinctAfter earlier rows).Nodup := by
  induction rows generalizing earlier with
  | nil => exact List.nodup_nil
  | cons first rest ih =>
    obtain ⟨firstWithin, restWithin⟩ := List.forall_mem_cons.1 within
    have next : ∀ other ∈ earlier ++ [first], other ∈ table := by
      simpa [or_imp, forall_and] using ⟨earlierWithin, firstWithin⟩
    rw [distinctAfter]
    split
    · exact ih next restWithin
    · refine List.nodup_cons.2 ⟨fun member => ?_, ih next restWithin⟩
      have new := ((keyed.mem_distinctAfter next restWithin).1 member).2
      exact new (List.mem_append_right _ (List.mem_singleton.2 rfl))

/-- Rows with keys of their own do not repeat one another. -/
theorem Keyed.distinctAfter_eq (keyed : pager.Keyed rows) (earlier : List Row) :
    pager.distinctAfter earlier rows = rows.filter fun row => !pager.repeats earlier row := by
  induction rows generalizing earlier with
  | nil => rfl
  | cons first rest ih =>
    have same : ∀ other ∈ rest,
        pager.repeats (earlier ++ [first]) other = pager.repeats earlier other := by
      intro other member
      have different : pager.key? first ≠ pager.key? other := by
        intro same
        have fresh := (List.nodup_cons.1 keyed.distinct).1
        exact fresh (List.mem_map.2 ⟨other, member, same.symm⟩)
      cases key : pager.key? other with
      | none => simp [repeats, key]
      | some text =>
        rw [key] at different
        simp [repeats, key, different]
    have others := ih (keyed.sublist (List.sublist_cons_self first rest)) (earlier ++ [first])
    rw [List.filter_congr fun other member => by rw [same other member]] at others
    rw [distinctAfter, others, List.filter_cons]
    cases pager.repeats earlier first <;> rfl

/-! ### Prefixes of a table that grows -/

/-- When rows are inserted, fewer of the rows that were there stand in front of an offset. -/
theorem prefix_filter_take {old new : List Row} (grown : old.Sublist new) {kept : Row → Bool}
    (same : new.filter kept = old.filter kept) (count : Nat) :
    (new.take count).filter kept <+: (old.take count).filter kept := by
  induction grown generalizing count with
  | slnil => exact List.prefix_rfl
  | @cons old new row grown ih =>
    have inserted : kept row = false := by
      by_contra old
      rw [List.filter_cons_of_pos (by simpa using old)] at same
      have shorter := (grown.filter kept).length_le
      have longer := congrArg List.length same
      rw [List.length_cons] at longer
      omega
    have dropped : ¬kept row = true := by simp [inserted]
    rw [List.filter_cons_of_neg dropped] at same
    cases count with
    | zero => exact List.nil_prefix
    | succ count =>
      rw [List.take_succ_cons, List.filter_cons_of_neg dropped]
      exact (ih same count).trans
        ((List.take_prefix_take_left (Nat.le_succ count)).filter kept)
  | @cons_cons old new row grown ih =>
    cases count with
    | zero => exact List.prefix_rfl
    | succ count =>
      rw [List.take_succ_cons, List.take_succ_cons]
      by_cases stays : kept row = true
      · rw [List.filter_cons_of_pos stays, List.filter_cons_of_pos stays] at same ⊢
        exact List.prefix_cons_inj row |>.2 (ih (List.cons.inj same).2 count)
      · rw [List.filter_cons_of_neg stays, List.filter_cons_of_neg stays] at same ⊢
        exact ih same count

/-- A selection of the rows that were there before gives them back in order. -/
theorem filter_eq_of_sublist (grown : part.Sublist table) (nodup : table.Nodup)
    {kept : Row → Bool} (iff : ∀ row ∈ table, kept row = true ↔ row ∈ part) :
    table.filter kept = part := by
  induction grown with
  | slnil => rfl
  | @cons part table row grown ih =>
    obtain ⟨new, nodup⟩ := List.nodup_cons.1 nodup
    obtain ⟨first, others⟩ := List.forall_mem_cons.1 iff
    have dropped : ¬kept row = true := mt first.1 fun member => new (grown.subset member)
    rw [List.filter_cons_of_neg dropped]
    exact ih nodup others
  | @cons_cons part table row grown ih =>
    obtain ⟨new, nodup⟩ := List.nodup_cons.1 nodup
    obtain ⟨first, others⟩ := List.forall_mem_cons.1 iff
    have iff' : ∀ other ∈ table, kept other = true ↔ other ∈ part := by
      intro other member
      have different : other ≠ row := fun equal => new (equal ▸ member)
      rw [others other member, List.mem_cons]
      simp [different]
    rw [List.filter_cons_of_pos (first.2 List.mem_cons_self), ih nodup iff']

theorem Keyed.filter_repeats (keyed : pager.Keyed table) (grown : part.Sublist table) :
    table.filter (pager.repeats part) = part := by
  apply filter_eq_of_sublist grown keyed.nodup
  intro row member
  exact keyed.repeats_iff grown.subset member

/-! ### How far the pages have come -/

/-- The pages have been cut out of a table that has grown from `original` to `latest`. -/
structure Covers (pager : Pager) (original latest : List Row) (pages : List (List Row)) : Prop where
  keyed : pager.Keyed latest
  grown : original.Sublist latest
  within : ∀ row ∈ pages.flatten, row ∈ latest
  /-- The original rows that are held are the first ones, in order. -/
  inOrder : (pager.distinct pages.flatten).filter (pager.repeats original) <+: original
  /-- Those in front of the next offset are held. -/
  reached : (latest.take pages.flatten.length).filter (pager.repeats original)
    <+: (pager.distinct pages.flatten).filter (pager.repeats original)
  bounded : pages.flatten.length ≤ latest.length
  sized : ∀ page ∈ pages, page.length ≤ pager.pageSize
  ended : ∀ page, pages.getLast? = some page → page.length ≠ pager.pageSize →
    pages.flatten.length = latest.length

variable {original latest view : List Row} {pages : List (List Row)}

theorem covers_nil (keyed : pager.Keyed rows) : pager.Covers rows rows [] where
  keyed := keyed
  grown := List.Sublist.refl rows
  within := by simp
  inOrder := List.nil_prefix
  reached := List.nil_prefix
  bounded := Nat.zero_le _
  sized := by simp
  ended := by simp

theorem Covers.mem_distinct (covers : pager.Covers original latest pages) :
    row ∈ pager.distinct pages.flatten ↔ row ∈ pages.flatten := by
  rw [distinct, covers.keyed.mem_distinctAfter (by simp) covers.within]
  simp

/-- Of a page that is read next, the original rows that are new are those that were not held. -/
theorem Covers.filter_page (covers : pager.Covers original latest pages)
    (grown : latest.Sublist view) (keyed : pager.Keyed view) {page : List Row}
    (cut : page.Sublist view) {kept new : List Row}
    (split : page.filter (pager.repeats original) = kept ++ new)
    (old : ∀ row ∈ kept, row ∈ pages.flatten) (fresh : ∀ row ∈ new, row ∉ pages.flatten) :
    (pager.distinctAfter pages.flatten page).filter (pager.repeats original) = new := by
  have within : ∀ row ∈ pages.flatten, row ∈ view :=
    fun row member => grown.subset (covers.within row member)
  have inPage : ∀ row ∈ kept ++ new, row ∈ view := by
    intro row member
    rw [← split] at member
    exact cut.subset (List.mem_of_mem_filter member)
  rw [(keyed.sublist cut).distinctAfter_eq, List.filter_comm, split, List.filter_append]
  have nothing : kept.filter (fun row => !pager.repeats pages.flatten row) = [] := by
    rw [List.filter_eq_nil_iff]
    intro row member
    have known := (keyed.repeats_iff within (inPage row (List.mem_append_left _ member))).2
      (old row member)
    simp [known]
  have everything : new.filter (fun row => !pager.repeats pages.flatten row) = new := by
    rw [List.filter_eq_self]
    intro row member
    have unknown := mt (keyed.repeats_iff within (inPage row (List.mem_append_right _ member))).1
      (fresh row member)
    simp [unknown]
  rw [nothing, everything, List.nil_append]

/-- Original rows behind those that are held have not come. -/
theorem Covers.fresh_of_prefix (covers : pager.Covers original latest pages) {new : List Row}
    (onward : (pager.distinct pages.flatten).filter (pager.repeats original) ++ new <+: original) :
    ∀ row ∈ new, row ∉ pages.flatten := by
  intro row member old
  have nodup : ((pager.distinct pages.flatten).filter (pager.repeats original) ++ new).Nodup :=
    (covers.keyed.sublist (onward.sublist.trans covers.grown)).nodup
  have inOriginal : row ∈ original := onward.subset (List.mem_append_right _ member)
  have isHeld : row ∈ (pager.distinct pages.flatten).filter (pager.repeats original) := by
    refine List.mem_filter.2 ⟨covers.mem_distinct.2 old, ?_⟩
    exact (covers.keyed.repeats_iff covers.grown.subset (covers.within row old)).2 inOriginal
  exact (List.nodup_append.1 nodup).2.2 row isHeld row member rfl

/-- The page behind the offset continues the original rows that are held, or repeats some of
them. -/
theorem Covers.order_next (covers : pager.Covers original latest pages)
    (grown : latest.Sublist view) (keyed : pager.Keyed view) {page : List Row}
    (read : view.take (pages.flatten.length + page.length)
      = view.take pages.flatten.length ++ page) :
    let kept := pager.repeats original
    let held := (pager.distinct pages.flatten).filter kept
      ++ (pager.distinctAfter pages.flatten page).filter kept
    held <+: original
      ∧ (view.take (pages.flatten.length + page.length)).filter kept <+: held := by
  intro kept held
  have cut : page.Sublist view := by
    refine (List.sublist_append_right (view.take pages.flatten.length) page).trans ?_
    rw [← read]
    exact List.take_sublist _ _
  have now : view.filter kept = original := keyed.filter_repeats (covers.grown.trans grown)
  have before : latest.filter kept = original := covers.keyed.filter_repeats covers.grown
  have front : (view.take pages.flatten.length).filter kept
      <+: (pager.distinct pages.flatten).filter kept :=
    (prefix_filter_take grown (now.trans before.symm) _).trans covers.reached
  have upTo : (view.take pages.flatten.length).filter kept ++ page.filter kept <+: original := by
    rw [← List.filter_append, ← read, ← now]
    exact (List.take_prefix _ view).filter kept
  have heldRows : ∀ row ∈ (pager.distinct pages.flatten).filter kept, row ∈ pages.flatten :=
    fun row member => covers.mem_distinct.1 (List.mem_of_mem_filter member)
  obtain ⟨moved, isMoved⟩ := front
  rw [read, List.filter_append]
  rcases List.prefix_or_prefix_of_prefix upTo covers.inOrder with behind | ahead
  · have seen : ∀ row ∈ page.filter kept, row ∈ pages.flatten := fun row member =>
      heldRows row (behind.subset (List.mem_append_right _ member))
    have nothing := covers.filter_page grown keyed cut (List.append_nil _).symm seen (by simp)
    simp only [held, kept, nothing, List.append_nil]
    exact ⟨covers.inOrder, behind⟩
  · obtain ⟨new, isNew⟩ := ahead
    have split : page.filter kept = moved ++ new := by
      rw [← isMoved, List.append_assoc] at isNew
      exact (List.append_cancel_left isNew).symm
    have seen : ∀ row ∈ moved, row ∈ pages.flatten := fun row member =>
      heldRows row (isMoved ▸ List.mem_append_right _ member)
    have onward : (pager.distinct pages.flatten).filter kept ++ new <+: original := by
      rw [isNew]
      exact upTo
    have unseen := covers.fresh_of_prefix onward
    have rest := covers.filter_page grown keyed cut split seen unseen
    simp only [held, kept, rest]
    rw [isNew]
    exact ⟨upTo, List.prefix_rfl⟩

/-- The next page is read where the last one ended, whatever has been inserted in between. -/
theorem Covers.next (covers : pager.Covers original latest pages) (grown : latest.Sublist view)
    (keyed : pager.Keyed view) :
    pager.Covers original view
      (pages ++ [(view.drop pages.flatten.length).take pager.pageSize]) := by
  generalize isPage : (view.drop pages.flatten.length).take pager.pageSize = page
  have behind : page <+: view.drop pages.flatten.length := isPage ▸ List.take_prefix _ _
  have pageLength : page.length = min pager.pageSize (view.length - pages.flatten.length) := by
    rw [← isPage, List.length_take, List.length_drop]
  have read : view.take (pages.flatten.length + page.length)
      = view.take pages.flatten.length ++ page := by
    rw [List.take_add, ← List.prefix_iff_eq_take.1 behind]
  have bounded : pages.flatten.length ≤ view.length := covers.bounded.trans grown.length_le
  obtain ⟨inOrder, reached⟩ := covers.order_next grown keyed read
  have flat : (pages ++ [page]).flatten = pages.flatten ++ page := by simp
  refine ⟨keyed, covers.grown.trans grown, ?_, ?_, ?_, ?_, ?_, ?_⟩
  · intro row member
    rw [flat, List.mem_append] at member
    rcases member with old | new
    · exact grown.subset (covers.within row old)
    · exact List.mem_of_mem_drop (behind.subset new)
  · rw [flat, distinct_append, List.filter_append]
    exact inOrder
  · rw [flat, distinct_append, List.filter_append, List.length_append]
    exact reached
  · rw [flat, List.length_append]
    omega
  · intro other member
    rw [List.mem_append, List.mem_singleton] at member
    rcases member with old | rfl
    · exact covers.sized other old
    · omega
  · intro last isLast short
    rw [List.getLast?_concat, Option.some.injEq] at isLast
    subst isLast
    rw [flat, List.length_append]
    omega

/-- When the last page was not full all original rows are held, in order. -/
theorem Covers.complete (covers : pager.Covers original latest pages) {page : List Row}
    (last : pages.getLast? = some page) (short : page.length ≠ pager.pageSize) :
    (pager.distinct pages.flatten).filter (pager.repeats original) = original := by
  have all : original <+: (pager.distinct pages.flatten).filter (pager.repeats original) := by
    have reached := covers.reached
    rwa [covers.ended page last short, List.take_length,
      covers.keyed.filter_repeats covers.grown] at reached
  exact covers.inOrder.eq_of_length_le all.length_le

theorem Covers.keyed_distinct (covers : pager.Covers original latest pages) :
    pager.Keyed (pager.distinct pages.flatten) where
  present := fun row member =>
    covers.keyed.present row (covers.within row (covers.mem_distinct.1 member))
  distinct := by
    refine List.Nodup.map_on ?_ (covers.keyed.nodup_distinctAfter (by simp) covers.within)
    intro row member other member' same
    exact List.inj_on_of_nodup_map covers.keyed.distinct
      (covers.within row (covers.mem_distinct.1 member))
      (covers.within other (covers.mem_distinct.1 member')) same

/-- A row of a table with keys is the only one with its key. -/
theorem Keyed.filter_key (keyed : pager.Keyed rows) (member : row ∈ rows) :
    rows.filter (fun other => pager.key? other = pager.key? row) = [row] := by
  apply filter_eq_of_sublist (List.singleton_sublist.2 member) keyed.nodup
  intro other there
  rw [decide_eq_true_eq, List.mem_singleton]
  constructor
  · exact fun same => List.inj_on_of_nodup_map keyed.distinct there member same
  · exact fun equal => congrArg _ equal

/-- How many pages a table at rest takes: all but the last are full. -/
theorem Covers.length_pages (covers : pager.Covers original latest pages) {page : List Row}
    (last : pages.getLast? = some page) (short : page.length ≠ pager.pageSize)
    (full : ∀ page ∈ pages.dropLast, page.length = pager.pageSize) :
    pages.length = latest.length / pager.pageSize + 1 := by
  have concat : pages.dropLast ++ [page] = pages := List.dropLast_append_getLast? page last
  have smaller : page.length < pager.pageSize :=
    lt_of_le_of_ne (covers.sized page (List.mem_of_getLast? last)) short
  have fullLength : (pages.dropLast.map List.length).sum
      = pages.dropLast.length * pager.pageSize := by
    rw [List.map_eq_replicate_iff.2 full, List.sum_replicate_nat]
  have total : pages.dropLast.length * pager.pageSize + page.length = latest.length := by
    rw [← covers.ended page last short, ← concat, List.length_flatten, List.map_append,
      List.sum_append, concat, fullLength]
    simp
  have count : latest.length / pager.pageSize = pages.dropLast.length := by
    rw [← total, Nat.mul_comm, Nat.mul_add_div pager.pageSize_pos, Nat.div_eq_of_lt smaller,
      Nat.add_zero]
  have pagesLength := congrArg List.length concat
  rw [List.length_append, List.length_singleton] at pagesLength
  omega

end ScopedQuery.Pager
