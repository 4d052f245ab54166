import Mathlib.Data.List.Forall2
import ScopedQuery.Fault
/-!
# Results of steps

A computation that may fail is taken apart step by step: it succeeds exactly when every step does.
-/

namespace ScopedQuery

variable {α β ε : Type}

theorem bind_eq_ok {first : Except ε α} {next : α → Except ε β} {result : β} :
    first >>= next = .ok result ↔ ∃ value, first = .ok value ∧ next value = .ok result := by
  cases first with
  | error fault => simp [bind, Except.bind]
  | ok value => simp [bind, Except.bind]

theorem bind_eq_error {first : Except ε α} {next : α → Except ε β} {fault : ε} :
    first >>= next = .error fault
      ↔ first = .error fault ∨ ∃ value, first = .ok value ∧ next value = .error fault := by
  cases first with
  | error fault => simp [bind, Except.bind]
  | ok value => simp [bind, Except.bind]

theorem pure_eq_ok {value result : α} :
    (pure value : Except ε α) = .ok result ↔ value = result := by
  simp [pure, Except.pure]

theorem map_eq_ok {first : Except ε α} {make : α → β} {result : β} :
    make <$> first = .ok result ↔ ∃ value, first = .ok value ∧ make value = result := by
  cases first <;> simp [Functor.map, Except.map]

/-- A computation that first refuses succeeds when there is no reason to refuse. -/
theorem refuse_eq_ok {reason : Prop} [Decidable reason] {fault : ε} {never : β → Except ε α}
    {next : Except ε α} {result : α} :
    (if reason then throw fault >>= never else next) = .ok result
      ↔ ¬reason ∧ next = .ok result := by
  by_cases reason <;> simp_all [throw, throwThe, MonadExceptOf.throw, bind, Except.bind]

/-- A check of every item succeeds when each item passes. -/
theorem forM_eq_ok {items : List α} {check : α → Except ε Unit} {result : Unit} :
    items.forM check = .ok result ↔ ∀ item ∈ items, check item = .ok () := by
  induction items with
  | nil => simp [pure_eq_ok]
  | cons item rest ih =>
    rw [List.forM_eq_forM] at ih ⊢
    rw [List.forM_cons, bind_eq_ok, List.forall_mem_cons]
    constructor
    · intro h
      obtain ⟨_, passed, others⟩ := h
      exact ⟨passed, ih.1 others⟩
    · intro h
      obtain ⟨passed, others⟩ := h
      exact ⟨(), passed, ih.2 others⟩

/-- A computation for every item succeeds when each item has a result, and gives them in order. -/
theorem mapM_eq_ok {items : List α} {step : α → Except ε β} {results : List β} :
    items.mapM step = .ok results
      ↔ List.Forall₂ (fun item result => step item = .ok result) items results := by
  induction items generalizing results with
  | nil => rw [List.mapM_nil, pure_eq_ok, List.forall₂_nil_left_iff, eq_comm]
  | cons item rest ih =>
    simp only [List.mapM_cons, bind_eq_ok, pure_eq_ok, ih, List.forall₂_cons_left_iff]
    grind

end ScopedQuery
