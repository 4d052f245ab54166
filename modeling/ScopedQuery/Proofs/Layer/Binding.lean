import ScopedQuery.Proofs.Calendar.Instants
import ScopedQuery.Proofs.Calendar.Order
import ScopedQuery.Proofs.Layer.Scoping
import ScopedQuery.Proofs.Rule.Forms
import ScopedQuery.Proofs.Schema.Kinds
/-!
# Values that can be bound

Only an instant can be beyond what can be bound. The instants of rules begin or end a day that was
written with a year of four digits, so an export, whose other value is the agent, never breaks off.
-/

namespace ScopedQuery

/-! ### Days -/

theorem Date.Plain.toDays_range {date : Date} (h : date.Plain) :
    Date.first.toDays ≤ date.toDays ∧ date.toDays ≤ Date.last.toDays := by
  have year := h.least
  have year' := h.most
  have month := Date.month_lt_of_isValid h.valid
  have day := Date.day_lt_of_isValid h.valid
  constructor
  · refine Int.not_lt.1 fun before => ?_
    rw [Date.toDays_lt_iff h.valid (by decide), Date.Before, Date.first] at before
    simp only at before
    omega
  · refine Int.not_lt.1 fun after => ?_
    rw [Date.toDays_lt_iff (by decide) h.valid, Date.Before, Date.last] at after
    simp only at after
    omega

theorem Timestamp.isBindable_iff {instant : Timestamp} :
    instant.isBindable = true
      ↔ Date.first.toDays ≤ instant.day ∧ instant.day ≤ Date.last.toDays := by
  rw [isBindable, Bool.and_eq_true, decide_eq_true_iff, decide_eq_true_iff]

/-! ### Rules -/

theorem Kind.Holds.isBindable {kind : Kind} {value : Value} (h : kind.Holds value)
    (other : kind ≠ .timestamp) : value.isBindable = true := by
  cases h with
  | timestamp => exact absurd rfl other
  | _ => rfl

/-- Every value of the predicate can be bound. -/
def Sql.Filter.Bindable (filter : Sql.Filter) : Prop :=
  ∀ value ∈ filter.value, value.isBindable = true

namespace Rule

variable {table : Table} {rule : Rule} {filters : List Sql.Filter}

theorem DayForm.bindable (h : rule.DayForm filters) : ∀ filter ∈ filters, filter.Bindable := by
  have starts {column : Sql.Column} {operator : Sql.Operator} {day : Int}
      (within : Date.first.toDays ≤ day ∧ day ≤ Date.last.toDays) :
      (Sql.Filter.compare column operator (.timestamp (.startOfDay day))).Bindable := by
    rintro _ ⟨⟩
    rw [Value.isBindable, Timestamp.isBindable_iff, Timestamp.day_startOfDay]
    exact within
  cases h with
  | during _ read =>
    have within := (Date.plain_of_read? read).toDays_range
    refine List.forall_mem_cons.2 ⟨starts within, List.forall_mem_singleton.2 ?_⟩
    rintro _ ⟨⟩
    rw [Value.isBindable, Timestamp.isBindable_iff, Timestamp.day_endOfDay]
    exact within
  | before _ read =>
    exact List.forall_mem_singleton.2 (starts (Date.plain_of_read? read).toDays_range)
  | @after date next _ read following =>
    have plain := Date.plain_of_read? read
    have within := plain.toDays_range
    rw [Date.nextDay?] at following
    split at following
    · cases following
    · next other =>
      cases following
      have earlier : date.toDays ≠ Date.last.toDays :=
        mt (Date.toDays_inj plain.valid (by decide)).1 other
      exact List.forall_mem_singleton.2 (starts (by omega))

theorem Form.bindable (h : rule.Form table filters) : ∀ filter ∈ filters, filter.Bindable := by
  cases h with
  | onDay _ form => exact form.bindable
  | onField _ form =>
    cases form with
    | existence | fieldExistence => exact List.forall_mem_singleton.2 nofun
    | equality | pattern | number =>
      refine List.forall_mem_singleton.2 ?_
      rintro _ ⟨⟩
      rfl
  | onPlain _ _ date form =>
    cases form with
    | comparison _ read =>
      refine List.forall_mem_singleton.2 ?_
      rintro _ ⟨⟩
      exact (Kind.holds_ofText? read).isBindable date
    | pattern =>
      refine List.forall_mem_singleton.2 ?_
      rintro _ ⟨⟩
      rfl

end Rule

theorem Compiled.bindable (table : Table) (rules : List Rule) :
    ∀ filter ∈ (ofRules table rules).filters, filter.Bindable := by
  intro filter member
  obtain ⟨rule, -, filters, form, member⟩ := exists_form member
  exact form.bindable filter member

/-! ### Statements -/

/-- The values that a fetch sends are those of its predicates. -/
theorem Sql.isBindable_of_select {fetch : Sql.Fetch} {statement : Sql.Statement}
    (bindable : ∀ filter ∈ fetch.filters, filter.Bindable)
    (selected : Sql.select fetch = .ok statement) : statement.isBindable = true := by
  obtain ⟨-, rfl⟩ := Sql.Command.select_eq_ok.1 selected
  rw [Sql.Statement.isBindable, List.all_eq_true]
  intro value member
  have values : (Sql.Statement.ofFragments fetch.fragments).values
      = (fetch.filters.filter Sql.Filter.binds).filterMap Sql.Filter.value :=
    Sql.Command.values_fragments (.select fetch)
  rw [values, List.mem_filterMap] at member
  obtain ⟨filter, listed, held⟩ := member
  exact bindable filter (List.mem_filter.1 listed).1 value held

namespace Layer

variable {layer : Layer} {agent : Uuid} {rules : List Rule} {query : Sql.Fetch}

theorem bindable_callLogs (h : layer.callLogs agent rules = .ok query) :
    ∀ filter ∈ query.filters, filter.Bindable := by
  simp only [callLogs, bind_eq_ok, pure_eq_ok, compile_eq_ok] at h
  obtain ⟨table, -, _, -, _, ⟨value, ⟨-, _, -, denotes⟩, rfl⟩, rfl⟩ := h
  refine List.forall_mem_cons.2 ⟨?_, Compiled.bindable table rules⟩
  cases denotes
  rintro _ ⟨⟩
  rfl

theorem isBindable_of_page (h : layer.callLogs agent rules = .ok query) {limit offset : Nat}
    {statement : Sql.Statement} (selected : Sql.select (query.page limit offset) = .ok statement) :
    statement.isBindable = true := by
  have bindable := bindable_callLogs h
  refine Sql.isBindable_of_select ?_ selected
  exact bindable

/-- Every page of an export is answered. -/
theorem exists_rows_callLogs (h : layer.callLogs agent rules = .ok query) (server : Server)
    (session : Session) (limit offset : Nat) :
    ∃ answer, (session.rows server (query.page limit offset)).1 = some answer :=
  Session.exists_rows fun _ => isBindable_of_page h

end Layer

end ScopedQuery
