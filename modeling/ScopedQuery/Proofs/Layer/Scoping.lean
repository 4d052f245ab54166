import ScopedQuery.Proofs.Layer.Sending
import ScopedQuery.Proofs.Page.Events
import ScopedQuery.Proofs.Sql.Bindings
/-!
# Scoped statements

No statement for the rows of a scope goes out without it: the first of the predicates that all must
hold compares the column of the scope with its value, which is never null. A scope that cannot be
used is an error whatever the rules are, and then nothing is sent at all.
-/

namespace ScopedQuery

/-! ### Scopes -/

namespace Scope

/-- What a value of a scope stands for on a column of a kind: text is brought to the kind. -/
inductive Denotes (kind : Kind) : Value → Value → Prop
  | entered {text : String} {value : Value} : kind.ofText? text = some value →
    Denotes kind (.text text) value
  | given {value : Value} : value ≠ .null → (∀ text, value ≠ .text text) → Denotes kind value value

/-- The scope can be used on the table and compares with the value. -/
def Binds (scope : Scope) (table : Table) (value : Value) : Prop :=
  Sql.isIdentifier scope.column = true
    ∧ ∃ kind, table.kind? scope.column = some kind ∧ Denotes kind scope.value value

/-- Why a scope cannot be used on a table. -/
inductive Unusable (scope : Scope) (table : Table) : Prop
  | unknownColumn : table.kind? scope.column = none → Unusable scope table
  | null : scope.value = .null → Unusable scope table
  | misfit {kind : Kind} {text : String} : table.kind? scope.column = some kind →
    scope.value = .text text → kind.ofText? text = none → Unusable scope table
  | invalidIdentifier : Sql.isIdentifier scope.column = false → Unusable scope table

variable {scope : Scope} {table : Table} {kind : Kind} {value : Value}

theorem isNull_ofText? {text : String} (h : kind.ofText? text = some value) :
    value.isNull = false := by
  cases kind <;> simp only [Kind.ofText?, Option.map_eq_some_iff, Option.some.injEq] at h
  case text | json => rw [← h]; rfl
  all_goals
    obtain ⟨_, -, rfl⟩ := h
    rfl

theorem Denotes.isNull_eq {held : Value} (h : Denotes kind held value) : value.isNull = false := by
  cases h with
  | entered read => exact isNull_ofText? read
  | given notNull _ => cases value <;> first | rfl | exact absurd rfl notNull

theorem Binds.isNull_eq (h : scope.Binds table value) : value.isNull = false := by
  obtain ⟨-, kind, -, denotes⟩ := h
  exact denotes.isNull_eq

theorem boundValue_eq_ok : scope.boundValue kind = .ok value ↔ Denotes kind scope.value value := by
  unfold boundValue
  constructor
  · intro bound
    split at bound
    · cases bound
    · next text held =>
      split at bound
      · next read =>
        cases bound
        rw [held]
        exact .entered read
      · cases bound
    · next other notText =>
      cases bound
      exact .given other notText
  · intro denotes
    generalize scope.value = held at denotes
    cases denotes with
    | entered read => simp [read]
    | given notNull notText =>
      cases value <;> first | rfl | exact absurd rfl notNull | exact absurd rfl (notText _)

theorem filter_eq_ok {filter : Sql.Filter} :
    scope.filter table = .ok filter
      ↔ ∃ value, scope.Binds table value
        ∧ filter = .compare (.plain scope.column) .eq value := by
  have column : ∀ result, table.checkColumn scope.column = .ok result
      ↔ table.kind? scope.column = some result := by
    intro result
    unfold Table.checkColumn
    cases table.kind? scope.column <;> simp
  have writable : (Sql.Column.plain scope.column).Writable
      ↔ Sql.isIdentifier scope.column = true := by
    simp [Sql.Column.Writable, Sql.Column.base, Sql.Column.field?]
  simp only [Scope.filter, bind_eq_ok, column, boundValue_eq_ok, Sql.Filter.equals_eq_ok, writable,
    Binds]
  constructor
  · intro h
    obtain ⟨kind, known, value, denotes, name, rfl⟩ := h
    exact ⟨value, ⟨name, kind, known, denotes⟩, rfl⟩
  · intro h
    obtain ⟨value, ⟨name, kind, known, denotes⟩, rfl⟩ := h
    exact ⟨kind, known, value, denotes, name, rfl⟩

theorem Unusable.not_binds (h : scope.Unusable table) : ¬scope.Binds table value := by
  intro binds
  obtain ⟨name, kind, known, denotes⟩ := binds
  cases h with
  | unknownColumn unknown => simp [unknown] at known
  | null null =>
    rw [null] at denotes
    cases denotes with
    | given notNull _ => exact notNull rfl
  | misfit known' held unread =>
    obtain rfl := Option.some.inj (known.symm.trans known')
    rw [held] at denotes
    cases denotes with
    | entered read => simp [unread] at read
    | given _ notText => exact notText _ rfl
  | invalidIdentifier invalid => simp [invalid] at name

theorem exists_binds (h : ¬scope.Unusable table) : ∃ value, scope.Binds table value := by
  have name : Sql.isIdentifier scope.column = true := by
    cases valid : Sql.isIdentifier scope.column with
    | false => exact absurd (.invalidIdentifier valid) h
    | true => rfl
  cases known : table.kind? scope.column with
  | none => exact absurd (.unknownColumn known) h
  | some kind =>
    by_cases null : scope.value = .null
    · exact absurd (.null null) h
    · by_cases entered : ∃ text, scope.value = .text text
      · obtain ⟨text, held⟩ := entered
        cases read : kind.ofText? text with
        | none => exact absurd (.misfit known held read) h
        | some value => exact ⟨value, name, kind, known, held ▸ .entered read⟩
      · exact ⟨scope.value, name, kind, known, .given null fun text held => entered ⟨text, held⟩⟩

/-- These are all the reasons. -/
theorem unusable_iff :
    scope.Unusable table ↔ ∃ fault, scope.filter table = .error fault := by
  constructor
  · intro unusable
    cases made : scope.filter table with
    | error fault => exact ⟨fault, rfl⟩
    | ok filter =>
      obtain ⟨value, binds, -⟩ := filter_eq_ok.1 made
      exact absurd binds unusable.not_binds
  · intro h
    obtain ⟨fault, refused⟩ := h
    by_contra usable
    obtain ⟨value, binds⟩ := exists_binds usable
    rw [filter_eq_ok.2 ⟨value, binds, rfl⟩] at refused
    cases refused

end Scope

/-! ### Statements -/

namespace Sql

/-- The statement asks for rows of the table, and the first of the predicates that all must hold
compares the column with the first value, which is not null. -/
structure Statement.ScopedBy (table column : String) (value : Value) (statement : Statement) :
    Prop where
  notNull : value.isNull = false
  shape : ∃ (fetch : Fetch) (others : List Filter),
    (Command.select fetch).Accepted ∧ fetch.table = table
      ∧ fetch.filters = .compare (.plain column) .eq value :: others
      ∧ statement.sql = "SELECT " ++ selectText fetch.select ++ " FROM " ++ table ++ " WHERE "
        ++ column ++ " = $1" ++ Fragment.render 2 (trailing " AND " Filter.fragments others)
        ++ fetch.ending
      ∧ statement.values = value :: (others.filter Filter.binds).filterMap Filter.value

def Fetch.ScopedBy (table column : String) (value : Value) (fetch : Fetch) : Prop :=
  value.isNull = false ∧ fetch.table = table
    ∧ ∃ others, fetch.filters = .compare (.plain column) .eq value :: others

theorem Filter.fragments_eq {column : String} {value : Value} (h : value.isNull = false) :
    (compare (.plain column) .eq value).fragments = [.piece (column ++ " = "), .slot value] := by
  cases value with
  | null => cases h
  | _ => simp [fragments, compare, Column.text, Operator.symbol, String.append_assoc]

/-- The first predicate takes the first number. -/
theorem render_condition {column : String} {value : Value} (h : value.isNull = false)
    (others : List Filter) (ending : String) :
    Fragment.render 1 (condition (.compare (.plain column) .eq value :: others) ++ [.piece ending])
      = " WHERE " ++ column ++ " = $1"
        ++ Fragment.render 2 (trailing " AND " Filter.fragments others) ++ ending := by
  have first : (Fragment.values [.piece (column ++ " = "), .slot value]).length = 1 := by
    simp [Fragment.values, h]
  have number : Fragment.render 1 [.piece (column ++ " = "), .slot value] = column ++ " = $1" := by
    have one : Text.decimalText 1 = "1" := by rfl
    simp [Fragment.render, h, one, String.append_assoc]
  have last : ∀ next, Fragment.render next [.piece ending] = ending := by simp [Fragment.render]
  rw [condition_cons, separated_map_cons, Filter.fragments_eq h, List.cons_append,
    List.append_assoc, Fragment.render, Fragment.render_append, first, number,
    Fragment.render_append, last]
  simp only [String.append_assoc]

theorem Fetch.ScopedBy.select {table column : String} {value : Value} {fetch : Fetch}
    (h : fetch.ScopedBy table column value) {statement : Statement}
    (selected : Sql.select fetch = .ok statement) : statement.ScopedBy table column value := by
  obtain ⟨notNull, named, others, filters⟩ := h
  obtain ⟨accepted, rfl⟩ := Command.select_eq_ok.1 selected
  refine ⟨notNull, fetch, others, accepted, named, filters, ?_, ?_⟩
  · rw [Statement.ofFragments, Fetch.fragments, List.cons_append, Fragment.render, filters,
      render_condition notNull, named]
    simp only [String.append_assoc]
  · have binds : (Filter.compare (.plain column) .eq value).binds = true := by
      simp [Filter.binds, Filter.compare, notNull]
    have values := Command.values_fragments (.select fetch)
    simp only [Command.fragments, Command.data, Command.filters, filters, List.filter_cons, binds,
      if_true] at values
    exact values

end Sql

/-! ### Queries of a layer -/

namespace Layer

variable {layer : Layer} {name : String} {scope : Scope} {rules : List Rule} {query : Sql.Fetch}

/-- The statement asks a table of the catalog for rows in the scope only. -/
def Guards (layer : Layer) (name : String) (scope : Scope) (statement : Sql.Statement) : Prop :=
  ∃ table value, layer.catalog.table name = .ok table ∧ scope.Binds table value
    ∧ statement.ScopedBy name scope.column value

/-- The same of a query. -/
def GuardsQuery (layer : Layer) (name : String) (scope : Scope) (query : Sql.Fetch) : Prop :=
  ∃ table value, layer.catalog.table name = .ok table ∧ scope.Binds table value
    ∧ query.ScopedBy name scope.column value

/-- There is no such table, or the scope cannot be used on it. -/
def Rejects (layer : Layer) (name : String) (scope : Scope) : Prop :=
  (∃ fault, layer.catalog.table name = .error fault)
    ∨ ∃ table, layer.catalog.table name = .ok table ∧ scope.Unusable table

theorem GuardsQuery.select (h : layer.GuardsQuery name scope query) {statement : Sql.Statement}
    (selected : Sql.select query = .ok statement) : layer.Guards name scope statement := by
  obtain ⟨table, value, known, binds, narrowed⟩ := h
  exact ⟨table, value, known, binds, narrowed.select selected⟩

theorem GuardsQuery.page (h : layer.GuardsQuery name scope query) (limit offset : Nat) :
    layer.GuardsQuery name scope (query.page limit offset) := h

theorem GuardsQuery.ordered (h : layer.GuardsQuery name scope query)
    (orderBy : Option Sql.Ordering) :
    layer.GuardsQuery name scope { query with orderBy } := h

theorem compile_eq_ok {table : Table} {compiled : Compiled} :
    scope.compile table rules = .ok compiled
      ↔ ∃ value, scope.Binds table value
        ∧ compiled
          = ⟨.compare (.plain scope.column) .eq value :: (Compiled.ofRules table rules).filters,
            (Compiled.ofRules table rules).dropped⟩ := by
  simp only [Scope.compile, bind_eq_ok, pure_eq_ok, Scope.filter_eq_ok]
  constructor
  · intro h
    obtain ⟨_, ⟨value, binds, rfl⟩, rfl⟩ := h
    exact ⟨value, binds, rfl⟩
  · intro h
    obtain ⟨value, binds, rfl⟩ := h
    exact ⟨_, ⟨value, binds, rfl⟩, rfl⟩

theorem guards_scopedQuery (h : layer.scopedQuery name scope rules = .ok query) :
    layer.GuardsQuery name scope query := by
  simp only [scopedQuery, bind_eq_ok, pure_eq_ok, compile_eq_ok] at h
  obtain ⟨table, known, _, ⟨value, binds, rfl⟩, rfl⟩ := h
  exact ⟨table, value, known, binds, binds.isNull_eq, rfl, _, rfl⟩

theorem guards_fetchFiltered {orderBy : Option Sql.Ordering} {plan : Plan (List Row)}
    (h : layer.fetchFiltered name scope rules orderBy = .ok plan) :
    layer.Guards name scope plan.statement := by
  simp only [fetchFiltered, bind_eq_ok, Plan.fetch, map_eq_ok] at h
  obtain ⟨query, made, _, _, _, _, statement, selected, rfl⟩ := h
  exact ((guards_scopedQuery made).ordered orderBy).select selected

theorem guards_callLogs {agent : Uuid} (h : layer.callLogs agent rules = .ok query) :
    layer.GuardsQuery CallLog.table ⟨"agent_id", .uuid agent⟩ query := by
  simp only [callLogs, bind_eq_ok, pure_eq_ok, compile_eq_ok] at h
  obtain ⟨table, known, _, _, _, ⟨value, binds, rfl⟩, rfl⟩ := h
  exact ⟨table, value, known, binds, binds.isNull_eq, rfl, _, rfl⟩

/-! ### Scopes that cannot be used -/

theorem compile_eq_error {table : Table} (h : scope.Unusable table) :
    ∃ fault, ∀ rules, scope.compile table rules = .error fault := by
  obtain ⟨fault, refused⟩ := Scope.unusable_iff.1 h
  exact ⟨fault, fun rules => bind_eq_error.2 (.inl refused)⟩

theorem Rejects.scopedQuery_eq_error (h : layer.Rejects name scope) :
    ∃ fault, ∀ rules, layer.scopedQuery name scope rules = .error fault := by
  rcases h with ⟨fault, unknown⟩ | ⟨table, known, unusable⟩
  · exact ⟨fault, fun rules => bind_eq_error.2 (.inl unknown)⟩
  · obtain ⟨fault, refused⟩ := compile_eq_error unusable
    refine ⟨fault, fun rules => ?_⟩
    exact bind_eq_error.2 (.inr ⟨table, known, bind_eq_error.2 (.inl (refused rules))⟩)

theorem Rejects.callLogs_eq_error {agent : Uuid}
    (h : layer.Rejects CallLog.table ⟨"agent_id", .uuid agent⟩) :
    ∃ fault, ∀ rules, layer.callLogs agent rules = .error fault := by
  rcases h with ⟨fault, unknown⟩ | ⟨table, known, unusable⟩
  · exact ⟨fault, fun rules => bind_eq_error.2 (.inl unknown)⟩
  · obtain ⟨fault, refused⟩ := compile_eq_error unusable
    cases listed : table.checkSelect CallLog.select with
    | error other =>
      refine ⟨other, fun rules => ?_⟩
      exact bind_eq_error.2 (.inr ⟨table, known, bind_eq_error.2 (.inl listed)⟩)
    | ok _ =>
      refine ⟨fault, fun rules => ?_⟩
      exact bind_eq_error.2 (.inr ⟨table, known, bind_eq_error.2 (.inr ⟨(), listed,
        bind_eq_error.2 (.inl (refused rules))⟩)⟩)

/-- Whatever the rules, the ordering and the run: a filtered fetch, a pager whose latest reset was
with a scoped query, and an export of calls send only statements in the scope; and where the scope
cannot be used, the answer is a fault and nothing is sent. -/
theorem scoped_statements (layer : Layer) (server : Server) (session : Session) (name : String)
    (scope : Scope) (rules : List Rule) (orderBy : Option Sql.Ordering) :
    session.Sends (layer.Guards name scope)
        (session.respond server (layer.fetchFiltered name scope rules orderBy)).2
      ∧ (∀ query, layer.scopedQuery name scope rules = .ok query →
        ∀ (pager : Pager) events event request,
          Pager.Desk.latestQuery (events ++ [event]) = some { query with orderBy } →
          (Pager.Desk.run pager events).request? pager event = some request →
            session.Sends (layer.Guards name scope) (session.rows server request).2)
      ∧ (∀ agent cancelled,
        session.Sends (layer.Guards CallLog.table ⟨"agent_id", .uuid agent⟩)
          (layer.exportCallLogs server session agent rules cancelled).2)
      ∧ (∀ agent query, layer.callLogs agent rules = .ok query →
        ∀ {σ : Type} (ask : σ → Sql.Fetch → Export.PageRun × σ) cancelled source,
          ∀ request ∈ (Export.all ask layer.settings.exportLimits query cancelled source).requests,
            session.Sends (layer.Guards CallLog.table ⟨"agent_id", .uuid agent⟩)
              (session.rows server request).2)
      ∧ (layer.Rejects name scope → ∃ fault, ∀ rules,
        layer.scopedQuery name scope rules = .error fault
          ∧ ∀ orderBy, session.respond server (layer.fetchFiltered name scope rules orderBy)
            = (some (.failed fault.report), session))
      ∧ ∀ agent, layer.Rejects CallLog.table ⟨"agent_id", .uuid agent⟩ →
        ∃ fault, ∀ rules cancelled,
          layer.exportCallLogs server session agent rules cancelled = (.error fault, session) := by
  refine ⟨?_, ?_, ?_, ?_, ?_, ?_⟩
  · exact Session.sends_respond fun plan => guards_fetchFiltered
  · intro query made pager events event request latest sent
    obtain ⟨query', offset, latest', rfl⟩ := Pager.Desk.request?_eq sent
    obtain rfl := Option.some.inj (latest.symm.trans latest')
    exact Session.sends_rows fun statement =>
      (((guards_scopedQuery made).ordered orderBy).page _ _).select
  · intro agent cancelled
    unfold exportCallLogs
    cases made : layer.callLogs agent rules with
    | error fault => exact .refl _ session
    | ok query =>
      exact Export.sends_all fun offset statement => ((guards_callLogs made).page _ _).select
  · intro agent query made σ ask cancelled source request member
    obtain ⟨offset, rfl⟩ := Export.mem_requests_all member
    exact Session.sends_rows fun statement => ((guards_callLogs made).page _ _).select
  · intro rejects
    obtain ⟨fault, refused⟩ := rejects.scopedQuery_eq_error
    refine ⟨fault, fun rules => ⟨refused rules, fun orderBy => ?_⟩⟩
    have failed : layer.fetchFiltered name scope rules orderBy = .error fault :=
      bind_eq_error.2 (.inl (refused rules))
    rw [failed, Session.respond_error]
  · intro agent rejects
    obtain ⟨fault, refused⟩ := rejects.callLogs_eq_error
    refine ⟨fault, fun rules cancelled => ?_⟩
    rw [exportCallLogs, refused rules]

/-- The status is text and scopes as it is entered; a scope of null is refused. -/
theorem scoped_statements_of_status :
    ∃ query, ({} : Layer).scopedQuery "call_logs" ⟨"status", .text "ended"⟩ [] = .ok query
      ∧ Session.opened.Sends (({} : Layer).Guards "call_logs" ⟨"status", .text "ended"⟩)
        (Session.opened.rows (fun _ => .nothing) (query.page 50 0)).2
      ∧ ∃ fault, ∀ rules,
        ({} : Layer).scopedQuery "call_logs" ⟨"status", .null⟩ rules = .error fault := by
  have made : ({} : Layer).scopedQuery "call_logs" ⟨"status", .text "ended"⟩ []
      = .ok ⟨"call_logs", "*", [.compare (.plain "status") .eq (.text "ended")], none, none,
        none⟩ := by rfl
  have paged := (scoped_statements {} (fun _ => .nothing) .opened "call_logs"
    ⟨"status", .text "ended"⟩ [] none).2.1
  have refused := (scoped_statements {} (fun _ => .nothing) .opened "call_logs" ⟨"status", .null⟩ []
    none).2.2.2.2.1
  have rejects : ({} : Layer).Rejects "call_logs" ⟨"status", .null⟩ :=
    .inr ⟨Dashboard.callLogs, by rfl, .null rfl⟩
  obtain ⟨fault, rejected⟩ := refused rejects
  refine ⟨_, made, ?_, fault, fun rules => (rejected rules).1⟩
  exact paged _ made ⟨50, "id", by decide⟩ [] (.reset _) _ rfl rfl

end Layer

end ScopedQuery
