import ScopedQuery.Proofs.Sql.Placeholders
/-!
# Bound values

The values of a statement are those of the data and then those of the predicates, nulls left out,
and the text stays the same when values that are not null are replaced by others.
-/

namespace ScopedQuery.Sql

/-! ### Values in order -/

theorem values_flatMap {α : Type} {items : List α} {write : α → List Fragment} :
    Fragment.values (items.flatMap write)
      = items.flatMap fun item => Fragment.values (write item) := by
  induction items with
  | nil => rfl
  | cons item rest ih => rw [List.flatMap_cons, Fragment.values_append, ih, List.flatMap_cons]

theorem values_separated {separator : String} {groups : List (List Fragment)} :
    Fragment.values (Fragment.separated separator groups) = groups.flatMap Fragment.values := by
  cases groups with
  | nil => rfl
  | cons group rest =>
    rw [Fragment.separated_cons, Fragment.values_append, values_flatMap]
    rfl

theorem values_slots {values : List Value} :
    (values.flatMap fun value => Fragment.values [.slot value])
      = values.filter fun value => !value.isNull := by
  induction values with
  | nil => rfl
  | cons value rest ih =>
    by_cases null : value.isNull = true
    · simp [Fragment.values, null, ← ih]
    · simp [Fragment.values, null, ← ih]

theorem values_filter (filter : Filter) :
    Fragment.values filter.fragments
      = ([filter].filter Filter.binds).filterMap Filter.value := by
  obtain ⟨column, operator, value⟩ := filter
  cases value with
  | none => cases operator <;> rfl
  | some value =>
    cases value <;> cases operator <;> rfl

theorem values_condition {filters : List Filter} :
    Fragment.values (condition filters)
      = (filters.filter Filter.binds).filterMap Filter.value := by
  cases filters with
  | nil => rfl
  | cons filter rest =>
    rw [condition_cons, Fragment.values, values_separated, List.flatMap_map]
    induction filter :: rest with
    | nil => rfl
    | cons filter rest ih =>
      rw [List.flatMap_cons, values_filter, ih, ← List.filterMap_append, ← List.filter_append]
      rfl

theorem Command.values_fragments (command : Command) :
    Fragment.values command.fragments
      = ((command.data.map Prod.snd).filter fun value => !value.isNull)
        ++ (command.filters.filter Filter.binds).filterMap Filter.value := by
  have changed : ∀ table (filters : List Filter), Fragment.values (deleteFragments table filters)
      = (filters.filter Filter.binds).filterMap Filter.value := by
    intro table filters
    show Fragment.values (condition filters ++ [.piece _]) = _
    rw [Fragment.values_append, values_condition]
    simp [Fragment.values]
  cases command with
  | select fetch =>
    show Fragment.values (condition fetch.filters ++ [.piece _]) = _
    rw [Fragment.values_append, values_condition]
    simp [Fragment.values, data, filters]
  | insert table data =>
    show Fragment.values (Fragment.separated ", " (data.values.map _) ++ [.piece _]) = _
    rw [Fragment.values_append, values_separated, List.flatMap_map, values_slots]
    simp [Fragment.values, Command.data, filters, Ordered.values]
  | update table data filters =>
    show Fragment.values (Fragment.separated ", " (data.entries.map assignment)
      ++ condition filters ++ [.piece _]) = _
    rw [Fragment.values_append, Fragment.values_append, values_separated, values_condition,
      ← values_slots, List.flatMap_map, List.flatMap_map]
    simp [Fragment.values, Command.data, Command.filters, assignment]
  | delete table filters => exact changed table filters
  | deleteWhereEqual table column value => exact changed table _

/-! ### Replacing values

A command is blanked by putting one and the same value for every value that is not null. Two
commands that are the same when blanked differ only in such values. -/

def blanked (value : Value) : Value := if value.isNull then .null else .bool true

@[simp] theorem isNull_blanked (value : Value) : (blanked value).isNull = value.isNull := by
  cases value <;> rfl

def Fragment.blank : Fragment → Fragment
  | .piece text => .piece text
  | .slot value => .slot (blanked value)

theorem Fragment.render_blank {next : Nat} {fragments : List Fragment} :
    render next (fragments.map blank) = render next fragments := by
  induction fragments generalizing next with
  | nil => rfl
  | cons fragment rest ih => cases fragment <;> simp [blank, render, ih]

theorem Fragment.separated_blank {separator : String} {groups : List (List Fragment)} :
    (separated separator groups).map blank = separated separator (groups.map (List.map blank)) := by
  cases groups with
  | nil => rfl
  | cons group rest =>
    rw [List.map_cons, separated_cons, separated_cons, List.map_append, List.map_flatMap,
      List.flatMap_map]
    rfl

def Filter.blank (filter : Filter) : Filter :=
  { filter with value := some (blanked (filter.value.getD .null)) }

theorem Filter.fragments_blank (filter : Filter) :
    filter.blank.fragments = filter.fragments.map Fragment.blank := by
  obtain ⟨column, operator, value⟩ := filter
  cases value with
  | none => cases operator <;> rfl
  | some value => cases value <;> cases operator <;> rfl

theorem condition_blank {filters : List Filter} :
    condition (filters.map Filter.blank) = (condition filters).map Fragment.blank := by
  cases filters with
  | nil => rfl
  | cons filter rest =>
    have blanks : ((filter :: rest).map Filter.blank).map Filter.fragments
        = ((filter :: rest).map Filter.fragments).map (List.map Fragment.blank) := by
      rw [List.map_map, List.map_map]
      exact List.map_congr_left fun filter _ => Filter.fragments_blank filter
    show _ = .piece " WHERE "
      :: (Fragment.separated " AND " ((filter :: rest).map Filter.fragments)).map Fragment.blank
    rw [Fragment.separated_blank, ← blanks]
    rfl

namespace Command

def blank : Command → Command
  | .select fetch => .select { fetch with filters := fetch.filters.map Filter.blank }
  | .insert table data => .insert table (data.map blanked)
  | .update table data filters => .update table (data.map blanked) (filters.map Filter.blank)
  | .delete table filters => .delete table (filters.map Filter.blank)
  | .deleteWhereEqual table column value => .deleteWhereEqual table column (blanked value)

theorem fragments_blank (command : Command) :
    command.blank.fragments = command.fragments.map Fragment.blank := by
  have changed : ∀ table (filters : List Filter), deleteFragments table (filters.map Filter.blank)
      = (deleteFragments table filters).map Fragment.blank := by
    intro table filters
    simp [deleteFragments, condition_blank, Fragment.blank]
  cases command with
  | select fetch =>
    simp only [blank, fragments, Fetch.fragments, condition_blank, List.map_append, List.map_cons]
    rfl
  | insert table data =>
    simp only [blank, fragments, insertFragments, Fragment.separated_blank, List.map_append,
      List.map_cons, Ordered.names, Ordered.values, Ordered.map, List.map_map]
    rfl
  | update table data filters =>
    simp only [blank, fragments, updateFragments, Fragment.separated_blank, condition_blank,
      List.map_append, List.map_cons, Ordered.map, List.map_map]
    rfl
  | delete table filters => exact changed table filters
  | deleteWhereEqual table column value => exact changed table [.compare (.plain column) .eq value]

theorem accepted_blank {command : Command} : command.blank.Accepted ↔ command.Accepted := by
  have names : command.blank.names = command.names := by
    cases command <;> simp [blank, Command.names, Ordered.names, Ordered.map]
  have columns : command.blank.filters.map Filter.column = command.filters.map Filter.column := by
    cases command <;> simp [blank, filters, Filter.compare, Filter.blank]
  have data : command.blank.data = [] ↔ command.data = [] := by
    cases command <;> simp [blank, Command.data, Ordered.map]
  have filters : command.blank.filters = [] ↔ command.filters = [] := by
    cases command <;> simp [blank, Command.filters]
  have writable : (∀ filter ∈ command.blank.filters, filter.column.Writable)
      ↔ ∀ filter ∈ command.filters, filter.column.Writable := by
    rw [← List.forall_mem_map (P := Column.Writable), columns, List.forall_mem_map]
  have stores : command.blank.storesData = command.storesData := by cases command <;> rfl
  have touches : command.blank.touchesRows = command.touchesRows := by cases command <;> rfl
  constructor
  · intro h
    obtain ⟨hnames, hcolumns, hdata, hfilters⟩ := h
    exact ⟨names ▸ hnames, writable.1 hcolumns, fun h => mt data.2 (hdata (stores ▸ h)),
      fun h => mt filters.2 (hfilters (touches ▸ h))⟩
  · intro h
    obtain ⟨hnames, hcolumns, hdata, hfilters⟩ := h
    exact ⟨names ▸ hnames, writable.2 hcolumns, fun h => mt data.1 (hdata (stores ▸ h)),
      fun h => mt filters.1 (hfilters (touches ▸ h))⟩

theorem Accepted.placeholders_eq {command : Command} (h : command.Accepted) :
    placeholders (Statement.ofFragments command.fragments).sql.toList
      = (List.range' 1 (Statement.ofFragments command.fragments).values.length).map
        Text.decimal := by
  obtain ⟨-, shows⟩ := h.orderly 1 [] Text.stops_nil
  simpa [Fragment.chars, placeholders, Statement.ofFragments] using shows

/-- The placeholders of a statement are `$1, …, $n` in this order, where `n` is the number of its
values; these are the values of the data and then of the predicates, nulls left out; and the text
stays the same when values that are not null are replaced by others. -/
theorem placeholders_of_statement {command : Command} {statement : Statement}
    (accepted : command.statement = .ok statement) :
    placeholders statement.sql.toList
        = (List.range' 1 statement.values.length).map Text.decimal
      ∧ statement.values
        = ((command.data.map Prod.snd).filter fun value => !value.isNull)
          ++ (command.filters.filter Filter.binds).filterMap Filter.value
      ∧ (∀ value ∈ statement.values, value.isNull = false)
      ∧ ∀ other : Command, other.blank = command.blank →
        ∃ statement', other.statement = .ok statement' ∧ statement'.sql = statement.sql := by
  obtain ⟨haccepted, rfl⟩ := statement_eq_ok_iff.1 accepted
  have values := values_fragments command
  refine ⟨haccepted.placeholders_eq, values, ?_, ?_⟩
  · intro value member
    rw [Statement.ofFragments, values] at member
    simp only [List.mem_append, List.mem_filter, List.mem_filterMap] at member
    rcases member with ⟨-, given⟩ | ⟨filter, ⟨-, binds⟩, given⟩
    · simpa using given
    · simp only [Filter.binds, given, Bool.and_eq_true] at binds
      simpa using binds.2
  · intro other same
    have hother : other.Accepted := by
      rw [← accepted_blank, same, accepted_blank]
      exact haccepted
    refine ⟨_, statement_eq_ok_iff.2 ⟨hother, rfl⟩, ?_⟩
    show Fragment.render 1 other.fragments = Fragment.render 1 command.fragments
    rw [← Fragment.render_blank, ← fragments_blank, same, fragments_blank, Fragment.render_blank]

/-- Neither the null in the data nor the dollar sign in the name of a field takes a number. -/
theorem placeholders_of_update_with_dollar :
    ∃ statement,
      (Command.update "calls" (.ofList [("status", .text "ended"), ("reason", .null)])
        [.compare (.jsonText "notes" "it's $7") .eq (.text "x")]).statement = .ok statement
      ∧ statement.sql
        = "UPDATE calls SET status = $1, reason = NULL WHERE notes->>'it''s $7' = $2 RETURNING *"
      ∧ placeholders statement.sql.toList = [['1'], ['2']] := by
  have accepted :
      (Command.update "calls" (.ofList [("status", .text "ended"), ("reason", .null)])
        [.compare (.jsonText "notes" "it's $7") .eq (.text "x")]).statement
      = .ok
        ⟨"UPDATE calls SET status = $1, reason = NULL WHERE notes->>'it''s $7' = $2 RETURNING *",
          [.text "ended", .text "x"]⟩ := by rfl
  obtain ⟨numbers, -⟩ := placeholders_of_statement accepted
  exact ⟨_, accepted, rfl, numbers.trans (by decide)⟩

end Command

end ScopedQuery.Sql
