import ScopedQuery.Proofs.Sql.Clauses
/-!
# One reading

Two accepted statements with the same text were asked for the same. The kind of a statement, its
names, column expressions, comparisons and bounds are read off the text, whatever characters the
names of fields hold; only the values are not in it.
-/

namespace ScopedQuery.Sql

/-- A statement without its values. -/
inductive Reading
  | select (table : String) (columns : Option (List String))
    (predicates : List (Column × Operator × Bool)) (orderBy : Option Ordering)
    (limit offset : Option Nat)
  | insert (table : String) (data : List (String × Bool))
  | update (table : String) (data : List (String × Bool))
    (predicates : List (Column × Operator × Bool))
  | delete (table : String) (predicates : List (Column × Operator × Bool))

def Command.reading : Command → Reading
  | .select fetch =>
    .select fetch.table (selectedColumns fetch.select) (fetch.filters.map Filter.reading)
      fetch.orderBy fetch.limit fetch.offset
  | .insert table data => .insert table (data.entries.map entryReading)
  | .update table data filters =>
    .update table (data.entries.map entryReading) (filters.map Filter.reading)
  | .delete table filters => .delete table (filters.map Filter.reading)
  | .deleteWhereEqual table column value =>
    .delete table [(Filter.compare (.plain column) .eq value).reading]

/-! ### Statements -/

namespace Command

theorem reading_select {fetch fetch' : Fetch} (accepted : (select fetch).Accepted)
    (accepted' : (select fetch').Accepted)
    (same : Fragment.chars 1 fetch.fragments = Fragment.chars 1 fetch'.fragments) :
    (select fetch).reading = (select fetch').reading := by
  obtain ⟨table, columns, order⟩ := accepted.of_select
  obtain ⟨table', columns', order'⟩ := accepted'.of_select
  have ending := followsCondition_ending fetch
  have ending' := followsCondition_ending fetch'
  simp only [Fetch.fragments, List.cons_append, Fragment.chars_piece, String.toList_append,
    List.append_assoc, Fragment.chars_append, Fragment.chars_nil, List.append_nil,
    List.append_cancel_left_eq] at same
  obtain ⟨lists, same⟩ := selectText_append_inj columns columns' (by simp; decide) (by simp; decide)
    (by simp) (by simp) same
  obtain ⟨tables, same⟩ := identifier_append_inj table table' (stops_condition ending.1)
    (stops_condition ending'.1) (List.append_cancel_left same)
  obtain ⟨conditions, same⟩ := told_condition _ _ fetch.filters fetch'.filters _ _ accepted.columns
    accepted'.columns ending ending' same
  obtain ⟨orders, limits, offsets⟩ := ending_inj order order' same
  rw [reading, reading, tables, lists, conditions, orders, limits, offsets]

theorem entryReading_eq_of {entries entries' : List (String × Value)}
    (names : entries.map Prod.fst = entries'.map Prod.fst)
    (nulls : (entries.map Prod.snd).map Value.isNull = (entries'.map Prod.snd).map Value.isNull) :
    entries.map entryReading = entries'.map entryReading := by
  have zipped : ∀ entries : List (String × Value), entries.map entryReading
      = (entries.map Prod.fst).zip ((entries.map Prod.snd).map Value.isNull) := by
    intro entries
    rw [List.map_map, List.zip_map']
    rfl
  rw [zipped, zipped, names, nulls]

theorem reading_insert {table table' : String} {data data' : Record}
    (accepted : (insert table data).Accepted) (accepted' : (insert table' data').Accepted)
    (same : Fragment.chars 1 (insertFragments table data)
      = Fragment.chars 1 (insertFragments table' data')) :
    (insert table data).reading = (insert table' data').reading := by
  obtain ⟨tableName, columns⟩ := List.forall_mem_cons.1 accepted.names
  obtain ⟨tableName', columns'⟩ := List.forall_mem_cons.1 accepted'.names
  have stored : data.entries ≠ [] := accepted.data rfl
  have stored' : data'.entries ≠ [] := accepted'.data rfl
  have slots := told_slot.separated ", " fun rest => by simp; decide
  simp only [insertFragments, List.cons_append, Fragment.chars_piece, String.toList_append,
    List.append_assoc, Fragment.chars_append, Fragment.chars_nil, List.append_nil,
    List.append_cancel_left_eq] at same
  obtain ⟨tables, same⟩ := identifier_append_inj tableName tableName' (by simp; decide)
    (by simp; decide) same
  obtain ⟨names, same⟩ := joined_append_inj (by simpa [Ordered.names] using stored)
    (by simpa [Ordered.names] using stored') columns columns' (by simp; decide) (by simp; decide)
    (by simp) (by simp) (List.append_cancel_left same)
  obtain ⟨nulls, -⟩ := slots _ _ data.values data'.values _ _
    ⟨by simpa [Ordered.values] using stored, fun _ _ => trivial⟩
    ⟨by simpa [Ordered.values] using stored', fun _ _ => trivial⟩ ⟨by decide, by decide⟩
    ⟨by decide, by decide⟩ (List.append_cancel_left same)
  rw [reading, reading, tables, entryReading_eq_of names nulls]

theorem reading_update {table table' : String} {data data' : Record}
    {filters filters' : List Filter}
    (accepted : (update table data filters).Accepted)
    (accepted' : (update table' data' filters').Accepted)
    (same : Fragment.chars 1 (updateFragments table data filters)
      = Fragment.chars 1 (updateFragments table' data' filters')) :
    (update table data filters).reading = (update table' data' filters').reading := by
  obtain ⟨tableName, columns⟩ := List.forall_mem_cons.1 accepted.names
  obtain ⟨tableName', columns'⟩ := List.forall_mem_cons.1 accepted'.names
  have assignments := told_assignment.separated ", " fun rest => by simp; decide
  have noComma : ∀ next (filters : List Filter), ¬", ".toList
      <+: Fragment.chars next (condition filters) ++ " RETURNING *".toList := by
    intro next filters
    cases filters with
    | nil => simp [condition]
    | cons filter filters => simp [condition_cons]
  have entries : ∀ {data : Record}, (∀ name ∈ data.names, isIdentifier name = true) →
      ∀ entry ∈ data.entries, isIdentifier entry.1 = true :=
    fun columns entry member => columns entry.1 (List.mem_map_of_mem member)
  simp only [updateFragments, List.cons_append, Fragment.chars_piece, String.toList_append,
    List.append_assoc, Fragment.chars_append, Fragment.chars_nil, List.append_nil,
    List.append_cancel_left_eq] at same
  obtain ⟨tables, same⟩ := identifier_append_inj tableName tableName' (by simp; decide)
    (by simp; decide) same
  obtain ⟨stores, same⟩ := assignments _ _ data.entries data'.entries _ _
    ⟨accepted.data rfl, entries columns⟩ ⟨accepted'.data rfl, entries columns'⟩
    ⟨stops_isDigit (stops_condition followsCondition_returning.1), noComma _ _⟩
    ⟨stops_isDigit (stops_condition followsCondition_returning.1), noComma _ _⟩
    (List.append_cancel_left same)
  obtain ⟨conditions, -⟩ := told_condition _ _ filters filters' _ _ accepted.columns
    accepted'.columns followsCondition_returning followsCondition_returning same
  rw [reading, reading, tables, stores, conditions]

theorem reading_delete {table table' : String} {filters filters' : List Filter}
    (tableName : isIdentifier table = true) (tableName' : isIdentifier table' = true)
    (columns : ∀ filter ∈ filters, filter.column.Writable)
    (columns' : ∀ filter ∈ filters', filter.column.Writable)
    (same : Fragment.chars 1 (deleteFragments table filters)
      = Fragment.chars 1 (deleteFragments table' filters')) :
    Reading.delete table (filters.map Filter.reading)
      = .delete table' (filters'.map Filter.reading) := by
  simp only [deleteFragments, List.cons_append, Fragment.chars_piece, String.toList_append,
    List.append_assoc, Fragment.chars_append, Fragment.chars_nil, List.append_nil,
    List.append_cancel_left_eq] at same
  obtain ⟨tables, same⟩ := identifier_append_inj tableName tableName'
    (stops_condition followsCondition_returning.1) (stops_condition followsCondition_returning.1)
    same
  obtain ⟨conditions, -⟩ := told_condition _ _ filters filters' _ _ columns columns'
    followsCondition_returning followsCondition_returning same
  rw [tables, conditions]

/-- The letter a statement starts with. -/
def initial : Command → Char
  | .select _ => 'S'
  | .insert .. => 'I'
  | .update .. => 'U'
  | .delete .. | .deleteWhereEqual .. => 'D'

theorem exists_chars_eq (command : Command) :
    ∃ rest, Fragment.chars 1 command.fragments = command.initial :: rest := by
  cases command <;>
    simp [fragments, Fetch.fragments, insertFragments, updateFragments, deleteFragments, initial]

theorem initial_eq {command command' : Command}
    (same : Fragment.chars 1 command.fragments = Fragment.chars 1 command'.fragments) :
    command.initial = command'.initial := by
  obtain ⟨rest, chars⟩ := exists_chars_eq command
  obtain ⟨rest', chars'⟩ := exists_chars_eq command'
  rw [chars, chars'] at same
  exact (List.cons.inj same).1

theorem Accepted.reading_eq {command command' : Command} (accepted : command.Accepted)
    (accepted' : command'.Accepted)
    (same : Fragment.chars 1 command.fragments = Fragment.chars 1 command'.fragments) :
    command.reading = command'.reading := by
  have initials := initial_eq same
  have table : ∀ {command : Command} {table : String} {names : List String},
      command.Accepted → command.names = table :: names → isIdentifier table = true :=
    fun accepted names => accepted.names _ (names ▸ List.mem_cons_self)
  cases command <;> cases command' <;> simp [initial] at initials
  case select.select => exact reading_select accepted accepted' same
  case insert.insert => exact reading_insert accepted accepted' same
  case update.update => exact reading_update accepted accepted' same
  all_goals
    exact reading_delete (table accepted rfl) (table accepted' rfl) accepted.columns
      accepted'.columns same

/-- Two accepted commands with the same text have the same reading. -/
theorem reading_eq_of_sql_eq {command command' : Command} {statement statement' : Statement}
    (accepted : command.statement = .ok statement)
    (accepted' : command'.statement = .ok statement')
    (same : statement.sql = statement'.sql) : command.reading = command'.reading := by
  obtain ⟨haccepted, rfl⟩ := statement_eq_ok_iff.1 accepted
  obtain ⟨haccepted', rfl⟩ := statement_eq_ok_iff.1 accepted'
  exact haccepted.reading_eq haccepted' (congrArg String.toList same)

/-- A quote in the name of a field stays in the name, and a column may be called `AND`. -/
theorem reading_eq_of_quoted_field :
    ∃ statement statement',
      (Command.select ⟨"calls", "id,AND", [⟨.jsonText "AND" "x' = $1", .neq, none⟩], none, some 5,
        none⟩).statement = .ok statement
      ∧ (Command.select ⟨"calls", " id , AND", [.notNull (.jsonText "AND" "x' = $1")], none, some 5,
        none⟩).statement = .ok statement'
      ∧ statement.sql
        = "SELECT id, AND FROM calls WHERE AND->>'x'' = $1' IS NOT NULL LIMIT 5"
      ∧ (Command.select ⟨"calls", "id,AND", [⟨.jsonText "AND" "x' = $1", .neq, none⟩], none, some 5,
          none⟩).reading
        = (Command.select ⟨"calls", " id , AND", [.notNull (.jsonText "AND" "x' = $1")], none,
          some 5, none⟩).reading := by
  have accepted : (Command.select ⟨"calls", "id,AND", [⟨.jsonText "AND" "x' = $1", .neq, none⟩],
      none, some 5, none⟩).statement
      = .ok ⟨"SELECT id, AND FROM calls WHERE AND->>'x'' = $1' IS NOT NULL LIMIT 5", []⟩ := by rfl
  have accepted' : (Command.select ⟨"calls", " id , AND", [.notNull (.jsonText "AND" "x' = $1")],
      none, some 5, none⟩).statement
      = .ok ⟨"SELECT id, AND FROM calls WHERE AND->>'x'' = $1' IS NOT NULL LIMIT 5", []⟩ := by rfl
  exact ⟨_, _, accepted, accepted', rfl, reading_eq_of_sql_eq accepted accepted' rfl⟩

end Command

end ScopedQuery.Sql
