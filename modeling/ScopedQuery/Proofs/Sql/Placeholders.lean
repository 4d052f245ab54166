import ScopedQuery.Proofs.Sql.Rendering
/-!
# Placeholders

Read from left to right, quoted literals passed over, a statement shows the placeholders
`$1, $2, …`, one for each of its values and in their order. The numbering runs through data and
predicates alike, whatever the names of fields hold.
-/

namespace ScopedQuery.Sql

mutual

/-- The digits behind every `$` of a text that stands outside quoted literals. -/
def placeholders : List Char → List (List Char)
  | [] => []
  | '\'' :: rest => placeholdersInLiteral rest
  | '$' :: rest => rest.takeWhile Text.isDigit :: placeholders rest
  | _ :: rest => placeholders rest

/-- The same from inside a literal, which a doubled quote does not end. -/
def placeholdersInLiteral : List Char → List (List Char)
  | [] => []
  | '\'' :: '\'' :: rest => placeholdersInLiteral rest
  | '\'' :: rest => placeholders rest
  | _ :: rest => placeholdersInLiteral rest

end

/-! ### Text without placeholders -/

/-- The text shows no placeholder and leaves no literal open. -/
def Silent (text : List Char) : Prop :=
  ∀ rest, placeholders (text ++ rest) = placeholders rest

theorem Silent.append {left right : List Char} (hleft : Silent left) (hright : Silent right) :
    Silent (left ++ right) := by
  intro rest
  rw [List.append_assoc, hleft, hright]

def isPlain (char : Char) : Bool := char ≠ '\'' && char ≠ '$'

theorem silent_of_plain {text : List Char} (plain : text.all isPlain = true) : Silent text := by
  intro rest
  induction text with
  | nil => rfl
  | cons char text ih =>
    rw [List.all_cons, Bool.and_eq_true] at plain
    obtain ⟨hchar, htext⟩ := plain
    simp only [isPlain, Bool.and_eq_true, decide_eq_true_eq] at hchar
    rw [List.cons_append, placeholders.eq_4 _ _ hchar.1 hchar.2]
    exact ih htext

theorem isPlain_of_isIdentifierPart {char : Char} (h : isIdentifierPart char = true) :
    isPlain char = true := by
  rw [isPlain, Bool.and_eq_true, decide_eq_true_eq, decide_eq_true_eq]
  constructor <;> rintro rfl <;> revert h <;> decide

theorem silent_identifier {name : String} (h : isIdentifier name = true) :
    Silent name.toList := by
  apply silent_of_plain
  rw [List.all_eq_true]
  intro char member
  exact isPlain_of_isIdentifierPart (isIdentifierPart_of_mem h member)

theorem silent_decimal (number : Nat) : Silent (Text.decimal number) := by
  apply silent_of_plain
  rw [List.all_eq_true]
  intro char member
  apply isPlain_of_isIdentifierPart
  simp [isIdentifierPart, Text.isDigit_of_mem_decimal member]

theorem silent_joined {names : List String} (h : ∀ name ∈ names, isIdentifier name = true) :
    Silent (Text.joined ", " names).toList := by
  induction names with
  | nil => exact fun _ => rfl
  | cons name rest ih =>
    obtain ⟨hname, hrest⟩ := List.forall_mem_cons.1 h
    cases rest with
    | nil => exact silent_identifier hname
    | cons second rest =>
      rw [Text.joined, String.toList_append, String.toList_append]
      exact ((silent_identifier hname).append (silent_of_plain (by decide))).append (ih hrest)

/-- Behind the text of a literal its closing quote is met, whatever quotes the text holds. -/
theorem placeholdersInLiteral_doubled (text rest : List Char) {char : Char} (h : char ≠ '\'') :
    placeholdersInLiteral (text.flatMap doubled ++ '\'' :: char :: rest)
      = placeholders (char :: rest) := by
  induction text with
  | nil =>
    rw [List.flatMap_nil, List.nil_append, placeholdersInLiteral.eq_3]
    rintro _ ⟨⟩
    exact h rfl
  | cons first text ih =>
    by_cases quote : first = '\''
    · simpa [quote, doubled, placeholdersInLiteral] using ih
    · rw [List.flatMap_cons, doubled, if_neg quote, List.append_assoc, List.singleton_append,
        placeholdersInLiteral.eq_4]
      · exact ih
      · rintro _ rfl
        exact absurd rfl quote
      · exact fun same => absurd same quote

theorem Silent.behind_literal {field : String} {char : Char} {more : List Char}
    (silent : Silent (char :: more)) (h : char ≠ '\'') :
    Silent ((literal field).toList ++ char :: more) := by
  intro rest
  have closed := placeholdersInLiteral_doubled field.toList (more ++ rest) h
  rw [← List.cons_append, silent rest] at closed
  simpa [literal, placeholders] using closed

theorem Column.silent_path_append {column : Column} {more : List Char}
    (silent : Silent (' ' :: more)) : Silent (column.path ++ ' ' :: more) := by
  cases column with
  | plain column => exact silent
  | jsonText column field =>
    rw [path, List.append_assoc]
    exact (silent_of_plain (by decide)).append (silent.behind_literal (by decide))
  | jsonRaw column field =>
    rw [path, List.append_assoc]
    exact (silent_of_plain (by decide)).append (silent.behind_literal (by decide))
  | jsonNumeric column field =>
    have cast : Silent (")::numeric".toList ++ ' ' :: more) :=
      (silent_of_plain (by decide)).append silent
    rw [path, List.append_assoc, List.append_assoc]
    exact (silent_of_plain (by decide)).append (cast.behind_literal (by decide))

theorem Column.Writable.silent_append {column : Column} (h : column.Writable) {more : List Char}
    (silent : Silent (' ' :: more)) : Silent (column.text.toList ++ ' ' :: more) := by
  have lead : Silent column.lead := silent_of_plain (by cases column <;> rfl)
  rw [Column.toList_text, List.append_assoc, List.append_assoc]
  exact lead.append ((silent_identifier h.1).append (Column.silent_path_append silent))

/-! ### Fragments in order -/

/-- The fragments show one placeholder for each of their values, numbered on from the next, and do
not start with a digit, so that no number in front of them grows. -/
def Orderly (fragments : List Fragment) : Prop :=
  ∀ next rest, Text.Stops Text.isDigit rest →
    Text.Stops Text.isDigit (Fragment.chars next fragments ++ rest)
      ∧ placeholders (Fragment.chars next fragments ++ rest)
        = (List.range' next (Fragment.values fragments).length).map Text.decimal
          ++ placeholders rest

theorem orderly_nil : Orderly [] := by
  intro next rest stops
  exact ⟨stops, rfl⟩

theorem Orderly.append {left right : List Fragment} (hleft : Orderly left)
    (hright : Orderly right) : Orderly (left ++ right) := by
  intro next rest stops
  obtain ⟨rightStops, rightShows⟩ := hright (next + (Fragment.values left).length) rest stops
  obtain ⟨leftStops, leftShows⟩ := hleft next _ rightStops
  rw [Fragment.chars_append, List.append_assoc]
  refine ⟨leftStops, ?_⟩
  rw [leftShows, rightShows, Fragment.values_append, List.length_append, List.range'_append_1.symm,
    List.map_append, List.append_assoc]

theorem orderly_piece {text : String} (silent : Silent text.toList)
    (stops : Text.Stops Text.isDigit text.toList) : Orderly [.piece text] := by
  intro next rest restStops
  simp only [Fragment.chars_piece, Fragment.chars_nil, List.append_nil]
  exact ⟨stops.append restStops, silent rest⟩

theorem orderly_slot (value : Value) : Orderly [.slot value] := by
  intro next rest stops
  rw [Fragment.chars_slot, Fragment.chars_nil, List.append_nil]
  by_cases null : value.isNull = true
  · have silent : Silent "NULL".toList := silent_of_plain (by decide)
    have word : Text.Stops Text.isDigit "NULL".toList := by decide
    rw [Fragment.placeholder, if_pos null, silent rest]
    exact ⟨word.append stops, by simp [Fragment.values, null]⟩
  · rw [Fragment.placeholder, if_neg null, List.cons_append, Text.stops_cons, placeholders,
      Text.takeWhile_append_of_stops (fun _ => Text.isDigit_of_mem_decimal) stops,
      silent_decimal next rest]
    exact ⟨by decide, by simp [Fragment.values, null]⟩

theorem Orderly.cons_piece {text : String} {fragments : List Fragment}
    (silent : Silent text.toList) (stops : Text.Stops Text.isDigit text.toList)
    (hfragments : Orderly fragments) : Orderly (.piece text :: fragments) :=
  (orderly_piece silent stops).append hfragments

theorem orderly_flatMap {α : Type} {items : List α} {write : α → List Fragment}
    (h : ∀ item ∈ items, Orderly (write item)) : Orderly (items.flatMap write) := by
  induction items with
  | nil => exact orderly_nil
  | cons item rest ih =>
    obtain ⟨hitem, hrest⟩ := List.forall_mem_cons.1 h
    exact hitem.append (ih hrest)

theorem orderly_separated {separator : String} {groups : List (List Fragment)}
    (silent : Silent separator.toList) (stops : Text.Stops Text.isDigit separator.toList)
    (h : ∀ group ∈ groups, Orderly group) : Orderly (Fragment.separated separator groups) := by
  cases groups with
  | nil => exact orderly_nil
  | cons group rest =>
    obtain ⟨hgroup, hrest⟩ := List.forall_mem_cons.1 h
    rw [Fragment.separated_cons]
    exact hgroup.append (orderly_flatMap fun other member =>
      (hrest other member).cons_piece silent stops)

/-! ### Statements in order -/

theorem stops_identifier {name : String} (h : isIdentifier name = true) :
    Text.Stops Text.isDigit name.toList := by
  obtain ⟨first, rest, chars, start, -⟩ := isIdentifier_iff.1 h
  rw [chars, Text.stops_cons]
  exact isDigit_of_start start

theorem Column.Writable.stops_text {column : Column} (h : column.Writable) :
    Text.Stops Text.isDigit column.text.toList := by
  have lead : Text.Stops Text.isDigit column.lead := by
    cases column with
    | jsonNumeric column field =>
      rw [Column.lead, Text.stops_cons]
      decide
    | _ => exact Text.stops_nil
  have path : Text.Stops Text.isDigit column.path := by
    cases column with
    | plain column => exact Text.stops_nil
    | _ =>
      simp [Column.path]
      decide
  rw [Column.toList_text]
  exact lead.append ((stops_identifier h.1).append path)

/-- A column with something behind it, as a piece of a statement. -/
theorem Column.Writable.orderly_piece {column : Column} (h : column.Writable) {text : String}
    {more : List Char} (chars : text.toList = column.text.toList ++ ' ' :: more)
    (silent : Silent (' ' :: more)) : Orderly [.piece text] := by
  refine Sql.orderly_piece ?_ ?_
  · rw [chars]
    exact h.silent_append silent
  · rw [chars]
    exact h.stops_text.append (by simp; decide)

theorem Filter.orderly {filter : Filter} (h : filter.column.Writable) :
    Orderly filter.fragments := by
  unfold fragments
  split
  · exact h.orderly_piece (String.toList_append ..) (silent_of_plain (by decide))
  · exact h.orderly_piece (String.toList_append ..) (silent_of_plain (by decide))
  · exact h.orderly_piece (String.toList_append ..) (silent_of_plain (by decide))
  · have symbol : Silent (' ' :: (filter.operator.symbol.toList ++ [' '])) := by
      refine silent_of_plain ?_
      cases filter.operator <;> decide
    exact (h.orderly_piece (by simp) symbol).append (orderly_slot _)

theorem orderly_condition {filters : List Filter} (h : ∀ filter ∈ filters, filter.column.Writable) :
    Orderly (condition filters) := by
  unfold condition
  split
  · exact orderly_nil
  · refine Orderly.cons_piece (silent_of_plain (by decide)) (by decide) ?_
    refine orderly_separated (silent_of_plain (by decide)) (by decide) ?_
    rw [List.forall_mem_map]
    exact fun filter member => Filter.orderly (h filter member)

theorem orderly_assignment {entry : String × Value} (h : isIdentifier entry.1 = true) :
    Orderly (assignment entry) := by
  refine Orderly.cons_piece ?_ ?_ (orderly_slot entry.2)
  · rw [String.toList_append]
    exact (silent_identifier h).append (silent_of_plain (by decide))
  · rw [String.toList_append]
    exact (stops_identifier h).append (by decide)

theorem silent_selectText {select : String}
    (h : ∀ name ∈ (selectedColumns select).getD [], isIdentifier name = true) :
    Silent (selectText select).toList := by
  unfold selectText
  cases columns : selectedColumns select with
  | none => exact silent_of_plain (by decide)
  | some names => exact silent_joined (by simpa [columns] using h)

theorem silent_orderText {order : Option Ordering}
    (h : ∀ name ∈ order.toList.map Ordering.column, isIdentifier name = true) :
    Silent (orderText order).toList := by
  cases order with
  | none => exact fun _ => rfl
  | some order =>
    have column : isIdentifier order.column = true := by simpa using h
    have direction : Silent (if order.ascending then " ASC" else " DESC").toList := by
      split <;> exact silent_of_plain (by decide)
    rw [orderText, String.toList_append, String.toList_append]
    exact ((silent_of_plain (by decide)).append (silent_identifier column)).append direction

theorem silent_countText {word : String} (silent : Silent word.toList) (count : Option Nat) :
    Silent (countText word count).toList := by
  cases count with
  | none => exact fun _ => rfl
  | some count =>
    rw [countText, String.toList_append, Text.decimalText, String.toList_ofList]
    exact silent.append (silent_decimal count)

theorem orderly_ending {fetch : Fetch}
    (h : ∀ name ∈ fetch.orderBy.toList.map Ordering.column, isIdentifier name = true) :
    Orderly [.piece fetch.ending] := by
  have limit := silent_countText (silent_of_plain (by decide) : Silent " LIMIT ".toList) fetch.limit
  have offset :=
    silent_countText (silent_of_plain (by decide) : Silent " OFFSET ".toList) fetch.offset
  refine orderly_piece ?_ ?_
  · rw [Fetch.ending, String.toList_append, String.toList_append]
    exact ((silent_orderText h).append limit).append offset
  · rw [Fetch.ending, String.toList_append, String.toList_append]
    exact ((stops_orderText fetch.orderBy).append (stops_countText (by decide) fetch.limit)).append
      (stops_countText (by decide) fetch.offset)

namespace Command

variable {command : Command} {statement : Statement}

theorem Accepted.orderly_select {fetch : Fetch} (h : (select fetch).Accepted) :
    Orderly fetch.fragments := by
  obtain ⟨table, columns, order⟩ := h.of_select
  refine Orderly.cons_piece ?_ (by simp; decide) ?_
  · simp only [String.toList_append]
    exact (((silent_of_plain (by decide)).append (silent_selectText columns)).append
      (silent_of_plain (by decide))).append (silent_identifier table)
  · exact (orderly_condition h.columns).append (orderly_ending order)

theorem Accepted.orderly_insert {table : String} {data : Record}
    (h : (insert table data).Accepted) : Orderly (insertFragments table data) := by
  obtain ⟨tableName, columns⟩ := List.forall_mem_cons.1 h.names
  have behind : Orderly [.piece ") RETURNING *"] :=
    orderly_piece (silent_of_plain (by decide)) (by decide)
  refine Orderly.cons_piece ?_ (by simp; decide) (Orderly.append ?_ behind)
  · simp only [String.toList_append]
    exact ((((silent_of_plain (by decide)).append (silent_identifier tableName)).append
      (silent_of_plain (by decide))).append (silent_joined columns)).append
      (silent_of_plain (by decide))
  · refine orderly_separated (silent_of_plain (by decide)) (by decide) ?_
    rw [List.forall_mem_map]
    exact fun value _ => orderly_slot value

theorem orderly_returning : Orderly [.piece " RETURNING *"] :=
  orderly_piece (silent_of_plain (by decide)) (by decide)

theorem Accepted.orderly_update {table : String} {data : Record} {filters : List Filter}
    (h : (update table data filters).Accepted) :
    Orderly (updateFragments table data filters) := by
  obtain ⟨tableName, columns⟩ := List.forall_mem_cons.1 h.names
  have assignments : Orderly (Fragment.separated ", " (data.entries.map assignment)) := by
    refine orderly_separated (silent_of_plain (by decide)) (by decide) ?_
    rw [List.forall_mem_map]
    exact fun entry member => orderly_assignment (columns _ (List.mem_map_of_mem member))
  refine Orderly.cons_piece ?_ (by simp; decide) ?_
  · simp only [String.toList_append]
    exact ((silent_of_plain (by decide)).append (silent_identifier tableName)).append
      (silent_of_plain (by decide))
  · exact (assignments.append (orderly_condition h.columns)).append orderly_returning

theorem orderly_delete {table : String} {filters : List Filter}
    (tableName : isIdentifier table = true)
    (columns : ∀ filter ∈ filters, filter.column.Writable) :
    Orderly (deleteFragments table filters) := by
  refine Orderly.cons_piece ?_ (by simp; decide) ?_
  · rw [String.toList_append]
    exact (silent_of_plain (by decide)).append (silent_identifier tableName)
  · exact (orderly_condition columns).append orderly_returning

theorem Accepted.orderly (h : command.Accepted) : Orderly command.fragments := by
  cases command with
  | select fetch => exact h.orderly_select
  | insert table data => exact h.orderly_insert
  | update table data filters => exact h.orderly_update
  | delete table filters => exact orderly_delete (h.names table (by simp [Command.names])) h.columns
  | deleteWhereEqual table column value =>
    exact orderly_delete (h.names table (by simp [Command.names])) h.columns

end Command

end ScopedQuery.Sql
