import ScopedQuery.Sql.Filter
import ScopedQuery.Ordered
import ScopedQuery.Text.Blank
import ScopedQuery.Text.Parts
/-!
# Statements

A statement is SQL text with placeholders `$1, $2, …` and the values for them. It is put together
from fragments, each a piece of text or a value, and `Statement.ofFragments` numbers the values
from left to right; a null takes no number and is written as the word `NULL`. So the text depends
on the values only through which of them are null.

The four kinds of statement check every name they write, in the order in which the names are
given. An update and a delete without a predicate are refused, as are an insert and an update
without data.
-/

namespace ScopedQuery.Sql

inductive Fragment
  | piece (text : String)
  | slot (value : Value)

namespace Fragment

/-- The text of the fragments when the next value takes the placeholder `$next`. -/
def render (next : Nat) : List Fragment → String
  | [] => ""
  | .piece text :: rest => text ++ render next rest
  | .slot value :: rest =>
    if value.isNull then "NULL" ++ render next rest
    else "$" ++ Text.decimalText next ++ render (next + 1) rest

/-- The values that take a placeholder, in order. -/
def values : List Fragment → List Value
  | [] => []
  | .piece _ :: rest => values rest
  | .slot value :: rest => if value.isNull then values rest else value :: values rest

def separated (separator : String) : List (List Fragment) → List Fragment
  | [] => []
  | [group] => group
  | group :: next :: rest => group ++ .piece separator :: separated separator (next :: rest)

end Fragment

structure Statement where
  sql : String
  values : List Value

def Statement.ofFragments (fragments : List Fragment) : Statement :=
  ⟨Fragment.render 1 fragments, Fragment.values fragments⟩

namespace Filter

/-- The predicate. A comparison with null asks for null or for its absence where it can. -/
def fragments (filter : Filter) : List Fragment :=
  let column := filter.column.text
  match filter.operator, filter.value.getD .null with
  | .isNotNull, _ => [.piece (column ++ " IS NOT NULL")]
  | .eq, .null => [.piece (column ++ " IS NULL")]
  | .neq, .null => [.piece (column ++ " IS NOT NULL")]
  | operator, value => [.piece (column ++ " " ++ operator.symbol ++ " "), .slot value]

end Filter

/-- The condition of a statement: all predicates must hold. No predicate, no condition. -/
def condition (filters : List Filter) : List Fragment :=
  if filters.isEmpty then []
  else .piece " WHERE " :: Fragment.separated " AND " (filters.map Filter.fragments)

def checkFilters (filters : List Filter) : Except Fault Unit :=
  filters.forM fun filter => filter.column.check

def checkNames (names : List String) : Except Fault Unit :=
  names.forM checkIdentifier

/-! ### Fetching -/

structure Ordering where
  column : String
  ascending : Bool
deriving DecidableEq

structure Fetch where
  table : String
  /-- `*`, or columns with commas between them. -/
  select : String
  filters : List Filter
  orderBy : Option Ordering
  limit : Option Nat
  offset : Option Nat

namespace Fetch

def ofTable (table select : String) : Fetch := ⟨table, select, [], none, none, none⟩

def page (fetch : Fetch) (limit offset : Nat) : Fetch :=
  { fetch with limit := some limit, offset := some offset }

end Fetch

/-- The columns of a select list, or nothing when it asks for all. -/
def selectedColumns (select : String) : Option (List String) :=
  if Text.trimmed select = "*" then none
  else some ((Text.parts ',' select).map Text.trimmed)

def selectText (select : String) : String :=
  match selectedColumns select with
  | none => "*"
  | some columns => Text.joined ", " columns

def orderText : Option Ordering → String
  | none => ""
  | some order => " ORDER BY " ++ order.column ++ (if order.ascending then " ASC" else " DESC")

def countText (word : String) : Option Nat → String
  | none => ""
  | some count => word ++ Text.decimalText count

def Fetch.ending (fetch : Fetch) : String :=
  orderText fetch.orderBy ++ countText " LIMIT " fetch.limit ++ countText " OFFSET " fetch.offset

def Fetch.fragments (fetch : Fetch) : List Fragment :=
  .piece ("SELECT " ++ selectText fetch.select ++ " FROM " ++ fetch.table)
    :: condition fetch.filters ++ [.piece fetch.ending]

def select (fetch : Fetch) : Except Fault Statement := do
  checkIdentifier fetch.table
  checkNames ((selectedColumns fetch.select).getD [])
  checkFilters fetch.filters
  checkNames (fetch.orderBy.toList.map Ordering.column)
  return .ofFragments fetch.fragments

/-! ### Changing -/

abbrev Record := Ordered Value

def insertFragments (table : String) (data : Record) : List Fragment :=
  .piece ("INSERT INTO " ++ table ++ " (" ++ Text.joined ", " data.names ++ ") VALUES (")
    :: Fragment.separated ", " (data.values.map fun value => [.slot value])
    ++ [.piece ") RETURNING *"]

def insert (table : String) (data : Record) : Except Fault Statement := do
  checkIdentifier table
  if data.isEmpty then throw .emptyData
  checkNames data.names
  return .ofFragments (insertFragments table data)

def assignment (entry : String × Value) : List Fragment :=
  [.piece (entry.1 ++ " = "), .slot entry.2]

def updateFragments (table : String) (data : Record) (filters : List Filter) : List Fragment :=
  .piece ("UPDATE " ++ table ++ " SET ")
    :: Fragment.separated ", " (data.entries.map assignment)
    ++ condition filters ++ [.piece " RETURNING *"]

def update (table : String) (data : Record) (filters : List Filter) :
    Except Fault Statement := do
  checkIdentifier table
  if data.isEmpty then throw .emptyData
  if filters.isEmpty then throw .unscopedMutation
  checkNames data.names
  checkFilters filters
  return .ofFragments (updateFragments table data filters)

def deleteFragments (table : String) (filters : List Filter) : List Fragment :=
  .piece ("DELETE FROM " ++ table) :: condition filters ++ [.piece " RETURNING *"]

def delete (table : String) (filters : List Filter) : Except Fault Statement := do
  checkIdentifier table
  if filters.isEmpty then throw .unscopedMutation
  checkFilters filters
  return .ofFragments (deleteFragments table filters)

/-- Deletes the rows whose column holds a value. The column is checked before the table. -/
def deleteWhereEqual (table column : String) (value : Value) : Except Fault Statement := do
  delete table [← Filter.equals column value]

end ScopedQuery.Sql
