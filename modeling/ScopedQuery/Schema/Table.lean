import ScopedQuery.Json.Basic
import ScopedQuery.Ordered
import ScopedQuery.Schema.Coercion
import ScopedQuery.Sql.Statement
/-!
# Tables and the catalog

A table lists the columns that may be used, with their kinds; a catalog lists the tables. Names of
tables and columns never come from user input unchecked: they must be listed here.
-/

namespace ScopedQuery

/-- A row of a reply or of data to store, with the columns in order. -/
abbrev Row := Ordered Json

structure Table where
  name : String
  primaryKey : String
  columns : Ordered Kind

namespace Table

def ofColumns (name primaryKey : String) (columns : List (String × Kind)) : Table :=
  ⟨name, primaryKey, .ofList columns⟩

def kind? (table : Table) (column : String) : Option Kind := table.columns.find? column

def checkColumn (table : Table) (column : String) : Except Fault Kind :=
  match table.kind? column with
  | some kind => .ok kind
  | none => .error (.unknownColumn table.name column)

def checkSelect (table : Table) (select : String) : Except Fault Unit :=
  ((Sql.selectedColumns select).getD []).forM fun column => discard (table.checkColumn column)

def coerce (table : Table) (column : String) (json : Json) : Except Fault Value := do
  let kind ← table.checkColumn column
  match kind.ofJson? json with
  | some value => return value
  | none => throw (.invalidValue column kind.name json.text)

/-- Brings every entry of a row to the kind of its column; the first that does not fit is the
fault. -/
def coerceRow (table : Table) (row : Row) : Except Fault Sql.Record := do
  let values ← row.entries.mapM fun (column, json) => table.coerce column json
  return .ofList (row.names.zip values)

end Table

structure Catalog where
  /-- The tables under the names by which they are asked for. -/
  tables : Ordered Table

namespace Catalog

def ofTables (tables : List Table) : Catalog :=
  ⟨.ofList (tables.map fun table => (table.name, table))⟩

def table (catalog : Catalog) (name : String) : Except Fault Table :=
  match catalog.tables.find? name with
  | some table => .ok table
  | none => .error (.unknownTable name)

end Catalog

end ScopedQuery
