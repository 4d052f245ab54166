import ScopedQuery.Schema.Table
import ScopedQuery.Wire.Field
/-!
# Tables, rows and orderings on the wire

The columns of a table and the tables of a catalog are objects whose fields keep their order, and
so is a row. JSON inside a row has its fields sorted.
-/

namespace ScopedQuery.Wire

def readKind : Document → Option Kind := readWord Kind.ofName?

def writeKind (kind : Kind) : Document := .string kind.name

def readTable (document : Document) : Option Table := do
  let [name, primaryKey, columns] ← slots ["name", "primary_key", "columns"] document | none
  return ⟨← required readText name, ← required readText primaryKey,
    ← required (readMap readKind) columns⟩

def writeTable (table : Table) : Document :=
  .object [("name", .string table.name), ("primary_key", .string table.primaryKey),
    ("columns", writeMap writeKind table.columns)]

def readCatalog (document : Document) : Option Catalog := do
  let [tables] ← slots ["tables"] document | none
  return ⟨← required (readMap readTable) tables⟩

def writeCatalog (catalog : Catalog) : Document :=
  .object [("tables", writeMap writeTable catalog.tables)]

def readRow : Document → Option Row := readMap readJson

def writeRow : Row → Document := writeMap Json.document

def readOrdering (document : Document) : Option Sql.Ordering := do
  let [column, ascending] ← slots ["column", "ascending"] document | none
  return ⟨← required readText column, ← required readFlag ascending⟩

def writeOrdering (order : Sql.Ordering) : Document :=
  .object [("column", .string order.column), ("ascending", .bool order.ascending)]

end ScopedQuery.Wire
