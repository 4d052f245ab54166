import ScopedQuery.Flat.Spec
import ScopedQuery.Layer.CallLog
import ScopedQuery.Wire.Schema
/-!
# Specs of flat exports on the wire
-/

namespace ScopedQuery.Wire

/-- The word for all fields that occur, or the fields by name. -/
def readFields : Document → Option Flat.FieldChoice
  | .object [("named", fields)] => .named <$> readList readText fields
  | document => readWord choose document
where
  choose (word : String) : Option Flat.FieldChoice :=
    if word = "discovered" then some .discovered else none

def writeFields : Flat.FieldChoice → Document
  | .named fields => .object [("named", writeTexts fields)]
  | .discovered => .string "discovered"

def readSource (document : Document) : Option Flat.JsonSource := do
  let [column, label, fields] ← slots ["column", "prefix", "fields"] document | none
  return ⟨← required readText column, ← required readText label, ← required readFields fields⟩

def writeSource (source : Flat.JsonSource) : Document :=
  .object [("column", .string source.column), ("prefix", .string source.label),
    ("fields", writeFields source.fields)]

def readDerived (document : Document) : Option Flat.Derived := do
  let [name, columns] ← slots ["name", "sum_of"] document | none
  return ⟨← required readText name, ← required (readList readText) columns⟩

def writeDerived (derived : Flat.Derived) : Document :=
  .object [("name", .string derived.name), ("sum_of", writeTexts derived.sumOf)]

def readSpec (document : Document) : Option Flat.Spec := do
  let [columns, derived, sources] ← slots ["basic_columns", "derived", "json_sources"] document
    | none
  return ⟨← required (readList readText) columns, ← required (readList readDerived) derived,
    ← required (readList readSource) sources⟩

def writeSpec (spec : Flat.Spec) : Document :=
  .object [("basic_columns", writeTexts spec.basicColumns),
    ("derived", .array (spec.derived.map writeDerived)),
    ("json_sources", .array (spec.jsonSources.map writeSource))]

def readExport (document : Document) : Option CallLogExport := do
  let [header, rows] ← slots ["header", "rows"] document | none
  return ⟨← required (readList readText) header, ← required (readList readRow) rows⟩

def writeExport (result : CallLogExport) : Document :=
  .object [("header", writeTexts result.header), ("rows", .array (result.rows.map writeRow))]

end ScopedQuery.Wire
