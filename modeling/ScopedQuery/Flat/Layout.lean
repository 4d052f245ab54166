import ScopedQuery.Flat.Spec
/-!
# Flat rows

A spec is settled once for a whole set of rows into a layout, which fixes the output columns;
every row is then flattened by the layout alone. So all flat rows have the same names in the same
order, whatever their JSON holds. A cell is a string or a number: null and absent values are the
empty string, booleans and nested JSON are their text.
-/

namespace ScopedQuery.Flat

/-- The fields of a JSON cell: of an object, or of a string that holds the text of one. -/
def objectFields : Option Json → List (String × Json)
  | some (.object fields) => fields
  | some (.string text) =>
    match Json.read? text with
    | some (.object fields) => fields
    | _ => []
  | _ => []

def addName (name : String) : List String → List String
  | [] => [name]
  | other :: rest =>
    if name < other then name :: other :: rest
    else if name = other then other :: rest
    else other :: addName name rest

def discoveredFields (rows : List Row) (column : String) : List String :=
  (rows.flatMap fun row => (objectFields (row.find? column)).map Prod.fst).foldl
    (fun names name => addName name names) []

inductive Column
  | basic (name : String)
  | derived (derived : Derived)
  | field (name column field : String)
deriving DecidableEq

def Column.name : Column → String
  | .basic name => name
  | .derived sum => sum.name
  | .field name _ _ => name

structure Layout where
  columns : List Column

namespace Spec

def sourceFields (rows : List Row) (source : JsonSource) : List String :=
  match source.fields with
  | .named fields => fields
  | .discovered => discoveredFields rows source.column

/-- The layout for these rows. A basic column with the name of a derived one is left out, because a
derived column is never copied. -/
def layout (spec : Spec) (rows : List Row) : Layout where
  columns :=
    ((spec.basicColumns.filter fun name => !(spec.derived.any fun sum => sum.name = name)).map
        Column.basic)
      ++ spec.derived.map Column.derived
      ++ spec.jsonSources.flatMap fun source =>
        (sourceFields rows source).map fun field =>
          .field (source.label ++ "_" ++ field) source.column field

end Spec

def cell : Option Json → Json
  | none => .string ""
  | some .null => .string ""
  | some (.number number) => .number number
  | some (.string text) => .string text
  | some (.bool value) => .string (if value then "true" else "false")
  | some nested => .string nested.text

/-- The number that a value adds to a sum: a number, or text that writes one. -/
def summand : Option Json → Option Binary64
  | some (.number number) => some number.toBinary64
  | some (.string text) => Binary64.read? (Text.trim text.toList)
  | _ => none

/-- Adds from left to right; the sum of nothing is `-0.0`. -/
def total (numbers : List Binary64) : Binary64 :=
  numbers.foldl Binary64.add (.zero true)

/-- Rounded to six decimal places, a tie away from zero. -/
def toSixPlaces (number : Binary64) : Binary64 :=
  ((number.mul (.powerOfTen 6)).round).div (.powerOfTen 6)

/-- The sum of columns, or the empty string when it is no number. -/
def sum (row : Row) (columns : List String) : Json :=
  let rounded := toSixPlaces (total (columns.filterMap fun column => summand (row.find? column)))
  if rounded.isFinite then .number (.float rounded) else .string ""

namespace Layout

/-- The names of the output columns, in order and with repetitions. -/
def header (layout : Layout) : List String := layout.columns.map Column.name

def cellOf (row : Row) : Column → Json
  | .basic name => cell (row.find? name)
  | .derived derived => Flat.sum row derived.sumOf
  | .field _ column field => cell (Json.get? field (objectFields (row.find? column)))

/-- The flat row: each name once, at its first place and with the cell of its last column. -/
def flatten (layout : Layout) (row : Row) : Row :=
  .ofList (layout.columns.map fun column => (column.name, cellOf row column))

end Layout

end ScopedQuery.Flat
