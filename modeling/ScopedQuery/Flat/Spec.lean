import ScopedQuery.Schema.Table
/-!
# What a flat export shows

The output columns of an export: basic columns copied from the row, derived columns that sum other
columns, and the fields of JSON columns, each under a label and the name of the field.
-/

namespace ScopedQuery.Flat

inductive FieldChoice
  /-- Exactly these, in this order. -/
  | named (fields : List String)
  /-- All that occur in the data, sorted. -/
  | discovered
deriving DecidableEq

structure JsonSource where
  column : String
  label : String
  fields : FieldChoice
deriving DecidableEq

structure Derived where
  name : String
  sumOf : List String
deriving DecidableEq

structure Spec where
  basicColumns : List String
  derived : List Derived
  jsonSources : List JsonSource
deriving DecidableEq

end ScopedQuery.Flat
