import ScopedQuery.Json.Basic
/-!
# Well-formed values

What a JSON value is beside its shape: a whole number fits a signed or an unsigned 64-bit word, any
other number is finite, and the fields of an object stand in ascending order.
-/

namespace ScopedQuery.Json

inductive Number.WellFormed : Number → Prop
  | integer {value : Int} : -(Text.maxWord : Int) - 1 ≤ value → value ≤ Text.maxCount →
    WellFormed (.integer value)
  | float {value : Binary64} : value.isFinite = true → WellFormed (.float value)

inductive WellFormed : Json → Prop
  | null : WellFormed .null
  | bool (value : Bool) : WellFormed (.bool value)
  | number {number : Number} : number.WellFormed → WellFormed (.number number)
  | string (value : String) : WellFormed (.string value)
  | array {items : List Json} : (∀ item ∈ items, WellFormed item) → WellFormed (.array items)
  | object {fields : List (String × Json)} : (fields.map Prod.fst).Pairwise (· < ·) →
    (∀ field ∈ fields, WellFormed field.2) → WellFormed (.object fields)

end ScopedQuery.Json
