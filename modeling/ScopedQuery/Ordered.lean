/-!
# Ordered maps

Maps from names to values that remember the order in which the names came first. Putting a value
under a name that is already there replaces the value and keeps the place. The entries never hold a
name twice, and that is part of the type.
-/

namespace ScopedQuery

structure Ordered (α : Type) where
  entries : List (String × α)
  distinct : (entries.map Prod.fst).Nodup

namespace Ordered

variable {α β : Type}

theorem ext_entries {left right : Ordered α} (h : left.entries = right.entries) : left = right := by
  cases left; cases right; cases h; rfl

def empty : Ordered α := ⟨[], by simp⟩

instance : Inhabited (Ordered α) := ⟨empty⟩

def put (name : String) (value : α) : List (String × α) → List (String × α)
  | [] => [(name, value)]
  | entry :: rest =>
    if entry.1 = name then (name, value) :: rest else entry :: put name value rest

theorem mem_put_names {name other : String} {value : α} {entries : List (String × α)} :
    other ∈ (put name value entries).map Prod.fst
      ↔ other = name ∨ other ∈ entries.map Prod.fst := by
  induction entries with
  | nil => simp [put]
  | cons entry rest ih =>
    by_cases h : entry.1 = name
    · simp only [put, h, if_true, List.map_cons, List.mem_cons]
      grind
    · simp only [put, h, if_false, List.map_cons, List.mem_cons, ih]
      grind

theorem put_distinct {name : String} {value : α} {entries : List (String × α)}
    (h : (entries.map Prod.fst).Nodup) : ((put name value entries).map Prod.fst).Nodup := by
  induction entries with
  | nil => simp [put]
  | cons entry rest ih =>
    simp only [List.map_cons, List.nodup_cons] at h
    by_cases same : entry.1 = name
    · simp only [put, same, if_true, List.map_cons, List.nodup_cons]
      exact ⟨same ▸ h.1, h.2⟩
    · simp only [put, same, if_false, List.map_cons, List.nodup_cons]
      refine ⟨fun member => ?_, ih h.2⟩
      rcases mem_put_names.1 member with equal | member
      · exact same equal
      · exact h.1 member

def insert (map : Ordered α) (name : String) (value : α) : Ordered α where
  entries := put name value map.entries
  distinct := put_distinct map.distinct

/-- Inserts the pairs from left to right. -/
def ofList (pairs : List (String × α)) : Ordered α :=
  pairs.foldl (fun map pair => map.insert pair.1 pair.2) empty

def find? (map : Ordered α) (name : String) : Option α :=
  (map.entries.find? fun entry => entry.1 = name).map Prod.snd

def names (map : Ordered α) : List String := map.entries.map Prod.fst

def values (map : Ordered α) : List α := map.entries.map Prod.snd

def isEmpty (map : Ordered α) : Bool := map.entries.isEmpty

def map (f : α → β) (map : Ordered α) : Ordered β where
  entries := map.entries.map fun entry => (entry.1, f entry.2)
  distinct := by simpa [List.map_map, Function.comp_def] using map.distinct

end Ordered

end ScopedQuery
