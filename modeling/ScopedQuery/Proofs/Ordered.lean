import Mathlib.Data.List.Induction
import Mathlib.Data.List.Nodup
import ScopedQuery.Ordered
/-!
# Entries of ordered maps

A map built from pairs has each of their names once, where it came first, and under it the value
that came last. When the names are all different, the pairs are its entries.
-/

namespace ScopedQuery.Ordered

variable {α β : Type} {name : String} {value : α}

theorem put_of_not_mem {entries : List (String × α)} (h : name ∉ entries.map Prod.fst) :
    put name value entries = entries ++ [(name, value)] := by
  induction entries with
  | nil => rfl
  | cons entry rest ih =>
    rw [List.map_cons, List.mem_cons, not_or] at h
    rw [put, if_neg (Ne.symm h.1), ih h.2, List.cons_append]

theorem ofList_concat (pairs : List (String × α)) (pair : String × α) :
    ofList (pairs ++ [pair]) = (ofList pairs).insert pair.1 pair.2 := by
  rw [ofList, List.foldl_append]
  rfl

theorem entries_ofList {pairs : List (String × α)} (h : (pairs.map Prod.fst).Nodup) :
    (ofList pairs).entries = pairs := by
  induction pairs using List.reverseRecOn with
  | nil => rfl
  | append_singleton pairs pair ih =>
    rw [List.map_append, List.map_singleton, ← List.concat_eq_append,
      List.nodup_concat] at h
    obtain ⟨fresh, distinct⟩ := h
    have listed := ih distinct
    rw [← listed] at fresh
    have inserted : ((ofList pairs).insert pair.1 pair.2).entries
        = (ofList pairs).entries ++ [pair] := put_of_not_mem fresh
    rw [ofList_concat, inserted, listed]

theorem find?_eq_some {map : Ordered α} :
    map.find? name = some value ↔ (name, value) ∈ map.entries := by
  constructor
  · intro h
    obtain ⟨entry, found, rfl⟩ := Option.map_eq_some_iff.1 h
    have named : entry.1 = name := by simpa using List.find?_some found
    rw [← named]
    exact List.mem_of_find?_eq_some found
  · intro member
    cases found : map.entries.find? fun entry => entry.1 = name with
    | none => simpa using List.find?_eq_none.1 found _ member
    | some entry =>
      have named : entry.1 = name := by simpa using List.find?_some found
      have same : entry = (name, value) :=
        List.inj_on_of_nodup_map map.distinct (List.mem_of_find?_eq_some found) member named
      rw [find?, found, same]
      rfl

theorem find?_put_of_ne {entries : List (String × α)} {other : String} (h : other ≠ name) :
    (put name value entries).find? (fun entry => entry.1 = other)
      = entries.find? fun entry => entry.1 = other := by
  induction entries with
  | nil => simp [put, h.symm]
  | cons entry rest ih =>
    rw [put]
    split_ifs with same
    · simp [same, h.symm]
    · rw [List.find?_cons, List.find?_cons, ih]

theorem find?_insert_of_ne {map : Ordered α} {other : String} (h : other ≠ name) :
    (map.insert name value).find? other = map.find? other :=
  congrArg (Option.map Prod.snd) (find?_put_of_ne h)

theorem find?_put {entries : List (String × α)} :
    (put name value entries).find? (fun entry => entry.1 = name) = some (name, value) := by
  induction entries with
  | nil => simp [put]
  | cons entry rest ih =>
    rw [put]
    split_ifs with same
    · simp
    · rw [List.find?_cons_of_neg (by simpa using same), ih]

theorem find?_insert {map : Ordered α} : (map.insert name value).find? name = some value :=
  congrArg (Option.map Prod.snd) find?_put

theorem names_put {entries : List (String × α)} :
    (put name value entries).map Prod.fst
      = if name ∈ entries.map Prod.fst then entries.map Prod.fst
        else entries.map Prod.fst ++ [name] := by
  induction entries with
  | nil => rfl
  | cons entry rest ih =>
    rw [put]
    split_ifs with same member member
    · rw [List.map_cons, List.map_cons, same]
    · exact absurd (same ▸ List.mem_cons_self ..) member
    · rw [List.map_cons, List.map_cons, ih, if_pos]
      exact (List.mem_cons.1 member).resolve_left (Ne.symm same)
    · rw [List.map_cons, List.map_cons, ih, if_neg, List.cons_append]
      exact fun later => member (List.mem_cons_of_mem _ later)

/-- A name that comes again does not move. -/
theorem names_ofList (pairs : List (String × α)) :
    (ofList pairs).names = (pairs.map Prod.fst).eraseDups := by
  induction pairs using List.reverseRecOn with
  | nil => rfl
  | append_singleton pairs pair ih =>
    have names : ((ofList pairs).insert pair.1 pair.2).names
        = if pair.1 ∈ (ofList pairs).names then (ofList pairs).names
          else (ofList pairs).names ++ [pair.1] := names_put
    rw [ofList_concat, names, ih, List.map_append, List.eraseDups_append, List.map_singleton]
    by_cases member : pair.1 ∈ pairs.map Prod.fst
    · have again : [pair.1].removeAll (pairs.map Prod.fst) = [] := by
        simpa [List.removeAll] using member
      rw [if_pos (List.mem_eraseDups.2 member), again, List.eraseDups_nil, List.append_nil]
    · have fresh : [pair.1].removeAll (pairs.map Prod.fst) = [pair.1] := by
        simpa [List.removeAll] using member
      rw [if_neg fun listed => member (List.mem_eraseDups.1 listed), fresh]
      rfl

/-- The last of the values that come for a name counts. -/
theorem find?_ofList (pairs : List (String × α)) (name : String) :
    (ofList pairs).find? name
      = ((pairs.filter fun pair => pair.1 = name).getLast?).map Prod.snd := by
  induction pairs using List.reverseRecOn with
  | nil => rfl
  | append_singleton pairs pair ih =>
    rw [ofList_concat, List.filter_append, List.getLast?_append]
    by_cases same : pair.1 = name
    · rw [same, find?_insert]
      simp [same]
    · rw [find?_insert_of_ne (Ne.symm same), ih]
      simp [same]

end ScopedQuery.Ordered
