import Mathlib.Data.List.Forall2
import ScopedQuery.Proofs.Json.Portable
import ScopedQuery.Proofs.Ordered
import ScopedQuery.Wire.Schema
/-!
# Readers that undo writers

`Carries read document value` says that a reader gets a value back from a document, however that
document is read. It holds of each kind of part and is put together part by part: lists, maps and
optional parts from what they hold, and a record from its places.
-/

namespace ScopedQuery.Wire

open Document

variable {α : Type} {read : Document → Option α} {document : Document} {value : α}

/-- The document is what is written for a value, and the reader makes that value of whatever the
document is read as. -/
structure Carries (read : Document → Option α) (document : Document) (value : α) : Prop where
  written : document.Written
  reads : ∀ document', ReadAs document document' → read document' = some value

/-! ### Values -/

theorem carries_text (text : String) : Carries readText (.string text) text where
  written := .string text
  reads := by
    rintro _ ⟨⟩
    rfl

theorem carries_flag (flag : Bool) : Carries readFlag (.bool flag) flag where
  written := .bool flag
  reads := by
    rintro _ ⟨⟩
    rfl

theorem carries_count {count limit : Nat} (h : count ≤ limit) (word : limit ≤ Text.maxCount) :
    Carries (readCount limit) (writeCount count) count where
  written := by
    have least : -(Text.maxWord : Int) - 1 ≤ count := by omega
    have most : (count : Int) ≤ Text.maxCount := by omega
    exact .number (Json.numeral_signedDecimal count) (Json.readsBack_integer least most)
  reads := by
    rintro _ ⟨⟩
    have inside : 0 ≤ (count : Int) ∧ (count : Int) ≤ limit := by omega
    rw [readCount, if_pos inside, Int.toNat_natCast]

theorem carries_json {json : Json} (h : json.Portable) : Carries readJson json.document json where
  written := Json.written_document h.wellFormed h.floats
  reads document' same := by
    rw [readJson, Json.returns_of_wellFormed h.wellFormed h.plain document' same]
    rfl

theorem carries_word {choose : String → Option α} {word : String} (h : choose word = some value) :
    Carries (readWord choose) (.string word) value where
  written := .string word
  reads := by
    rintro _ ⟨⟩
    exact h

/-! ### Lists, maps and optional parts -/

theorem carries_list {write : α → Document} {values : List α}
    (h : ∀ value ∈ values, Carries read (write value) value) :
    Carries (readList read) (.array (values.map write)) values where
  written := .array (List.forall_mem_map.2 fun value member => (h value member).written)
  reads := by
    rintro _ ⟨⟩
    next items same =>
      show items.mapM read = some values
      induction values generalizing items with
      | nil =>
        cases same
        rfl
      | cons value rest ih =>
        obtain ⟨first, others⟩ := List.forall_mem_cons.1 h
        cases same with
        | cons same sames =>
          rw [List.mapM_cons, first.reads _ same, ih others sames]
          rfl

theorem carries_map {write : α → Document} {map : Ordered α}
    (h : ∀ entry ∈ map.entries, Carries read (write entry.2) entry.2) :
    Carries (readMap read) (writeMap write map) map where
  written := .object (List.forall_mem_map.2 fun entry member => (h entry member).written)
  reads document' same := by
    obtain ⟨fields, written, same⟩ := exists_asWritten same
    have entries : (fields.mapM fun field => (field.1, ·) <$> read field.2)
        = some map.entries := by
      clear written
      generalize map.entries = entries at h same
      induction entries generalizing fields with
      | nil =>
        cases same
        rfl
      | cons entry rest ih =>
        obtain ⟨first, others⟩ := List.forall_mem_cons.1 h
        cases same with
        | cons name same sames =>
          rw [List.mapM_cons, first.reads _ same, ih _ others sames]
          rfl
    rw [readMap, written]
    show Ordered.ofList <$> (fields.mapM fun field => (field.1, ·) <$> read field.2) = some map
    rw [entries]
    exact congrArg some (Ordered.ext_entries (Ordered.entries_ofList map.distinct))

theorem eq_null_of_readAs (h : ReadAs document .null) : document = .null := by
  cases h
  rfl

theorem carries_nullable {write : α → Document} {value? : Option α}
    (h : ∀ value ∈ value?, Carries read (write value) value ∧ write value ≠ .null) :
    Carries (nullable read) (writeNullable write value?) value? := by
  cases value? with
  | none =>
    refine ⟨.null, ?_⟩
    rintro _ ⟨⟩
    rfl
  | some value =>
    obtain ⟨carries, notNull⟩ := h value rfl
    refine ⟨carries.written, fun document' same => ?_⟩
    rw [nullable, carries.reads _ same]
    · rfl
    · rintro rfl
      exact notNull (eq_null_of_readAs same)

/-! ### Records -/

/-- What one place holds is what the other holds, as it is read. -/
inductive SlotReadAs : Slot → Slot → Prop
  | held {document document' : Document} (same : ReadAs document document') :
    SlotReadAs (.held document) (.held document')
  | missing : SlotReadAs .missing .missing

theorem filter_readAs {fields fields' : List (String × Document)}
    (h : FieldsReadAs fields fields') (name : String) :
    FieldsReadAs (fields.filter fun entry => entry.1 = name)
      (fields'.filter fun entry => entry.1 = name) := by
  induction fields generalizing fields' with
  | nil =>
    cases h
    exact .nil
  | cons entry rest ih =>
    cases h with
    | cons other same sames =>
      simp only [List.filter_cons, decide_eq_true_eq]
      split
      · exact .cons other same (ih sames)
      · exact ih sames

theorem exists_fieldSlot {fields fields' : List (String × Document)}
    (h : FieldsReadAs fields fields') {name : String} {slot : Slot}
    (found : fieldSlot fields name = some slot) :
    ∃ slot', fieldSlot fields' name = some slot' ∧ SlotReadAs slot slot' := by
  have same := filter_readAs h name
  unfold fieldSlot at found ⊢
  generalize fields'.filter (fun entry => entry.1 = name) = kept at same ⊢
  split at found
  · next none =>
    cases found
    rw [none] at same
    cases same
    exact ⟨.missing, rfl, .missing⟩
  · next one =>
    cases found
    rw [one] at same
    cases same with
    | cons _ same sames =>
      cases sames
      exact ⟨_, rfl, .held same⟩
  · cases found

/-- The places of a record, as they are read. -/
theorem exists_slots {fields : List (String × Document)} {document' : Document}
    (h : ReadAs (.object fields) document') (names : List String) (places : List Slot)
    (found : names.mapM (fieldSlot fields) = some places) :
    ∃ places', slots names document' = some places' ∧ List.Forall₂ SlotReadAs places places' := by
  obtain ⟨fields', written, same⟩ := exists_asWritten h
  have all : ∃ places', names.mapM (fieldSlot fields') = some places'
      ∧ List.Forall₂ SlotReadAs places places' := by
    induction names generalizing places with
    | nil =>
      cases found
      exact ⟨[], rfl, .nil⟩
    | cons name rest ih =>
      simp only [List.mapM_cons, Option.bind_eq_bind, Option.bind_eq_some_iff, Option.pure_def,
        Option.some.injEq] at found
      obtain ⟨place, first, places, others, rfl⟩ := found
      obtain ⟨place', first', same'⟩ := exists_fieldSlot same first
      obtain ⟨places', others', sames⟩ := ih places others
      refine ⟨place' :: places', ?_, .cons same' sames⟩
      rw [List.mapM_cons, first', others']
      rfl
  simpa only [slots, written] using all

theorem Carries.required (h : Carries read document value) {slot : Slot}
    (same : SlotReadAs (.held document) slot) : required read slot = some value := by
  cases same with
  | held same => exact h.reads _ same

theorem Carries.defaulted (h : Carries read document value) {slot : Slot}
    (same : SlotReadAs (.held document) slot) (other : α) :
    defaulted other read slot = some value := by
  cases same with
  | held same => exact h.reads _ same

theorem defaulted_missing {slot : Slot} (same : SlotReadAs .missing slot)
    (read : Document → Option α) (other : α) : defaulted other read slot = some other := by
  cases same
  rfl

end ScopedQuery.Wire
