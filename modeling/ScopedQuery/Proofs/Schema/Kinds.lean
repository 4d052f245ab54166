import ScopedQuery.Proofs.Json.WellFormed
import ScopedQuery.Proofs.Layer.Checks
import ScopedQuery.Proofs.Number.Rounding
/-!
# Values of a kind

What a caller or a user gives for a column is bound as null or as a value of the variant that
belongs to the kind of the column. Whole numbers fit a signed 64-bit word, and other numbers are
finite.
-/

namespace ScopedQuery

/-! ### Numbers -/

namespace Binary64

theorem isFinite_ofRatio {numerator denominator : Nat} (negative : Bool)
    (small : (numerator / denominator).log2 < 2000) :
    (ofRatio negative numerator denominator).isFinite = true := by
  have scale : ¬maxScale < (numerator / denominator).log2 - 52 := by
    rw [maxScale]
    omega
  have carried : ¬maxScale < (numerator / denominator).log2 - 52 + 1 := by
    rw [maxScale]
    omega
  by_cases carries : roundHalfEven numerator
      (denominator * Nat.pow 2 ((numerator / denominator).log2 - 52)) = 2 * leadingBit
  · simp only [ofRatio, carries, if_true, carried, if_false, isFinite]
  · simp only [ofRatio, carries, scale, if_false, isFinite]

theorem isFinite_ofInt {number : Int} (few : number.natAbs < 2 ^ 64) :
    (ofInt number).isFinite = true := by
  obtain ⟨bits, short, unit⟩ : ∃ bits ≤ 1936, one = 2 ^ bits := ⟨1074, by decide, one_eq⟩
  refine isFinite_ofRatio _ (Nat.lt_of_lt_of_le ?_ (show 64 + bits ≤ 2000 by omega))
  rw [Nat.div_one, unit]
  rcases Nat.eq_zero_or_pos number.natAbs with none | some
  · rw [none, Nat.zero_mul, Nat.log2_zero]
    omega
  · have large := Nat.mul_pos some (Nat.two_pow_pos bits)
    rw [Nat.log2_lt (Nat.ne_of_gt large), Nat.pow_add]
    exact Nat.mul_lt_mul_of_pos_right few (Nat.two_pow_pos bits)

end Binary64

theorem Json.Number.WellFormed.isFinite {number : Json.Number} (h : number.WellFormed) :
    number.toBinary64.isFinite = true := by
  cases h with
  | @integer value low high =>
    refine Binary64.isFinite_ofInt ?_
    simp only [Text.maxWord, Text.maxCount] at low high
    omega
  | float finite => exact finite

namespace Text

theorem le_of_readUpTo {limit number result : Nat} {beyond : NumeralFault} {text : List Char}
    (h : readUpTo limit beyond number text = .ok result) (within : number ≤ limit) :
    result ≤ limit := by
  induction text generalizing number with
  | nil =>
    cases h
    exact within
  | cons char rest ih =>
    rw [readUpTo] at h
    split at h
    · cases h
    · split at h
      · cases h
      · next fits => exact ih h (Nat.le_of_not_lt fits)

theorem isWord_of_readSigned {text : List Char} {number : Int}
    (h : readSigned maxWord text = .ok number) : isWord number = true := by
  rw [isWord, Bool.and_eq_true, decide_eq_true_iff, decide_eq_true_iff]
  unfold readSigned at h
  split at h
  · cases h
  · cases h
  · cases h
  all_goals
    obtain ⟨magnitude, read, rfl⟩ := map_eq_ok.1 h
    have most := le_of_readUpTo read (Nat.zero_le _)
    simp only [Int.ofNat_eq_natCast]
    omega

end Text

/-! ### Kinds -/

namespace Kind

/-- The values that a column of the kind is bound with. -/
inductive Holds : Kind → Value → Prop
  | text (value : String) : Holds .text (.text value)
  | integer {value : Int} : Text.isWord value = true → Holds .integer (.int value)
  | numeric {value : Binary64} : value.isFinite = true → Holds .numeric (.float value)
  | boolean (value : Bool) : Holds .boolean (.bool value)
  | timestamp (value : Timestamp) : Holds .timestamp (.timestamp value)
  | uuid (value : Uuid) : Holds .uuid (.uuid value)
  | json (value : Json) : Holds .json (.json value)

variable {kind : Kind} {value : Value} {json : Json}

theorem Holds.isNull_eq (h : kind.Holds value) : value.isNull = false := by
  cases h <;> rfl

theorem isFinite_of_readFinite {text : List Char} {number : Binary64}
    (h : readFinite text = some number) : number.isFinite = true :=
  (Option.filter_eq_some_iff.1 h).2

theorem holds_ofText? {text : String} (h : kind.ofText? text = some value) : kind.Holds value := by
  cases kind with
  | text =>
    cases h
    exact .text text
  | integer =>
    obtain ⟨number, read, rfl⟩ := Option.map_eq_some_iff.1 h
    cases whole : Text.readSigned Text.maxWord (Text.trim text.toList) with
    | error fault =>
      rw [whole] at read
      cases read
    | ok number =>
      rw [whole] at read
      cases read
      exact .integer (Text.isWord_of_readSigned whole)
  | numeric =>
    obtain ⟨number, read, rfl⟩ := Option.map_eq_some_iff.1 h
    exact .numeric (isFinite_of_readFinite read)
  | boolean =>
    obtain ⟨flag, -, rfl⟩ := Option.map_eq_some_iff.1 h
    exact .boolean flag
  | timestamp =>
    obtain ⟨instant, -, rfl⟩ := Option.map_eq_some_iff.1 h
    exact .timestamp instant
  | uuid =>
    obtain ⟨uuid, -, rfl⟩ := Option.map_eq_some_iff.1 h
    exact .uuid uuid
  | json =>
    cases h
    exact .json _

theorem holds_ofJson? (wellFormed : json.WellFormed) (h : kind.ofJson? json = some value) :
    value = .null ∨ kind.Holds value := by
  cases wellFormed with
  | null =>
    cases kind <;> cases h <;> exact .inl rfl
  | bool flag =>
    right
    cases kind <;> cases h
    · exact .text _
    · exact .boolean _
    · exact .json _
  | @number number wellFormed =>
    right
    cases kind with
    | text =>
      cases h
      exact .text _
    | integer =>
      obtain ⟨word, fits, rfl⟩ := Option.map_eq_some_iff.1 h
      refine .integer ?_
      cases number with
      | integer whole =>
        rw [Json.Number.word?] at fits
        split at fits
        · next word =>
          cases fits
          exact word
        · cases fits
      | float other => cases fits
    | numeric =>
      cases h
      exact .numeric wellFormed.isFinite
    | json =>
      cases h
      exact .json _
    | boolean | timestamp | uuid => cases h
  | string text =>
    right
    cases kind with
    | json =>
      cases h
      exact .json _
    | _ => exact holds_ofText? h
  | array items =>
    right
    cases kind <;> cases h
    exact .json _
  | object ascending fields =>
    right
    cases kind <;> cases h
    exact .json _

end Kind

/-! ### Rows and predicates -/

theorem exists_mem_of_zip {step : String × Json → Except Fault Value}
    {entries : List (String × Json)} {values : List Value}
    (made : List.Forall₂ (fun entry value => step entry = .ok value) entries values) :
    ∀ entry ∈ (entries.map Prod.fst).zip values,
      ∃ json, (entry.1, json) ∈ entries ∧ step (entry.1, json) = .ok entry.2 := by
  induction made with
  | nil => nofun
  | @cons given value entries values first others ih =>
    rw [List.map_cons, List.zip_cons_cons, List.forall_mem_cons]
    refine ⟨⟨given.2, List.mem_cons_self .., first⟩, fun entry member => ?_⟩
    obtain ⟨json, earlier, coerced⟩ := ih entry member
    exact ⟨json, List.mem_cons_of_mem _ earlier, coerced⟩

namespace Table

variable {table : Table} {row : Row} {data : Sql.Record}

theorem exists_of_coerceRow (h : table.coerceRow row = .ok data) : ∀ entry ∈ data.entries,
    ∃ json, (entry.1, json) ∈ row.entries ∧ table.coerce entry.1 json = .ok entry.2 := by
  simp only [coerceRow, bind_eq_ok, pure_eq_ok, mapM_eq_ok] at h
  obtain ⟨values, coerced, rfl⟩ := h
  have distinct : ((row.names.zip values).map Prod.fst).Nodup := by
    rw [List.map_fst_zip (by rw [Ordered.names, List.length_map, coerced.length_eq])]
    exact row.distinct
  rw [Ordered.entries_ofList distinct]
  exact exists_mem_of_zip coerced

/-- Every value to store is null or has the kind of its column. -/
theorem holds_of_coerceRow (wellFormed : ∀ entry ∈ row.entries, entry.2.WellFormed)
    (h : table.coerceRow row = .ok data) :
    ∀ entry ∈ data.entries, ∃ kind, (entry.1, kind) ∈ table.columns.entries
      ∧ (entry.2 = .null ∨ kind.Holds entry.2) := by
  intro entry member
  obtain ⟨json, given, coerced⟩ := exists_of_coerceRow h entry member
  obtain ⟨kind, listed, read⟩ := coerce_eq_ok.1 coerced
  exact ⟨kind, listed, Kind.holds_ofJson? (wellFormed _ given) read⟩

end Table

namespace Predicate

variable {table : Table} {predicate : Predicate} {filter : Sql.Filter}

/-- The filter compares the column with null or with a value of the kind that the operator asks
for, and has no value where it asks for existence. -/
def Typed (table : Table) (predicate : Predicate) (filter : Sql.Filter) : Prop :=
  ∃ kind, (predicate.column, kind) ∈ table.columns.entries
    ∧ filter.column = .plain predicate.column ∧ predicate.operator = filter.operator.name
    ∧ (filter.operator = .isNotNull ∧ filter.value = none
      ∨ filter.operator ≠ .isNotNull ∧ ∃ value, filter.value = some value
        ∧ (value = .null ∨ (valueKind filter.operator kind).Holds value))

theorem typed_of_filter (wellFormed : predicate.value.WellFormed)
    (h : predicate.filter table = .ok filter) : predicate.Typed table filter := by
  obtain ⟨operator, kind, named, listed, -, made⟩ := filter_eq_ok.1 h
  refine ⟨kind, listed, ?_⟩
  rcases made with ⟨rfl, rfl⟩ | ⟨takes, value, read, rfl⟩
  · exact ⟨rfl, named, .inl ⟨rfl, rfl⟩⟩
  · exact ⟨rfl, named, .inr ⟨takes, value, rfl, Kind.holds_ofJson? wellFormed read⟩⟩

end Predicate

end ScopedQuery
