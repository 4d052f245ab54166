import ScopedQuery.Proofs.Sql.Apart
/-!
# Clauses that can be told apart

The predicates, the data, the select list and the ending of a statement, each told apart from the
others of its kind. A predicate is known by its column expression and its comparison, and a value
only by whether it is null.
-/

namespace ScopedQuery.Sql

/-! ### Comparisons -/

/-- The operator and whether it compares with null. A missing value counts as null, and being other
than null as existence, which is asked for without a value. -/
def Filter.comparison (filter : Filter) : Operator × Bool :=
  let null := (filter.value.getD .null).isNull
  if filter.operator = .isNotNull ∨ (filter.operator = .neq ∧ null) then (.isNotNull, true)
  else (filter.operator, null)

def Filter.reading (filter : Filter) : Column × Operator × Bool :=
  (filter.column, filter.comparison)

/-- A column with the question whether null is stored in it. -/
def entryReading (entry : String × Value) : String × Bool := (entry.1, entry.2.isNull)

/-- What a column is compared with. -/
inductive Operand
  | notNull
  | null
  | value
deriving DecidableEq

def Operand.text (next : Nat) : Operand → String
  | .notNull => "NOT NULL"
  | .null => "NULL"
  | .value => "$" ++ Text.decimalText next

def Operand.ofNull : Bool → Operand
  | true => .null
  | false => .value

theorem Operand.ofNull_injective {null null' : Bool} (same : ofNull null = ofNull null') :
    null = null' := by
  cases null <;> cases null' <;> simp [ofNull] at same ⊢

/-- The word behind the column and the operand behind the word. -/
def comparisonWords : Operator × Bool → String × Operand
  | (.isNotNull, _) => ("IS", .notNull)
  | (.eq, true) => ("IS", .null)
  | (operator, null) => (operator.symbol, .ofNull null)

theorem comparisonWords_symbol {operator : Operator} {null : Bool}
    (existence : operator ≠ .isNotNull) (given : operator = .eq → null = false) :
    comparisonWords (operator, null) = (operator.symbol, .ofNull null) := by
  cases operator with
  | isNotNull => exact absurd rfl existence
  | eq =>
    rw [given rfl]
    rfl
  | _ => rfl

theorem placeholder_eq (next : Nat) (value : Value) :
    Fragment.placeholder next value = ((Operand.ofNull value.isNull).text next).toList := by
  cases null : value.isNull with
  | true => simp [Fragment.placeholder, null, Operand.ofNull, Operand.text]
  | false => simp [Fragment.placeholder, null, Operand.ofNull, Operand.text, Text.decimalText]

theorem Operand.append_inj {next next' : Nat} {operand operand' : Operand}
    {rest rest' : List Char} (stops : Text.Stops Text.isDigit rest)
    (stops' : Text.Stops Text.isDigit rest')
    (same : (operand.text next).toList ++ rest = (operand'.text next').toList ++ rest') :
    operand = operand' ∧ rest = rest' := by
  cases operand <;> cases operand' <;> simp [text] at same ⊢
  case value.value =>
    rw [Text.decimalText, Text.decimalText, String.toList_ofList, String.toList_ofList] at same
    exact (Text.append_inj_of_stops (fun _ => Text.isDigit_of_mem_decimal)
      (fun _ => Text.isDigit_of_mem_decimal) stops stops' same).2
  all_goals exact same

theorem isNull_iff {value : Value} : value.isNull = true ↔ value = .null := by
  cases value <;> simp [Value.isNull]

theorem Filter.chars_fragments (filter : Filter) (next : Nat) :
    Fragment.chars next filter.fragments
      = filter.column.text.toList ++ ' ' :: ((comparisonWords filter.comparison).1.toList
        ++ ' ' :: ((comparisonWords filter.comparison).2.text next).toList) := by
  unfold fragments
  split
  · next existence =>
    have comparison : filter.comparison = (.isNotNull, true) := by simp [comparison, existence]
    simp [comparison, comparisonWords, Operand.text]
  · next equal null =>
    have comparison : filter.comparison = (.eq, true) := by
      simp [comparison, equal, null, Value.isNull]
    simp [comparison, comparisonWords, Operand.text]
  · next unequal null =>
    have comparison : filter.comparison = (.isNotNull, true) := by
      simp [comparison, unequal, null, Value.isNull]
    simp [comparison, comparisonWords, Operand.text]
  · next existence equal unequal =>
    have comparison : filter.comparison = (filter.operator, (filter.value.getD .null).isNull) := by
      rw [comparison, if_neg]
      intro either
      rcases either with operator | ⟨operator, null⟩
      · exact existence operator
      · exact unequal operator (isNull_iff.1 null)
    have given : filter.operator = .eq → (filter.value.getD .null).isNull = false := by
      rw [← Bool.not_eq_true, isNull_iff]
      exact equal
    rw [comparison, comparisonWords_symbol existence given, Fragment.chars_piece,
      Fragment.chars_slot, Fragment.chars_nil, placeholder_eq]
    simp

/-- Reads a comparison back. -/
def comparisonOfWords : String × Operand → Operator × Bool
  | (_, .notNull) => (.isNotNull, true)
  | (word, operand) =>
    ((Operator.all.find? fun operator => operator.symbol = word).getD .eq, operand = .null)

theorem comparisonOfWords_words {comparison : Operator × Bool}
    (h : comparison.1 = .isNotNull → comparison.2 = true) :
    comparisonOfWords (comparisonWords comparison) = comparison := by
  obtain ⟨operator, null⟩ := comparison
  cases operator <;> cases null <;> first | rfl | simp at h

theorem Filter.comparison_existence (filter : Filter) (h : filter.comparison.1 = .isNotNull) :
    filter.comparison.2 = true := by
  simp only [comparison] at h ⊢
  split at h
  · next taken => rw [if_pos taken]
  · next other => exact absurd (Or.inl h) other

theorem ne_space_of_mem_word {comparison : Operator × Bool} :
    ∀ char ∈ (comparisonWords comparison).1.toList, decide (char ≠ ' ') = true := by
  obtain ⟨operator, null⟩ := comparison
  rw [← List.all_eq_true]
  cases operator <;> cases null <;> decide

/-! ### Predicates and data -/

theorem told_filter : Told (fun filter => filter.column.Writable)
    (Text.Stops Text.isDigit) Filter.fragments Filter.reading := by
  intro next next' filter filter' rest rest' ok ok' stops stops' same
  rw [Filter.chars_fragments, Filter.chars_fragments, List.append_assoc, List.append_assoc,
    List.cons_append, List.cons_append] at same
  obtain ⟨columns, behind⟩ := ok.append_inj ok' same
  rw [List.append_assoc, List.append_assoc] at behind
  obtain ⟨words, operands⟩ := Text.append_inj_of_stops ne_space_of_mem_word ne_space_of_mem_word
    (by simp) (by simp) behind
  obtain ⟨operand, ends⟩ := Operand.append_inj stops stops' (List.cons.inj operands).2
  have comparisons : filter.comparison = filter'.comparison := by
    rw [← comparisonOfWords_words filter.comparison_existence,
      Prod.ext (String.toList_inj.1 words) operand,
      comparisonOfWords_words filter'.comparison_existence]
  exact ⟨by rw [Filter.reading, Filter.reading, columns, comparisons], ends⟩

theorem told_slot : Told (fun _ => True) (Text.Stops Text.isDigit) (fun value => [.slot value])
    Value.isNull := by
  intro next next' value value' rest rest' _ _ stops stops' same
  simp only [Fragment.chars_slot, Fragment.chars_nil, List.append_nil, placeholder_eq] at same
  obtain ⟨operands, ends⟩ := Operand.append_inj stops stops' same
  exact ⟨Operand.ofNull_injective operands, ends⟩

theorem told_assignment : Told (fun entry => isIdentifier entry.1 = true)
    (Text.Stops Text.isDigit) assignment entryReading := by
  intro next next' entry entry' rest rest' ok ok' stops stops' same
  simp only [assignment, Fragment.chars_piece, String.toList_append, List.append_assoc] at same
  obtain ⟨names, behind⟩ := identifier_append_inj ok ok' (by simp; decide) (by simp; decide) same
  obtain ⟨nulls, ends⟩ := told_slot next next' entry.2 entry'.2 rest rest' trivial trivial
    stops stops' (List.append_cancel_left behind)
  exact ⟨Prod.ext names nulls, ends⟩

/-- What may follow a condition. -/
def FollowsCondition (rest : List Char) : Prop :=
  Text.Stops isIdentifierPart rest ∧ ¬" AND ".toList <+: rest ∧ ¬" WHERE ".toList <+: rest

theorem stops_isDigit {rest : List Char} (stops : Text.Stops isIdentifierPart rest) :
    Text.Stops Text.isDigit rest := by
  intro char first
  have part := stops char first
  simp only [isIdentifierPart, Bool.or_eq_false_iff] at part
  exact part.1.1.2

theorem followsCondition_returning : FollowsCondition " RETURNING *".toList :=
  ⟨by decide, by decide, by decide⟩

theorem told_condition : Told (fun filters => ∀ filter ∈ filters, filter.column.Writable)
    FollowsCondition condition (List.map Filter.reading) := by
  intro next next' filters filters' rest rest' ok ok' follows follows' same
  cases filters with
  | nil =>
    cases filters' with
    | nil => exact ⟨rfl, same⟩
    | cons filter' filters' =>
      rw [condition_cons, Fragment.chars_piece, List.append_assoc] at same
      exact absurd ⟨_, same.symm⟩ follows.2.2
  | cons filter filters =>
    cases filters' with
    | nil =>
      rw [condition_cons, Fragment.chars_piece, List.append_assoc] at same
      exact absurd ⟨_, same⟩ follows'.2.2
    | cons filter' filters' =>
      have predicates := told_filter.separated " AND " fun rest => by simp; decide
      simp only [condition_cons, Fragment.chars_piece, List.append_assoc,
        List.append_cancel_left_eq] at same
      exact predicates next next' _ _ rest rest' ⟨by simp, ok⟩ ⟨by simp, ok'⟩
        ⟨stops_isDigit follows.1, follows.2.1⟩ ⟨stops_isDigit follows'.1, follows'.2.1⟩ same

theorem stops_condition {filters : List Filter} {next : Nat} {rest : List Char}
    (stops : Text.Stops isIdentifierPart rest) :
    Text.Stops isIdentifierPart (Fragment.chars next (condition filters) ++ rest) := by
  cases filters with
  | nil => exact stops
  | cons filter filters =>
    rw [condition_cons, Fragment.chars_piece]
    simp
    decide

/-! ### What a fetch ends with -/

theorem order_append_inj {order order' : Option Ordering} {rest rest' : List Char}
    (ok : ∀ name ∈ order.toList.map Ordering.column, isIdentifier name = true)
    (ok' : ∀ name ∈ order'.toList.map Ordering.column, isIdentifier name = true)
    (ends : ¬" ORDER BY ".toList <+: rest) (ends' : ¬" ORDER BY ".toList <+: rest')
    (same : (orderText order).toList ++ rest = (orderText order').toList ++ rest') :
    order = order' ∧ rest = rest' := by
  rw [toList_orderText, toList_orderText] at same
  refine optional_append_inj ?_ ends ends' same
  rintro ⟨column, ascending⟩ rfl ⟨column', ascending'⟩ rfl same
  have stops : ∀ (ascending : Bool) rest, Text.Stops isIdentifierPart
      ((if ascending then " ASC" else " DESC").toList ++ rest) := by
    intro ascending rest
    cases ascending <;> simp <;> decide
  rw [List.append_assoc, List.append_assoc] at same
  obtain ⟨columns, behind⟩ := identifier_append_inj (by simpa using ok) (by simpa using ok')
    (stops _ _) (stops _ _) same
  have directions : ascending = ascending' ∧ rest = rest' := by
    cases ascending <;> cases ascending' <;> simp at behind ⊢ <;> exact behind
  dsimp only at columns
  exact ⟨by rw [columns, directions.1], directions.2⟩

theorem count_append_inj {word : String} {count count' : Option Nat} {rest rest' : List Char}
    (stops : Text.Stops Text.isDigit rest) (stops' : Text.Stops Text.isDigit rest')
    (ends : ¬word.toList <+: rest) (ends' : ¬word.toList <+: rest')
    (same : (countText word count).toList ++ rest = (countText word count').toList ++ rest') :
    count = count' ∧ rest = rest' := by
  rw [toList_countText, toList_countText] at same
  refine optional_append_inj ?_ ends ends' same
  intro count _ count' _ same
  obtain ⟨digits, behind⟩ := Text.append_inj_of_stops (fun _ => Text.isDigit_of_mem_decimal)
    (fun _ => Text.isDigit_of_mem_decimal) stops stops' same
  exact ⟨Text.decimal_injective digits, behind⟩

theorem ending_inj {fetch fetch' : Fetch}
    (ok : ∀ name ∈ fetch.orderBy.toList.map Ordering.column, isIdentifier name = true)
    (ok' : ∀ name ∈ fetch'.orderBy.toList.map Ordering.column, isIdentifier name = true)
    (same : fetch.ending.toList = fetch'.ending.toList) :
    fetch.orderBy = fetch'.orderBy ∧ fetch.limit = fetch'.limit
      ∧ fetch.offset = fetch'.offset := by
  have noOrder : ∀ limit offset, ¬" ORDER BY ".toList
      <+: (countText " LIMIT " limit).toList ++ (countText " OFFSET " offset).toList := by
    intro limit offset
    cases limit <;> cases offset <;> simp [countText]
  have noLimit : ∀ offset, ¬" LIMIT ".toList <+: (countText " OFFSET " offset).toList := by
    intro offset
    cases offset <;> simp [countText]
  have noDigit : ∀ offset, Text.Stops Text.isDigit (countText " OFFSET " offset).toList :=
    stops_countText (by decide)
  simp only [Fetch.ending, String.toList_append, List.append_assoc] at same
  obtain ⟨orders, counts⟩ := order_append_inj ok ok' (noOrder _ _) (noOrder _ _) same
  obtain ⟨limits, offsets⟩ :=
    count_append_inj (noDigit _) (noDigit _) (noLimit _) (noLimit _) counts
  rw [← List.append_nil (countText _ fetch.offset).toList,
    ← List.append_nil (countText _ fetch'.offset).toList] at offsets
  obtain ⟨offsets, -⟩ := count_append_inj (by simp) (by simp) (by simp) (by simp) offsets
  exact ⟨orders, limits, offsets⟩

theorem followsCondition_ending (fetch : Fetch) : FollowsCondition fetch.ending.toList := by
  rw [Fetch.ending, FollowsCondition]
  cases fetch.orderBy <;> cases fetch.limit <;> cases fetch.offset <;>
    simp [orderText, countText] <;> decide

/-! ### Select lists -/

theorem parts_ne_nil (separator : Char) (text : String) : Text.parts separator text ≠ [] := by
  have cut : ∀ text, Text.splitAt separator text ≠ [] := by
    intro text
    cases text with
    | nil => simp [Text.splitAt]
    | cons char rest =>
      rw [Text.splitAt]
      split
      · simp
      · split <;> simp
  simpa [Text.parts] using cut text.toList

theorem selectedColumns_ne_nil {select : String} {columns : List String}
    (h : selectedColumns select = some columns) : columns ≠ [] := by
  unfold selectedColumns at h
  split at h
  · cases h
  · cases h
    simpa using parts_ne_nil ',' select

theorem exists_joined_eq {names : List String} (some : names ≠ [])
    (ok : ∀ name ∈ names, isIdentifier name = true) :
    ∃ first more, (Text.joined ", " names).toList = first :: more
      ∧ isIdentifierStart first = true := by
  obtain ⟨name, names, rfl⟩ := List.exists_cons_of_ne_nil some
  obtain ⟨first, more, chars, start, -⟩ := isIdentifier_iff.1 (ok name List.mem_cons_self)
  cases names with
  | nil => exact ⟨first, more, chars, start⟩
  | cons second names =>
    refine ⟨first, more ++ ", ".toList ++ (Text.joined ", " (second :: names)).toList, ?_, start⟩
    rw [Text.joined, String.toList_append, String.toList_append, chars]
    simp only [List.cons_append]

theorem selectText_append_inj {select select' : String} {rest rest' : List Char}
    (ok : ∀ name ∈ (selectedColumns select).getD [], isIdentifier name = true)
    (ok' : ∀ name ∈ (selectedColumns select').getD [], isIdentifier name = true)
    (stops : Text.Stops isIdentifierPart rest) (stops' : Text.Stops isIdentifierPart rest')
    (ends : ¬", ".toList <+: rest) (ends' : ¬", ".toList <+: rest')
    (same : (selectText select).toList ++ rest = (selectText select').toList ++ rest') :
    selectedColumns select = selectedColumns select' ∧ rest = rest' := by
  have noStar : ∀ {names : List String} {rest rest' : List Char}, names ≠ [] →
      (∀ name ∈ names, isIdentifier name = true) →
      "*".toList ++ rest ≠ (Text.joined ", " names).toList ++ rest' := by
    intro names rest rest' some ok same
    obtain ⟨first, more, chars, start⟩ := exists_joined_eq some ok
    rw [chars] at same
    obtain rfl := (List.cons.inj same).1
    exact absurd start (by decide)
  cases columns : selectedColumns select with
  | none =>
    cases columns' : selectedColumns select' with
    | none =>
      simp only [selectText, columns, columns', List.append_cancel_left_eq] at same
      exact ⟨rfl, same⟩
    | some names' =>
      simp only [selectText, columns, columns'] at same
      exact absurd same (noStar (selectedColumns_ne_nil columns') (by simpa [columns'] using ok'))
  | some names =>
    cases columns' : selectedColumns select' with
    | none =>
      simp only [selectText, columns, columns'] at same
      exact absurd same.symm (noStar (selectedColumns_ne_nil columns) (by simpa [columns] using ok))
    | some names' =>
      simp only [selectText, columns, columns'] at same
      obtain ⟨lists, behind⟩ := joined_append_inj (selectedColumns_ne_nil columns)
        (selectedColumns_ne_nil columns') (by simpa [columns] using ok)
        (by simpa [columns'] using ok') stops stops' ends ends' same
      exact ⟨by rw [lists], behind⟩

end ScopedQuery.Sql
