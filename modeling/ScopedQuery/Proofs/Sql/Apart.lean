import ScopedQuery.Proofs.Sql.Rendering
/-!
# Parts that can be told apart

A part of a statement is told apart with anything behind it that may follow there, so that the next
part is read from where it ends. Names end where a character stands that no name has, a literal at
the first quote that is not doubled, and a list where no separator follows.
-/

namespace ScopedQuery.Sql

/-! ### Items and lists -/

section

variable {α β : Type} {Ok : α → Prop} {Follows : List Char → Prop} {write : α → List Fragment}
  {view : α → β} {separator : String}

/-- The text of an item, with something behind it that may follow, tells the view of the item and
where its text ends, whatever the numbers of its placeholders. -/
def Told (Ok : α → Prop) (Follows : List Char → Prop) (write : α → List Fragment)
    (view : α → β) : Prop :=
  ∀ next next' item item' rest rest', Ok item → Ok item' → Follows rest → Follows rest' →
    Fragment.chars next (write item) ++ rest = Fragment.chars next' (write item') ++ rest' →
      view item = view item' ∧ rest = rest'

theorem chars_trailing_cons {next : Nat} {item : α} {items : List α} {rest : List Char} :
    Fragment.chars next (trailing separator write (item :: items)) ++ rest
      = separator.toList ++ (Fragment.chars next (write item)
        ++ (Fragment.chars (next + (Fragment.values (write item)).length)
          (trailing separator write items) ++ rest)) := by
  rw [trailing, List.flatMap_cons, List.cons_append, Fragment.chars_piece, Fragment.chars_append,
    List.append_assoc, List.append_assoc]
  rfl

theorem follows_trailing (follows : ∀ rest, Follows (separator.toList ++ rest)) {next : Nat}
    {items : List α} {rest : List Char} (hrest : Follows rest) :
    Follows (Fragment.chars next (trailing separator write items) ++ rest) := by
  cases items with
  | nil => exact hrest
  | cons item items =>
    rw [chars_trailing_cons]
    exact follows _

/-- The separator shows whether there is one more item. -/
theorem Told.trailing (told : Told Ok Follows write view)
    (follows : ∀ rest, Follows (separator.toList ++ rest)) :
    Told (fun items => ∀ item ∈ items, Ok item)
      (fun rest => Follows rest ∧ ¬separator.toList <+: rest)
      (trailing separator write) (List.map view) := by
  intro next next' items
  induction items generalizing next next' with
  | nil =>
    rintro items' rest rest' - - ⟨-, bare⟩ - same
    cases items' with
    | nil => exact ⟨rfl, same⟩
    | cons item' items' =>
      rw [chars_trailing_cons] at same
      exact absurd ⟨_, same.symm⟩ bare
  | cons item items ih =>
    rintro items' rest rest' ok ok' ⟨hrest, bare⟩ ⟨hrest', bare'⟩ same
    cases items' with
    | nil =>
      rw [chars_trailing_cons] at same
      exact absurd ⟨_, same⟩ bare'
    | cons item' items' =>
      obtain ⟨okItem, okItems⟩ := List.forall_mem_cons.1 ok
      obtain ⟨okItem', okItems'⟩ := List.forall_mem_cons.1 ok'
      rw [chars_trailing_cons, chars_trailing_cons, List.append_cancel_left_eq] at same
      obtain ⟨first, behind⟩ := told _ _ item item' _ _ okItem okItem'
        (follows_trailing follows hrest) (follows_trailing follows hrest') same
      obtain ⟨others, ends⟩ := ih _ _ items' rest rest' okItems okItems' ⟨hrest, bare⟩
        ⟨hrest', bare'⟩ behind
      exact ⟨by rw [List.map_cons, List.map_cons, first, others], ends⟩

/-- A list with a separator between neighbours. -/
theorem Told.separated (separator : String) (told : Told Ok Follows write view)
    (follows : ∀ rest, Follows (separator.toList ++ rest)) :
    Told (fun items => items ≠ [] ∧ ∀ item ∈ items, Ok item)
      (fun rest => Follows rest ∧ ¬separator.toList <+: rest)
      (fun items => Fragment.separated separator (items.map write)) (List.map view) := by
  rintro next next' items items' rest rest' ⟨some, ok⟩ ⟨some', ok'⟩ hrest hrest' same
  obtain ⟨item, items, rfl⟩ := List.exists_cons_of_ne_nil some
  obtain ⟨item', items', rfl⟩ := List.exists_cons_of_ne_nil some'
  obtain ⟨okItem, okItems⟩ := List.forall_mem_cons.1 ok
  obtain ⟨okItem', okItems'⟩ := List.forall_mem_cons.1 ok'
  simp only [separated_map_cons, Fragment.chars_append, List.append_assoc] at same
  obtain ⟨first, behind⟩ := told _ _ item item' _ _ okItem okItem'
    (follows_trailing follows hrest.1) (follows_trailing follows hrest'.1) same
  obtain ⟨others, ends⟩ := told.trailing follows _ _ items items' rest rest' okItems okItems'
    hrest hrest' behind
  exact ⟨by rw [List.map_cons, List.map_cons, first, others], ends⟩

end

/-! ### Names and literals -/

/-- A marker shows whether a part that may be missing is there. -/
theorem optional_append_inj {α : Type} {marker : List Char} {body : α → List Char}
    {part part' : Option α} {rest rest' : List Char}
    (inj : ∀ item ∈ part, ∀ item' ∈ part', body item ++ rest = body item' ++ rest' →
      item = item' ∧ rest = rest')
    (ends : ¬marker <+: rest) (ends' : ¬marker <+: rest')
    (same : (part.elim [] fun item => marker ++ body item) ++ rest
      = (part'.elim [] fun item => marker ++ body item) ++ rest') :
    part = part' ∧ rest = rest' := by
  cases part with
  | none =>
    cases part' with
    | none => exact ⟨rfl, same⟩
    | some item' =>
      rw [Option.elim_some, List.append_assoc] at same
      exact absurd ⟨_, same.symm⟩ ends
  | some item =>
    cases part' with
    | none =>
      rw [Option.elim_some, List.append_assoc] at same
      exact absurd ⟨_, same⟩ ends'
    | some item' =>
      rw [Option.elim_some, Option.elim_some, List.append_assoc, List.append_assoc] at same
      obtain ⟨items, behind⟩ := inj item rfl item' rfl (List.append_cancel_left same)
      exact ⟨by rw [items], behind⟩

theorem told_name : Told (fun name => isIdentifier name = true)
    (Text.Stops isIdentifierPart) (fun name => [.piece name]) id := by
  intro next next' name name' rest rest' ok ok' stops stops' same
  simp only [Fragment.chars_piece, Fragment.chars_nil, List.append_nil] at same
  exact identifier_append_inj ok ok' stops stops' same

theorem joined_append_inj {names names' : List String} {rest rest' : List Char}
    (some : names ≠ []) (some' : names' ≠ [])
    (ok : ∀ name ∈ names, isIdentifier name = true)
    (ok' : ∀ name ∈ names', isIdentifier name = true)
    (stops : Text.Stops isIdentifierPart rest) (stops' : Text.Stops isIdentifierPart rest')
    (ends : ¬", ".toList <+: rest) (ends' : ¬", ".toList <+: rest')
    (same : (Text.joined ", " names).toList ++ rest = (Text.joined ", " names').toList ++ rest') :
    names = names' ∧ rest = rest' := by
  rw [joined_eq_render 1, joined_eq_render 1] at same
  have told := told_name.separated ", " fun rest => by simp; decide
  simpa using told 1 1 names names' rest rest' ⟨some, ok⟩ ⟨some', ok'⟩ ⟨stops, ends⟩
    ⟨stops', ends'⟩ same

theorem exists_doubled_eq (char : Char) : ∃ more, doubled char = char :: more := by
  unfold doubled
  split
  · next quote => exact ⟨['\''], by rw [quote]⟩
  · exact ⟨[], rfl⟩

theorem doubled_append_inj {text text' rest rest' : List Char}
    (stops : Text.Stops (· = '\'') rest) (stops' : Text.Stops (· = '\'') rest')
    (same : text.flatMap doubled ++ '\'' :: rest = text'.flatMap doubled ++ '\'' :: rest') :
    text = text' ∧ rest = rest' := by
  induction text generalizing text' with
  | nil =>
    cases text' with
    | nil => simpa using same
    | cons char' text' =>
      by_cases quote' : char' = '\''
      · simp [doubled, quote'] at same
        simp [same] at stops
      · simp [doubled, quote', eq_comm] at same
  | cons char text ih =>
    cases text' with
    | nil =>
      by_cases quote : char = '\''
      · simp [doubled, quote] at same
        simp [← same] at stops'
      · simp [doubled, quote] at same
    | cons char' text' =>
      rw [List.flatMap_cons, List.flatMap_cons, List.append_assoc, List.append_assoc] at same
      have chars : char = char' := by
        obtain ⟨more, starts⟩ := exists_doubled_eq char
        obtain ⟨more', starts'⟩ := exists_doubled_eq char'
        rw [starts, starts'] at same
        exact (List.cons.inj same).1
      subst chars
      obtain ⟨texts, ends⟩ := ih (List.append_cancel_left same)
      exact ⟨by rw [texts], ends⟩

/-- The quote that ends a literal is the first that is not doubled. -/
theorem literal_append_inj {field field' : String} {rest rest' : List Char}
    (stops : Text.Stops (· = '\'') rest) (stops' : Text.Stops (· = '\'') rest')
    (same : (literal field).toList ++ rest = (literal field').toList ++ rest') :
    field = field' ∧ rest = rest' := by
  simp only [literal, String.toList_ofList, List.cons_append, List.append_assoc,
    List.cons.injEq, true_and, List.nil_append] at same
  obtain ⟨texts, ends⟩ := doubled_append_inj stops stops' same
  exact ⟨String.toList_inj.1 texts, ends⟩

/-! ### Column expressions -/

theorem stops_path {column : Column} {rest : List Char} :
    Text.Stops isIdentifierPart (column.path ++ ' ' :: rest) := by
  cases column <;> simp [Column.path] <;> decide

theorem Column.lead_cases (column : Column) : column.lead = [] ∨ column.lead = ['('] := by
  cases column <;> simp [lead]

theorem Column.Writable.lead_eq {column column' : Column} (ok : column.Writable)
    (ok' : column'.Writable) {rest rest' : List Char}
    (same : column.text.toList ++ rest = column'.text.toList ++ rest') :
    column.lead = column'.lead := by
  obtain ⟨first, more, base, start, -⟩ := isIdentifier_iff.1 ok.1
  obtain ⟨first', more', base', start', -⟩ := isIdentifier_iff.1 ok'.1
  have bare : first ≠ '(' := by
    rintro rfl
    exact absurd start (by decide)
  have bare' : first' ≠ '(' := by
    rintro rfl
    exact absurd start' (by decide)
  rw [toList_text, toList_text, base, base'] at same
  rcases column.lead_cases with lead | lead <;> rcases column'.lead_cases with lead' | lead' <;>
    rw [lead, lead'] at same ⊢
  · exact absurd (List.cons.inj same).1 bare
  · exact absurd (List.cons.inj same).1.symm bare'

theorem Column.path_append_inj {column column' : Column} {rest rest' : List Char}
    (lead : column.lead = column'.lead) (base : column.base = column'.base)
    (same : column.path ++ ' ' :: rest = column'.path ++ ' ' :: rest') :
    column = column' ∧ rest = rest' := by
  have arrow : ∀ (field : String) (more more' : List Char),
      (literal field).toList ++ more ≠ '>' :: more' := by simp [literal]
  cases column <;> cases column' <;>
    simp [Column.path, Column.lead, Column.base] at lead base same ⊢
  case plain.plain => exact ⟨base, same⟩
  case jsonText.jsonText =>
    obtain ⟨fields, ends⟩ := literal_append_inj (by simp) (by simp) same
    exact ⟨⟨base, fields⟩, (List.cons.inj ends).2⟩
  case jsonText.jsonRaw => exact arrow _ _ _ same.symm
  case jsonRaw.jsonText => exact arrow _ _ _ same
  case jsonRaw.jsonRaw =>
    obtain ⟨fields, ends⟩ := literal_append_inj (by simp) (by simp) same
    exact ⟨⟨base, fields⟩, (List.cons.inj ends).2⟩
  case jsonNumeric.jsonNumeric =>
    obtain ⟨fields, ends⟩ := literal_append_inj (by simp) (by simp) same
    exact ⟨⟨base, fields⟩, by simpa using ends⟩

/-- A column expression with a space behind it. -/
theorem Column.Writable.append_inj {column column' : Column} (ok : column.Writable)
    (ok' : column'.Writable) {rest rest' : List Char}
    (same : column.text.toList ++ ' ' :: rest = column'.text.toList ++ ' ' :: rest') :
    column = column' ∧ rest = rest' := by
  have lead := ok.lead_eq ok' same
  rw [toList_text, toList_text, lead, List.append_assoc, List.append_assoc, List.append_assoc,
    List.append_assoc, List.append_cancel_left_eq] at same
  obtain ⟨base, paths⟩ := identifier_append_inj ok.1 ok'.1 stops_path stops_path same
  exact path_append_inj lead base paths

end ScopedQuery.Sql
