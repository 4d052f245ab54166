import Mathlib.Tactic.Tauto
import ScopedQuery.Proofs.Sql.Command
import ScopedQuery.Proofs.Text.Runs
/-!
# Statements as characters

The characters of each part of a statement, one equation a part, and what is known of the characters
of names that may be written.
-/

namespace ScopedQuery.Sql

/-! ### Identifiers -/

theorem isIdentifier_iff {name : String} :
    isIdentifier name = true
      ↔ ∃ first rest, name.toList = first :: rest ∧ isIdentifierStart first = true
        ∧ ∀ char ∈ rest, isIdentifierPart char = true := by
  unfold isIdentifier
  cases name.toList with
  | nil => simp
  | cons first rest =>
    simp only [Bool.and_eq_true, List.all_eq_true]
    constructor
    · intro h
      obtain ⟨start, parts⟩ := h
      exact ⟨first, rest, rfl, start, parts⟩
    · intro h
      obtain ⟨_, _, ⟨⟩, start, parts⟩ := h
      exact ⟨start, parts⟩

theorem isIdentifierPart_of_start {char : Char} (h : isIdentifierStart char = true) :
    isIdentifierPart char = true := by
  simp only [isIdentifierStart, isIdentifierPart, Bool.or_eq_true] at h ⊢
  tauto

theorem isIdentifierPart_of_mem {name : String} (h : isIdentifier name = true) {char : Char}
    (member : char ∈ name.toList) : isIdentifierPart char = true := by
  obtain ⟨first, rest, chars, start, parts⟩ := isIdentifier_iff.1 h
  rw [chars] at member
  rcases List.mem_cons.1 member with rfl | member
  · exact isIdentifierPart_of_start start
  · exact parts char member

theorem isDigit_of_start {char : Char} (h : isIdentifierStart char = true) :
    Text.isDigit char = false := by
  rw [Text.isDigit_eq]
  simp only [isIdentifierStart, isLetter, Bool.or_eq_true, Bool.and_eq_true, decide_eq_true_eq,
    Char.le_def, UInt32.le_iff_toNat_le] at h
  simp only [Char.isDigit, Bool.and_eq_false_iff, decide_eq_false_iff_not, ge_iff_le,
    UInt32.le_iff_toNat_le]
  rcases h with (⟨lower, -⟩ | ⟨upper, -⟩) | rfl
  · right
    change 97 ≤ _ at lower
    change ¬ _ ≤ 57
    omega
  · right
    change 65 ≤ _ at upper
    change ¬ _ ≤ 57
    omega
  · decide

/-- A name with something behind it that does not continue the name. -/
theorem identifier_append_inj {name name' : String} (h : isIdentifier name = true)
    (h' : isIdentifier name' = true) {rest rest' : List Char}
    (stops : Text.Stops isIdentifierPart rest) (stops' : Text.Stops isIdentifierPart rest')
    (same : name.toList ++ rest = name'.toList ++ rest') : name = name' ∧ rest = rest' := by
  obtain ⟨names, rests⟩ := Text.append_inj_of_stops (fun _ => isIdentifierPart_of_mem h)
    (fun _ => isIdentifierPart_of_mem h') stops stops' same
  exact ⟨String.toList_inj.1 names, rests⟩

/-! ### Column expressions -/

namespace Column

/-- What stands before the name of the column. -/
def lead : Column → List Char
  | .jsonNumeric .. => ['(']
  | _ => []

/-- What stands behind the name of the column. -/
def path : Column → List Char
  | .plain _ => []
  | .jsonText _ field => "->>".toList ++ (literal field).toList
  | .jsonRaw _ field => "->".toList ++ (literal field).toList
  | .jsonNumeric _ field => "->".toList ++ ((literal field).toList ++ ")::numeric".toList)

theorem toList_text (column : Column) :
    column.text.toList = column.lead ++ (column.base.toList ++ column.path) := by
  cases column <;> simp [text, lead, base, path]

end Column

/-! ### Fragments -/

namespace Fragment

/-- The characters of the fragments when the next value takes the placeholder `$next`. -/
def chars (next : Nat) (fragments : List Fragment) : List Char :=
  (render next fragments).toList

/-- What stands for a value. -/
def placeholder (next : Nat) (value : Value) : List Char :=
  if value.isNull then "NULL".toList else '$' :: Text.decimal next

variable {next : Nat} {fragments left right : List Fragment}

@[simp] theorem chars_nil : chars next [] = [] := rfl

@[simp] theorem chars_piece {text : String} :
    chars next (.piece text :: fragments) = text.toList ++ chars next fragments := by
  simp [chars, render]

theorem chars_slot {value : Value} :
    chars next (.slot value :: fragments)
      = placeholder next value
        ++ chars (next + (values [.slot value]).length) fragments := by
  by_cases null : value.isNull = true
  · simp [chars, render, placeholder, values, null]
  · simp [chars, render, placeholder, values, null, Text.decimalText]

theorem values_append : values (left ++ right) = values left ++ values right := by
  induction left with
  | nil => rfl
  | cons fragment rest ih =>
    cases fragment with
    | piece text => simpa [values] using ih
    | slot value =>
      simp only [List.cons_append, values, ih]
      split <;> simp

theorem chars_append :
    chars next (left ++ right)
      = chars next left ++ chars (next + (values left).length) right := by
  induction left generalizing next with
  | nil => rfl
  | cons fragment rest ih =>
    cases fragment with
    | piece text =>
      simp only [List.cons_append, chars_piece, ih, List.append_assoc]
      rfl
    | slot value =>
      have counts : (values (.slot value :: rest)).length
          = (values [.slot value]).length + (values rest).length := by
        rw [← List.length_append, ← values_append, List.singleton_append]
      simp only [List.cons_append, chars_slot, ih, List.append_assoc, counts, Nat.add_assoc]

theorem render_append :
    render next (left ++ right)
      = render next left ++ render (next + (values left).length) right := by
  rw [← String.toList_inj, String.toList_append]
  exact chars_append

/-- The first group, and every other group behind a separator. -/
theorem separated_cons {separator : String} {group : List Fragment}
    {groups : List (List Fragment)} :
    separated separator (group :: groups)
      = group ++ groups.flatMap fun group => .piece separator :: group := by
  induction groups generalizing group with
  | nil => simp [separated]
  | cons second rest ih => simp [separated, ih]

end Fragment

/-- The items with a separator in front of each. -/
def trailing {α : Type} (separator : String) (write : α → List Fragment) (items : List α) :
    List Fragment :=
  items.flatMap fun item => .piece separator :: write item

theorem separated_map_cons {α : Type} {separator : String} {write : α → List Fragment} {item : α}
    {items : List α} :
    Fragment.separated separator ((item :: items).map write)
      = write item ++ trailing separator write items := by
  rw [List.map_cons, Fragment.separated_cons, List.flatMap_map]
  rfl

theorem condition_cons {filter : Filter} {filters : List Filter} :
    condition (filter :: filters)
      = .piece " WHERE " :: Fragment.separated " AND " ((filter :: filters).map Filter.fragments) :=
  rfl

theorem joined_eq_render (next : Nat) {separator : String} {parts : List String} :
    (Text.joined separator parts).toList
      = Fragment.chars next
        (Fragment.separated separator (parts.map fun part => [.piece part])) := by
  induction parts with
  | nil => rfl
  | cons part rest ih =>
    cases rest with
    | nil => simp [Text.joined, Fragment.separated]
    | cons second rest =>
      rw [Text.joined]
      simpa [Fragment.separated] using ih

/-! ### Orderings and counts -/

theorem toList_orderText (order : Option Ordering) :
    (orderText order).toList = order.elim [] fun order => " ORDER BY ".toList
      ++ (order.column.toList ++ (if order.ascending then " ASC" else " DESC").toList) := by
  cases order <;> simp [orderText]

theorem toList_countText (word : String) (count : Option Nat) :
    (countText word count).toList
      = count.elim [] fun count => word.toList ++ Text.decimal count := by
  cases count <;> simp [countText, Text.decimalText]

theorem stops_orderText (order : Option Ordering) :
    Text.Stops Text.isDigit (orderText order).toList := by
  cases order with
  | none => exact Text.stops_nil
  | some order =>
    simp [orderText]
    decide

/-- The word in front of a count keeps the count apart. -/
theorem stops_countText {word : String} (h : word.toList.head?.any (!Text.isDigit ·) = true)
    (count : Option Nat) : Text.Stops Text.isDigit (countText word count).toList := by
  cases count with
  | none => exact Text.stops_nil
  | some count =>
    rw [countText, String.toList_append]
    cases chars : word.toList with
    | nil => simp [chars] at h
    | cons first rest => simpa [chars] using h

end ScopedQuery.Sql
