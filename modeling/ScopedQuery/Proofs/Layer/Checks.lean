import ScopedQuery.Layer.Request
import ScopedQuery.Proofs.Ordered
import ScopedQuery.Proofs.Sql.Command
/-!
# Checks against a table

What the checks of select lists, rows and predicates let through: columns that are listed, values
that can be brought to the kind of their column, and operators that are known.
-/

namespace ScopedQuery

/-! ### Tables -/

namespace Table

variable {table : Table} {column : String} {kind : Kind} {json : Json}

def Knows (table : Table) (column : String) : Prop := column ∈ table.columns.names

/-- The select list asks for all columns or for columns of the table. -/
def Lists (table : Table) (select : String) : Prop :=
  Text.trimmed select = "*" ∨ ∀ part ∈ Text.parts ',' select, table.Knows (Text.trimmed part)

/-- The column is there and the value can be brought to its kind. -/
def Takes (table : Table) (column : String) (json : Json) : Prop :=
  ∃ kind value, (column, kind) ∈ table.columns.entries ∧ kind.ofJson? json = some value

theorem checkColumn_eq_ok :
    table.checkColumn column = .ok kind ↔ (column, kind) ∈ table.columns.entries := by
  rw [← Ordered.find?_eq_some]
  unfold checkColumn kind?
  cases table.columns.find? column <;> simp

theorem coerce_eq_ok {value : Value} :
    table.coerce column json = .ok value
      ↔ ∃ kind, (column, kind) ∈ table.columns.entries ∧ kind.ofJson? json = some value := by
  simp only [coerce, bind_eq_ok, checkColumn_eq_ok]
  refine exists_congr fun kind => and_congr_right fun _ => ?_
  cases kind.ofJson? json <;> simp [throw, throwThe, MonadExceptOf.throw, pure_eq_ok]

end Table

/-! ### Predicates -/

theorem Sql.Operator.ofName_eq_ok {name : String} {operator : Sql.Operator} :
    Sql.Operator.ofName name = .ok operator ↔ name = operator.name := by
  have found : Sql.Operator.ofName name = .ok operator
      ↔ Sql.Operator.ofName? name = some operator := by
    unfold Sql.Operator.ofName
    cases Sql.Operator.ofName? name <;> simp
  rw [found]
  constructor
  · intro h
    have named : operator.name = name := by simpa using List.find?_some h
    exact named.symm
  · rintro rfl
    exact Sql.Operator.ofName?_name operator

namespace Predicate

variable {table : Table} {predicate : Predicate} {filter : Sql.Filter}

/-- The operator is known, and so is the column; and the value, where the operator takes one, can
be brought to the kind of the column, or to text for a pattern. -/
inductive Fits (table : Table) (predicate : Predicate) : Prop
  | existence : predicate.operator = "is_not_null" → table.Knows predicate.column →
    Fits table predicate
  | pattern {value : Value} : predicate.operator ∈ ["like", "ilike"] →
    table.Knows predicate.column → Kind.text.ofJson? predicate.value = some value →
    Fits table predicate
  | comparison : predicate.operator ∈ ["eq", "neq", "gt", "gte", "lt", "lte"] →
    table.Takes predicate.column predicate.value → Fits table predicate

theorem filter_eq_ok : predicate.filter table = .ok filter
    ↔ ∃ operator kind, predicate.operator = operator.name
      ∧ (predicate.column, kind) ∈ table.columns.entries
      ∧ (Sql.Column.plain predicate.column).Writable
      ∧ (operator = .isNotNull ∧ filter = .notNull (.plain predicate.column)
        ∨ operator ≠ .isNotNull ∧ ∃ value,
          (valueKind operator kind).ofJson? predicate.value = some value
            ∧ filter = .compare (.plain predicate.column) operator value) := by
  simp only [Predicate.filter, bind_eq_ok, Sql.Operator.ofName_eq_ok, Table.checkColumn_eq_ok,
    Sql.Column.checked_eq_ok]
  constructor
  · intro h
    obtain ⟨operator, named, kind, known, _, ⟨writable, rfl⟩, made⟩ := h
    refine ⟨operator, kind, named, known, writable, ?_⟩
    by_cases existence : operator = .isNotNull
    · rw [if_pos existence, pure_eq_ok] at made
      exact .inl ⟨existence, made.symm⟩
    · rw [if_neg existence] at made
      cases read : (valueKind operator kind).ofJson? predicate.value with
      | none => simp [read, throw, throwThe, MonadExceptOf.throw] at made
      | some value =>
        simp only [read, pure_eq_ok] at made
        exact .inr ⟨existence, value, rfl, made.symm⟩
  · intro h
    obtain ⟨operator, kind, named, known, writable, made⟩ := h
    refine ⟨operator, named, kind, known, _, ⟨writable, rfl⟩, ?_⟩
    rcases made with ⟨existence, rfl⟩ | ⟨takes, value, read, rfl⟩
    · rw [if_pos existence]
      rfl
    · simp only [if_neg takes, read]
      rfl

end Predicate

end ScopedQuery
