import ScopedQuery.Proofs.Calendar.Spelling
import ScopedQuery.Schema.Coercion
/-!
# Texts of timestamps

Which texts a timestamp column takes, and as which instants. A text that spells a timestamp or a
date as a whole is taken for what it spells. Every other text that begins with a date is taken too,
as the midnight of that date, whatever stands behind it.
-/

namespace ScopedQuery

namespace Timestamp

variable {text : List Char} {instant : Timestamp}

/-- The text begins with a date, and the instant is its midnight. -/
def BeginsWith (text : List Char) (instant : Timestamp) : Prop :=
  ∃ (date : Date) (rest : List Char), date.Plain ∧ text = date.chars ++ rest
    ∧ instant = startOfDay date.toDays

theorem read?_eq (trimmed : Text.trim text = text) :
    read? text = some instant
      ↔ readWhole text = some instant ∨ readWhole text = none ∧ BeginsWith text instant := by
  have whole : read? text
      = (readWhole text <|> (Date.read? text).map fun date => startOfDay date.toDays) := by
    unfold read? readWhole
    cases readRfc3339 text <;> cases readNaive ' ' text <;> rfl
  have begins : (Date.read? text).map (fun date => startOfDay date.toDays) = some instant
      ↔ BeginsWith text instant := by
    simp only [Date.read?, trimmed, Option.map_eq_some_iff, Prod.exists, Date.readStart_eq_some,
      BeginsWith]
    grind
  rw [whole, Option.orElse_eq_some, begins]

theorem read?_iff (trimmed : Text.trim text = text) :
    read? text = some instant
      ↔ Spells text instant
        ∨ (∀ other, ¬Spells text other) ∧ BeginsWith text instant := by
  rw [read?_eq trimmed]
  constructor
  · intro h
    rcases h with read | ⟨none, date, rest, plain, rfl, rfl⟩
    · exact .inl (spells_iff.2 (.inl read))
    by_cases alone : rest = []
    · subst alone
      rw [List.append_nil]
      exact .inl (.date plain)
    · refine .inr ⟨fun other spelled => ?_, date, rest, plain, rfl, rfl⟩
      rcases spells_iff.1 spelled with read | ⟨date', plain', same, -⟩
      · rw [none] at read
        cases read
      · have start : Date.readStart (date.chars ++ rest) = some (date, rest) :=
          Date.readStart_eq_some.2 ⟨plain, rfl⟩
        rw [Date.readStart_eq_some.2 ⟨plain', same.trans (List.append_nil _).symm⟩] at start
        cases start
        exact alone rfl
  · intro h
    rcases h with spelled | ⟨others, begins⟩
    · rcases spells_iff.1 spelled with read | ⟨date, plain, rfl, rfl⟩
      · exact .inl read
      · exact .inr ⟨readWhole_chars plain, date, [], plain, (List.append_nil _).symm, rfl⟩
    · refine .inr ⟨?_, begins⟩
      cases read : readWhole text with
      | none => rfl
      | some other => exact absurd (spells_iff.2 (.inl read)) (others other)

/-- A timestamp column takes a text, blanks aside, for the instant that it spells as a whole; and a
text that spells none, but begins with a date, for the midnight of that date. It takes no other. -/
theorem taken_whole_or_by_date (text : String) (value : Value) :
    Kind.timestamp.ofText? text = some value
      ↔ ∃ instant, value = .timestamp instant
        ∧ (Spells (Text.trim text.toList) instant
          ∨ (∀ other, ¬Spells (Text.trim text.toList) other)
            ∧ BeginsWith (Text.trim text.toList) instant) := by
  have read : Kind.timestamp.ofText? text
      = (read? (Text.trim text.toList)).map Value.timestamp := rfl
  simp only [read, Option.map_eq_some_iff, read?_iff (Text.trim_trim text.toList),
    eq_comm (b := value), and_comm]

/-- A clock time without seconds is not read, and its text is taken for midnight. -/
theorem not_taken_whole_of_short_time :
    Kind.timestamp.ofText? "2024-03-01T10:30"
        = some (.timestamp (startOfDay (Date.mk 2024 3 1).toDays))
      ∧ ∀ instant, ¬Spells (Text.trim "2024-03-01T10:30".toList) instant := by
  refine ⟨by rfl, fun instant spelled => ?_⟩
  rcases spells_iff.1 spelled with read | ⟨date, plain, same, -⟩
  · have none : readWhole (Text.trim "2024-03-01T10:30".toList) = none := by decide
    rw [none] at read
    cases read
  · have start : Date.readStart (Text.trim "2024-03-01T10:30".toList)
        = some (Date.mk 2024 3 1, "T10:30".toList) := by decide
    rw [Date.readStart_eq_some.2 ⟨plain, same.trans (List.append_nil _).symm⟩] at start
    cases start

end Timestamp

end ScopedQuery
