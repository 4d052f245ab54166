import Mathlib.Data.List.Infix
import ScopedQuery.Number.Literal
import ScopedQuery.Proofs.Rule.Forms
import ScopedQuery.Schema.Dashboard
/-!
# Matching patterns

What a database does with a pattern: the pattern is read into steps, and a text matches when the
steps can take it in from left to right. A user's text that is escaped for a pattern asks for
exactly its own characters, so nothing in it works as a wildcard, and the rules that look for a
text select the rows whose text equals it, starts with it or contains it.
-/

namespace ScopedQuery

namespace Pattern

/-! ### Steps -/

/-- What one step of a pattern takes in. -/
inductive Step
  | exactly (char : Char)
  | anyChar
  | anyText
deriving DecidableEq

/-- The steps of a pattern. It has none when it ends in a backslash that escapes nothing. -/
def steps? : List Char → Option (List Step)
  | [] => some []
  | ['\\'] => none
  | '\\' :: char :: rest => (steps? rest).map (.exactly char :: ·)
  | '%' :: rest => (steps? rest).map (.anyText :: ·)
  | '_' :: rest => (steps? rest).map (.anyChar :: ·)
  | char :: rest => (steps? rest).map (.exactly char :: ·)

/-- Whether the steps take in the whole text. -/
def accept : List Step → List Char → Bool
  | [], text => text.isEmpty
  | .anyText :: steps, text => text.tails.any (accept steps)
  | .anyChar :: steps, _ :: text => accept steps text
  | .exactly char :: steps, first :: text => first = char && accept steps text
  | _ :: _, [] => false

/-- Matching with LIKE. -/
def like (pattern text : List Char) : Bool :=
  (steps? pattern).any (accept · text)

variable {char : Char} {text sought rest : List Char} {others : List Step} {place : Place}

theorem like_eq_true (read : steps? rest = some others) :
    like rest text = true ↔ accept others text = true := by
  rw [like, read, Option.any_some]

theorem accept_nil : accept [] text = true ↔ text = [] := List.isEmpty_iff

/-- Any text may come before what the other steps take in. -/
theorem accept_anyText :
    accept (.anyText :: others) text = true
      ↔ ∃ front back, text = front ++ back ∧ accept others back = true := by
  rw [accept, List.any_eq_true]
  simp only [List.mem_tails]
  constructor
  · intro h
    obtain ⟨back, ⟨front, rfl⟩, taken⟩ := h
    exact ⟨front, back, rfl, taken⟩
  · intro h
    obtain ⟨front, back, rfl, taken⟩ := h
    exact ⟨back, ⟨front, rfl⟩, taken⟩

theorem accept_anyText_nil (text : List Char) : accept [.anyText] text = true :=
  accept_anyText.2 ⟨text, [], (List.append_nil text).symm, rfl⟩

/-- Characters that are asked for one by one come first. -/
theorem accept_exactly :
    accept (sought.map .exactly ++ others) text = true
      ↔ ∃ back, text = sought ++ back ∧ accept others back = true := by
  induction sought generalizing text with
  | nil => simp
  | cons char sought ih =>
    cases text with
    | nil => simp [accept]
    | cons first text =>
      simp only [List.map_cons, List.cons_append, accept, Bool.and_eq_true, decide_eq_true_eq, ih,
        List.cons.injEq]
      constructor
      · intro h
        obtain ⟨same, back, split, taken⟩ := h
        exact ⟨back, ⟨same, split⟩, taken⟩
      · intro h
        obtain ⟨back, ⟨same, split⟩, taken⟩ := h
        exact ⟨same, back, split, taken⟩

/-! ### Escaped texts -/

def IsSpecial (char : Char) : Prop := char = '\\' ∨ char = '%' ∨ char = '_'

theorem escapedChar_special (h : IsSpecial char) : escapedChar char = ['\\', char] := if_pos h

theorem escapedChar_plain (h : ¬IsSpecial char) : escapedChar char = [char] := if_neg h

theorem steps?_plain (plain : ¬IsSpecial char) (rest : List Char) :
    steps? (char :: rest) = (steps? rest).map (.exactly char :: ·) := by
  unfold IsSpecial at plain
  conv => lhs; unfold steps?
  split <;> simp_all

/-- An escaped text asks for its own characters. -/
theorem steps?_escaped (text rest : List Char) :
    steps? (escapedChars text ++ rest) = (steps? rest).map (text.map .exactly ++ ·) := by
  induction text with
  | nil => simp [escapedChars]
  | cons char text ih =>
    have after : escapedChars (char :: text) = escapedChar char ++ escapedChars text := rfl
    rw [after, List.append_assoc]
    by_cases special : IsSpecial char
    · rw [escapedChar_special special, List.cons_append, List.cons_append, List.nil_append, steps?,
        ih, Option.map_map]
      rfl
    · rw [escapedChar_plain special, List.cons_append, List.nil_append, steps?_plain special, ih,
        Option.map_map]
      rfl

/-- One pass over a text, with a backslash put before each occurrence of one character. -/
def marked (special : Char) (text : List Char) : List Char :=
  text.flatMap fun char => if char = special then ['\\', char] else [char]

/-- Three passes escape a text when the backslash comes first; each later pass meets only
backslashes that stand for themselves or escape another character. -/
theorem escapedChars_eq_passes (text : List Char) :
    escapedChars text = marked '_' (marked '%' (marked '\\' text)) := by
  rw [marked, marked, marked, List.flatMap_assoc, List.flatMap_assoc]
  refine congrArg (text.flatMap ·) (funext fun char => ?_)
  by_cases backslash : char = '\\'
  · subst backslash
    rfl
  by_cases percent : char = '%'
  · subst percent
    rfl
  by_cases underscore : char = '_'
  · subst underscore
    rfl
  simp [escapedChar, backslash, percent, underscore]

/-! ### Places -/

namespace Place

/-- The text stands at the place in another. -/
def Holds : Place → List Char → List Char → Prop
  | .whole, sought, text => text = sought
  | .front, sought, text => sought <+: text
  | .anywhere, sought, text => sought <:+: text

/-- The characters of the pattern. -/
def chars : Place → List Char → List Char
  | .whole, sought => escapedChars sought
  | .front, sought => escapedChars sought ++ ['%']
  | .anywhere, sought => '%' :: (escapedChars sought ++ ['%'])

/-- The steps of the pattern. -/
def steps : Place → List Char → List Step
  | .whole, sought => sought.map .exactly
  | .front, sought => sought.map .exactly ++ [.anyText]
  | .anywhere, sought => .anyText :: (sought.map .exactly ++ [.anyText])

theorem toList_pattern (place : Place) (entered : String) :
    (place.pattern entered).toList = place.chars entered.toList := by
  cases place <;>
    simp [Place.pattern, Place.chars, startingWith, containing, escaped, String.toList_append]

theorem steps?_chars (place : Place) (sought : List Char) :
    steps? (place.chars sought) = some (place.steps sought) := by
  have front : steps? (escapedChars sought ++ ['%']) = some (sought.map .exactly ++ [.anyText]) :=
    steps?_escaped sought ['%']
  cases place with
  | whole =>
    have read := steps?_escaped sought []
    rw [List.append_nil] at read
    rw [chars, read, steps?, Option.map_some, List.append_nil]
    rfl
  | front => exact front
  | anywhere =>
    rw [chars, steps?, front]
    rfl

theorem accept_steps : accept (place.steps sought) text = true ↔ place.Holds sought text := by
  cases place with
  | whole =>
    rw [Place.steps, ← List.append_nil (sought.map _), accept_exactly]
    simp [Holds, accept_nil]
  | front =>
    rw [Place.steps, accept_exactly]
    constructor
    · intro h
      obtain ⟨back, rfl, -⟩ := h
      exact List.prefix_append sought back
    · intro h
      obtain ⟨back, rfl⟩ := h
      exact ⟨back, rfl, accept_anyText_nil back⟩
  | anywhere =>
    rw [Place.steps, accept_anyText]
    simp only [accept_exactly]
    constructor
    · intro h
      obtain ⟨front, _, rfl, back, rfl, -⟩ := h
      exact ⟨front, back, List.append_assoc ..⟩
    · intro h
      obtain ⟨front, back, rfl⟩ := h
      exact ⟨front, _, List.append_assoc .., back, rfl, accept_anyText_nil back⟩

end Place

theorem like_chars : like (place.chars sought) text = true ↔ place.Holds sought text := by
  rw [like_eq_true (Place.steps?_chars place sought), Place.accept_steps]

/-! ### Folding of case -/

/-- A folding of case, character by character, that keeps the special characters of patterns apart
from all others. -/
structure Folding where
  fold : Char → Char
  special : ∀ special ∈ ['\\', '%', '_'], ∀ char, fold char = special ↔ char = special

/-- Letters of ASCII are folded to small ones. -/
def Folding.ascii : Folding where
  fold := Binary64.lower
  special := by
    intro special listed char
    have codes : special.toNat = 92 ∨ special.toNat = 37 ∨ special.toNat = 95 := by
      simp only [List.mem_cons, List.not_mem_nil, or_false] at listed
      rcases listed with rfl | rfl | rfl <;> simp
    unfold Binary64.lower
    split
    · next large =>
      obtain ⟨least, most⟩ := large
      have isLarge : 65 ≤ char.toNat ∧ char.toNat ≤ 90 := ⟨least, most⟩
      have shifted : (Char.ofNat (char.toNat + 32)).toNat = char.toNat + 32 := by
        rw [Char.ofNat, dif_pos (.inl (by omega))]
        rfl
      refine iff_of_false (fun same => ?_) (fun same => ?_)
      · rw [same] at shifted
        omega
      · rw [same] at isLarge
        omega
    · exact Iff.rfl

/-- Matching with ILIKE. -/
def ilike (folding : Folding) (pattern text : List Char) : Bool :=
  like (pattern.map folding.fold) (text.map folding.fold)

theorem Folding.fold_special (folding : Folding) {special : Char} (h : IsSpecial special) :
    folding.fold special = special ∧ ∀ char, folding.fold char = special → char = special := by
  have listed : special ∈ ['\\', '%', '_'] := by
    simpa [IsSpecial] using h
  exact ⟨(folding.special special listed special).2 rfl,
    fun char => (folding.special special listed char).1⟩

theorem Folding.isSpecial_fold (folding : Folding) (char : Char) :
    IsSpecial (folding.fold char) ↔ IsSpecial char := by
  have same {special : Char} (h : IsSpecial special) :
      folding.fold char = special ↔ char = special :=
    ⟨(folding.fold_special h).2 char, fun same => same ▸ (folding.fold_special h).1⟩
  unfold IsSpecial at *
  rw [same (.inl rfl), same (.inr (.inl rfl)), same (.inr (.inr rfl))]

/-- Escaping and folding can change places. -/
theorem map_escapedChars (folding : Folding) (text : List Char) :
    (escapedChars text).map folding.fold = escapedChars (text.map folding.fold) := by
  rw [escapedChars, escapedChars, List.map_flatMap, List.flatMap_map]
  refine congrArg (text.flatMap ·) (funext fun char => ?_)
  have backslash : folding.fold '\\' = '\\' := (folding.fold_special (.inl rfl)).1
  by_cases special : IsSpecial char
  · rw [escapedChar_special special,
      escapedChar_special ((folding.isSpecial_fold char).2 special), List.map_cons, backslash]
    rfl
  · rw [escapedChar_plain special,
      escapedChar_plain (mt (folding.isSpecial_fold char).1 special)]
    rfl

theorem Place.map_chars (folding : Folding) (place : Place) (sought : List Char) :
    (place.chars sought).map folding.fold = place.chars (sought.map folding.fold) := by
  have percent : folding.fold '%' = '%' := (folding.fold_special (.inr (.inl rfl))).1
  cases place <;> simp [Place.chars, map_escapedChars, percent]

theorem ilike_chars (folding : Folding) :
    ilike folding (place.chars sought) text = true
      ↔ place.Holds (sought.map folding.fold) (text.map folding.fold) := by
  rw [ilike, Place.map_chars, like_chars]

end Pattern

/-! ### Rules that look for a text -/

/-- How an operator compares the text of a row with a pattern. Other operators know no patterns. -/
def Sql.Operator.Matches (folding : Pattern.Folding) : Sql.Operator → List Char → List Char → Prop
  | .like, pattern, text => Pattern.like pattern text = true
  | .ilike, pattern, text => Pattern.ilike folding pattern text = true
  | _, _, _ => False

/-- The predicate holds of a row, given as what its column expressions give as text. A null gives
no text, and then no pattern matches. -/
def Sql.Filter.Finds (filter : Sql.Filter) (folding : Pattern.Folding)
    (row : Sql.Column → Option String) : Prop :=
  ∃ pattern text, filter.value = some (.text pattern) ∧ row filter.column = some text
    ∧ filter.operator.Matches folding pattern.toList text.toList

theorem Sql.Filter.finds_ilike {folding : Pattern.Folding} {row : Sql.Column → Option String}
    {column : Sql.Column} {place : Pattern.Place} {entered : String} :
    (compare column .ilike (.text (place.pattern entered))).Finds folding row
      ↔ ∃ text, row column = some text
        ∧ place.Holds (entered.toList.map folding.fold) (text.toList.map folding.fold) := by
  have matching (text : String) :
      Sql.Operator.ilike.Matches folding (place.pattern entered).toList text.toList
        ↔ place.Holds (entered.toList.map folding.fold) (text.toList.map folding.fold) := by
    rw [Pattern.Place.toList_pattern]
    exact Pattern.ilike_chars folding
  constructor
  · intro h
    obtain ⟨_, text, ⟨⟩, held, found⟩ := h
    exact ⟨text, held, (matching text).1 found⟩
  · intro h
    obtain ⟨text, held, found⟩ := h
    exact ⟨_, text, rfl, held, (matching text).2 found⟩

namespace Rule

/-- Where a rule that looks for a text looks for it: in a text column, or in a field of a JSON
column. -/
inductive Searches (rule : Rule) (table : Table) : Sql.Column → Prop
  | column : (rule.column, .text) ∈ table.columns.entries → rule.operation ≠ .jsonContains →
    Searches rule table (.plain rule.column)
  | field {field : String} : (rule.column, .json) ∈ table.columns.entries →
    rule.field? = some field → Searches rule table (.jsonText rule.column field)

variable {table : Table} {rule : Rule} {place : Pattern.Place} {filters : List Sql.Filter}

theorem stands_of_place {kind : Kind} (sought : rule.operation.place? = some place) :
    rule.Stands table kind ↔ (rule.column, kind) ∈ table.columns.entries ∧ rule.value ≠ "" := by
  have needed : rule.operation.isUnknown = false ∧ rule.operation ≠ .jsonExists := by
    rcases Operation.place?_eq_some.1 sought with ⟨-, asked | asked⟩ | ⟨-, asked⟩ <;>
      simp [asked, Operation.isUnknown]
  constructor
  · intro stands
    exact ⟨stands.listed, stands.entered needed.2⟩
  · intro h
    exact ⟨needed.1, h.1, fun _ => h.2⟩

/-- A rule that looks for a text is one test with a pattern. -/
theorem filters_of_place (sought : rule.operation.place? = some place) :
    rule.filters table = .ok filters
      ↔ rule.value ≠ "" ∧ ∃ column, rule.Searches table column ∧ column.Writable
        ∧ filters = [.compare column .ilike (.text (place.pattern rule.value))] := by
  rw [filters_eq_ok]
  constructor
  · intro form
    cases form with
    | onField stands form =>
      obtain ⟨listed, entered⟩ := (stands_of_place sought).1 stands
      refine ⟨entered, ?_⟩
      cases form with
      | pattern found given written =>
        obtain rfl := Option.some.inj (sought.symm.trans found)
        exact ⟨_, .field listed given, written, rfl⟩
      | existence asked | fieldExistence asked => simp [asked, Operation.place?] at sought
      | equality asked =>
        rcases asked with asked | asked <;> simp [asked, Operation.place?] at sought
      | number _ compares => simp [Operation.comparison?_eq_none sought] at compares
    | onDay _ form =>
      cases form with
      | during asked | after asked | before asked => simp [asked, Operation.place?] at sought
    | onPlain stands _ _ form =>
      obtain ⟨listed, entered⟩ := (stands_of_place sought).1 stands
      refine ⟨entered, ?_⟩
      cases form with
      | pattern isText plain found written =>
        obtain rfl := Option.some.inj (sought.symm.trans found)
        exact ⟨_, .column (isText ▸ listed) plain, written, rfl⟩
      | comparison compares => simp [Operation.comparison?_eq_none sought] at compares
  · intro h
    obtain ⟨entered, column, searches, written, rfl⟩ := h
    cases searches with
    | column listed plain =>
      exact .onPlain ((stands_of_place sought).2 ⟨listed, entered⟩) (by decide) (by decide)
        (.pattern rfl plain sought written)
    | field listed given =>
      exact .onField ((stands_of_place sought).2 ⟨listed, entered⟩) (.pattern sought given written)

end Rule

/-- A pattern made of a user's text never ends in a lone escape character and matches where the
text itself stands, with LIKE exactly and with ILIKE up to case. So a rule that looks for a text is
kept when it has one and somewhere to look for it, and then selects the rows that have it there. -/
theorem Pattern.matches_literally (folding : Pattern.Folding) (place : Pattern.Place) :
    (∀ entered : String,
        (escaped entered).toList = marked '_' (marked '%' (marked '\\' entered.toList))
          ∧ steps? (place.pattern entered).toList ≠ none
          ∧ ∀ text : String,
            (like (place.pattern entered).toList text.toList = true
                ↔ place.Holds entered.toList text.toList)
              ∧ (ilike folding (place.pattern entered).toList text.toList = true
                ↔ place.Holds (entered.toList.map folding.fold) (text.toList.map folding.fold)))
      ∧ ∀ (table : Table) (rule : Rule), rule.operation.place? = some place →
        ((∃ filters, rule.filters table = .ok filters)
            ↔ rule.value ≠ "" ∧ ∃ column, rule.Searches table column ∧ column.Writable)
          ∧ ∀ filters, rule.filters table = .ok filters →
            ∃ column, rule.Searches table column ∧ ∀ row : Sql.Column → Option String,
              (∀ filter ∈ filters, filter.Finds folding row)
                ↔ ∃ text, row column = some text ∧ place.Holds
                  (rule.value.toList.map folding.fold) (text.toList.map folding.fold) := by
  refine ⟨fun entered => ⟨?_, ?_, fun text => ⟨?_, ?_⟩⟩, fun table rule sought => ⟨?_, ?_⟩⟩
  · rw [escaped, String.toList_ofList, escapedChars_eq_passes]
  · rw [Place.toList_pattern, Place.steps?_chars]
    exact Option.some_ne_none _
  · rw [Place.toList_pattern, like_chars]
  · rw [Place.toList_pattern, ilike_chars]
  · simp only [Rule.filters_of_place sought]
    constructor
    · intro h
      obtain ⟨_, entered, column, searches, written, -⟩ := h
      exact ⟨entered, column, searches, written⟩
    · intro h
      obtain ⟨entered, column, searches, written⟩ := h
      exact ⟨_, entered, column, searches, written, rfl⟩
  · intro filters kept
    obtain ⟨-, column, searches, -, rfl⟩ := (Rule.filters_of_place sought).1 kept
    refine ⟨column, searches, fun row => ?_⟩
    rw [List.forall_mem_singleton, Sql.Filter.finds_ilike]

/-- Percent and underscore stand for themselves, and case does not count. -/
theorem Pattern.matches_literally_of_percent :
    let rule : Rule := ⟨"r", "status", .contains, "100%_Done", none⟩
    ∃ filters, rule.filters Dashboard.callLogs = .ok filters
      ∧ (∀ filter ∈ filters, filter.Finds .ascii fun _ => some "is 100%_done")
      ∧ ¬∀ filter ∈ filters, filter.Finds .ascii fun _ => some "is 1000 done" := by
  intro rule
  obtain ⟨kept, selects⟩ :=
    (matches_literally .ascii .anywhere).2 Dashboard.callLogs rule rfl
  obtain ⟨filters, made⟩ := kept.2
    ⟨by decide, .plain "status", .column (by decide) (by decide), ⟨by decide, nofun⟩⟩
  obtain ⟨column, -, found⟩ := selects filters made
  refine ⟨filters, made, (found _).2 ⟨_, rfl, ?_⟩, fun all => ?_⟩
  · exact ⟨"is ".toList, [], by decide⟩
  · obtain ⟨_, ⟨⟩, stands⟩ := (found _).1 all
    have absent : ¬"100%_Done".toList.map Binary64.lower <:+: "is 1000 done".toList.map
        Binary64.lower := by decide
    exact absent stands

end ScopedQuery
