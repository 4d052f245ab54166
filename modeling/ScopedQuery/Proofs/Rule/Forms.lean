import ScopedQuery.Proofs.Layer.Checks
import ScopedQuery.Rule.Compiled
/-!
# Forms of kept rules

A rule is kept exactly when it has one of a few forms, and its form says which predicates it gives.
The forms go by the kind of the column: on a field of a JSON column, on the days of a timestamp
column, and on a column of another kind. `filters_eq_ok` puts them together; what holds of all
kept rules is read off the forms, and no other proof looks at the steps of the translation.
-/

namespace ScopedQuery

/-- Where in a text another text is looked for. -/
inductive Pattern.Place
  | whole
  | front
  | anywhere
deriving DecidableEq

/-- The pattern that looks for a text there. -/
def Pattern.Place.pattern : Pattern.Place → String → String
  | .whole => escaped
  | .front => startingWith
  | .anywhere => containing

namespace Operation

/-- Where an operation looks for the value of a rule. -/
def place? : Operation → Option Pattern.Place
  | .contains | .jsonContains => some .anywhere
  | .startsWith => some .front
  | _ => none

/-- How an operation compares with the value of a rule. -/
def comparison? : Operation → Option Sql.Operator
  | .equals => some .eq
  | .greaterThan => some .gt
  | .lessThan => some .lt
  | _ => none

theorem place?_eq_some {operation : Operation} {place : Pattern.Place} :
    operation.place? = some place
      ↔ place = .anywhere ∧ (operation = .contains ∨ operation = .jsonContains)
        ∨ place = .front ∧ operation = .startsWith := by
  cases operation <;> simp [place?, eq_comm]

theorem comparison?_eq_some {operation : Operation} {operator : Sql.Operator} :
    operation.comparison? = some operator
      ↔ operation = .equals ∧ operator = .eq ∨ operation = .greaterThan ∧ operator = .gt
        ∨ operation = .lessThan ∧ operator = .lt := by
  cases operation <;> simp [comparison?, eq_comm]

theorem comparison?_eq_none {operation : Operation} {place : Pattern.Place}
    (h : operation.place? = some place) : operation.comparison? = none := by
  rcases place?_eq_some.1 h with ⟨-, rfl | rfl⟩ | ⟨-, rfl⟩ <;> rfl

end Operation

namespace Rule

variable {table : Table} {rule : Rule} {kind : Kind} {filters : List Sql.Filter}

/-! ### Parts of a rule -/

theorem writable_eq_ok {expression column : Sql.Column} :
    writable expression = .ok column ↔ expression.Writable ∧ column = expression := by
  rw [← Sql.Column.checked_eq_ok]
  unfold writable
  cases expression.checked <;> simp

theorem requiredField_eq_ok {field : String} :
    rule.requiredField = .ok field ↔ rule.field? = some field := by
  unfold requiredField
  cases rule.field? <;> simp

theorem number_eq_ok {number : Binary64} :
    rule.number = .ok number ↔ Kind.readFinite rule.value.toList = some number := by
  unfold Rule.number
  cases Kind.readFinite rule.value.toList <;> simp

theorem date_eq_ok {date : Date} :
    rule.date = .ok date ↔ Date.read? rule.value.toList = some date := by
  unfold Rule.date
  cases Date.read? rule.value.toList <;> simp

theorem typed_eq_ok {value : Value} :
    rule.typed kind = .ok value ↔ kind.ofText? rule.value = some value := by
  unfold typed
  cases kind.ofText? rule.value <;> simp

/-- The operation is known, the column is of the kind, and there is a value where one is needed. -/
structure Stands (rule : Rule) (table : Table) (kind : Kind) : Prop where
  known : rule.operation.isUnknown = false
  listed : (rule.column, kind) ∈ table.columns.entries
  entered : rule.operation ≠ .jsonExists → rule.value ≠ ""

theorem checkedKind_eq_ok : rule.checkedKind table = .ok kind ↔ rule.Stands table kind := by
  constructor
  · intro h
    unfold checkedKind at h
    split at h
    · cases h
    · next known =>
      split at h
      · cases h
      · next found =>
        split at h
        · cases h
        · next entered =>
          cases h
          refine ⟨?_, Table.checkColumn_eq_ok.1 found, fun takes none => entered ⟨?_, none⟩⟩
          · cases asked : rule.operation <;> first | rfl | exact absurd asked (known _)
          · exact decide_eq_true takes
  · intro h
    obtain ⟨known, listed, entered⟩ := h
    have found := Table.checkColumn_eq_ok.2 listed
    unfold checkedKind
    split
    · next asked => simp [asked, Operation.isUnknown] at known
    · simp only [found]
      rw [if_neg]
      simpa [Operation.takesValue] using entered

/-! ### On a field -/

/-- What a rule on a JSON column gives. -/
inductive FieldForm (rule : Rule) : List Sql.Filter → Prop
  | existence : rule.operation = .jsonExists → rule.field? = none →
    (Sql.Column.plain rule.column).Writable → FieldForm rule [.notNull (.plain rule.column)]
  | fieldExistence {field : String} : rule.operation = .jsonExists → rule.field? = some field →
    (Sql.Column.jsonRaw rule.column field).Writable →
    FieldForm rule [.notNull (.jsonRaw rule.column field)]
  | equality {field : String} : rule.operation = .equals ∨ rule.operation = .jsonEquals →
    rule.field? = some field → (Sql.Column.jsonText rule.column field).Writable →
    FieldForm rule [.compare (.jsonText rule.column field) .eq (.text rule.value)]
  | pattern {field : String} {place : Pattern.Place} : rule.operation.place? = some place →
    rule.field? = some field → (Sql.Column.jsonText rule.column field).Writable →
    FieldForm rule
      [.compare (.jsonText rule.column field) .ilike (.text (place.pattern rule.value))]
  | number {field : String} {operator : Sql.Operator} {number : Binary64} :
    rule.operation ≠ .equals → rule.operation.comparison? = some operator →
    rule.field? = some field → (Sql.Column.jsonNumeric rule.column field).Writable →
    Kind.readFinite rule.value.toList = some number →
    FieldForm rule [.compare (.jsonNumeric rule.column field) operator (.float number)]

theorem onFieldText_eq_ok {operator : Sql.Operator} {text : String} :
    rule.onFieldText operator text = .ok filters
      ↔ ∃ field, rule.field? = some field ∧ (Sql.Column.jsonText rule.column field).Writable
        ∧ filters = [.compare (.jsonText rule.column field) operator (.text text)] := by
  simp only [onFieldText, bind_eq_ok, requiredField_eq_ok, writable_eq_ok, pure_eq_ok]
  refine exists_congr fun field => and_congr_right fun _ => ?_
  constructor
  · intro h
    obtain ⟨_, ⟨written, rfl⟩, rfl⟩ := h
    exact ⟨written, rfl⟩
  · intro h
    obtain ⟨written, rfl⟩ := h
    exact ⟨_, ⟨written, rfl⟩, rfl⟩

theorem onFieldNumber_eq_ok {operator : Sql.Operator} :
    rule.onFieldNumber operator = .ok filters
      ↔ ∃ field number, rule.field? = some field
        ∧ (Sql.Column.jsonNumeric rule.column field).Writable
        ∧ Kind.readFinite rule.value.toList = some number
        ∧ filters = [.compare (.jsonNumeric rule.column field) operator (.float number)] := by
  simp only [onFieldNumber, bind_eq_ok, requiredField_eq_ok, writable_eq_ok, number_eq_ok,
    pure_eq_ok]
  constructor
  · intro h
    obtain ⟨field, given, _, ⟨written, rfl⟩, number, read, rfl⟩ := h
    exact ⟨field, number, given, written, read, rfl⟩
  · intro h
    obtain ⟨field, number, given, written, read, rfl⟩ := h
    exact ⟨field, given, _, ⟨written, rfl⟩, number, read, rfl⟩

theorem onJson_eq_ok : rule.onJson = .ok filters ↔ rule.FieldForm filters := by
  constructor
  · intro h
    unfold onJson at h
    split at h
    · next asked =>
      split at h
      · next given =>
        simp only [bind_eq_ok, writable_eq_ok, pure_eq_ok] at h
        obtain ⟨_, ⟨written, rfl⟩, rfl⟩ := h
        exact .fieldExistence asked given written
      · next none =>
        simp only [bind_eq_ok, writable_eq_ok, pure_eq_ok] at h
        obtain ⟨_, ⟨written, rfl⟩, rfl⟩ := h
        exact .existence asked none written
    case h_9 => cases h
    case h_7 | h_8 =>
      obtain ⟨field, number, given, written, read, rfl⟩ := onFieldNumber_eq_ok.1 h
      exact .number (by simp [*]) (by simp [*, Operation.comparison?]) given written read
    all_goals obtain ⟨field, given, written, rfl⟩ := onFieldText_eq_ok.1 h
    case h_2 asked => exact .equality (.inl asked) given written
    case h_3 asked => exact .equality (.inr asked) given written
    case h_4 asked =>
      exact .pattern (Operation.place?_eq_some.2 (.inl ⟨rfl, .inl asked⟩)) given written
    case h_5 asked =>
      exact .pattern (Operation.place?_eq_some.2 (.inl ⟨rfl, .inr asked⟩)) given written
    case h_6 asked =>
      exact .pattern (Operation.place?_eq_some.2 (.inr ⟨rfl, asked⟩)) given written
  · intro h
    cases h with
    | existence asked none written =>
      simp only [onJson, asked, none, writable_eq_ok.2 ⟨written, rfl⟩]
      rfl
    | fieldExistence asked given written =>
      simp only [onJson, asked, given, writable_eq_ok.2 ⟨written, rfl⟩]
      rfl
    | equality asked given written =>
      rcases asked with asked | asked
      all_goals
        simp only [onJson, asked]
        exact onFieldText_eq_ok.2 ⟨_, given, written, rfl⟩
    | pattern sought given written =>
      rcases Operation.place?_eq_some.1 sought with ⟨rfl, asked | asked⟩ | ⟨rfl, asked⟩
      all_goals
        simp only [onJson, asked]
        exact onFieldText_eq_ok.2 ⟨_, given, written, rfl⟩
    | number notEquals compares given written read =>
      rcases Operation.comparison?_eq_some.1 compares
        with ⟨equals, -⟩ | ⟨asked, rfl⟩ | ⟨asked, rfl⟩
      · exact absurd equals notEquals
      all_goals
        simp only [onJson, asked]
        exact onFieldNumber_eq_ok.2 ⟨_, _, given, written, read, rfl⟩

/-! ### On days -/

/-- What a rule on a timestamp column gives. -/
inductive DayForm (rule : Rule) : List Sql.Filter → Prop
  | during {date : Date} : rule.operation = .equals →
    Date.read? rule.value.toList = some date → (Sql.Column.plain rule.column).Writable →
    DayForm rule [.compare (.plain rule.column) .gte (.timestamp (.startOfDay date.toDays)),
      .compare (.plain rule.column) .lte (.timestamp (.endOfDay date.toDays))]
  | after {date : Date} {next : Int} : rule.operation = .greaterThan →
    Date.read? rule.value.toList = some date → date.nextDay? = some next →
    (Sql.Column.plain rule.column).Writable →
    DayForm rule [.compare (.plain rule.column) .gte (.timestamp (.startOfDay next))]
  | before {date : Date} : rule.operation = .lessThan →
    Date.read? rule.value.toList = some date → (Sql.Column.plain rule.column).Writable →
    DayForm rule [.compare (.plain rule.column) .lt (.timestamp (.startOfDay date.toDays))]

theorem onDate_eq_ok : rule.onDate kind = .ok filters ↔ rule.DayForm filters := by
  constructor
  · intro h
    unfold onDate at h
    split at h
    · next asked =>
      simp only [bind_eq_ok, date_eq_ok, writable_eq_ok, pure_eq_ok] at h
      obtain ⟨date, read, _, ⟨written, rfl⟩, rfl⟩ := h
      exact .during asked read written
    · next asked =>
      simp only [bind_eq_ok, date_eq_ok] at h
      obtain ⟨date, read, made⟩ := h
      split at made
      · next following =>
        simp only [bind_eq_ok, writable_eq_ok, pure_eq_ok] at made
        obtain ⟨_, ⟨written, rfl⟩, rfl⟩ := made
        exact .after asked read following written
      · cases made
    · next asked =>
      simp only [bind_eq_ok, date_eq_ok, writable_eq_ok, pure_eq_ok] at h
      obtain ⟨date, read, _, ⟨written, rfl⟩, rfl⟩ := h
      exact .before asked read written
    · cases h
  · intro h
    cases h with
    | during asked read written =>
      simp only [onDate, asked, date_eq_ok.2 read, writable_eq_ok.2 ⟨written, rfl⟩]
      rfl
    | after asked read following written =>
      simp only [onDate, asked, date_eq_ok.2 read, writable_eq_ok.2 ⟨written, rfl⟩,
        bind_eq_ok]
      exact ⟨_, rfl, by simp only [following]; rfl⟩
    | before asked read written =>
      simp only [onDate, asked, date_eq_ok.2 read, writable_eq_ok.2 ⟨written, rfl⟩]
      rfl

/-! ### On other columns -/

/-- What a rule on a column of another kind gives. -/
inductive PlainForm (rule : Rule) (kind : Kind) : List Sql.Filter → Prop
  | comparison {operator : Sql.Operator} {value : Value} :
    rule.operation.comparison? = some operator → kind.ofText? rule.value = some value →
    (Sql.Column.plain rule.column).Writable →
    PlainForm rule kind [.compare (.plain rule.column) operator value]
  | pattern {place : Pattern.Place} : kind = .text → rule.operation ≠ .jsonContains →
    rule.operation.place? = some place → (Sql.Column.plain rule.column).Writable →
    PlainForm rule kind
      [.compare (.plain rule.column) .ilike (.text (place.pattern rule.value))]

theorem onTyped_eq_ok {column : Sql.Column} {operator : Sql.Operator} :
    rule.onTyped kind column operator = .ok filters
      ↔ ∃ value, kind.ofText? rule.value = some value
        ∧ filters = [.compare column operator value] := by
  simp only [onTyped, bind_eq_ok, typed_eq_ok, pure_eq_ok, eq_comm (b := filters)]

theorem onPattern_eq_ok {column : Sql.Column} {pattern : String} :
    rule.onPattern kind column pattern = .ok filters
      ↔ kind = .text ∧ filters = [.compare column .ilike (.text pattern)] := by
  unfold onPattern
  split <;> simp_all [notApplicable, eq_comm]

theorem onPlain_eq_ok : rule.onPlain kind = .ok filters ↔ rule.PlainForm kind filters := by
  simp only [onPlain, bind_eq_ok, writable_eq_ok]
  constructor
  · intro h
    obtain ⟨_, ⟨written, rfl⟩, made⟩ := h
    split at made
    case h_6 => cases made
    case h_1 | h_2 | h_3 =>
      obtain ⟨value, read, rfl⟩ := onTyped_eq_ok.1 made
      exact .comparison (by simp [*, Operation.comparison?]) read written
    all_goals obtain ⟨isText, rfl⟩ := onPattern_eq_ok.1 made
    case h_4 asked =>
      exact .pattern isText (by simp [asked])
        (Operation.place?_eq_some.2 (.inl ⟨rfl, .inl asked⟩)) written
    case h_5 asked =>
      exact .pattern isText (by simp [asked])
        (Operation.place?_eq_some.2 (.inr ⟨rfl, asked⟩)) written
  · intro h
    cases h with
    | comparison compares read written =>
      refine ⟨_, ⟨written, rfl⟩, ?_⟩
      rcases Operation.comparison?_eq_some.1 compares
        with ⟨asked, rfl⟩ | ⟨asked, rfl⟩ | ⟨asked, rfl⟩
      all_goals
        simp only [asked]
        exact onTyped_eq_ok.2 ⟨_, read, rfl⟩
    | pattern isText plain sought written =>
      refine ⟨_, ⟨written, rfl⟩, ?_⟩
      rcases Operation.place?_eq_some.1 sought with ⟨rfl, asked | asked⟩ | ⟨rfl, asked⟩
      case inl.inr => exact absurd asked plain
      all_goals
        simp only [asked]
        exact onPattern_eq_ok.2 ⟨isText, rfl⟩

/-! ### Rules -/

/-- What a rule gives on a table where it is kept. -/
inductive Form (rule : Rule) (table : Table) (filters : List Sql.Filter) : Prop
  | onField : rule.Stands table .json → rule.FieldForm filters → Form rule table filters
  | onDay : rule.Stands table .timestamp → rule.DayForm filters → Form rule table filters
  | onPlain {kind : Kind} : rule.Stands table kind → kind ≠ .json → kind ≠ .timestamp →
    rule.PlainForm kind filters → Form rule table filters

/-- When a rule is kept, and as which predicates. -/
theorem filters_eq_ok : rule.filters table = .ok filters ↔ rule.Form table filters := by
  simp only [Rule.filters, bind_eq_ok, checkedKind_eq_ok]
  constructor
  · intro h
    obtain ⟨kind, stands, made⟩ := h
    by_cases json : kind = .json
    · subst json
      exact .onField stands (onJson_eq_ok.1 made)
    by_cases date : kind = .timestamp
    · subst date
      exact .onDay stands (onDate_eq_ok.1 made)
    rw [if_neg (by simpa [Kind.isJson] using json), if_neg (by simpa [Kind.isDate] using date)]
      at made
    exact .onPlain stands json date (onPlain_eq_ok.1 made)
  · intro h
    cases h with
    | onField stands form => exact ⟨.json, stands, onJson_eq_ok.2 form⟩
    | onDay stands form => exact ⟨.timestamp, stands, onDate_eq_ok.2 form⟩
    | @onPlain kind stands json date form =>
      refine ⟨kind, stands, ?_⟩
      rw [if_neg (by simpa [Kind.isJson] using json), if_neg (by simpa [Kind.isDate] using date)]
      exact onPlain_eq_ok.2 form

theorem Form.writable (h : rule.Form table filters) :
    ∀ filter ∈ filters, filter.column.Writable := by
  cases h with
  | onField _ form => cases form <;> exact List.forall_mem_singleton.2 ‹_›
  | onPlain _ _ _ form => cases form <;> exact List.forall_mem_singleton.2 ‹_›
  | onDay _ form =>
    cases form with
    | during _ _ written =>
      exact List.forall_mem_cons.2 ⟨written, List.forall_mem_singleton.2 written⟩
    | after _ _ _ written => exact List.forall_mem_singleton.2 written
    | before _ _ written => exact List.forall_mem_singleton.2 written

end Rule

/-- Every predicate that comes of some rules is one of a form that one of them has. -/
theorem Compiled.exists_form {table : Table} {rules : List Rule} {filter : Sql.Filter}
    (member : filter ∈ (ofRules table rules).filters) :
    ∃ rule ∈ rules, ∃ filters, rule.Form table filters ∧ filter ∈ filters := by
  obtain ⟨rule, given, member⟩ := List.mem_flatMap.1 member
  unfold ofRule at member
  split at member
  · next filters made => exact ⟨rule, given, filters, Rule.filters_eq_ok.1 made, member⟩
  · cases member

end ScopedQuery
