import Mathlib.Logic.Equiv.Defs
import ScopedQuery.Proofs.Rule.Forms
import ScopedQuery.Schema.Dashboard
/-!
# Compiling lists of rules

Rules are compiled one by one, each to a block of predicates that depends on no other rule, and the
blocks stand behind the predicate of the scope in the order of the rules. Whatever is kept can be
written: no rule, however odd its names, makes a statement with the compiled predicates fail.
-/

namespace ScopedQuery

variable {scope : Scope} {table : Table} {rules : List Rule} {compiled : Compiled}

/-! ### Blocks -/

namespace Rule

/-- The predicates that a rule adds to a list; a dropped rule adds none. -/
def block (table : Table) (rule : Rule) : List Sql.Filter :=
  (Compiled.ofRule table rule).filters

def isKept (table : Table) (rule : Rule) : Bool :=
  (rule.filters table).isOk

variable {rule : Rule} {filters : List Sql.Filter}

theorem block_cases (table : Table) (rule : Rule) :
    rule.isKept table = true ∧ rule.Form table (rule.block table)
      ∨ rule.isKept table = false ∧ rule.block table = [] := by
  unfold isKept block Compiled.ofRule
  cases made : rule.filters table with
  | error reason => exact .inr ⟨rfl, rfl⟩
  | ok filters => exact .inl ⟨rfl, filters_eq_ok.1 made⟩

theorem block_of_dropped (h : rule.isKept table = false) : rule.block table = [] := by
  rcases block_cases table rule with ⟨kept, -⟩ | ⟨-, none⟩
  · simp [h] at kept
  · exact none

/-- Only a rule for a whole day needs two bounds. -/
theorem Form.length_eq (h : rule.Form table filters) :
    filters.length
      = if rule.operation = .equals ∧ table.kind? rule.column = some .timestamp then 2 else 1 := by
  have kind {kind : Kind} (stands : rule.Stands table kind) : table.kind? rule.column = some kind :=
    Ordered.find?_eq_some.2 stands.listed
  cases h with
  | onField stands form =>
    rw [if_neg (by simp [kind stands])]
    cases form <;> rfl
  | onDay stands form =>
    cases form with
    | during asked => rw [if_pos ⟨asked, kind stands⟩]; rfl
    | after asked => rw [if_neg (by simp [asked])]; rfl
    | before asked => rw [if_neg (by simp [asked])]; rfl
  | onPlain stands _ date form =>
    rw [if_neg (by simp [kind stands, date])]
    cases form <;> rfl

theorem length_block (table : Table) (rule : Rule) :
    (rule.block table).length
      = if rule.isKept table = false then 0
        else if rule.operation = .equals ∧ table.kind? rule.column = some .timestamp then 2
        else 1 := by
  rcases block_cases table rule with ⟨kept, form⟩ | ⟨dropped, none⟩
  · rw [if_neg (by simp [kept]), form.length_eq]
  · rw [if_pos dropped, none, List.length_nil]

end Rule

/-! ### Lists -/

theorem Compiled.filters_ofRules (table : Table) (rules : List Rule) :
    (ofRules table rules).filters = (rules.map (Rule.block table)).flatten :=
  List.flatMap_def ..

theorem Compiled.ofRules_append (table : Table) (rules more : List Rule) :
    ofRules table (rules ++ more)
      = ⟨(ofRules table rules).filters ++ (ofRules table more).filters,
        (ofRules table rules).dropped ++ (ofRules table more).dropped⟩ := by
  simp only [ofRules, List.flatMap_append]

namespace Scope

theorem compile_of_error {fault : Fault} (h : scope.filter table = .error fault)
    (rules : List Rule) : scope.compile table rules = .error fault := by
  rw [compile, h]
  rfl

theorem compile_of_ok {first : Sql.Filter} (h : scope.filter table = .ok first)
    (rules : List Rule) :
    scope.compile table rules
      = .ok ⟨first :: (Compiled.ofRules table rules).filters,
        (Compiled.ofRules table rules).dropped⟩ := by
  rw [compile, h]
  rfl

theorem filters_compile (scope : Scope) (table : Table) (rules : List Rule) :
    Compiled.filters <$> scope.compile table rules
      = (fun first => first :: (rules.map (Rule.block table)).flatten)
        <$> scope.filter table := by
  rw [← Compiled.filters_ofRules]
  cases bound : scope.filter table with
  | error fault => rw [compile_of_error bound]; rfl
  | ok first => rw [compile_of_ok bound]; rfl

theorem writable_of_filter {first : Sql.Filter} (h : scope.filter table = .ok first) :
    first.column.Writable := by
  simp only [Scope.filter, bind_eq_ok, Sql.Filter.equals_eq_ok] at h
  obtain ⟨_, -, _, -, written, rfl⟩ := h
  exact written

theorem writable_of_compile (h : scope.compile table rules = .ok compiled) :
    ∀ filter ∈ compiled.filters, filter.column.Writable := by
  simp only [compile, bind_eq_ok, pure_eq_ok] at h
  obtain ⟨first, bound, rfl⟩ := h
  refine List.forall_mem_cons.2 ⟨writable_of_filter bound, fun filter member => ?_⟩
  obtain ⟨rule, -, filters, form, member⟩ := Compiled.exists_form member
  exact form.writable filter member

/-- Compiling fails with the fault of the scope and for no other reason. Otherwise the predicate of
the scope is followed by one block for each rule, whose length says whether the rule is dropped or
asks for a whole day. So lists are compiled part by part, a dropped rule may stand anywhere or be
left out, and rules in another order give their blocks in that order. -/
theorem compile_rule_by_rule (scope : Scope) (table : Table) :
    (∀ rules fault, scope.compile table rules = .error fault ↔ scope.filter table = .error fault)
      ∧ (∀ rules more,
        scope.compile table (rules ++ more) = do
          let front ← scope.compile table rules
          let back ← scope.compile table more
          return ⟨front.filters ++ back.filters.tail, front.dropped ++ back.dropped⟩)
      ∧ (∀ rules, Compiled.filters <$> scope.compile table rules
          = (fun first => first :: (rules.map (Rule.block table)).flatten)
            <$> scope.filter table)
      ∧ (∀ rule : Rule, (rule.block table).length
          = if rule.isKept table = false then 0
            else if rule.operation = .equals ∧ table.kind? rule.column = some .timestamp then 2
            else 1)
      ∧ (∀ before after (rule : Rule), rule.isKept table = false →
        Compiled.filters <$> scope.compile table (before ++ rule :: after)
          = Compiled.filters <$> scope.compile table (before ++ after))
      ∧ ∀ (count : Nat) (rules : Fin count → Rule) (order : Equiv.Perm (Fin count)),
        Compiled.filters <$> scope.compile table (List.ofFn (rules ∘ order))
          = (fun first => first :: (List.ofFn ((Rule.block table ∘ rules) ∘ order)).flatten)
            <$> scope.filter table := by
  refine ⟨fun rules fault => ?_, fun rules more => ?_, filters_compile scope table,
    Rule.length_block table, fun before after rule dropped => ?_, fun count rules order => ?_⟩
  · cases bound : scope.filter table with
    | error other => simp [compile_of_error bound]
    | ok first => simp [compile_of_ok bound]
  · cases bound : scope.filter table with
    | error fault => simp only [compile_of_error bound]; rfl
    | ok first => simp only [compile_of_ok bound, Compiled.ofRules_append]; rfl
  · rw [filters_compile, filters_compile]
    simp only [List.map_append, List.map_cons, Rule.block_of_dropped dropped, List.flatten_append,
      List.flatten_cons, List.nil_append]
  · rw [filters_compile, List.map_ofFn]
    rfl

/-- A rule on a field without its name is left out between two others, the first for a day. -/
theorem compile_rule_by_rule_of_missing_field :
    let scope : Scope := ⟨"status", .text "ended"⟩
    let day : Rule := ⟨"r1", "call_started_at", .equals, "2024-02-29", none⟩
    let odd : Rule := ⟨"r2", "metadata", .contains, "vip", none⟩
    let search : Rule := ⟨"r3", "direction", .startsWith, "in_", none⟩
    odd.isKept Dashboard.callLogs = false
      ∧ Compiled.filters <$> scope.compile Dashboard.callLogs [day, odd, search]
        = Compiled.filters <$> scope.compile Dashboard.callLogs [day, search]
      ∧ (day.block Dashboard.callLogs).length = 2
      ∧ (search.block Dashboard.callLogs).length = 1 := by
  intro scope day odd search
  have dropped : odd.isKept Dashboard.callLogs = false := by rfl
  obtain ⟨-, -, -, lengths, leftOut, -⟩ := compile_rule_by_rule scope Dashboard.callLogs
  exact ⟨dropped, leftOut [day] [search] odd dropped, (lengths day).trans (by decide),
    (lengths search).trans (by decide)⟩

/-! ### Statements -/

/-- Compiled predicates can be written into every statement for the table that is otherwise in
order. -/
theorem statements_of_compiled (named : Sql.isIdentifier table.name = true)
    (made : scope.compile table rules = .ok compiled) :
    (∃ statement, Sql.select
        { Sql.Fetch.ofTable table.name "*" with filters := compiled.filters } = .ok statement)
      ∧ (∃ statement, Sql.delete table.name compiled.filters = .ok statement)
      ∧ ∀ data : Sql.Record, data.entries ≠ [] →
        (∀ column ∈ data.names, Sql.isIdentifier column = true) →
          ∃ statement, Sql.update table.name data compiled.filters = .ok statement := by
  have columns := writable_of_compile made
  have narrowed : compiled.filters ≠ [] := by
    simp only [compile, bind_eq_ok, pure_eq_ok] at made
    obtain ⟨first, -, rfl⟩ := made
    exact List.cons_ne_nil _ _
  refine ⟨⟨_, Sql.Command.select_eq_ok.2 ⟨⟨?_, columns, nofun, nofun⟩, rfl⟩⟩,
    ⟨_, Sql.Command.delete_eq_ok.2 ⟨⟨?_, columns, nofun, fun _ => narrowed⟩, rfl⟩⟩,
    fun data stored names => ⟨_, Sql.Command.update_eq_ok.2
      ⟨⟨?_, columns, fun _ => stored, fun _ => narrowed⟩, rfl⟩⟩⟩
  · have all : Sql.selectedColumns "*" = none := by rfl
    simpa [Sql.Command.names, Sql.Fetch.ofTable, all] using named
  · simpa [Sql.Command.names] using named
  · exact List.forall_mem_cons.2 ⟨named, names⟩

/-- A column that is no identifier, a field with a NUL and one with a quote. -/
theorem statements_of_compiled_odd_names :
    let table : Table := .ofColumns "calls" "id" [("id", .text), ("a b", .text), ("meta", .json)]
    let rules : List Rule := [⟨"r1", "a b", .equals, "x", none⟩,
      ⟨"r2", "meta", .jsonExists, "", some "a\x00b"⟩, ⟨"r3", "meta", .equals, "x", some "o'brien"⟩]
    ∃ compiled, (⟨"id", .text "7"⟩ : Scope).compile table rules = .ok compiled
      ∧ (∃ statement, Sql.select
        { Sql.Fetch.ofTable "calls" "*" with filters := compiled.filters } = .ok statement)
      ∧ (∃ statement, Sql.delete "calls" compiled.filters = .ok statement)
      ∧ ∃ statement, Sql.update "calls" (.ofList [("id", .text "8")]) compiled.filters
        = .ok statement := by
  intro table rules
  have bound : (⟨"id", .text "7"⟩ : Scope).filter table
      = .ok (.compare (.plain "id") .eq (.text "7")) := by rfl
  have made := compile_of_ok bound rules
  obtain ⟨selected, deleted, updated⟩ := statements_of_compiled (by decide) made
  exact ⟨_, made, selected, deleted,
    updated (.ofList [("id", .text "8")]) (by decide) (by decide)⟩

end Scope

end ScopedQuery
