import Formulary.Proofs.History

/-!
The index of dependencies over whole histories: whatever is called on a new store, the dependencies
of each calculation are the variables that its expression mentions, so that the calculations that
depend on a variable are all found.
-/

namespace Formulary

theorem Expression.mem_references {expression : Expression} {variableId : Int} :
    variableId ∈ expression.references ↔ variableId ∈ expression.mentions := by
  unfold references
  exact List.mem_eraseDups

def Exact (calculations : Table Calculation) (dependencies : DependencyTable) : Prop :=
  ∀ row ∈ calculations.rows, ∃ expression, Expression.parse row.expression = .ok expression ∧
    ∀ variableId, ⟨row.id, variableId⟩ ∈ dependencies.rows ↔ variableId ∈ expression.references

namespace Exact

variable {calculations changed : Table Calculation} {dependencies indexed : DependencyTable}
  {id : Int} {expression : Expression}

theorem congr (exact : Exact calculations dependencies)
    (same : ∀ row, row ∈ indexed.rows ↔ row ∈ dependencies.rows) : Exact calculations indexed := by
  intro row member
  obtain ⟨expression, parsed, depends⟩ := exact row member
  refine ⟨expression, parsed, ?_⟩
  intro variableId
  rw [same, depends]

theorem assign (exact : Exact calculations dependencies)
    (here : ∀ row ∈ changed.rows, row.id = id → Expression.parse row.expression = .ok expression)
    (elsewhere : ∀ row ∈ changed.rows, row.id ≠ id →
      ∃ old ∈ calculations.rows, old.id = row.id ∧ old.expression = row.expression) :
    Exact changed (dependencies.assign id expression.references) := by
  intro row member
  by_cases same : row.id = id
  · refine ⟨expression, here row member same, ?_⟩
    intro variableId
    rw [DependencyTable.mem_assign]
    simp [same]
  · obtain ⟨old, inside, sameId, sameText⟩ := elsewhere row member same
    obtain ⟨found, parsed, depends⟩ := exact old inside
    rw [sameId] at depends
    rw [sameText] at parsed
    refine ⟨found, parsed, ?_⟩
    intro variableId
    rw [DependencyTable.mem_assign, ← depends]
    simp [same]

theorem reassign {calculation : Calculation} (exact : Exact calculations dependencies)
    (member : calculation ∈ calculations.rows)
    (parsed : Expression.parse calculation.expression = .ok expression) :
    Exact calculations (dependencies.assign calculation.id expression.references) := by
  refine exact.assign ?_ ?_
  · intro row inside same
    rw [Table.eq_of_id_eq inside member same]
    exact parsed
  · intro row inside _
    exact ⟨row, inside, rfl, rfl⟩

theorem withValue {cell : Option Float} (exact : Exact calculations dependencies) :
    Exact (Database.withCalculatedValue calculations id cell) dependencies := by
  intro row member
  obtain ⟨old, inside, rfl⟩ := Table.mem_modify.1 member
  have depends := exact old inside
  split
  · exact depends
  · exact depends

end Exact

structure Indexed (calculations : Table Calculation) (dependencies : DependencyTable) : Prop where
  exact : Exact calculations dependencies
  owned : ∀ row ∈ dependencies.rows, calculations.contains row.calculation = true

namespace Indexed

variable {calculations changed : Table Calculation} {dependencies indexed : DependencyTable}
  {id : Int} {expression : Expression}

theorem congr (good : Indexed calculations dependencies)
    (same : ∀ row, row ∈ indexed.rows ↔ row ∈ dependencies.rows) :
    Indexed calculations indexed := by
  refine ⟨good.exact.congr same, ?_⟩
  intro row inside
  exact good.owned row ((same row).1 inside)

theorem owned_assign (good : Indexed calculations dependencies)
    (kept : ∀ other, calculations.contains other = true → changed.contains other = true)
    (held : changed.contains id = true) (references : List Int) :
    ∀ row ∈ (dependencies.assign id references).rows,
      changed.contains row.calculation = true := by
  intro row inside
  rcases DependencyTable.mem_assign.1 inside with ⟨same, _⟩ | ⟨_, old⟩
  · rw [same]
    exact held
  · exact kept _ (good.owned row old)

theorem put {calculation : Calculation} (good : Indexed calculations dependencies)
    (fresh : calculations.contains calculation.id = false)
    (parsed : Expression.parse calculation.expression = .ok expression) :
    Indexed (calculations.put calculation)
      (dependencies.assign calculation.id expression.references) := by
  refine ⟨good.exact.assign ?_ ?_, good.owned_assign ?_ ?_ _⟩
  · intro row member same
    rcases (Table.mem_put_fresh fresh).1 member with rfl | inside
    · exact parsed
    · have held := Table.contains_of_mem inside
      rw [id_calculation, same, fresh] at held
      cases held
  · intro row member different
    rcases (Table.mem_put_fresh fresh).1 member with rfl | inside
    · exact absurd rfl different
    · exact ⟨row, inside, rfl, rfl⟩
  · intro other held
    rw [Table.contains_put, held, Bool.or_true]
  · simp

theorem put_new {calculation : Calculation} (good : Indexed calculations dependencies)
    (fresh : calculations.contains calculation.id = false)
    (parsed : Expression.parse calculation.expression = .ok expression) :
    Indexed (calculations.put calculation)
      (expression.references.foldl
        (fun table variableId => table.put ⟨calculation.id, variableId⟩) dependencies) := by
  refine (good.put fresh parsed).congr ?_
  intro row
  rw [DependencyTable.mem_foldl_put, DependencyTable.mem_assign]
  -- What is new has no dependencies yet, so that none have to be dropped.
  refine or_congr_right ⟨?_, And.right⟩
  intro inside
  refine ⟨?_, inside⟩
  intro same
  have held := good.owned row inside
  rw [same, fresh] at held
  cases held

theorem put_listed {listed : List Calculation} (good : Indexed calculations dependencies)
    (distinct : listed.Pairwise (·.id ≠ ·.id))
    (fresh : ∀ calculation ∈ listed, calculations.contains calculation.id = false)
    (indexing : Demo.index dependencies listed = .ok indexed) :
    Indexed (listed.foldl Table.put calculations) indexed := by
  induction listed generalizing calculations dependencies with
  | nil =>
      cases indexing
      exact good
  | cons calculation rest ih =>
      obtain ⟨apart, further⟩ := List.pairwise_cons.1 distinct
      unfold Demo.index at indexing
      split at indexing
      · rename_i expression parsed
        have here := fresh calculation List.mem_cons_self
        refine ih (good.put here parsed) further ?_ indexing
        intro other inside
        rw [Table.contains_put, fresh other (List.mem_cons_of_mem _ inside), Bool.or_false]
        exact decide_eq_false (apart other inside)
      · cases indexing

theorem withExpression {text : String} (good : Indexed calculations dependencies)
    (held : calculations.contains id = true) (parsed : Expression.parse text = .ok expression) :
    Indexed (Database.withExpression calculations id text)
      (dependencies.assign id expression.references) := by
  refine ⟨good.exact.assign ?_ ?_, good.owned_assign ?_ ?_ _⟩
  · intro row member same
    obtain ⟨old, inside, rfl⟩ := Table.mem_modify.1 member
    by_cases target : Row.id old = id
    · rw [if_pos target]
      exact parsed
    · rw [if_neg target] at same
      exact absurd same target
  · intro row member different
    obtain ⟨old, inside, rfl⟩ := Table.mem_modify.1 member
    by_cases target : Row.id old = id
    · rw [if_pos target] at different
      exact absurd target different
    · rw [if_neg target]
      exact ⟨old, inside, rfl, rfl⟩
  · intro other present
    exact Table.contains_modify.trans present
  · exact Table.contains_modify.trans held

end Indexed

namespace Database

def Indexed (database : Database) : Prop :=
  ∃ calculations dependencies, database.calculations = some calculations ∧
    database.dependencies = some dependencies ∧ Formulary.Indexed calculations dependencies

variable {before after : Database}

theorem Indexed.of_tables (indexed : before.Indexed)
    (calculations : after.calculations = before.calculations)
    (dependencies : after.dependencies = before.dependencies) : after.Indexed := by
  obtain ⟨table, index, present, indexPresent, good⟩ := indexed
  exact ⟨table, index, calculations.trans present, dependencies.trans indexPresent, good⟩

theorem Indexed.of_usable {calculations : Table Calculation} {dependencies : DependencyTable}
    (indexed : before.Indexed)
    (usable : before.calculationTables = .ok (calculations, dependencies)) :
    Formulary.Indexed calculations dependencies := by
  obtain ⟨table, index, present, indexPresent, good⟩ := indexed
  obtain ⟨_, found, _, indexFound, _⟩ := calculationTables_eq_ok_iff.1 usable
  rw [present] at found
  rw [indexPresent] at indexFound
  cases found
  cases indexFound
  exact good

theorem indexed_edited (indexed : before.Indexed) (edit : before.Edited after) :
    after.Indexed := by
  cases edit with
  | variableCreated written =>
      obtain ⟨_, _, _, _, _, _, _, rfl⟩ := createVariable_eq_ok_iff.1 written
      exact indexed.of_tables rfl rfl
  | valueSet written =>
      obtain ⟨_, _, _, _, _, rfl⟩ := setVariableValue_eq_ok_iff.1 written
      exact indexed.of_tables rfl rfl
  | calculationCreated parsed written =>
      obtain ⟨_, _, _, usable, next, rfl, rfl⟩ := createCalculation_eq_ok_iff.1 written
      have good := indexed.of_usable usable
      exact ⟨_, _, rfl, rfl, good.put_new (Table.not_contains_nextId? next) parsed⟩
  | expressionReplaced parsed written =>
      obtain ⟨_, _, usable, held, rfl⟩ := setExpression_eq_ok_iff.1 written
      have good := indexed.of_usable usable
      exact ⟨_, _, rfl, rfl, good.withExpression held parsed⟩
  | @reindexed id calculation expression _ found parsed written =>
      obtain ⟨calculations, dependencies, usable, held, rfl⟩ :=
        setDependencies_eq_ok_iff.1 written
      obtain ⟨_, _, again, present⟩ := findCalculation_eq_ok_iff.1 found
      rw [usable] at again
      cases again
      obtain ⟨member, rfl⟩ := Table.find?_eq_some_iff.1 present.symm
      have good := indexed.of_usable usable
      exact ⟨_, _, rfl, rfl, good.exact.reassign member parsed,
        good.owned_assign (fun _ => id) held _⟩
  | calculated written =>
      obtain ⟨_, _, usable, _, rfl⟩ := setCalculatedValue_eq_ok_iff.1 written
      have good := indexed.of_usable usable
      refine ⟨_, _, rfl, rfl, good.exact.withValue, ?_⟩
      intro row inside
      exact Table.contains_modify.trans (good.owned row inside)
  | resourceCreated _ _ written =>
      obtain ⟨_, _, _, _, _, _, rfl⟩ := createResource_eq_ok_iff.1 written
      exact indexed.of_tables rfl rfl
  | resourceMoved _ _ _ _ written =>
      obtain ⟨_, _, _, _, rfl⟩ := setParent_eq_ok_iff.1 written
      exact indexed.of_tables rfl rfl

theorem indexed_changed (indexed : before.Indexed) (changed : before.Changed after) :
    after.Indexed := by
  cases changed with
  | edited edit => exact indexed_edited indexed edit
  | demoLoaded loaded =>
      obtain ⟨calculations, dependencies, _, _, _, _, indexing, _, _, rfl⟩ :=
        Demo.load_eq_ok loaded
      have empty : Formulary.Indexed calculations.reset (dependencies.remove fun _ => true) := by
        constructor
        · intro row member
          cases member
        · intro row inside
          cases (DependencyTable.mem_remove.1 inside).2
      refine ⟨_, _, rfl, rfl, empty.put_listed (by decide) ?_ indexing⟩
      intro calculation _
      rfl

theorem indexed_fresh : Store.fresh.database.Indexed := by
  refine ⟨.empty TableName.calculations.columns, .empty TableName.dependencies.columns, rfl, rfl,
    ?_, ?_⟩
  · intro row member
    cases member
  · intro row member
    cases member

theorem dependentsOf_exact {calculations : Table Calculation} {dependencies : DependencyTable}
    (usable : before.calculationTables = .ok (calculations, dependencies))
    (exact : Exact calculations dependencies) (variableId : Int) :
    ∃ found, before.dependentsOf variableId = .ok found ∧ found.Pairwise (·.id < ·.id) ∧
      ∀ row, row ∈ found ↔ row ∈ calculations.rows ∧ ∃ expression,
        Expression.parse row.expression = .ok expression ∧ variableId ∈ expression.mentions := by
  obtain ⟨found, dependents, ascending, listed⟩ := dependentsOf_listed usable variableId
  refine ⟨found, dependents, ascending, ?_⟩
  intro row
  rw [listed]
  constructor
  · rintro ⟨member, inside⟩
    obtain ⟨expression, parsed, depends⟩ := exact row member
    exact ⟨member, expression, parsed, Expression.mem_references.1 ((depends variableId).1 inside)⟩
  · rintro ⟨member, expression, parsed, mentioned⟩
    obtain ⟨found, again, depends⟩ := exact row member
    rw [parsed] at again
    cases again
    exact ⟨member, (depends variableId).2 (Expression.mem_references.2 mentioned)⟩

end Database

/-- Whatever is called on a new store, in transactions or not, every expression parses, the index
has exactly the variables that the expressions mention, and what depends on a variable is found. -/
theorem Store.index_after_calls (mode : StoreMode) (calls : List Call) :
    ∃ opened, (Store.opening mode (.database .blank none)).1 = .ok opened ∧
      ∃ calculations dependencies,
        (opened.after calls).database.calculationTables = .ok (calculations, dependencies) ∧
        (∀ row ∈ calculations.rows, ∃ expression,
          Expression.parse row.expression = .ok expression ∧
            ∀ variableId, ⟨row.id, variableId⟩ ∈ dependencies.rows ↔
              variableId ∈ expression.mentions) ∧
        (∀ row ∈ dependencies.rows, ∃ calculation ∈ calculations.rows,
          calculation.id = row.calculation) ∧
        ∀ variableId, ∃ found,
          (opened.after calls).database.dependentsOf variableId = .ok found ∧
            found.Pairwise (·.id < ·.id) ∧
            ∀ row, row ∈ found ↔ row ∈ calculations.rows ∧ ∃ expression,
              Expression.parse row.expression = .ok expression ∧
                variableId ∈ expression.mentions := by
  refine ⟨fresh, opening_blank mode, ?_⟩
  have indexed := (holds_after Database.indexed_fresh Database.indexed_changed calls).database
  have present : fresh.database.calculationTables =
    .ok (.empty TableName.calculations.columns, .empty TableName.dependencies.columns) := rfl
  obtain ⟨⟨calculations, dependencies⟩, usable⟩ :=
    Database.calculationTables_of_form (form_after calls) present
  have good := indexed.of_usable usable
  refine ⟨calculations, dependencies, usable, ?_, ?_,
    Database.dependentsOf_exact usable good.exact⟩
  · intro row member
    obtain ⟨expression, parsed, depends⟩ := good.exact row member
    refine ⟨expression, parsed, ?_⟩
    intro variableId
    rw [depends, Expression.mem_references]
  · intro row inside
    exact Table.contains_iff.1 (good.owned row inside)

end Formulary
