import Formulary.Forest
import Formulary.Proofs.Operation
import Formulary.Proofs.Schema
import Mathlib.Logic.Relation

/-!
All that can become of a store: the changes that operations make to its database, each with what
was made sure of before, and the beginning and the end of a transaction. What every change keeps
holds in whatever a store becomes.
-/

namespace Formulary

namespace Database

inductive Edited (before : Database) : Database → Prop
  | variableCreated {name : String} {value : Float} {created : Variable} {after : Database}
      (written : before.createVariable name value = .ok (created, after)) : Edited before after
  | valueSet {id : Int} {value : Float} {after : Database}
      (written : before.setVariableValue id value = .ok after) : Edited before after
  | calculationCreated {name text : String} {expression : Expression} {created : Calculation}
      {after : Database} (parsed : Expression.parse text = .ok expression)
      (written : before.createCalculation name text expression.references = .ok (created, after)) :
      Edited before after
  | expressionReplaced {id : Int} {text : String} {expression : Expression} {after : Database}
      (parsed : Expression.parse text = .ok expression)
      (written : before.setExpression id text expression.references = .ok after) :
      Edited before after
  | reindexed {id : Int} {calculation : Calculation} {expression : Expression} {after : Database}
      (found : before.findCalculation id = .ok (some calculation))
      (parsed : Expression.parse calculation.expression = .ok expression)
      (written : before.setDependencies id expression.references = .ok after) :
      Edited before after
  | calculated {id : Int} {value : Float} {after : Database}
      (written : before.setCalculatedValue id value = .ok after) : Edited before after
  | resourceCreated {name : String} {parent : Option Int} {created : Resource} {after : Database}
      (named : Text.Trimmed name)
      (attached : ∀ id, parent = some id → before.resourceExists id = .ok true)
      (written : before.createResource name parent = .ok (created, after)) : Edited before after
  | resourceMoved {id parent : Int} {table : Table Resource} {above : Resource}
      {after : Database} (usable : before.resourceTable = .ok table)
      (found : table.find? parent = some above) (different : id ≠ parent)
      (outside : id ∉ (Lineage.of table.rows parent above.parent).ancestors)
      (written : before.setParent id parent = .ok after) : Edited before after

/-- One change that an operation makes to a database, also the one that replaces all variables and
calculations. -/
inductive Changed (before : Database) : Database → Prop
  | edited {after : Database} (edit : before.Edited after) : Changed before after
  | demoLoaded {added : Nat} {after : Database} (loaded : Demo.load before = .ok (added, after)) :
      Changed before after

structure Form where
  version : Int
  vars : Option (List Column)
  calculations : Option (List Column)
  dependencies : Option (List Column)
  resources : Option (List Column)

def form (database : Database) : Form :=
  ⟨database.version, database.vars.map Table.columns, database.calculations.map Table.columns,
    database.dependencies.map DependencyTable.columns, database.resources.map Table.columns⟩

variable {before after : Database}

theorem requireVersion_of_form (same : after.form = before.form) :
    after.requireVersion = before.requireVersion := by
  have version : after.version = before.version := congrArg Form.version same
  unfold requireVersion recordedVersion
  rw [version]

theorem calculationTables_of_form (same : after.form = before.form)
    {tables : Table Calculation × DependencyTable}
    (usable : before.calculationTables = .ok tables) :
    ∃ kept, after.calculationTables = .ok kept := by
  obtain ⟨version, present, named, indexPresent, indexNamed⟩ :=
    calculationTables_eq_ok_iff.1 usable
  have columns : after.calculations.map Table.columns = before.calculations.map Table.columns :=
    congrArg Form.calculations same
  have indexColumns : after.dependencies.map DependencyTable.columns =
      before.dependencies.map DependencyTable.columns := congrArg Form.dependencies same
  rw [present] at columns
  rw [indexPresent] at indexColumns
  obtain ⟨kept, found, equal⟩ := Option.map_eq_some_iff.1 columns
  obtain ⟨keptIndex, indexFound, indexEqual⟩ := Option.map_eq_some_iff.1 indexColumns
  refine ⟨(kept, keptIndex), calculationTables_eq_ok_iff.2 ⟨?_, found, ?_, indexFound, ?_⟩⟩
  · rwa [requireVersion_of_form same]
  · rwa [equal]
  · rwa [indexEqual]

theorem form_withCalculations {calculations changed : Table Calculation}
    {dependencies indexed : DependencyTable}
    (usable : before.calculationTables = .ok (calculations, dependencies))
    (columns : changed.columns = calculations.columns)
    (indexColumns : indexed.columns = dependencies.columns) :
    (before.withCalculations changed indexed).form = before.form := by
  obtain ⟨_, present, _, indexPresent, _⟩ := calculationTables_eq_ok_iff.1 usable
  simp [form, withCalculations, present, indexPresent, columns, indexColumns]

theorem form_withVars {table changed : Table StoredVariable}
    (usable : before.variableTable = .ok table) (columns : changed.columns = table.columns) :
    { before with vars := some changed }.form = before.form := by
  obtain ⟨_, present, _⟩ := variableTable_eq_ok_iff.1 usable
  simp [form, present, columns]

theorem form_withResources {table changed : Table Resource}
    (usable : before.resourceTable = .ok table) (columns : changed.columns = table.columns) :
    { before with resources := some changed }.form = before.form := by
  obtain ⟨_, present, _⟩ := resourceTable_eq_ok_iff.1 usable
  simp [form, present, columns]

theorem columns_index {dependencies indexed : DependencyTable} {listed : List Calculation}
    (indexing : Demo.index dependencies listed = .ok indexed) :
    indexed.columns = dependencies.columns := by
  induction listed generalizing dependencies with
  | nil =>
      cases indexing
      rfl
  | cons calculation rest ih =>
      unfold Demo.index at indexing
      split at indexing
      · rw [ih indexing, DependencyTable.columns_assign]
      · cases indexing

theorem form_edited (edit : before.Edited after) : after.form = before.form := by
  cases edit with
  | variableCreated written =>
      obtain ⟨_, _, _, usable, _, _, _, rfl⟩ := createVariable_eq_ok_iff.1 written
      exact form_withVars usable (Table.columns_put _ _)
  | valueSet written =>
      obtain ⟨_, _, usable, _, _, rfl⟩ := setVariableValue_eq_ok_iff.1 written
      exact form_withVars usable (Table.columns_modify _ _ _ _)
  | calculationCreated _ written =>
      obtain ⟨_, _, _, usable, _, _, rfl⟩ := createCalculation_eq_ok_iff.1 written
      exact form_withCalculations usable (Table.columns_put _ _)
        (DependencyTable.columns_foldl_put _ _ _)
  | expressionReplaced _ written =>
      obtain ⟨_, _, usable, _, rfl⟩ := setExpression_eq_ok_iff.1 written
      exact form_withCalculations usable (Table.columns_modify _ _ _ _)
        (DependencyTable.columns_assign _ _ _)
  | reindexed _ _ written =>
      obtain ⟨_, _, usable, _, rfl⟩ := setDependencies_eq_ok_iff.1 written
      exact form_withCalculations usable rfl (DependencyTable.columns_assign _ _ _)
  | calculated written =>
      obtain ⟨_, _, usable, _, rfl⟩ := setCalculatedValue_eq_ok_iff.1 written
      exact form_withCalculations usable (Table.columns_modify _ _ _ _) rfl
  | resourceCreated _ _ written =>
      obtain ⟨_, _, usable, _, _, _, rfl⟩ := createResource_eq_ok_iff.1 written
      exact form_withResources usable (Table.columns_put _ _)
  | resourceMoved _ _ _ _ written =>
      obtain ⟨_, usable, _, _, rfl⟩ := setParent_eq_ok_iff.1 written
      exact form_withResources usable (Table.columns_modify _ _ _ _)

theorem form_changed (changed : before.Changed after) : after.form = before.form := by
  cases changed with
  | edited edit => exact form_edited edit
  | demoLoaded loaded =>
      obtain ⟨_, _, _, _, _, usable, indexing, varsFound, resourcesFound, rfl⟩ :=
        Demo.load_eq_ok loaded
      obtain ⟨_, present, _, indexPresent, _⟩ := calculationTables_eq_ok_iff.1 usable
      simp [form, present, indexPresent, varsFound, resourcesFound, columns_index indexing]

end Database

namespace Store

inductive Step (change : Database → Database → Prop) (before : Store) : Store → Prop
  | recorded {after : Store} (alike : before.Alike after) : Step change before after
  | changed {database : Database} (changed : change before.database database) :
      Step change before { before with database }
  | begun : Step change before { before with saved := some before.database }
  | committed : Step change before { before with saved := none }
  | undone : Step change before before.rollBack

def Taken (change : Database → Database → Prop) : Store → Store → Prop :=
  Relation.ReflTransGen (Step change)

def Steps : Store → Store → Prop :=
  Taken Database.Changed

def Edits : Store → Store → Prop :=
  Taken Database.Edited

theorem Edits.steps {before after : Store} (edits : Edits before after) : Steps before after := by
  refine Relation.ReflTransGen.mono ?_ before after edits
  intro first second step
  cases step with
  | recorded alike => exact .recorded alike
  | changed edit => exact .changed (.edited edit)
  | begun => exact .begun
  | committed => exact .committed
  | undone => exact .undone

/-- Whether a property holds of the database of a store, and of what it was when the open
transaction began. -/
structure Holds (property : Database → Prop) (store : Store) : Prop where
  database : property store.database
  saved : ∀ saved, store.saved = some saved → property saved

section

variable {property : Database → Prop} {change : Database → Database → Prop} {before after : Store}

theorem holds_step (kept : ∀ {old new : Database}, property old → change old new → property new)
    (step : Step change before after) (holds : Holds property before) : Holds property after := by
  cases step with
  | recorded alike =>
      constructor
      · rw [alike.database]
        exact holds.database
      · rw [alike.saved]
        exact holds.saved
  | changed change => exact ⟨kept holds.database change, holds.saved⟩
  | begun =>
      refine ⟨holds.database, ?_⟩
      intro saved same
      cases same
      exact holds.database
  | committed =>
      refine ⟨holds.database, ?_⟩
      intro saved same
      cases same
  | undone =>
      refine ⟨?_, ?_⟩
      · cases saved : before.saved with
        | none =>
            simp only [rollBack, saved, Option.getD_none]
            exact holds.database
        | some old =>
            simp only [rollBack, saved, Option.getD_some]
            exact holds.saved old saved
      · intro saved same
        cases same

theorem holds_steps (kept : ∀ {old new : Database}, property old → change old new → property new)
    (taken : Taken change before after) (holds : Holds property before) :
    Holds property after := by
  induction taken with
  | refl => exact holds
  | tail _ step ih => exact holds_step kept step ih

end

end Store

namespace Operation

open Store

variable {ε φ α : Type}

section

variable {changing : Database → Database → Prop}

theorem taken_progress : Progress (Taken changing) where
  alike := fun alike => .single (.recorded alike)
  trans := fun left right => Relation.ReflTransGen.trans left right

theorem change_taken [FromStorage φ] {fault : φ → ε}
    {write : Database → Except φ (α × Database)} {store : Store}
    (writes : ∀ value after, write store.database = .ok (value, after) →
      changing store.database after) :
    Taken changing store ((change fault write).apply store).2 := by
  rw [apply_change]
  split
  · exact .refl
  · split
    · rename_i value database written
      exact .single (.changed (writes _ _ written))
    · split
      · exact .single .undone
      · exact .refl

end

theorem steps_progress : Progress Steps :=
  taken_progress

theorem edits_progress : Progress Edits :=
  taken_progress

theorem update_edits [FromStorage φ] {fault : φ → ε} {write : Database → Except φ Database}
    {store : Store}
    (writes : ∀ after, write store.database = .ok after → store.database.Edited after) :
    Edits store ((update fault write).apply store).2 := by
  refine change_taken fun value after written => writes after ?_
  cases result : write store.database with
  | error reason => simp [result, Except.map] at written
  | ok database => simpa [result, Except.map] using written

theorem within_edits_begin (fault : DatabaseFault → ε) : Within Edits (begin fault) := by
  intro store
  rw [apply_begin]
  cases store.saved with
  | none => exact .single .begun
  | some saved => exact .refl

theorem within_edits_commit (fault : DatabaseFault → ε) : Within Edits (commit fault) := by
  intro store
  rw [apply_commit]
  cases store.saved with
  | none => exact .refl
  | some saved => exact .single .committed

theorem within_edits_rollBack : Within Edits (modify Store.rollBack : Operation ε PUnit) :=
  fun _ => .single .undone

theorem within_edits_transaction {fault : DatabaseFault → ε} {operation : Operation ε α}
    (inner : Within Edits operation) : Within Edits (transaction fault operation) := by
  unfold transaction
  refine within_bind edits_progress (within_edits_begin fault) fun _ => ?_
  refine within_bind edits_progress (within_attempt inner) fun answer => ?_
  cases answer with
  | ok value =>
      exact within_bind edits_progress (within_edits_commit fault) fun _ =>
        within_pure edits_progress value
  | error reason =>
      exact within_bind edits_progress within_edits_rollBack fun _ =>
        within_throw edits_progress reason

end Operation

end Formulary
