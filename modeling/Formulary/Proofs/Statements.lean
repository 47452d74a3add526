import Formulary.Proofs.Hierarchy
import Formulary.Proofs.Savepoint
import Formulary.Task

/-!
The changes that take more than one statement are done as a whole or not at all: statement by
statement they answer and leave what they do in one step, in a transaction or outside of one.
-/

namespace Formulary

namespace Database

variable {τ : Type} {name : TableName} (columns : τ → List Column) {table : τ}
  (wanted : List String)

theorem wanted_of_named (named : requireColumns name (columns table) = .ok ())
    (known : wanted ⊆ name.columns.map (·.name)) :
    (wanted.find? fun column => !(columns table).any (sameName ·.name column)) = none := by
  unfold requireColumns at named
  split at named
  · cases named
  · rename_i missing
    rw [List.find?_eq_none] at missing ⊢
    intro wish listed
    obtain ⟨column, own, rfl⟩ := List.mem_map.1 (known listed)
    have present := missing column own
    simp only [Bool.not_eq_true, Bool.not_eq_false', List.any_eq_true, decide_eq_true_eq]
      at present ⊢
    obtain ⟨found, member, same⟩ := present
    exact ⟨found, member, by simp [sameName, same]⟩

theorem fillable_of_named (named : requireColumns name (columns table) = .ok ())
    (known : wanted ⊆ name.columns.map (·.name)) :
    fillable name wanted columns (some table) = .ok table := by
  unfold fillable
  simp only [wanted_of_named columns wanted named known]

theorem readable_of_named (named : requireColumns name (columns table) = .ok ())
    (known : wanted ⊆ name.columns.map (·.name)) :
    readable name wanted columns (some table) = .ok table := by
  unfold readable
  simp only [wanted_of_named columns wanted named known]

theorem withCalculations_self {database : Database} {calculations : Table Calculation}
    {dependencies : DependencyTable}
    (usable : database.calculationTables = .ok (calculations, dependencies)) :
    database.withCalculations calculations dependencies = database := by
  obtain ⟨_, held, _, indexed, _⟩ := calculationTables_eq_ok_iff.1 usable
  unfold withCalculations
  rw [← held, ← indexed]

end Database

theorem Operation.change_refused {α : Type} {write : Database → Except StoreFault (α × Database)}
    {store : Store} {fault : StoreFault} (writable : store.obstacle = none)
    (refused : write store.database = .error fault) :
    (change id write).apply store =
      (.error fault, if endsTransaction fault then store.rollBack else store) := by
  rw [apply_change]
  simp only [writable, refused]
  rfl

theorem Recalculation.apply_insert (name expression : String) (references : List Int)
    (store : Store) :
    (insert name expression references).apply store =
      match (Operation.change (id : StoreFault → StoreFault)
        (·.createCalculation name expression references)).apply store with
      | (.ok created, after) => (.ok created, after)
      | (.error fault, after) =>
        (.error fault, if endsTransaction fault then
          { after with events := .savepointLost "create_calculation" :: after.events } else after) := by
  unfold insert
  rw [Operation.apply_bind, Operation.apply_attempt]
  rcases (Operation.change (id : StoreFault → StoreFault)
    (·.createCalculation name expression references)).apply store with ⟨fault | created, after⟩
  · cases ends : endsTransaction fault with
    | true =>
        simp only [ends, if_true]
        rfl
    | false =>
        simp only [ends, Bool.false_eq_true, if_false]
        rfl
  · rfl

namespace Script

open Database (fillable readable requireColumns fillable_of_named readable_of_named)

section Edits

variable {store : Store} {database : Database} {savepoints : List Savepoint}
  {change : Maintenance.Edit} {count : Nat} {fault : StorageFault}

theorem edit_of_ok (writable : store.obstacle = none)
    (done : change store.database = .ok (count, database)) :
    (edit change).apply ⟨store, savepoints⟩ =
      (.ok count, ⟨{ store with database := database }, savepoints⟩) := by
  unfold edit
  rw [apply_statement]
  simp only [writable, done]
  simp only [mapError_ok, Connection.withDatabase, writable]

theorem edit_of_error (writable : store.obstacle = none)
    (refused : change store.database = .error fault)
    (lasting : endsTransaction fault = false) :
    (edit change).apply ⟨store, savepoints⟩ = (.error (.ofStorage fault), ⟨store, savepoints⟩) := by
  unfold edit
  rw [apply_statement]
  have stays : endsTransaction (StoreFault.ofStorage fault) = false := lasting
  simp only [writable, refused, mapError_error, stays]
  rfl

end Edits

section Dependencies

variable {store : Store} {database : Database} {calculations : Table Calculation}
  {dependencies : DependencyTable} {id : Int} {savepoints : List Savepoint}

theorem addDependency_held (named : requireColumns .dependencies dependencies.columns = .ok ())
    (held : calculations.contains id = true) (variableId : Int) :
    ∃ count, addDependency id variableId (database.withCalculations calculations dependencies) =
      .ok (count, database.withCalculations calculations (dependencies.put ⟨id, variableId⟩)) := by
  have found := fillable_of_named DependencyTable.columns ["calculation_id", "variable_id"] named
    (by decide)
  refine ⟨if (⟨id, variableId⟩ : Dependency) ∈ dependencies.rows then 0 else 1, ?_⟩
  simp [addDependency, Database.withCalculations, found, Maintenance.requireParents, held, bind,
    Except.bind]

theorem removeDependencies_named (id : Int)
    (named : requireColumns .dependencies dependencies.columns = .ok ()) :
    ∃ count, removeDependencies id (database.withCalculations calculations dependencies) =
      .ok (count, database.withCalculations calculations
        (dependencies.remove (·.calculation = id))) := by
  have found := readable_of_named DependencyTable.columns ["calculation_id"] named (by decide)
  refine ⟨dependencies.rows.length - (dependencies.remove (·.calculation = id)).rows.length, ?_⟩
  simp [removeDependencies, Database.withCalculations, found, Maintenance.requireParents, bind,
    Except.bind]

theorem writeDependencies_apply (writable : store.obstacle = none)
    (named : requireColumns .dependencies dependencies.columns = .ok ())
    (held : calculations.contains id = true) (references : List Int) :
    (writeDependencies id references).apply
        ⟨{ store with database := database.withCalculations calculations dependencies },
          savepoints⟩ =
      (.ok (), ⟨{ store with
        database := database.withCalculations calculations
          (references.foldl (fun table variableId => table.put ⟨id, variableId⟩) dependencies) },
        savepoints⟩) := by
  induction references generalizing dependencies with
  | nil => rfl
  | cons variableId rest ih =>
      obtain ⟨count, added⟩ := addDependency_held named held variableId
      unfold writeDependencies
      rw [apply_bind_of_ok _ (edit_of_ok (by exact writable) added)]
      exact ih named

theorem rewriteDependencies_apply (database : Database) (savepoints : List Savepoint)
    (writable : store.obstacle = none)
    (named : requireColumns .dependencies dependencies.columns = .ok ())
    (held : calculations.contains id = true) (references : List Int) :
    (do
      let _ ← edit (removeDependencies id)
      writeDependencies id references : Script Unit).apply
        ⟨{ store with database := database.withCalculations calculations dependencies },
          savepoints⟩ =
      (.ok (), ⟨{ store with
        database := database.withCalculations calculations (dependencies.assign id references) },
        savepoints⟩) := by
  obtain ⟨count, removed⟩ := removeDependencies_named id named
  rw [apply_bind_of_ok _ (edit_of_ok (by exact writable) removed)]
  exact writeDependencies_apply writable (by exact named) held references

theorem ask_exists (usable : store.database.calculationTables = .ok (calculations, dependencies)) :
    (ask (calculationExists id)).apply ⟨store, savepoints⟩ =
      (.ok (calculations.contains id), ⟨store, savepoints⟩) := by
  obtain ⟨_, held, named, _⟩ := Database.calculationTables_eq_ok_iff.1 usable
  have found := readable_of_named Table.columns ["id"] named (by decide)
  rw [apply_ask]
  simp [calculationExists, held, found, bind, Except.bind]

theorem replaceDependencies_of_held (writable : store.obstacle = none)
    (usable : store.database.calculationTables = .ok (calculations, dependencies))
    (held : calculations.contains id = true) (references : List Int) :
    (replaceDependencies id references).apply ⟨store, savepoints⟩ =
      (.ok (), ⟨{ store with
        database := store.database.withCalculations calculations
          (dependencies.assign id references) }, savepoints⟩) := by
  obtain ⟨_, _, _, _, named⟩ := Database.calculationTables_eq_ok_iff.1 usable
  have rewritten := rewriteDependencies_apply store.database
    (⟨"replace_dependencies", store.database⟩ :: savepoints) writable named held references
  rw [Database.withCalculations_self usable] at rewritten
  refine withSavepoint_of_ok ?_
  rw [apply_bind_of_ok _ (ask_exists usable), held]
  exact rewritten

theorem replaceDependencies_of_not_held
    (usable : store.database.calculationTables = .ok (calculations, dependencies))
    (missing : calculations.contains id = false) (references : List Int) :
    (replaceDependencies id references).apply ⟨store, savepoints⟩ =
      (.error (.notFound .calculation id), ⟨store, savepoints⟩) := by
  refine withSavepoint_of_error ?_
  rw [apply_bind_of_ok _ (ask_exists usable), missing]
  rfl

theorem insertCalculation_of_next {name expression : String} (writable : store.obstacle = none)
    (usable : store.database.calculationTables = .ok (calculations, dependencies))
    (next : calculations.nextId? = some id) :
    (insertCalculation name expression).apply ⟨store, savepoints⟩ =
      (.ok ⟨id, name, expression, none⟩, ⟨{ store with
        database := store.database.withCalculations
          (calculations.put ⟨id, name, expression, none⟩) dependencies }, savepoints⟩) := by
  obtain ⟨_, present, named, indexed, _⟩ := Database.calculationTables_eq_ok_iff.1 usable
  have found := fillable_of_named Table.columns ["name", "expression", "calculated_value"] named
    (by decide)
  rw [insertCalculation, apply_statement]
  simp [writable, present, found, next, indexed, bind, Except.bind, Connection.withDatabase,
    Database.withCalculations]

/-- A full table ends the savepoint with which a transaction was begun, or the transaction. -/
theorem insertCalculation_of_full {name expression savepoint : String}
    (writable : store.obstacle = none)
    (usable : store.database.calculationTables = .ok (calculations, dependencies))
    (full : calculations.nextId? = none) :
    (insertCalculation name expression).apply ⟨store, [⟨savepoint, store.database⟩]⟩ =
      (.error (.ofStorage .full), ⟨store.rollBack, []⟩) := by
  obtain ⟨_, present, named, _⟩ := Database.calculationTables_eq_ok_iff.1 usable
  have found := fillable_of_named Table.columns ["name", "expression", "calculated_value"] named
    (by decide)
  rw [insertCalculation, apply_statement]
  cases saved : store.saved <;>
    simp [writable, present, found, full, saved, bind, Except.bind, throw, throwThe,
      MonadExceptOf.throw, endsTransaction, FromStorage.storage?, StoreFault.ofStorage,
      Connection.rollBack, Connection.start?, Store.rollBack]

end Dependencies

/-- Whether a script answers as an operation does and leaves the same store, with no savepoint left
open, where the store can be changed. -/
def Refines {α : Type} (script : Script α) (operation : Operation StoreFault α) : Prop :=
  ∀ ⦃store : Store⦄, store.obstacle = none →
    script.apply ⟨store, []⟩ = ((operation.apply store).1, ⟨(operation.apply store).2, []⟩)

section Refinements

variable {α : Type}

theorem refines_ask (read : Database → Except StoreFault α) :
    Refines (ask read) (Operation.query id read) := by
  intro store writable
  rw [apply_ask, Operation.apply_query]
  cases read store.database <;> rfl

theorem refines_statement (write : Database → Except StoreFault (α × Database)) :
    Refines (statement write) (Operation.change id write) := by
  rintro ⟨database, _, saved, events⟩ rfl
  rw [apply_statement, Operation.apply_change]
  dsimp only
  cases write database with
  | ok result => rfl
  | error fault =>
      dsimp only
      cases endsTransaction fault with
      | false => rfl
      | true => simp [Connection.rollBack, Connection.start?]

theorem refines_change (write : Database → Except StoreFault Database) :
    Refines (change write) (Operation.update id write) :=
  refines_statement _

theorem check_of_usable {store : Store} {savepoints : List Savepoint}
    {tables : Table Calculation × DependencyTable}
    (usable : store.database.calculationTables = .ok tables) :
    check.apply ⟨store, savepoints⟩ = (.ok (), ⟨store, savepoints⟩) := by
  unfold check
  rw [apply_bind, apply_ask, usable]
  rfl

theorem check_of_unusable {store : Store} {savepoints : List Savepoint} {fault : StoreFault}
    (unusable : store.database.calculationTables = .error fault) :
    check.apply ⟨store, savepoints⟩ = (.error fault, ⟨store, savepoints⟩) := by
  unfold check
  rw [apply_bind, apply_ask, unusable]

theorem refines_checked {script : Script α} {write : Database → Except StoreFault (α × Database)}
    (unusable : ∀ {database fault}, database.calculationTables = .error fault →
      write database = .error fault)
    (usable : ∀ {store : Store} {calculations dependencies}, store.obstacle = none →
      store.database.calculationTables = .ok (calculations, dependencies) →
        script.apply ⟨store, []⟩ = (((Operation.change id write).apply store).1,
          ⟨((Operation.change id write).apply store).2, []⟩)) :
    Refines (do check; script) (Operation.change id write) := by
  intro store writable
  cases found : store.database.calculationTables with
  | ok tables =>
      rw [apply_bind_of_ok _ (check_of_usable found)]
      exact usable writable found
  | error fault =>
      have lasting := Database.calculationTables_lasting found
      rw [apply_bind_of_error _ (check_of_unusable found),
        Operation.change_refused writable (unusable found)]
      simp [lasting]

theorem refines_changeCalculation {script : Script Unit} {id : Int}
    {write : Database → Table Calculation → DependencyTable → Database}
    (held : ∀ {store : Store} {calculations dependencies}, store.obstacle = none →
      store.database.calculationTables = .ok (calculations, dependencies) →
        calculations.contains id = true → script.apply ⟨store, []⟩ =
          (.ok (), ⟨{ store with database := write store.database calculations dependencies }, []⟩))
    (missing : ∀ {store : Store} {calculations dependencies}, store.obstacle = none →
      store.database.calculationTables = .ok (calculations, dependencies) →
        calculations.contains id = false → script.apply ⟨store, []⟩ =
          (.error (.notFound .calculation id), ⟨store, []⟩)) :
    Refines (do check; script) (Operation.update (fun fault => fault) fun database =>
      database.changeCalculation id (write database)) := by
  refine refines_checked (fun unusable => ?_) fun {store calculations _} writable usable => ?_
  · simp [Database.changeCalculation, unusable, bind, Except.bind, Except.map]
  · rw [Operation.apply_change]
    cases present : calculations.contains id with
    | true =>
        rw [held writable usable present]
        simp [writable, Database.changeCalculation, usable, present, bind, Except.bind, Except.map]
    | false =>
        rw [missing writable usable present]
        simp [writable, Database.changeCalculation, usable, present, bind, Except.bind, Except.map,
          throw, throwThe, MonadExceptOf.throw, endsTransaction, FromStorage.storage?]

theorem refines_setDependencies (id : Int) (references : List Int) :
    Refines (setDependencies id references)
      (Operation.update (fun fault => fault) (·.setDependencies id references)) :=
  refines_changeCalculation
    (fun writable usable held => replaceDependencies_of_held writable usable held references)
    (fun _ usable missing => replaceDependencies_of_not_held usable missing references)

theorem refines_setExpression (id : Int) (expression : String) (references : List Int) :
    Refines (setExpression id expression references)
      (Operation.update (fun fault => fault) (·.setExpression id expression references)) := by
  refine refines_changeCalculation ?_ ?_
  · intro store calculations dependencies writable usable held
    obtain ⟨_, present, named, indexed, indexNamed⟩ :=
      Database.calculationTables_eq_ok_iff.1 usable
    have found := readable_of_named Table.columns ["expression", "id"] named (by decide)
    have replaced : Maintenance.replaceExpression id expression store.database =
        .ok (1, store.database.withCalculations
          (Database.withExpression calculations id expression) dependencies) := by
      simp [Maintenance.replaceExpression, Database.withCalculations, present, found, held,
        indexed, bind, Except.bind]
    refine withSavepoint_of_ok ?_
    rw [apply_bind_of_ok _ (edit_of_ok writable replaced)]
    exact rewriteDependencies_apply _ _ writable indexNamed (Table.contains_modify.trans held)
      references
  · intro store calculations dependencies writable usable missing
    obtain ⟨_, present, named, _⟩ := Database.calculationTables_eq_ok_iff.1 usable
    have found := readable_of_named Table.columns ["expression", "id"] named (by decide)
    have unchanged : Maintenance.replaceExpression id expression store.database =
        .ok (0, store.database) := by
      simp [Maintenance.replaceExpression, present, found, missing, bind, Except.bind]
    refine withSavepoint_of_error ?_
    rw [apply_bind_of_ok _ (edit_of_ok writable unchanged)]
    rfl

theorem refines_createCalculation (name expression : String) (references : List Int) :
    Refines (createCalculation name expression references)
      (Recalculation.insert name expression references) := by
  intro store writable
  rw [Recalculation.apply_insert, createCalculation]
  cases usable : store.database.calculationTables with
  | error fault =>
      have refused : store.database.createCalculation name expression references =
          .error fault := by
        simp [Database.createCalculation, usable, bind, Except.bind]
      have lasting := Database.calculationTables_lasting usable
      rw [apply_bind_of_error _ (check_of_unusable usable),
        Operation.change_refused writable refused]
      simp [lasting]
  | ok tables =>
      obtain ⟨calculations, dependencies⟩ := tables
      obtain ⟨_, _, _, _, named⟩ := Database.calculationTables_eq_ok_iff.1 usable
      rw [apply_bind_of_ok _ (check_of_usable usable)]
      cases next : calculations.nextId? with
      | none =>
          have refused : store.database.createCalculation name expression references =
              .error (.ofStorage .full) := by
            simp [Database.createCalculation, usable, next, bind, Except.bind, throw, throwThe,
              MonadExceptOf.throw]
          rw [Operation.change_refused writable refused]
          exact withSavepoint_of_ended (apply_bind_of_error _
            (insertCalculation_of_full writable usable next))
      | some id =>
          have created : store.database.createCalculation name expression references =
              .ok (⟨id, name, expression, none⟩, _) :=
            Database.createCalculation_eq_ok_iff.2 ⟨_, _, _, usable, next, rfl, rfl⟩
          rw [Operation.change_eq_ok.2 ⟨writable, _, created, rfl⟩]
          refine withSavepoint_of_ok ?_
          rw [apply_bind_of_ok _ (insertCalculation_of_next writable usable next)]
          have held : (calculations.put ⟨id, name, expression, none⟩).contains id = true := by
            simp [Row.id]
          rw [apply_bind_of_ok _ (writeDependencies_apply writable named held references)]
          rfl

end Refinements

/-! The demonstration data, for which tables are cleared and filled row by row. -/

section Demonstration

variable {store : Store} {database : Database} {savepoints : List Savepoint}

theorem restart_remove {ρ : Type} [Row ρ] (table : Table ρ) :
    (table.remove fun _ => true).restart = table.reset := by
  have none_left : (table.remove fun _ => true).rows = [] :=
    List.filter_eq_nil_iff.2 fun _ _ => by simp
  rw [Table.restart, none_left]
  rfl

theorem remove_removed (table : DependencyTable) (drop : Dependency → Bool) :
    (table.remove fun _ => true).remove drop = table.remove fun _ => true := by
  simp [DependencyTable.remove]

section Cleared

variable {calculations : Table Calculation} {dependencies : DependencyTable}

theorem clearTables_begun {rest : Script Unit} (writable : store.obstacle = none)
    (usable : store.database.calculationTables = .ok (calculations, dependencies)) :
    (do
      let _ ← edit (Maintenance.clearDependencies true)
      let _ ← edit removeCalculations
      rest : Script Unit).apply ⟨store, savepoints⟩ =
    rest.apply ⟨{ store with
      database := store.database.withCalculations (calculations.remove fun _ => true)
        (dependencies.remove fun _ => true) }, savepoints⟩ := by
  obtain ⟨_, present, _, indexed, _⟩ := Database.calculationTables_eq_ok_iff.1 usable
  have cleared : Maintenance.clearDependencies true store.database =
      .ok (dependencies.rows.length, store.database.withCalculations calculations
        (dependencies.remove fun _ => true)) := by
    simp [Maintenance.clearDependencies, Maintenance.requireParents, readable, present, indexed,
      Database.withCalculations, bind, Except.bind]
  have removed : removeCalculations (store.database.withCalculations calculations
        (dependencies.remove fun _ => true)) =
      .ok (calculations.rows.length, store.database.withCalculations
        (calculations.remove fun _ => true) (dependencies.remove fun _ => true)) := by
    simp [removeCalculations, Maintenance.cascade, readable, Database.withCalculations,
      remove_removed, bind, Except.bind]
  rw [apply_bind_of_ok _ (edit_of_ok writable cleared)]
  exact apply_bind_of_ok _ (edit_of_ok (by exact writable) removed)

theorem clearTables_apply {vars : Table StoredVariable} (writable : store.obstacle = none)
    (usable : store.database.calculationTables = .ok (calculations, dependencies))
    (present : store.database.vars = some vars) :
    clearTables.apply ⟨store, savepoints⟩ = (.ok (), ⟨{ store with database :=
      { store.database with
        vars := some vars.reset
        calculations := some calculations.reset
        dependencies := some (dependencies.remove fun _ => true) } }, savepoints⟩) := by
  unfold clearTables
  rw [clearTables_begun writable usable]
  have removed : removeVariables (store.database.withCalculations
        (calculations.remove fun _ => true) (dependencies.remove fun _ => true)) =
      .ok (vars.rows.length, { store.database.withCalculations
        (calculations.remove fun _ => true) (dependencies.remove fun _ => true) with
        vars := some (vars.remove fun _ => true) }) := by
    simp [removeVariables, readable, Database.withCalculations, present, bind, Except.bind]
  have restarted : restartIds { store.database.withCalculations
        (calculations.remove fun _ => true) (dependencies.remove fun _ => true) with
        vars := some (vars.remove fun _ => true) } =
      .ok (0, { store.database with
        vars := some vars.reset
        calculations := some calculations.reset
        dependencies := some (dependencies.remove fun _ => true) }) := by
    simp [restartIds, Database.withCalculations, restart_remove]
  rw [apply_bind_of_ok _ (edit_of_ok (by exact writable) removed)]
  rw [apply_bind_of_ok _ (edit_of_ok (by exact writable) restarted)]
  rfl

theorem clearTables_missing (savepoints : List Savepoint) (writable : store.obstacle = none)
    (usable : store.database.calculationTables = .ok (calculations, dependencies))
    (missing : store.database.vars = none) :
    ∃ left, clearTables.apply ⟨store, savepoints⟩ =
      (.error (.ofStorage (.noSuchTable "variables")),
        ⟨{ store with database := left }, savepoints⟩) := by
  have refused : removeVariables (store.database.withCalculations
        (calculations.remove fun _ => true) (dependencies.remove fun _ => true)) =
      .error (.noSuchTable "variables") := by
    simp [removeVariables, readable, Database.withCalculations, missing, bind, Except.bind,
      TableName.text]
  unfold clearTables
  rw [clearTables_begun writable usable]
  exact ⟨_, apply_bind_of_error _ (edit_of_error (by exact writable) refused rfl)⟩

end Cleared

theorem fillable_of_columns {τ : Type} {name : TableName} {columns : τ → List Column}
    {wanted : List String} {table other : τ} (same : columns other = columns table) :
    fillable name wanted columns (some other) =
      (fillable name wanted columns (some table)).map fun _ => other := by
  unfold fillable
  dsimp only
  rw [same]
  split <;> rfl

def Fresh {ρ : Type} [Row ρ] (table : Table ρ) : List ρ → Prop
  | [] => True
  | row :: rest => table.contains (Row.id row) = false ∧ Fresh (table.put row) rest

theorem seedVariables_apply (writable : store.obstacle = none) {vars : Table StoredVariable}
    {rows : List Variable} (present : database.vars = some vars)
    (found : fillable .vars ["id", "name", "value"] Table.columns (some vars) = .ok vars)
    (values : ∀ row ∈ rows, Database.cell row.value ≠ none)
    (fresh : Fresh vars (rows.map fun row => ⟨row.id, row.name, Database.cell row.value⟩)) :
    (seedVariables rows).apply ⟨{ store with database := database }, savepoints⟩ =
      (.ok (), ⟨{ store with
        database := { database with
          vars := some ((rows.map fun row => ⟨row.id, row.name, Database.cell row.value⟩).foldl
            Table.put vars) } }, savepoints⟩) := by
  induction rows generalizing database vars with
  | nil =>
      rw [List.map_nil, List.foldl_nil, ← present]
      rfl
  | cons row rest ih =>
      obtain ⟨free, fresh⟩ := fresh
      have stored := values row List.mem_cons_self
      have added : Maintenance.addVariable row.id row.name row.value database =
          .ok (1, { database with
            vars := some (vars.put ⟨row.id, row.name, Database.cell row.value⟩) }) := by
        have unused : vars.contains row.id = false := free
        simp [Maintenance.addVariable, Maintenance.requireFree, present, found, unused, stored,
          bind, Except.bind]
      unfold seedVariables
      rw [apply_bind_of_ok _ (edit_of_ok (by exact writable) added)]
      exact ih rfl (by rw [fillable_of_columns (Table.columns_put _ _), found]; rfl)
        (fun other later => values other (List.mem_cons_of_mem _ later)) fresh

theorem seedVariables_refused (writable : store.obstacle = none) {fault : StorageFault}
    (refused : fillable .vars ["id", "name", "value"] Table.columns database.vars = .error fault)
    (row : Variable) (rest : List Variable) :
    (seedVariables (row :: rest)).apply ⟨{ store with database := database }, savepoints⟩ =
      (.error (.ofStorage fault), ⟨{ store with database := database }, savepoints⟩) := by
  have failed : Maintenance.addVariable row.id row.name row.value database = .error fault := by
    simp [Maintenance.addVariable, refused, bind, Except.bind]
  exact apply_bind_of_error _ (edit_of_error (by exact writable) failed
    (Database.fillable_lasting refused))

theorem seedCalculations_follows (writable : store.obstacle = none)
    {calculations : Table Calculation} {dependencies : DependencyTable} {rows : List Calculation}
    (usable : database.calculationTables = .ok (calculations, dependencies))
    (unvalued : ∀ row ∈ rows, row.value = none) (fresh : Fresh calculations rows) :
    Follows (seedCalculations rows) { store with database := database } savepoints
      ((Demo.index dependencies rows).map fun index =>
        ((), database.withCalculations (rows.foldl Table.put calculations) index)) := by
  induction rows generalizing database calculations dependencies with
  | nil =>
      refine .ok ?_
      rw [List.foldl_nil, Database.withCalculations_self usable]
      rfl
  | cons row rest ih =>
      obtain ⟨free, fresh⟩ := fresh
      obtain ⟨_, present, named, indexed, _⟩ := Database.calculationTables_eq_ok_iff.1 usable
      unfold Demo.index seedCalculations
      cases parsed : Expression.parse row.expression with
      | error fault => exact .error rfl
      | ok expression =>
          dsimp only
          have added : Maintenance.addCalculation row.id row.name row.expression database =
              .ok (1, database.withCalculations (calculations.put row) dependencies) := by
            have unused : calculations.contains row.id = false := free
            have found := fillable_of_named Table.columns ["id", "name", "expression"] named
              (by decide)
            have same : (⟨row.id, row.name, row.expression, none⟩ : Calculation) = row := by
              rw [← unvalued row List.mem_cons_self]
            simp [Maintenance.addCalculation, Maintenance.requireFree, present, found, unused,
              same, Database.withCalculations, indexed, bind, Except.bind]
          have changed := Database.calculationTables_withCalculations usable
            (show (calculations.put row).columns = calculations.columns from rfl) rfl
          have held : (calculations.put row).contains row.id = true := by
            simp [Row.id]
          have replaced := @replaceDependencies_of_held { store with
              database := database.withCalculations (calculations.put row) dependencies } _ _ row.id
            savepoints writable changed held expression.references
          have usableThen := Database.calculationTables_withCalculations changed
            (show (calculations.put row).columns = (calculations.put row).columns from rfl)
            (DependencyTable.columns_assign dependencies row.id expression.references)
          refine .begun (edit_of_ok writable added) (.begun replaced ?_)
          exact ih usableThen (fun other later => unvalued other (List.mem_cons_of_mem _ later))
            fresh

theorem addResource_free {resources : Table Resource} {row : Resource}
    (present : database.resources = some resources)
    (found : fillable .resources ["id", "name", "parentId"] Table.columns (some resources) =
      .ok resources)
    (free : resources.contains row.id = false)
    (attached : ∀ parent, row.parent = some parent → resources.contains parent = true) :
    addResource row database =
      .ok (1, { database with resources := some (resources.put row) }) := by
  have allowed : Maintenance.parentAllowed true (resources.put row) row.parent = true := by
    cases under : row.parent with
    | none => rfl
    | some parent => simp [Maintenance.parentAllowed, attached parent under]
  simp [addResource, present, found, free, allowed, bind, Except.bind]

theorem missing_put {resources : Table Resource} {row : Resource} {rest : List Resource}
    (apart : row.id ∉ rest.map (·.id)) :
    (rest.filter fun other => !(resources.put row).contains other.id) =
      rest.filter fun other => !resources.contains other.id := by
  refine List.filter_congr fun other later => ?_
  have different : Row.id row ≠ other.id := fun equal =>
    apart (List.mem_map.2 ⟨other, later, equal.symm⟩)
  rw [Table.contains_put, decide_eq_false different, Bool.false_or]

theorem seedResources_apply (writable : store.obstacle = none) {resources : Table Resource}
    {rows : List Resource} (present : database.resources = some resources)
    (found : fillable .resources ["id", "name", "parentId"] Table.columns (some resources) =
      .ok resources)
    (distinct : (rows.map (·.id)).Nodup)
    (admitted : resources.Admits (rows.filter fun row => !resources.contains row.id)) :
    (seedResources rows).apply ⟨{ store with database := database }, savepoints⟩ =
      (.ok (rows.filter fun row => !resources.contains row.id).length, ⟨{ store with
        database := { database with
          resources := some
            ((rows.filter fun row => !resources.contains row.id).foldl Table.put resources) } },
        savepoints⟩) := by
  induction rows generalizing database resources with
  | nil =>
      simp only [List.filter_nil, List.foldl_nil]
      rw [← present]
      rfl
  | cons row rest ih =>
      obtain ⟨apart, distinct⟩ := List.nodup_cons.1 distinct
      unfold seedResources
      cases held : resources.contains row.id with
      | true =>
          have skipped : addResource row database = .ok (0, database) := by
            simp [addResource, present, found, held, bind, Except.bind]
          simp only [List.filter_cons, held] at admitted ⊢
          rw [apply_bind_of_ok _ (edit_of_ok (by exact writable) skipped)]
          rw [apply_bind_of_ok _ (ih present found distinct admitted)]
          rw [Nat.zero_add]
          rfl
      | false =>
          simp only [List.filter_cons, held] at admitted ⊢
          obtain ⟨_, _, attached, further⟩ := admitted
          have added := addResource_free present found held attached
          rw [← missing_put apart] at further
          simp only [Bool.not_false, if_true]
          rw [← missing_put apart]
          rw [apply_bind_of_ok _ (edit_of_ok (by exact writable) added)]
          have fillableThen : fillable .resources ["id", "name", "parentId"] Table.columns
              (some (resources.put row)) = .ok (resources.put row) := by
            rw [fillable_of_columns (Table.columns_put _ _), found]
            rfl
          rw [apply_bind_of_ok _ (@ih { database with resources := some (resources.put row) } _ rfl
            fillableThen distinct further)]
          rw [apply_pure, Nat.add_comm]
          rfl

theorem seedResources_refused (writable : store.obstacle = none) {fault : StorageFault}
    (refused : fillable .resources ["id", "name", "parentId"] Table.columns database.resources =
      .error fault) (row : Resource) (rest : List Resource) :
    (seedResources (row :: rest)).apply ⟨{ store with database := database }, savepoints⟩ =
      (.error (.ofStorage fault), ⟨{ store with database := database }, savepoints⟩) := by
  have failed : addResource row database = .error fault := by
    simp [addResource, refused, bind, Except.bind]
  exact apply_bind_of_error _ (edit_of_error (by exact writable) failed
    (Database.fillable_lasting refused))

theorem cells_filled : ∀ row ∈ Demo.vars, Database.cell row.value ≠ none := by
  decide +kernel

theorem fresh_variables (table : Table StoredVariable) :
    Fresh table.reset (Demo.vars.map fun row => ⟨row.id, row.name, Database.cell row.value⟩) :=
  ⟨rfl, rfl, rfl, trivial⟩

theorem unvalued_calculations : ∀ row ∈ Demo.calculations, row.value = none := by
  simp [Demo.calculations]

theorem fresh_calculations (table : Table Calculation) : Fresh table.reset Demo.calculations :=
  ⟨rfl, rfl, rfl, trivial⟩

def refilled (database : Database) (vars : Table StoredVariable) (calculations : Table Calculation)
    (dependencies : DependencyTable) : Database :=
  { database with
    vars := some ((Demo.vars.map fun row => ⟨row.id, row.name, Database.cell row.value⟩).foldl
      Table.put vars.reset)
    calculations := some calculations.reset
    dependencies := some (dependencies.remove fun _ => true) }

section Stages

variable {calculations : Table Calculation} {dependencies : DependencyTable}

theorem refillVariables_follows (writable : store.obstacle = none)
    (usable : store.database.calculationTables = .ok (calculations, dependencies)) :
    Follows refillVariables store savepoints
      (((fillable .vars ["id", "name", "value"] Table.columns store.database.vars).mapError
        StoreFault.ofStorage).map fun vars =>
          ((), refilled store.database vars calculations dependencies)) := by
  cases present : store.database.vars with
  | none =>
      obtain ⟨left, missing⟩ := clearTables_missing savepoints writable usable present
      exact .error (apply_bind_of_error _ missing)
  | some vars =>
      refine .begun (clearTables_apply writable usable present) ?_
      have reset : fillable .vars ["id", "name", "value"] Table.columns (some vars.reset) =
          (fillable .vars ["id", "name", "value"] Table.columns (some vars)).map fun _ =>
            vars.reset := fillable_of_columns (Table.columns_reset vars)
      cases found : fillable .vars ["id", "name", "value"] Table.columns (some vars) with
      | error fault =>
          rw [found] at reset
          exact .error (seedVariables_refused (by exact writable) reset _ _)
      | ok filled =>
          cases Database.fillable_eq_ok found
          rw [found] at reset
          exact .ok (seedVariables_apply (by exact writable) rfl reset cells_filled
            (fresh_variables vars))

theorem placeResources_follows (writable : store.obstacle = none) :
    Follows (seedResources Demo.resources) store savepoints
      (((fillable .resources ["id", "name", "parentId"] Table.columns
        store.database.resources).mapError StoreFault.ofStorage).map fun resources =>
          ((Demo.newResources resources).length, { store.database with
            resources := some ((Demo.newResources resources).foldl Table.put resources) })) := by
  cases found : fillable .resources ["id", "name", "parentId"] Table.columns
      store.database.resources with
  | error fault => exact .error (seedResources_refused writable found _ _)
  | ok resources =>
      have held := Database.fillable_eq_ok found
      rw [held] at found
      exact .ok (seedResources_apply writable held found (by decide)
        (Demo.admits_newResources resources))

theorem fillTables_follows (writable : store.obstacle = none)
    (usable : store.database.calculationTables = .ok (calculations, dependencies)) :
    Follows fillTables store savepoints (Demo.load store.database) := by
  unfold Demo.load
  rw [usable]
  refine (refillVariables_follows writable usable).bind fun vars _ => ?_
  have usableThen : (refilled store.database vars calculations dependencies).calculationTables =
      .ok (calculations.reset, dependencies.remove fun _ => true) := by
    obtain ⟨version, _, named, _, indexNamed⟩ := Database.calculationTables_eq_ok_iff.1 usable
    exact Database.calculationTables_eq_ok_iff.2 ⟨version, rfl, named, rfl, indexNamed⟩
  refine (seedCalculations_follows (by exact writable) usableThen unvalued_calculations
    (fresh_calculations calculations)).bind fun index _ => ?_
  exact placeResources_follows (by exact writable)

end Stages

/-- The demonstration data is loaded in one step, or not at all, whatever savepoints are open. -/
theorem loadDemo_apply (savepoints : List Savepoint) (writable : store.obstacle = none) :
    loadDemo.apply ⟨store, savepoints⟩ =
      match Demo.load store.database with
      | .ok (added, database) => (.ok added, ⟨{ store with database := database }, savepoints⟩)
      | .error fault => (.error fault, ⟨store, savepoints⟩) := by
  unfold loadDemo
  cases found : store.database.calculationTables with
  | error fault =>
      have refused : Demo.load store.database = .error fault := by
        simp [Demo.load, found, bind, Except.bind]
      rw [apply_bind_of_error _ (check_of_unusable found), refused]
  | ok tables =>
      obtain ⟨calculations, dependencies⟩ := tables
      rw [apply_bind_of_ok _ (check_of_usable found)]
      have follows := @fillTables_follows store (⟨"seed_demo_data", store.database⟩ :: savepoints)
        _ _ writable found
      cases loaded : Demo.load store.database with
      | ok result =>
          rw [loaded] at follows
          cases follows with
          | ok ran => exact withSavepoint_of_ok ran
      | error fault =>
          rw [loaded] at follows
          cases follows with
          | error ran =>
              have undone := withSavepoint_of_error ran
              exact undone

theorem refines_loadDemo : Refines loadDemo (Operation.change id Demo.load) := by
  intro store writable
  rw [loadDemo_apply [] writable]
  cases loaded : Demo.load store.database with
  | ok result => rw [Operation.change_eq_ok.2 ⟨writable, _, loaded, rfl⟩]
  | error fault =>
      rw [Operation.change_refused writable loaded]
      simp [Demo.load_lasting loaded]

theorem refines_seed : Refines seed Demo.seed := by
  intro store writable
  unfold seed Demo.seed
  rw [apply_bind, refines_loadDemo writable, Operation.apply_bind]
  rcases (Operation.change id Demo.load).apply store with ⟨fault | added, after⟩ <;> rfl

end Demonstration

end Script

theorem TableTask.refines (task : TableTask) : Script.Refines task.script task.operation := by
  cases task with
  | createVariable name value => exact Script.refines_statement (·.createVariable name value)
  | createResource name parent => exact Script.refines_statement (·.createResource name parent)
  | createCalculation name expression references =>
      exact Script.refines_createCalculation name expression references
  | setExpression id expression references =>
      exact Script.refines_setExpression id expression references
  | setDependencies id references => exact Script.refines_setDependencies id references
  | seed => exact Script.refines_seed
  | setVariableValue id value => exact Script.refines_change (·.setVariableValue id value)
  | setCalculatedValue id value => exact Script.refines_change (·.setCalculatedValue id value)
  | setParent id parent => exact Script.refines_change (·.setParent id parent)
  | findVariable id => exact Script.refines_ask (·.findVariable id)
  | variableValue id => exact Script.refines_ask (·.variableValue id)
  | listVariables => exact Script.refines_ask (·.listVariables)
  | findCalculation id => exact Script.refines_ask (·.findCalculation id)
  | listCalculations => exact Script.refines_ask (·.listCalculations)
  | dependenciesOf id => exact Script.refines_ask (·.dependenciesOf id)
  | dependentsOf variableId => exact Script.refines_ask (·.dependentsOf variableId)
  | findResource id => exact Script.refines_ask (·.findResource id)
  | resourceExists id => exact Script.refines_ask (·.resourceExists id)
  | listChildren parent => exact Script.refines_ask (·.listChildren parent)

namespace Operation

def AllOrNothing {α : Type} (operation : Operation StoreFault α) : Prop :=
  ∀ ⦃store after fault⦄, operation.apply store = (.error fault, after) →
    endsTransaction fault = false → after = store

variable {α : Type}

theorem allOrNothing_query (read : Database → Except StoreFault α) :
    AllOrNothing (query id read) := by
  intro store after fault failed _
  rw [apply_query] at failed
  exact (Prod.mk.inj failed).2.symm

theorem allOrNothing_change (write : Database → Except StoreFault (α × Database)) :
    AllOrNothing (change id write) := by
  intro store after fault failed lasting
  rw [apply_change] at failed
  split at failed
  · cases failed
    rfl
  · split at failed
    · cases failed
    · cases failed
      exact if_neg (by simpa using lasting)

theorem allOrNothing_update (write : Database → Except StoreFault Database) :
    AllOrNothing (update id write) :=
  allOrNothing_change _

end Operation

theorem Recalculation.allOrNothing_insert (name expression : String) (references : List Int) :
    Operation.AllOrNothing (insert name expression references) := by
  intro store after fault failed lasting
  rw [apply_insert] at failed
  split at failed
  · cases failed
  · rename_i ran
    cases failed
    rw [if_neg (by simp [lasting])]
    exact Operation.allOrNothing_change _ ran lasting

theorem Demo.allOrNothing_seed : Operation.AllOrNothing seed := by
  intro store after fault failed lasting
  rcases Operation.bind_eq_error.1 failed with refused | ⟨_, _, _, recorded⟩
  · exact Operation.allOrNothing_change load refused lasting
  · cases recorded

theorem TableTask.allOrNothing (task : TableTask) : Operation.AllOrNothing task.operation := by
  cases task with
  | createCalculation name expression references =>
      exact Recalculation.allOrNothing_insert name expression references
  | seed => exact Demo.allOrNothing_seed
  | createVariable name value =>
      exact Operation.allOrNothing_change (·.createVariable name value)
  | createResource name parent =>
      exact Operation.allOrNothing_change (·.createResource name parent)
  | setVariableValue id value =>
      exact Operation.allOrNothing_update (·.setVariableValue id value)
  | setExpression id expression references =>
      exact Operation.allOrNothing_update (·.setExpression id expression references)
  | setCalculatedValue id value =>
      exact Operation.allOrNothing_update (·.setCalculatedValue id value)
  | setDependencies id references =>
      exact Operation.allOrNothing_update (·.setDependencies id references)
  | setParent id parent => exact Operation.allOrNothing_update (·.setParent id parent)
  | findVariable id => exact Operation.allOrNothing_query (·.findVariable id)
  | variableValue id => exact Operation.allOrNothing_query (·.variableValue id)
  | listVariables => exact Operation.allOrNothing_query (·.listVariables)
  | findCalculation id => exact Operation.allOrNothing_query (·.findCalculation id)
  | listCalculations => exact Operation.allOrNothing_query (·.listCalculations)
  | dependenciesOf id => exact Operation.allOrNothing_query (·.dependenciesOf id)
  | dependentsOf variableId => exact Operation.allOrNothing_query (·.dependentsOf variableId)
  | findResource id => exact Operation.allOrNothing_query (·.findResource id)
  | resourceExists id => exact Operation.allOrNothing_query (·.resourceExists id)
  | listChildren parent => exact Operation.allOrNothing_query (·.listChildren parent)

end Formulary
