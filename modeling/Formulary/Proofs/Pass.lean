import Formulary.Proofs.Difference
import Formulary.Proofs.Index

/-!
What passes do: a pass gives every calculation that depends on its variable the value that its
expression has, if it has one, and leaves everything else.
-/

namespace Formulary

theorem Expression.bind_congr {ε : Type} {lookup other : Int → Except ε (Option Float)}
    {fault : ExpressionFault → ε} {ids : List Int} (same : ∀ id ∈ ids, other id = lookup id) :
    bind other fault ids = bind lookup fault ids := by
  induction ids with
  | nil => rfl
  | cons id rest ih =>
      have further := ih fun later inside => same later (List.mem_cons_of_mem _ inside)
      simp only [bind, same id List.mem_cons_self, further]

namespace Recalculation

open Operation

theorem valueOf_congr {database other : Database} {expression : Expression}
    (same : ∀ id ∈ expression.references, other.variableValue id = database.variableValue id) :
    valueOf other expression = valueOf database expression := by
  unfold valueOf Expression.evaluateWith
  rw [Expression.bind_congr]
  intro id inside
  rw [same id inside]

theorem valueOf_of_variableTable {database other : Database}
    (same : other.variableTable = database.variableTable) (expression : Expression) :
    valueOf other expression = valueOf database expression := by
  refine valueOf_congr ?_
  intro id _
  unfold Database.variableValue
  rw [same]

theorem variableValue_after_setVariableValue {database changed : Database} {id other : Int}
    {value : Float} (written : database.setVariableValue id value = .ok changed)
    (different : other ≠ id) : changed.variableValue other = database.variableValue other := by
  obtain ⟨table, stored, usable, _, _, rfl⟩ := Database.setVariableValue_eq_ok_iff.1 written
  have usableAfter : { database with
      vars := some (Database.withValue table id stored) }.variableTable = .ok _ :=
    Database.variableTable_withVars usable rfl
  unfold Database.variableValue
  rw [usable, usableAfter]
  simp only [bind, Except.bind]
  rw [Database.withValue, Table.find?_modify_of_ne different]

def refreshed (database : Database) (calculation : Calculation) : Calculation :=
  match Expression.parse calculation.expression with
  | .error _ => calculation
  | .ok expression =>
    match valueOf database expression with
    | .error _ => calculation
    | .ok value => { calculation with value := Database.cell value }

section Refreshed

variable {database other : Database} {calculation : Calculation}

theorem refreshed_of_value {expression : Expression} {value : Float}
    (parsed : Expression.parse calculation.expression = .ok expression)
    (valued : valueOf database expression = .ok value) :
    refreshed database calculation = { calculation with value := Database.cell value } := by
  simp only [refreshed, parsed, valued]

theorem refreshed_cases (database : Database) (calculation : Calculation) :
    refreshed database calculation = calculation ∨
      ∃ expression value, Expression.parse calculation.expression = .ok expression ∧
        valueOf database expression = .ok value := by
  unfold refreshed
  split
  · exact .inl rfl
  · rename_i expression parsed
    split
    · exact .inl rfl
    · rename_i value valued
      exact .inr ⟨expression, value, parsed, valued⟩

theorem refreshed_form (database : Database) (calculation : Calculation) :
    ∃ stored, refreshed database calculation = { calculation with value := stored } := by
  rcases refreshed_cases database calculation with same | ⟨expression, value, parsed, valued⟩
  · exact ⟨calculation.value, same⟩
  · exact ⟨_, refreshed_of_value parsed valued⟩

@[simp] theorem id_refreshed (database : Database) (calculation : Calculation) :
    (refreshed database calculation).id = calculation.id := by
  obtain ⟨stored, same⟩ := refreshed_form database calculation
  rw [same]

@[simp] theorem expression_refreshed (database : Database) (calculation : Calculation) :
    (refreshed database calculation).expression = calculation.expression := by
  obtain ⟨stored, same⟩ := refreshed_form database calculation
  rw [same]

@[simp] theorem refreshed_refreshed (database : Database) (calculation : Calculation) :
    refreshed database (refreshed database calculation) = refreshed database calculation := by
  rcases refreshed_cases database calculation with same | ⟨expression, value, parsed, valued⟩
  · rw [same, same]
  · rw [refreshed_of_value parsed valued]
    exact refreshed_of_value parsed valued

theorem refreshed_of_variableTable (same : other.variableTable = database.variableTable)
    (calculation : Calculation) :
    refreshed other calculation = refreshed database calculation := by
  unfold refreshed
  split
  · rfl
  · rw [valueOf_of_variableTable same]

end Refreshed

/-- Whether all that became of a store is that calculations with the given ids got the values that
their expressions have, and dependencies that were exact have stayed so. -/
structure Refreshes (ids : List Int) (before after : Store) : Prop where
  obstacle : after.obstacle = before.obstacle
  vars : after.database.variableTable = before.database.variableTable
  rows : ∀ {calculations dependencies},
    before.database.calculationTables = .ok (calculations, dependencies) →
      ∃ kept index, after.database.calculationTables = .ok (kept, index) ∧
        (kept.rows = calculations.rows.map fun row =>
          if row.id ∈ ids then refreshed before.database row else row) ∧
        (Exact calculations dependencies → Exact kept index)

namespace Refreshes

variable {ids more : List Int} {before middle after : Store}

theorem of_alike (alike : before.Alike after) : Refreshes [] before after := by
  refine ⟨alike.obstacle, by rw [alike.database], ?_⟩
  intro calculations dependencies usable
  refine ⟨calculations, dependencies, by rw [alike.database, usable], ?_, id⟩
  simp

theorem trans (first : Refreshes ids before middle) (second : Refreshes more middle after) :
    Refreshes (ids ++ more) before after := by
  refine ⟨second.obstacle.trans first.obstacle, second.vars.trans first.vars, ?_⟩
  intro calculations dependencies usable
  obtain ⟨kept, index, usableBetween, same, exact⟩ := first.rows usable
  obtain ⟨last, lastIndex, usableAfter, again, exactAgain⟩ := second.rows usableBetween
  refine ⟨last, lastIndex, usableAfter, ?_, exactAgain ∘ exact⟩
  rw [again, same, List.map_map]
  refine List.map_congr_left ?_
  intro row _
  simp only [Function.comp, List.mem_append, refreshed_of_variableTable first.vars]
  by_cases early : row.id ∈ ids <;> by_cases late : row.id ∈ more <;> simp [early, late]

end Refreshes

theorem refreshed_of_failed {store after : Store} {fault : Fault} {calculations : Table Calculation}
    {dependencies : DependencyTable} {row : Calculation} (writable : store.obstacle = none)
    (usable : store.database.calculationTables = .ok (calculations, dependencies))
    (member : row ∈ calculations.rows)
    (failed : (process row.id).apply store = (.error fault, after)) :
    refreshed store.database row = row := by
  rcases refreshed_cases store.database row with same | ⟨expression, value, parsed, valued⟩
  · exact same
  · have present := (Table.find?_eq_some_iff.2 ⟨member, rfl⟩).symm
    have found := Database.findCalculation_eq_ok_iff.2 ⟨calculations, dependencies, usable, present⟩
    obtain ⟨_, _, succeeded⟩ := process_succeeds writable found parsed valued
    rw [id_calculation, failed] at succeeded
    cases succeeded

theorem process_refreshes {store : Store} (writable : store.obstacle = none) (id : Int) :
    Refreshes [id] store ((process id).apply store).2 := by
  rcases answered : (process id).apply store with ⟨fault | outcome, after⟩
  · have alike := process_atomic id answered
    refine ⟨alike.obstacle, by rw [alike.database], ?_⟩
    intro calculations dependencies usable
    refine ⟨calculations, dependencies, by rw [alike.database, usable], ?_, fun exact => exact⟩
    have unchanged : ∀ row ∈ calculations.rows,
        (if row.id ∈ [id] then refreshed store.database row else row) = row := by
      intro row member
      by_cases target : row.id = id
      · subst target
        simp [refreshed_of_failed writable usable member answered]
      · simp [target]
    rw [List.map_congr_left unchanged, List.map_id']
  · obtain ⟨_, _, _, _, _, _, found, _⟩ := process_eq_ok answered
    obtain ⟨calculations, dependencies, usable, _⟩ := Database.findCalculation_eq_ok_iff.1 found
    obtain ⟨_, _, processed⟩ := exists_processed store calculations dependencies id
    obtain ⟨rfl, alike⟩ := (processed.leaves usable).eq_of_apply answered
    cases processed with
    | @stored calculation _ _ present parsed valued _ =>
        obtain ⟨member, rfl⟩ := Table.find?_eq_some_iff.1 present
        refine ⟨alike.obstacle, by rw [alike.database]; rfl, ?_⟩
        intro _ _ usableBefore
        cases usable.symm.trans usableBefore
        refine ⟨_, _, by rw [alike.database]; exact Database.calculationTables_stored usable _ _ _,
          ?_, fun exact => (exact.reassign member parsed).withValue⟩
        refine List.map_congr_left ?_
        intro row inside
        by_cases target : row.id = calculation.id
        · cases Table.eq_of_id_eq inside member target
          rw [refreshed_of_value parsed valued]
          simp
        · simp [target]

theorem processAll_refreshes {store : Store} (writable : store.obstacle = none)
    (candidates : List Calculation) :
    Refreshes (candidates.map (·.id)) store ((processAll candidates).apply store).2 := by
  induction candidates generalizing store with
  | nil => exact .of_alike (.refl store)
  | cons candidate rest ih =>
      -- What the earlier ones left is the same to the later ones.
      have first := process_refreshes writable candidate.id
      have further := ih (first.obstacle.trans writable)
      unfold processAll
      rw [apply_bind, apply_attempt]
      rcases processed : (process candidate.id).apply store with ⟨fault | outcome, middle⟩ <;>
        rw [processed] at first further
      · have recorded : Refreshes [] middle { middle with
            events := .passItemFailed candidate.id fault.message :: middle.events } := .of_alike rfl
        have later := ih (recorded.obstacle.trans (first.obstacle.trans writable))
        dsimp only
        rw [apply_bind, apply_record]
        dsimp only
        rw [after_bind_pure (fun _ _ => rfl)]
        exact first.trans (recorded.trans later)
      · dsimp only
        rw [after_bind_pure (fun _ _ => rfl)]
        exact first.trans further

theorem recalculate_refreshes {store : Store} {candidates : List Calculation} {variableId : Int}
    (writable : store.obstacle = none)
    (dependents : store.database.dependentsOf variableId = .ok candidates) :
    Refreshes (candidates.map (·.id)) store ((recalculate variableId).apply store).2 := by
  unfold recalculate
  rw [apply_bind, apply_query, dependents]
  have started : Refreshes [] store { store with
      events := .passStarted variableId candidates.length :: store.events } := .of_alike rfl
  have processed := processAll_refreshes (started.obstacle.trans writable) candidates
  dsimp only [mapError_ok]
  rw [apply_bind, apply_record]
  dsimp only
  rw [apply_bind]
  rcases ran : (processAll candidates).apply _ with ⟨fault | ⟨updated, failed⟩, after⟩ <;>
    rw [ran] at processed
  · exact started.trans processed
  · have finished : Refreshes [] after { after with
        events := .passFinished variableId updated.length failed.length :: after.events } :=
      .of_alike rfl
    have whole := started.trans (processed.trans finished)
    rw [List.append_nil] at whole
    exact whole

def Blocked (before after : Store) : Prop :=
  before.obstacle ≠ none → before.Alike after

theorem blocked_progress : Progress Blocked where
  alike := fun alike _ => alike
  trans := by
    intro first second third left right blocked
    have alike := left blocked
    exact alike.trans (right (alike.obstacle ▸ blocked))

theorem within_blocked_process (id : Int) : Within Blocked (process id) := by
  refine within_of_answers ?_ ?_
  · intro store outcome after processed blocked
    exact absurd (process_eq_ok processed).1 blocked
  · intro store fault after failed _
    exact process_atomic id failed

end Recalculation

end Formulary
