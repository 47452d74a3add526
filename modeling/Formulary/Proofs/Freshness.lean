import Formulary.Proofs.Index
import Formulary.Proofs.Pass
import Mathlib.Data.List.Induction

/-!
Derived values over runs of updates and passes: a value that was stored is that of its expression
again as soon as every variable that was updated has been followed by a pass.
-/

namespace Formulary.Recalculation

open Operation

inductive Move
  | update (variableId : Int) (value : Float)
  | pass (variableId : Int)

def Move.perform : Move → Store → Store
  | update variableId value, store => ((setVariable variableId value).apply store).2
  | pass variableId, store => ((recalculate variableId).apply store).2

def run (start : Store) (moves : List Move) : Store :=
  moves.foldl (fun store move => move.perform store) start

def Updates (start : Store) (before : List Move) (variableId : Int) (value : Float) : Prop :=
  ∃ changed, ((setVariable variableId value).apply (run start before)).1 = .ok changed

def Touched (start : Store) (moves : List Move) (variableId : Int) : Prop :=
  ∃ before value after, moves = before ++ .update variableId value :: after ∧
    Updates start before variableId value

def Pending (start : Store) (moves : List Move) (variableId : Int) : Prop :=
  ∃ before value after, moves = before ++ .update variableId value :: after ∧
    Updates start before variableId value ∧ .pass variableId ∉ after

section Moves

variable {start : Store} {moves : List Move} {move : Move} {variableId : Int}

theorem run_concat (start : Store) (moves : List Move) (move : Move) :
    run start (moves ++ [move]) = move.perform (run start moves) := by
  simp [run]

theorem concat_eq_append_cons {before after : List Move} {other : Move} :
    moves ++ [move] = before ++ other :: after ↔
      (moves = before ∧ move = other ∧ after = []) ∨
        ∃ rest, after = rest ++ [move] ∧ moves = before ++ other :: rest := by
  constructor
  · intro same
    rcases List.eq_nil_or_concat after with rfl | ⟨rest, last, rfl⟩
    · obtain ⟨rfl, equal⟩ := List.append_inj' same rfl
      cases equal
      exact .inl ⟨rfl, rfl, rfl⟩
    · rw [List.concat_eq_append, ← List.cons_append, ← List.append_assoc] at same
      obtain ⟨rfl, equal⟩ := List.append_inj' same rfl
      cases equal
      exact .inr ⟨rest, List.concat_eq_append, rfl⟩
  · rintro (⟨rfl, rfl, rfl⟩ | ⟨rest, rfl, rfl⟩)
    · rfl
    · simp

theorem touched_concat :
    Touched start (moves ++ [move]) variableId ↔ Touched start moves variableId ∨
      ∃ value, move = .update variableId value ∧ Updates start moves variableId value := by
  constructor
  · rintro ⟨before, value, after, same, updates⟩
    rcases concat_eq_append_cons.1 same with ⟨rfl, here, _⟩ | ⟨rest, _, earlier⟩
    · exact .inr ⟨value, here, updates⟩
    · exact .inl ⟨before, value, rest, earlier, updates⟩
  · rintro (⟨before, value, after, rfl, updates⟩ | ⟨value, rfl, updates⟩)
    · exact ⟨before, value, after ++ [move], by simp, updates⟩
    · exact ⟨moves, value, [], rfl, updates⟩

theorem pending_of_pending (pending : Pending start moves variableId)
    (other : move ≠ .pass variableId) : Pending start (moves ++ [move]) variableId := by
  obtain ⟨before, value, after, rfl, updates, unpassed⟩ := pending
  refine ⟨before, value, after ++ [move], by simp, updates, ?_⟩
  intro passed
  rcases List.mem_append.1 passed with inside | last
  · exact unpassed inside
  · exact other (List.mem_singleton.1 last).symm

theorem pending_of_update {value : Float} (updates : Updates start moves variableId value) :
    Pending start (moves ++ [.update variableId value]) variableId :=
  ⟨moves, value, [], rfl, updates, by simp⟩

theorem perform_obstacle (move : Move) (store : Store) :
    (move.perform store).obstacle = store.obstacle := by
  cases move with
  | pass variableId =>
      exact (within_recalculate steady_progress within_steady_process variableId store).obstacle
  | update variableId value => exact (within_steady_setVariable variableId value store).obstacle

theorem run_obstacle (start : Store) (moves : List Move) :
    (run start moves).obstacle = start.obstacle := by
  induction moves using List.reverseRecOn with
  | nil => rfl
  | append_singleton moves move ih => rw [run_concat, perform_obstacle, ih]

theorem not_updates_of_obstacle {before : List Move} {value : Float} {reason : StorageFault}
    (blocked : start.obstacle = some reason) : ¬ Updates start before variableId value := by
  rintro ⟨changed, succeeded⟩
  obtain ⟨_, writable, _⟩ := setVariable_eq_ok (Prod.ext succeeded rfl)
  rw [run_obstacle, blocked] at writable
  cases writable

end Moves

/-- Whether a stored value is missing or that of its expression, for every calculation of a store
that the service works on. -/
structure Settled (store : Store) : Prop where
  usable : (ready.apply store).1 = .ok ()
  exact : ∀ {calculations dependencies},
    store.database.calculationTables = .ok (calculations, dependencies) →
      Exact calculations dependencies
  current : ∀ {calculations dependencies},
    store.database.calculationTables = .ok (calculations, dependencies) →
      ∀ row ∈ calculations.rows, ∀ expression, Expression.parse row.expression = .ok expression →
        row.value = none ∨ ∃ value, valueOf store.database expression = .ok value ∧
          row.value = Database.cell value

/-- How the stored value of a calculation may stand to its expression in the course of the moves:
it is current, it was never there, or a pass is still to come. -/
def Accounted (start : Store) (moves : List Move) (calculation : Calculation) : Prop :=
  ∀ expression value, Expression.parse calculation.expression = .ok expression →
    valueOf (run start moves).database expression = .ok value →
      calculation.value = Database.cell value ∨
        (calculation.value = none ∧ ∀ id ∈ expression.references, ¬ Touched start moves id) ∨
          ∃ id ∈ expression.references, Pending start moves id

section Accounted

variable {start : Store} {moves : List Move} {move : Move} {calculation : Calculation}

theorem Accounted.concat (accounted : Accounted start moves calculation)
    (unmoved : ∀ expression, Expression.parse calculation.expression = .ok expression →
      valueOf (run start (moves ++ [move])).database expression =
          valueOf (run start moves).database expression ∧
        ∀ id ∈ expression.references, (move = .pass id → ¬ Pending start moves id) ∧
          ∀ value, move = .update id value → ¬ Updates start moves id value) :
    Accounted start (moves ++ [move]) calculation := by
  intro expression value parsed valued
  obtain ⟨same, other⟩ := unmoved expression parsed
  rw [same] at valued
  rcases accounted expression value parsed valued with
    current | ⟨missing, untouched⟩ | ⟨id, inside, pending⟩
  · exact .inl current
  · refine .inr (.inl ⟨missing, ?_⟩)
    intro id inside touched
    rcases touched_concat.1 touched with earlier | ⟨value, here, updates⟩
    · exact untouched id inside earlier
    · exact (other id inside).2 value here updates
  · refine .inr (.inr ⟨id, inside, pending_of_pending pending ?_⟩)
    intro passed
    exact (other id inside).1 passed pending

def Sound (start : Store) (moves : List Move) : Prop :=
  ∀ calculations dependencies,
    (run start moves).database.calculationTables = .ok (calculations, dependencies) →
      ∀ row ∈ calculations.rows, Accounted start moves row

theorem Sound.concat (sound : Sound start moves)
    (same : (run start (moves ++ [move])).database = (run start moves).database)
    (unmoved : ∀ id, (move = .pass id → ¬ Pending start moves id) ∧
      ∀ value, move = .update id value → ¬ Updates start moves id value) :
    Sound start (moves ++ [move]) := by
  intro calculations dependencies usable row member
  rw [same] at usable
  refine (sound _ _ usable row member).concat ?_
  intro expression _
  rw [same]
  exact ⟨rfl, fun id _ => unmoved id⟩

theorem Sound.update (sound : Sound start moves) (variableId : Int) (value : Float) :
    Sound start (moves ++ [.update variableId value]) := by
  have moved := run_concat start moves (.update variableId value)
  unfold Move.perform at moved
  dsimp only at moved
  rcases answered : (setVariable variableId value).apply (run start moves) with
    ⟨fault | changed, after⟩ <;> rw [answered] at moved
  · refine sound.concat ?_ ?_
    · rw [moved]
      exact (setVariable_atomic variableId value answered).database
    · intro id
      refine ⟨nofun, ?_⟩
      rintro other same ⟨changed, succeeded⟩
      cases same
      rw [answered] at succeeded
      cases succeeded
  · obtain ⟨_, _, database, written, _, rfl⟩ := setVariable_eq_ok answered
    intro calculations dependencies usable row member
    rw [moved] at usable
    have usableBefore :
        (run start moves).database.calculationTables = .ok (calculations, dependencies) := by
      obtain ⟨_, _, _, _, _, rfl⟩ := Database.setVariableValue_eq_ok_iff.1 written
      exact usable
    intro expression result parsed valued
    by_cases inside : variableId ∈ expression.references
    · refine .inr (.inr ⟨variableId, inside, pending_of_update ⟨changed, ?_⟩⟩)
      rw [answered]
    · refine (sound _ _ usableBefore row member).concat ?_ expression result parsed valued
      intro again parsedAgain
      rw [parsed] at parsedAgain
      cases parsedAgain
      constructor
      · rw [moved]
        refine valueOf_congr ?_
        intro id mentioned
        refine variableValue_after_setVariableValue written ?_
        rintro rfl
        exact inside mentioned
      · intro id mentioned
        refine ⟨nofun, ?_⟩
        rintro other same
        cases same
        exact absurd mentioned inside

def Usable (store : Store) : Prop :=
  ∃ calculations dependencies,
    store.database.calculationTables = .ok (calculations, dependencies) ∧
      Exact calculations dependencies

theorem Settled.tables (settled : Settled start) : Usable start := by
  obtain ⟨calculations, dependencies, usable⟩ := usable_of_ready settled.usable
  exact ⟨calculations, dependencies, usable, settled.exact usable⟩

theorem Usable.perform {store : Store} (usable : Usable store) (move : Move) :
    Usable (move.perform store) := by
  obtain ⟨calculations, dependencies, tables, exact⟩ := usable
  cases move with
  | update variableId value =>
      unfold Move.perform
      dsimp only
      rcases answered : (setVariable variableId value).apply store with ⟨fault | changed, after⟩
      · rw [Usable, (setVariable_atomic variableId value answered).database]
        exact ⟨calculations, dependencies, tables, exact⟩
      · obtain ⟨_, _, database, written, _, rfl⟩ := setVariable_eq_ok answered
        obtain ⟨_, _, _, _, _, rfl⟩ := Database.setVariableValue_eq_ok_iff.1 written
        exact ⟨calculations, dependencies, tables, exact⟩
  | pass variableId =>
      by_cases writable : store.obstacle = none
      · obtain ⟨found, dependents, _⟩ := Database.dependentsOf_exact tables exact variableId
        obtain ⟨kept, index, usableAfter, _, exactAfter⟩ :=
          (recalculate_refreshes writable dependents).rows tables
        exact ⟨kept, index, usableAfter, exactAfter exact⟩
      · have alike := within_recalculate blocked_progress within_blocked_process variableId store
          writable
        rw [Usable]
        unfold Move.perform
        rw [alike.database]
        exact ⟨calculations, dependencies, tables, exact⟩

theorem usable_run (settled : Settled start) (moves : List Move) : Usable (run start moves) := by
  induction moves using List.reverseRecOn with
  | nil => exact settled.tables
  | append_singleton moves move ih =>
      rw [run_concat]
      exact ih.perform move

theorem Sound.pass (settled : Settled start) (sound : Sound start moves) (variableId : Int) :
    Sound start (moves ++ [.pass variableId]) := by
  have moved : run start (moves ++ [.pass variableId]) =
      ((recalculate variableId).apply (run start moves)).2 := run_concat start moves _
  cases obstacle : start.obstacle with
  | some reason =>
      have blocked : (run start moves).obstacle ≠ none := by
        rw [run_obstacle, obstacle]
        exact Option.some_ne_none reason
      refine sound.concat ?_ ?_
      · rw [moved]
        exact (within_recalculate blocked_progress within_blocked_process variableId _
          blocked).database
      · intro id
        refine ⟨?_, nofun⟩
        rintro _ ⟨before, value, after, _, updates, _⟩
        exact not_updates_of_obstacle obstacle updates
  | none =>
      obtain ⟨calculations, dependencies, usable, exact⟩ := usable_run settled moves
      obtain ⟨found, dependents, _, listed⟩ :=
        Database.dependentsOf_exact usable exact variableId
      have writable := (run_obstacle start moves).trans obstacle
      have refreshes := recalculate_refreshes writable dependents
      rw [← moved] at refreshes
      intro kept index usableAfter row member
      obtain ⟨_, _, again, rows, _⟩ := refreshes.rows usable
      rw [usableAfter] at again
      cases again
      rw [rows] at member
      obtain ⟨old, inside, rfl⟩ := List.mem_map.1 member
      obtain ⟨expression, parsed, _⟩ := exact old inside
      by_cases dependent : variableId ∈ expression.references
      · have candidate : old ∈ found :=
          (listed old).2 ⟨inside, expression, parsed, Expression.mem_references.1 dependent⟩
        rw [if_pos (List.mem_map.2 ⟨old, candidate, rfl⟩)]
        intro other value parsedAgain valued
        rw [expression_refreshed, parsed] at parsedAgain
        cases parsedAgain
        rw [valueOf_of_variableTable refreshes.vars] at valued
        rw [refreshed_of_value parsed valued]
        exact .inl rfl
      · have passedOver : old.id ∉ found.map (·.id) := by
          intro candidate
          obtain ⟨other, otherFound, same⟩ := List.mem_map.1 candidate
          obtain ⟨otherInside, _, otherParsed, mentioned⟩ := (listed other).1 otherFound
          rw [Table.eq_of_id_eq otherInside inside same, parsed] at otherParsed
          cases otherParsed
          exact dependent (Expression.mem_references.2 mentioned)
        rw [if_neg passedOver]
        refine (sound _ _ usable old inside).concat ?_
        intro other parsedAgain
        rw [parsed] at parsedAgain
        cases parsedAgain
        refine ⟨valueOf_of_variableTable refreshes.vars expression, ?_⟩
        intro id mentioned
        refine ⟨?_, nofun⟩
        rintro same
        cases same
        exact absurd mentioned dependent

theorem sound_run (settled : Settled start) (moves : List Move) : Sound start moves := by
  induction moves using List.reverseRecOn with
  | nil =>
      intro calculations dependencies usable row member expression value parsed valued
      rcases settled.current usable row member expression parsed with missing | ⟨_, again, current⟩
      · refine .inr (.inl ⟨missing, ?_⟩)
        rintro id _ ⟨before, other, after, same, _⟩
        cases before <;> cases same
      · have same := valued.symm.trans again
        cases same
        exact .inl current
  | append_singleton moves move ih =>
      cases move with
      | update variableId value => exact ih.update variableId value
      | pass variableId => exact ih.pass settled variableId

end Accounted

/-- From a store without stale values, after any updates and passes in any order: a calculation of
which every updated variable has been followed by a pass has the value of its expression, if that
has one, unless it never had a value and none of its variables was updated. -/
theorem values_after_passes {start : Store} (settled : Settled start) (moves : List Move) :
    ∃ calculations dependencies,
      (run start moves).database.calculationTables = .ok (calculations, dependencies) ∧
        ∀ row ∈ calculations.rows, ∃ expression,
          Expression.parse row.expression = .ok expression ∧
            ((∀ id ∈ expression.mentions, ¬ Pending start moves id) →
              ∀ value, valueOf (run start moves).database expression = .ok value →
                row.value = Database.cell value ∨
                  (row.value = none ∧ ∀ id ∈ expression.mentions, ¬ Touched start moves id)) := by
  obtain ⟨calculations, dependencies, usable, exact⟩ := usable_run settled moves
  refine ⟨calculations, dependencies, usable, ?_⟩
  intro row member
  obtain ⟨expression, parsed, _⟩ := exact row member
  refine ⟨expression, parsed, ?_⟩
  intro passed value valued
  rcases sound_run settled moves _ _ usable row member expression value parsed valued with
    current | ⟨missing, untouched⟩ | ⟨id, inside, pending⟩
  · exact .inl current
  · refine .inr ⟨missing, ?_⟩
    intro id mentioned
    exact untouched id (Expression.mem_references.2 mentioned)
  · exact absurd pending (passed id (Expression.mem_references.1 inside))

def doubling : Store :=
  .ofDatabase
    { version := Database.latestVersion
      vars := some ((Table.empty TableName.vars.columns).put ⟨1, "x", some 2⟩)
      calculations := some ((Table.empty TableName.calculations.columns).put
        ⟨1, "double", "\x7b\"id\":1\x7d * 2", some 4⟩)
      dependencies := some ((DependencyTable.empty TableName.dependencies.columns).put ⟨1, 1⟩)
      resources := some (.empty TableName.resources.columns) } none

theorem doubling_expression :
    ∃ expression, Expression.parse "\x7b\"id\":1\x7d * 2" = .ok expression ∧
      expression.references = [1] ∧ valueOf doubling.database expression = .ok 4 := by
  have computed : ((Expression.parse "\x7b\"id\":1\x7d * 2").toOption.map fun expression =>
      (expression.references, (valueOf doubling.database expression).toOption)) =
        some ([1], some 4) := by
    decide +kernel
  cases parsed : Expression.parse "\x7b\"id\":1\x7d * 2" with
  | error fault => simp [parsed, Except.toOption] at computed
  | ok expression =>
      simp only [parsed, Except.toOption, Option.map_some, Option.some.injEq, Prod.mk.injEq]
        at computed
      refine ⟨expression, rfl, computed.1, ?_⟩
      cases valued : valueOf doubling.database expression with
      | error fault => simp [valued] at computed
      | ok value =>
          simp only [valued, Option.some.injEq] at computed
          rw [computed.2]

theorem settled_doubling : Settled doubling := by
  obtain ⟨expression, parsed, references, valued⟩ := doubling_expression
  refine ⟨rfl, ?_, ?_⟩
  · intro calculations dependencies usable row member
    cases usable
    cases List.mem_singleton.1 member
    refine ⟨expression, parsed, ?_⟩
    intro variableId
    rw [references]
    simp [DependencyTable.mem_put, DependencyTable.empty]
  · intro calculations dependencies usable row member found again
    cases usable
    cases List.mem_singleton.1 member
    rw [parsed] at again
    cases again
    exact .inr ⟨4, valued, by decide +kernel⟩

theorem values_after_passes_doubling :
    Settled doubling ∧ ∃ calculations dependencies,
      (run doubling [.update 1 3, .pass 1]).database.calculationTables =
          .ok (calculations, dependencies) ∧
        ∀ row ∈ calculations.rows, ∃ expression,
          Expression.parse row.expression = .ok expression ∧
            ((∀ id ∈ expression.mentions, ¬ Pending doubling [.update 1 3, .pass 1] id) →
              ∀ value,
                valueOf (run doubling [.update 1 3, .pass 1]).database expression = .ok value →
                  row.value = Database.cell value ∨
                    (row.value = none ∧ ∀ id ∈ expression.mentions,
                      ¬ Touched doubling [.update 1 3, .pass 1] id)) :=
  ⟨settled_doubling, values_after_passes settled_doubling [.update 1 3, .pass 1]⟩

end Formulary.Recalculation
