import Formulary.Api.Handler
import Formulary.Proofs.Change
import Formulary.Proofs.Forest
import Formulary.Proofs.Recalculation
import Formulary.Store.Opening

/-!
Histories of stores. Every operation only takes steps, and every one but the loading of the
demonstration data only edits. A property which the changes keep and which a new store has holds
therefore of whatever a sequence of calls makes of that store.
-/

namespace Formulary

open Operation Store

namespace Forest

theorem within_edits_create (name : String) (parent : Option Int) :
    Within Edits (create name parent) := by
  intro store
  unfold create
  rw [apply_bind, apply_liftM]
  cases normal : normalizeName name with
  | error fault => exact .refl
  | ok given =>
      have named := trimmed_of_normalizeName normal
      cases parent with
      | none =>
          refine bind_within edits_progress (change_taken fun _ after written => ?_) fun _ => ?_
          · exact .resourceCreated named (by simp) written
          · exact within_record_pure edits_progress _ _
      | some id =>
          refine query_bind_within edits_progress fun held found => ?_
          cases held with
          | false => exact .single (.recorded rfl)
          | true =>
              refine bind_within edits_progress (change_taken fun _ after written => ?_) fun _ => ?_
              · refine .resourceCreated named ?_ written
                rintro _ ⟨⟩
                exact found
              · exact within_record_pure edits_progress _ _

theorem within_edits_move (id parent : Int) : Within Edits (move id parent) := by
  refine within_of_answers ?_ ?_
  · intro store _ after moved
    obtain ⟨table, above, database, usable, found, different, outside, written, alike⟩ :=
      move_eq_ok moved
    have change : store.database.Edited database :=
      .resourceMoved usable found different outside written
    exact .tail (.single (.changed change)) (.recorded alike)
  · intro store fault after failed
    exact .single (.recorded (move_atomic id parent failed))

end Forest

namespace Recalculation

theorem within_edits_insert {text : String} {expression : Expression}
    (parsed : Expression.parse text = .ok expression) (name : String) :
    Within Edits (insert name text expression.references) := by
  have writes : Within Edits (Operation.change (id : StoreFault → StoreFault)
      (·.createCalculation name text expression.references)) := by
    intro store
    exact change_taken fun _ _ written => .calculationCreated parsed written
  refine within_bind edits_progress (within_attempt writes) fun answer => ?_
  cases answer with
  | ok created => exact within_pure edits_progress created
  | error fault =>
      dsimp only
      split
      · exact within_record_throw edits_progress _ fault
      · exact within_throw edits_progress fault

theorem within_edits_create (name text : String) : Within Edits (create name text) := by
  intro store
  unfold create
  rw [apply_bind, apply_liftM]
  cases normalizeName name with
  | error fault => exact .refl
  | ok given =>
      dsimp only
      rw [apply_bind, apply_liftM]
      cases read : parse text with
      | error fault => exact .refl
      | ok expression =>
          have parsed := mapError_eq_ok.1 read
          exact within_lift Fault.ofStore (within_edits_insert parsed given) store

theorem within_edits_replaceExpression (id : Int) (text : String) :
    Within Edits (replaceExpression id text) := by
  intro store
  unfold replaceExpression
  rw [apply_bind, apply_liftM]
  cases read : parse text with
  | error fault => exact .refl
  | ok expression =>
      refine bind_within edits_progress (update_edits fun after written => ?_) fun _ => ?_
      · exact .expressionReplaced (mapError_eq_ok.1 read) written
      · exact within_of_alike edits_progress (getCalculation_alike id)

theorem within_edits_process (id : Int) : Within Edits (process id) := by
  refine within_of_answers ?_ ?_
  · intro store outcome after processed
    obtain ⟨_, calculation, expression, value, indexed, database, found, parsed, _, indexing,
      storing, _, alike⟩ := process_eq_ok processed
    have indexStep : store.database.Edited indexed := .reindexed found parsed indexing
    have valueStep : indexed.Edited database := .calculated storing
    exact .tail (.tail (.single (.changed indexStep)) (.changed valueStep)) (.recorded alike)
  · intro store fault after failed
    exact .single (.recorded (process_atomic id failed))

theorem within_edits_processDraft (draft : Draft) : Within Edits (processDraft draft) := by
  refine within_bind edits_progress (within_liftM edits_progress _) fun expression => ?_
  refine within_bind edits_progress
    (within_of_alike edits_progress (evaluate_alike expression)) fun value => ?_
  cases draft.id with
  | none => exact within_pure edits_progress _
  | some id =>
      refine within_bind edits_progress (within_query edits_progress _ _) fun found => ?_
      cases found with
      | none =>
          exact within_record_pure edits_progress _ _
      | some calculation =>
          refine within_bind edits_progress
            (fun _ => update_edits fun _ written => .calculated written) fun _ => ?_
          exact within_record_pure edits_progress _ _

theorem within_edits_recalculate (variableId : Int) : Within Edits (recalculate variableId) :=
  within_recalculate edits_progress within_edits_process variableId

theorem findCalculation_after_setDependencies {database after : Database} {id other : Int}
    {references : List Int} {found : Option Calculation}
    (indexing : database.setDependencies id references = .ok after)
    (present : database.findCalculation other = .ok found) :
    after.findCalculation other = .ok found := by
  obtain ⟨calculations, dependencies, usable, _, rfl⟩ :=
    Database.setDependencies_eq_ok_iff.1 indexing
  obtain ⟨_, _, again, rfl⟩ := Database.findCalculation_eq_ok_iff.1 present
  rw [usable] at again
  cases again
  have usableAfter := Database.calculationTables_withCalculations usable rfl
    (DependencyTable.columns_assign dependencies id references)
  exact Database.findCalculation_eq_ok_iff.2 ⟨_, _, usableAfter, rfl⟩

theorem reindex_edits {listed : List Calculation} {store : Store}
    (present : ∀ calculation ∈ listed,
      store.database.findCalculation calculation.id = .ok (some calculation)) :
    Edits store ((reindex listed).apply store).2 := by
  induction listed generalizing store with
  | nil => exact .refl
  | cons calculation rest ih =>
      unfold reindex
      cases parsed : Expression.parse calculation.expression with
      | error fault =>
          refine bind_within_ok edits_progress (.single (.recorded rfl)) ?_
          intro _ middle recorded
          cases recorded
          refine bind_within edits_progress (ih ?_) fun _ => within_pure edits_progress _
          exact fun other inside => present other (List.mem_cons_of_mem _ inside)
      | ok expression =>
          have found := present calculation List.mem_cons_self
          refine bind_within_ok edits_progress (update_edits fun _ written => ?_) ?_
          · exact .reindexed found parsed written
          · intro _ middle indexing
            obtain ⟨_, indexed, written, rfl⟩ := update_eq_ok.1 indexing
            refine bind_within edits_progress (ih ?_) fun _ => within_pure edits_progress _
            exact fun other inside => findCalculation_after_setDependencies written
              (present other (List.mem_cons_of_mem _ inside))

theorem findCalculation_of_listed {database : Database} {listed : List Calculation}
    (read : database.listCalculations = .ok listed) {calculation : Calculation}
    (inside : calculation ∈ listed) :
    database.findCalculation calculation.id = .ok (some calculation) := by
  obtain ⟨⟨calculations, dependencies⟩, usable, same⟩ := except_bind_eq_ok.1 read
  cases same
  refine Database.findCalculation_eq_ok_iff.2 ⟨calculations, dependencies, usable, ?_⟩
  exact (Table.find?_eq_some_iff.2 ⟨inside, rfl⟩).symm

theorem within_edits_rebuildIndex : Within Edits rebuildIndex := by
  intro store
  refine query_bind_within edits_progress fun listed read => ?_
  refine bind_within edits_progress ?_ fun report => ?_
  · exact reindex_edits fun calculation inside => findCalculation_of_listed read inside
  · exact within_record_pure edits_progress _ report

theorem within_edits_setVariable (id : Int) (value : Float) :
    Within Edits (setVariable id value) := by
  refine within_of_answers ?_ ?_
  · intro store changed after ran
    obtain ⟨_, _, database, written, _, rfl⟩ := setVariable_eq_ok ran
    exact .single (.changed (.valueSet written))
  · intro store fault after failed
    exact .single (.recorded (setVariable_atomic id value failed))

end Recalculation

theorem Demo.within_steps_seed : Within Steps seed :=
  within_bind steps_progress (fun _ => change_taken fun _ _ written => .demoLoaded written)
    fun _ => within_record_pure steps_progress _ _

namespace Api

variable {α : Type}

theorem within_edits_onForest {action : Forest.Action α} (inner : Within Edits action) :
    Within Edits (onForest action) :=
  within_lift Fault.forest <| within_edits_transaction <|
    within_bind edits_progress (within_query edits_progress _ _) fun _ => inner

theorem within_edits_onCalculations {action : Recalculation.Action α}
    (inner : Within Edits action) : Within Edits (onCalculations action) :=
  within_lift Fault.recalculation <| within_edits_transaction <|
    within_bind edits_progress (within_query edits_progress _ _) fun _ => inner

theorem within_edits_perform (route : Route) (body : Option Json) :
    Within Edits (perform route body) := by
  have done {β : Type} (value : β) : Within Edits (pure value : Action β) :=
    within_pure edits_progress value
  have decoded {β : Type} (result : Except Fault β) : Within Edits (liftM result : Action β) :=
    within_liftM edits_progress result
  cases route with
  | welcome => exact done _
  | createResource =>
      refine within_bind edits_progress (decoded _) fun new => ?_
      have created := Forest.within_edits_create new.name new.parent
      exact within_bind edits_progress (within_edits_onForest created) fun _ => done _
  | lineage id =>
      have walked := within_of_alike edits_progress (Forest.lineage_alike id)
      exact within_bind edits_progress (within_edits_onForest walked) fun _ => done _
  | children id =>
      have listed := within_of_alike edits_progress (Forest.listChildren_alike (some id))
      exact within_bind edits_progress (within_edits_onForest listed) fun _ => done _
  | move id =>
      refine within_bind edits_progress (decoded _) fun new => ?_
      have moved := Forest.within_edits_move id new.parent
      exact within_bind edits_progress (within_edits_onForest moved) fun _ => done _
  | processCalculation id =>
      have processed := Recalculation.within_edits_process id
      exact within_bind edits_progress (within_edits_onCalculations processed) fun _ => done _
  | recalculate id =>
      have passed := Recalculation.within_edits_recalculate id
      exact within_bind edits_progress (within_edits_onCalculations passed) fun _ => done _
  | updateVariable =>
      refine within_bind edits_progress (decoded _) fun new => ?_
      have updated := Recalculation.within_edits_setVariable new.id new.value
      refine within_bind edits_progress (within_edits_onCalculations updated) fun changed => ?_
      have passed := Recalculation.within_edits_recalculate changed.id
      exact within_bind edits_progress (within_edits_onCalculations passed) fun _ => done _
  | evaluate =>
      refine within_bind edits_progress (decoded _) fun draft => ?_
      have processed := Recalculation.within_edits_processDraft draft
      exact within_bind edits_progress (within_edits_onCalculations processed) fun _ => done _

theorem edits_handle (request : Request) (store : Store) :
    Edits store (handle request store).2 := by
  have answered : Within Edits (answer request) := by
    refine within_bind edits_progress (within_liftM edits_progress _) fun route => ?_
    refine within_bind edits_progress (within_edits_perform route request.body) fun body => ?_
    exact within_pure edits_progress _
  have edits := answered store
  unfold handle
  rcases answering : (answer request).apply store with ⟨fault | ⟨route, body⟩, after⟩ <;>
    rw [answering] at edits
  · exact .tail edits (.recorded rfl)
  · exact .tail edits (.recorded rfl)

end Api

inductive Call
  | createVariable (name : String) (value : Float)
  | setVariable (id : Int) (value : Float)
  | createCalculation (name expression : String)
  | replaceExpression (id : Int) (expression : String)
  | process (id : Int)
  | processDraft (draft : Draft)
  | recalculate (variableId : Int)
  | rebuildIndex
  | createResource (name : String) (parent : Option Int)
  | move (id parent : Int)
  | seed
  | request (sent : Request)
  | begin
  | commit
  | abort

namespace Call

def perform : Call → Store → Store
  | createVariable name value, store =>
    ((Operation.change id (·.createVariable name value) :
      Operation StoreFault Variable).apply store).2
  | setVariable id value, store => ((Recalculation.setVariable id value).apply store).2
  | createCalculation name expression, store =>
    ((Recalculation.create name expression).apply store).2
  | replaceExpression id expression, store =>
    ((Recalculation.replaceExpression id expression).apply store).2
  | process id, store => ((Recalculation.process id).apply store).2
  | processDraft draft, store => ((Recalculation.processDraft draft).apply store).2
  | recalculate variableId, store => ((Recalculation.recalculate variableId).apply store).2
  | rebuildIndex, store => (Recalculation.rebuildIndex.apply store).2
  | createResource name parent, store => ((Forest.create name parent).apply store).2
  | move id parent, store => ((Forest.move id parent).apply store).2
  | seed, store => (Demo.seed.apply store).2
  | request sent, store => (Api.handle sent store).2
  | begin, store => ((Operation.begin id).apply store).2
  | commit, store => ((Operation.commit id).apply store).2
  | abort, store => store.rollBack

theorem perform_edits {call : Call} (other : call ≠ .seed) (store : Store) :
    Edits store (call.perform store) := by
  cases call with
  | createVariable name value =>
      refine change_taken fun created after written => ?_
      exact .variableCreated written
  | setVariable id value => exact Recalculation.within_edits_setVariable id value store
  | createCalculation name expression =>
      exact Recalculation.within_edits_create name expression store
  | replaceExpression id expression =>
      exact Recalculation.within_edits_replaceExpression id expression store
  | process id => exact Recalculation.within_edits_process id store
  | processDraft draft => exact Recalculation.within_edits_processDraft draft store
  | recalculate variableId => exact Recalculation.within_edits_recalculate variableId store
  | rebuildIndex => exact Recalculation.within_edits_rebuildIndex store
  | createResource name parent => exact Forest.within_edits_create name parent store
  | move id parent => exact Forest.within_edits_move id parent store
  | seed => exact absurd rfl other
  | request sent => exact Api.edits_handle sent store
  | begin => exact within_edits_begin id store
  | commit => exact within_edits_commit id store
  | abort => exact .single .undone

theorem perform_steps (call : Call) (store : Store) : Steps store (call.perform store) := by
  by_cases same : call = .seed
  · subst same
    exact Demo.within_steps_seed store
  · exact (perform_edits same store).steps

end Call

namespace Store

def after (store : Store) (calls : List Call) : Store :=
  calls.foldl (fun store call => call.perform store) store

theorem after_steps (store : Store) (calls : List Call) : Steps store (store.after calls) := by
  induction calls generalizing store with
  | nil => exact .refl
  | cons call rest ih => exact (call.perform_steps store).trans (ih (call.perform store))

def fresh : Store :=
  .ofDatabase
    { version := Database.latestVersion
      vars := some (.empty TableName.vars.columns)
      calculations := some (.empty TableName.calculations.columns)
      dependencies := some (.empty TableName.dependencies.columns)
      resources := some (.empty TableName.resources.columns) } none

theorem opening_blank (mode : StoreMode) :
    (opening mode (.database .blank none)).1 = .ok fresh := by
  rfl

/-- What a new store has and every change keeps, every call leaves. -/
theorem holds_after {property : Database → Prop} (initial : property fresh.database)
    (kept : ∀ {old new : Database}, property old → old.Changed new → property new)
    (calls : List Call) : Holds property (fresh.after calls) := by
  refine holds_steps kept (after_steps fresh calls) ⟨initial, ?_⟩
  intro saved same
  cases same

theorem form_after (calls : List Call) : (fresh.after calls).database.form = fresh.database.form :=
  (@holds_after (fun database => database.form = fresh.database.form) rfl
    (fun same changed => (Database.form_changed changed).trans same) calls).database

end Store

end Formulary
