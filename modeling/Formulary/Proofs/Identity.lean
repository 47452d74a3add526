import Formulary.Proofs.History
import Formulary.Proofs.Transparency

/-!
Ids. No row is created under an id that a row of its table has, and a row that is there stays there,
except for variables and calculations when the demonstration data replaces them. If that is undone
with its transaction, they are back.
-/

namespace Formulary

open Operation Store

namespace Database

def HasRow (database : Database) (name : TableName) (id : Int) : Prop :=
  match name with
  | .vars => database.vars.any (·.contains id) = true
  | .calculations => database.calculations.any (·.contains id) = true
  | .resources => database.resources.any (·.contains id) = true
  | .dependencies => False

variable {before after : Database} {name : TableName} {id : Int}

theorem HasRow.withVars {table changed : Table StoredVariable} (held : before.HasRow name id)
    (usable : before.variableTable = .ok table)
    (kept : table.contains id = true → changed.contains id = true) :
    { before with vars := some changed }.HasRow name id := by
  cases name with
  | vars =>
      obtain ⟨_, present, _⟩ := variableTable_eq_ok_iff.1 usable
      simp only [HasRow, present] at held
      exact kept held
  | calculations => exact held
  | resources => exact held
  | dependencies => exact held

theorem HasRow.withCalculations {table changed : Table Calculation}
    {dependencies indexed : DependencyTable} (held : before.HasRow name id)
    (usable : before.calculationTables = .ok (table, dependencies))
    (kept : table.contains id = true → changed.contains id = true) :
    (before.withCalculations changed indexed).HasRow name id := by
  cases name with
  | vars => exact held
  | calculations =>
      obtain ⟨_, present, _⟩ := calculationTables_eq_ok_iff.1 usable
      simp only [HasRow, present] at held
      exact kept held
  | resources => exact held
  | dependencies => exact held

theorem HasRow.withResources {table changed : Table Resource} (held : before.HasRow name id)
    (usable : before.resourceTable = .ok table)
    (kept : table.contains id = true → changed.contains id = true) :
    { before with resources := some changed }.HasRow name id := by
  cases name with
  | vars => exact held
  | calculations => exact held
  | resources =>
      obtain ⟨_, present, _⟩ := resourceTable_eq_ok_iff.1 usable
      simp only [HasRow, present] at held
      exact kept held
  | dependencies => exact held

theorem hasRow_edited (held : before.HasRow name id) (edit : before.Edited after) :
    after.HasRow name id := by
  have put {ρ : Type} [Row ρ] {table : Table ρ} (row : ρ) (inside : table.contains id = true) :
      (table.put row).contains id = true := Table.contains_foldl_put inside [row]
  cases edit with
  | variableCreated written =>
      obtain ⟨_, _, _, usable, _, _, _, rfl⟩ := createVariable_eq_ok_iff.1 written
      exact held.withVars usable (put _)
  | valueSet written =>
      obtain ⟨_, _, usable, _, _, rfl⟩ := setVariableValue_eq_ok_iff.1 written
      exact held.withVars usable Table.contains_modify.trans
  | calculationCreated _ written =>
      obtain ⟨_, _, _, usable, _, _, rfl⟩ := createCalculation_eq_ok_iff.1 written
      exact held.withCalculations usable (put _)
  | expressionReplaced _ written =>
      obtain ⟨_, _, usable, _, rfl⟩ := setExpression_eq_ok_iff.1 written
      exact held.withCalculations usable Table.contains_modify.trans
  | reindexed _ _ written =>
      obtain ⟨_, _, usable, _, rfl⟩ := setDependencies_eq_ok_iff.1 written
      exact held.withCalculations usable fun inside => inside
  | calculated written =>
      obtain ⟨_, _, usable, _, rfl⟩ := setCalculatedValue_eq_ok_iff.1 written
      exact held.withCalculations usable Table.contains_modify.trans
  | resourceCreated _ _ written =>
      obtain ⟨_, _, usable, _, _, _, rfl⟩ := createResource_eq_ok_iff.1 written
      exact held.withResources usable (put _)
  | resourceMoved _ _ _ _ written =>
      obtain ⟨_, usable, _, _, rfl⟩ := setParent_eq_ok_iff.1 written
      exact held.withResources usable Table.contains_modify.trans

theorem hasResource_changed (held : before.HasRow .resources id) (changed : before.Changed after) :
    after.HasRow .resources id := by
  cases changed with
  | edited edit => exact hasRow_edited held edit
  | demoLoaded loaded =>
      obtain ⟨_, _, _, _, table, _, _, _, present, rfl⟩ := Demo.load_eq_ok loaded
      simp only [HasRow, present] at held
      exact Table.contains_foldl_put held _

end Database

namespace Operation

variable {ε α : Type}

theorem Transparent.guarded [FromStorage ε] {operation : Operation ε α}
    (transparent : Transparent operation) : Guarded operation := by
  intro store answer after kept ran saved
  rcases outside : operation.apply { store with saved := none } with ⟨given, reached⟩
  obtain ⟨_, _, inside⟩ := transparent outside rfl
  obtain ⟨ended, again, same | ⟨⟨fault, refused, _⟩, database, _, closed⟩⟩ := inside kept
  all_goals
    have here : { store with saved := some kept } = store := by rw [← saved]
    rw [here, ran] at again
    cases again
  · rw [same]
    exact .inl rfl
  · exact .inr ⟨⟨fault, refused⟩, closed, database⟩

/-- Whether a transaction that is open before is open after, or given up with all that was done. -/
def KeptOrUndone (before after : Store) : Prop :=
  ∀ kept, before.saved = some kept →
    after.saved = some kept ∨ after.saved = none ∧ after.database = kept

theorem keptOrUndone_of_transparent [FromStorage ε] {operation : Operation ε α}
    (transparent : Transparent operation) : Within KeptOrUndone operation := by
  intro store kept saved
  exact (transparent.guarded rfl saved).imp_right And.right

def Untouched (before after : Store) : Prop :=
  ∀ kept, before.saved = some kept → before.Alike after

theorem Untouched.keptOrUndone {before after : Store} (untouched : Untouched before after) :
    KeptOrUndone before after := by
  intro kept saved
  exact .inl ((untouched kept saved).saved.trans saved)

theorem untouched_progress : Progress Untouched where
  alike := fun alike _ _ => alike
  trans := by
    intro first second third left right kept saved
    have alike := left kept saved
    exact alike.trans (right kept (alike.saved.trans saved))

theorem untouched_transaction (fault : DatabaseFault → ε) (operation : Operation ε α) :
    Within Untouched (transaction fault operation) := by
  intro store kept saved
  unfold transaction
  rw [apply_bind, apply_begin, saved]
  exact .refl store

end Operation

namespace Api

theorem within_perform {relation : Store → Store → Prop} (progress : Progress relation)
    (forest : ∀ {α : Type} (action : Forest.Action α), Within relation (onForest action))
    (calculations : ∀ {α : Type} (action : Recalculation.Action α),
      Within relation (onCalculations action)) (route : Route) (body : Option Json) :
    Within relation (perform route body) := by
  have done {β : Type} (value : β) : Within relation (pure value : Action β) :=
    within_pure progress value
  have decoded {β : Type} (result : Except Fault β) : Within relation (liftM result : Action β) :=
    within_liftM progress result
  cases route with
  | welcome => exact done _
  | createResource =>
      refine within_bind progress (decoded _) fun new => ?_
      exact within_bind progress (forest _) fun _ => done _
  | lineage id => exact within_bind progress (forest _) fun _ => done _
  | children id => exact within_bind progress (forest _) fun _ => done _
  | move id =>
      refine within_bind progress (decoded _) fun new => ?_
      exact within_bind progress (forest _) fun _ => done _
  | processCalculation id => exact within_bind progress (calculations _) fun _ => done _
  | recalculate id => exact within_bind progress (calculations _) fun _ => done _
  | updateVariable =>
      refine within_bind progress (decoded _) fun new => ?_
      refine within_bind progress (calculations _) fun changed => ?_
      exact within_bind progress (calculations _) fun _ => done _
  | evaluate =>
      refine within_bind progress (decoded _) fun draft => ?_
      exact within_bind progress (calculations _) fun _ => done _

theorem untouched_handle (request : Request) (store : Store) :
    Untouched store (handle request store).2 := by
  have answered : Within Untouched (answer request) := by
    refine within_bind untouched_progress (within_liftM untouched_progress _) fun route => ?_
    refine within_bind untouched_progress ?_ fun body => within_pure untouched_progress _
    exact within_perform untouched_progress
      (fun _ => within_lift Fault.forest (untouched_transaction _ _))
      (fun _ => within_lift Fault.recalculation (untouched_transaction _ _)) route request.body
  have same := answered store
  unfold handle
  rcases answering : (answer request).apply store with ⟨fault | ⟨route, body⟩, after⟩ <;>
    rw [answering] at same
  · exact fun kept saved => (same kept saved).trans rfl
  · exact fun kept saved => (same kept saved).trans rfl

end Api

namespace Call

theorem keptOrUndone {call : Call} (other : call ≠ .commit) (store : Store) :
    KeptOrUndone store (call.perform store) := by
  cases call with
  | createVariable name value =>
      exact keptOrUndone_of_transparent (TableTask.createVariable name value).transparent store
  | setVariable id value =>
      exact keptOrUndone_of_transparent (Recalculation.Task.setVariable id value).transparent store
  | createCalculation name text =>
      exact keptOrUndone_of_transparent (Recalculation.transparent_create name text) store
  | replaceExpression id text =>
      have transparent := (Recalculation.Task.replaceExpression id text).transparent
      exact keptOrUndone_of_transparent transparent store
  | process id =>
      exact keptOrUndone_of_transparent (Recalculation.Task.process id).transparent store
  | processDraft draft =>
      exact keptOrUndone_of_transparent (Recalculation.Task.processDraft draft).transparent store
  | recalculate id =>
      exact keptOrUndone_of_transparent (Recalculation.Task.recalculate id).transparent store
  | rebuildIndex =>
      exact keptOrUndone_of_transparent Recalculation.Task.rebuildIndex.transparent store
  | createResource name parent =>
      exact keptOrUndone_of_transparent (Forest.transparent_create name parent) store
  | move id parent =>
      exact keptOrUndone_of_transparent (Forest.Task.move id parent).transparent store
  | seed => exact keptOrUndone_of_transparent TableTask.seed.transparent store
  | request sent => exact (Api.untouched_handle sent store).keptOrUndone
  | begin =>
      intro kept saved
      left
      simp only [perform, apply_begin, saved]
  | commit => exact absurd rfl other
  | abort =>
      intro kept saved
      right
      simp [perform, rollBack, saved]

end Call

namespace Store

def GivenUp (store : Store) : List Call → Prop
  | [] => False
  | call :: rest =>
    store.saved.isSome ∧
      if (call.perform store).saved.isSome then GivenUp (call.perform store) rest
      else call ≠ .commit

/-- Whether the demonstration data, each time that calls load it, is undone by them. -/
def SeedsUndone (store : Store) : List Call → Prop
  | [] => True
  | call :: rest =>
    (call = .seed → GivenUp (call.perform store) rest) ∧ SeedsUndone (call.perform store) rest

theorem opened_of_givenUp {store : Store} {calls : List Call} (givenUp : store.GivenUp calls) :
    ∃ saved, store.saved = some saved := by
  cases calls with
  | nil => cases givenUp
  | cons call rest => exact Option.isSome_iff_exists.1 givenUp.1

section

variable {property : Database → Prop}

theorem saved_after_seed {store : Store} {saved : Database}
    (opened : (Call.seed.perform store).saved = some saved) : store.saved = some saved := by
  have transparent : Transparent Demo.seed := TableTask.seed.transparent
  cases before : store.saved with
  | none =>
      obtain ⟨_, closed, _⟩ := transparent rfl before
      exact absurd (closed.symm.trans opened) (by simp)
  | some kept =>
      rcases keptOrUndone_of_transparent transparent store kept before with still | ⟨closed, _⟩
      · exact still.symm.trans opened
      · exact absurd (closed.symm.trans opened) (by simp)

/-- What every edit keeps, the loading of the demonstration data may break, but not for longer than
its transaction: while that is open, it is still there to be brought back. -/
theorem holds_of_seedsUndone
    (kept : ∀ {old new : Database}, property old → old.Edited new → property new)
    {calls : List Call} {store : Store} (undone : store.SeedsUndone calls)
    (sound : Holds property store ∨
      ∃ saved, store.saved = some saved ∧ property saved ∧ store.GivenUp calls) :
    Holds property (store.after calls) := by
  induction calls generalizing store with
  | nil =>
      rcases sound with holds | ⟨_, _, _, givenUp⟩
      · exact holds
      · cases givenUp
  | cons call rest ih =>
      obtain ⟨seeding, later⟩ := undone
      apply ih later
      rcases sound with holds | ⟨saved, opened, good, _, ends⟩
      · by_cases seeds : call = .seed
        · subst seeds
          right
          have givenUp := seeding rfl
          obtain ⟨saved, opened⟩ := opened_of_givenUp givenUp
          exact ⟨saved, opened, holds.saved saved (saved_after_seed opened), givenUp⟩
        · left
          exact holds_steps kept (Call.perform_edits seeds store) holds
      · have other : call ≠ .commit := by
          rintro rfl
          simp [Call.perform, apply_commit, opened] at ends
        rcases Call.keptOrUndone other store saved opened with still | ⟨closed, back⟩
        · right
          rw [still] at ends
          exact ⟨saved, still, good, ends⟩
        · left
          refine ⟨?_, ?_⟩
          · rw [back]
            exact good
          · intro _ again
            rw [closed] at again
            cases again

end

end Store

inductive Call.Creates (store : Store) : Call → TableName → Int → Prop
  | ofVariable {name : String} {value : Float} {created : Variable} {after : Store}
      (answered : (change id (·.createVariable name value) :
        Operation StoreFault Variable).apply store = (.ok created, after)) :
      Creates store (.createVariable name value) .vars created.id
  | ofCalculation {name text : String} {created : Calculation} {after : Store}
      (answered : (Recalculation.create name text).apply store = (.ok created, after)) :
      Creates store (.createCalculation name text) .calculations created.id
  | ofResource {name : String} {parent : Option Int} {id : Int} {after : Store}
      (answered : (Forest.create name parent).apply store = (.ok id, after)) :
      Creates store (.createResource name parent) .resources id
  | ofRequest {sent : Request} {id : Int} {after : Store}
      (answered : (Api.answer sent).apply store =
        (.ok (.createResource, .ofFields [("id", .integer id)]), after)) :
      Creates store (.request sent) .resources id
  | ofDemoVariable {added : Nat} {after : Store} {row : Variable}
      (answered : Demo.seed.apply store = (.ok added, after)) (listed : row ∈ Demo.vars) :
      Creates store .seed .vars row.id
  | ofDemoCalculation {added : Nat} {after : Store} {row : Calculation}
      (answered : Demo.seed.apply store = (.ok added, after)) (listed : row ∈ Demo.calculations) :
      Creates store .seed .calculations row.id
  | ofDemoResource {added : Nat} {after : Store} {table : Table Resource} {row : Resource}
      (answered : Demo.seed.apply store = (.ok added, after))
      (present : store.database.resources = some table) (listed : row ∈ Demo.newResources table) :
      Creates store .seed .resources row.id

theorem Database.not_hasResource {database : Database} {table : Table Resource} {id : Int}
    (usable : database.resourceTable = .ok table) (free : table.contains id = false) :
    ¬ database.HasRow .resources id := by
  obtain ⟨_, present, _⟩ := resourceTable_eq_ok_iff.1 usable
  simp [HasRow, present, free]

theorem Recalculation.create_eq_ok {name text : String} {created : Calculation}
    {store after : Store} (answered : (create name text).apply store = (.ok created, after)) :
    ∃ given expression database, normalizeName name = .ok given ∧
      Expression.parse text = .ok expression ∧
      store.database.createCalculation given text expression.references = .ok (created, database) ∧
      after = { store with database } := by
  obtain ⟨given, _, named, answered⟩ := bind_eq_ok.1 answered
  obtain ⟨normal, rfl⟩ := liftM_eq.1 named
  obtain ⟨expression, _, taken, answered⟩ := bind_eq_ok.1 answered
  obtain ⟨read, rfl⟩ := liftM_eq.1 taken
  rw [apply_lift, apply_insert] at answered
  rcases changed : (Operation.change (id : StoreFault → StoreFault)
    (·.createCalculation given text expression.references)).apply store with
    ⟨fault | stored, reached⟩ <;> rw [changed] at answered
  · cases answered
  · cases answered
    obtain ⟨_, database, written, rfl⟩ := change_eq_ok.1 changed
    exact ⟨given, expression, database, normal, mapError_eq_ok.1 read, written, rfl⟩

theorem Operation.idle_of_transaction {ε α : Type} {fault : DatabaseFault → ε}
    {operation : Operation ε α} {value : α} {store after : Store}
    (ran : (transaction fault operation).apply store = (.ok value, after)) : store.saved = none := by
  cases saved : store.saved with
  | none => rfl
  | some kept =>
      unfold transaction at ran
      rw [apply_bind, apply_begin, saved] at ran
      cases ran

theorem Api.onForest_eq_ok {α : Type} {action : Forest.Action α} {value : α} {store after : Store}
    (ran : (onForest action).apply store = (.ok value, after)) :
    ∃ middle, action.apply { store with saved := some store.database } = (.ok value, middle) ∧
      after = { middle with saved := none } := by
  unfold onForest at ran
  rw [apply_lift] at ran
  rcases inside : (transaction Forest.Fault.ofDatabase do
    Forest.ready
    action).apply store with ⟨fault | given, reached⟩ <;> rw [inside] at ran
  · cases ran
  · cases ran
    obtain ⟨middle, performed, rfl⟩ := transaction_eq_ok (idle_of_transaction inside) inside
    obtain ⟨_, _, ready, performed⟩ := bind_eq_ok.1 performed
    obtain ⟨_, rfl⟩ := query_eq_ok.1 ready
    exact ⟨middle, performed, rfl⟩

namespace Call

variable {store : Store} {call : Call} {name : TableName} {id : Int}

theorem Creates.not_hasRow (creates : call.Creates store name id)
    (other : name = .resources ∨ call ≠ .seed) : ¬ store.database.HasRow name id := by
  cases creates with
  | ofVariable answered =>
      obtain ⟨_, database, written, _⟩ := change_eq_ok.1 answered
      obtain ⟨table, id, _, usable, next, _, rfl, _⟩ :=
        Database.createVariable_eq_ok_iff.1 written
      obtain ⟨_, present, _⟩ := Database.variableTable_eq_ok_iff.1 usable
      simp [Database.HasRow, present, Table.not_contains_nextId? next]
  | ofCalculation answered =>
      obtain ⟨_, _, _, _, _, written, _⟩ := Recalculation.create_eq_ok answered
      obtain ⟨_, _, id, usable, next, rfl, _⟩ := Database.createCalculation_eq_ok_iff.1 written
      obtain ⟨_, present, _⟩ := Database.calculationTables_eq_ok_iff.1 usable
      simp [Database.HasRow, present, Table.not_contains_nextId? next]
  | ofResource answered =>
      obtain ⟨_, _, usable, free, _⟩ := Forest.create_eq_ok answered
      exact Database.not_hasResource usable free
  | ofRequest answered =>
      obtain ⟨route, _, routed, answered⟩ := bind_eq_ok.1 answered
      obtain ⟨_, rfl⟩ := liftM_eq.1 routed
      obtain ⟨body, _, performed, same⟩ := bind_eq_ok.1 answered
      cases same
      obtain ⟨new, _, decoded, performed⟩ := bind_eq_ok.1 performed
      obtain ⟨_, rfl⟩ := liftM_eq.1 decoded
      obtain ⟨created, _, inside, same⟩ := bind_eq_ok.1 performed
      obtain ⟨_, created, _⟩ := Api.onForest_eq_ok inside
      obtain ⟨_, _, usable, free, _⟩ := Forest.create_eq_ok created
      cases same
      exact Database.not_hasResource usable free
  | ofDemoVariable => simp at other
  | ofDemoCalculation => simp at other
  | ofDemoResource _ present listed =>
      have free := (List.mem_filter.1 listed).2
      simp only [Database.HasRow, present, Option.any_some]
      simpa using free

end Call

/-- A row that is there outside of a transaction keeps its id to itself, unless it is one of the
variables or calculations and the demonstration data is loaded, and stays loaded: whatever else is
called, in transactions or not, no call creates a row of the same table under that id. -/
theorem Store.ids_not_reissued {store : Store} {later : List Call} {call : Call}
    {name : TableName} {id : Int} (idle : store.saved = none) (held : store.database.HasRow name id)
    (unseeded : name = .resources ∨ call ≠ .seed ∧ store.SeedsUndone later) :
    ¬ call.Creates (store.after later) name id := by
  have holds : Holds (·.HasRow name id) store := by
    refine ⟨held, ?_⟩
    intro _ saved
    rw [idle] at saved
    cases saved
  intro creates
  rcases unseeded with rfl | ⟨other, undone⟩
  · have stays := holds_steps (fun held changed => Database.hasResource_changed held changed)
      (after_steps store later) holds
    exact creates.not_hasRow (.inl rfl) stays.database
  · have stays := holds_of_seedsUndone Database.hasRow_edited undone (.inl holds)
    exact creates.not_hasRow (.inr other) stays.database

theorem Store.ids_not_reissued_undone :
    (Store.fresh.after [.createVariable "mine" 1]).saved = none ∧
    (Store.fresh.after [.createVariable "mine" 1]).database.HasRow .vars 1 ∧
    (Store.fresh.after [.createVariable "mine" 1]).SeedsUndone [.begin, .seed, .abort] ∧
    ¬ (Call.createVariable "other" 2).Creates
      ((Store.fresh.after [.createVariable "mine" 1]).after [.begin, .seed, .abort]) .vars 1 := by
  have idle : (Store.fresh.after [.createVariable "mine" 1]).saved = none := by decide +kernel
  have held : (Store.fresh.after [.createVariable "mine" 1]).database.HasRow .vars 1 := by
    unfold Database.HasRow
    decide +kernel
  have undone : (Store.fresh.after [.createVariable "mine" 1]).SeedsUndone
      [.begin, .seed, .abort] := by
    refine ⟨nofun, ⟨fun _ => ⟨?_, ?_⟩, nofun, trivial⟩⟩
    · decide +kernel
    · rw [if_neg (by decide +kernel)]
      nofun
  exact ⟨idle, held, undone, ids_not_reissued idle held (.inr ⟨nofun, undone⟩)⟩

/-- Loading the demonstration data again lets the ids of variables start anew. -/
theorem Store.ids_not_reissued_seeded :
    (Store.fresh.after [.seed, .createVariable "mine" 1]).saved = none ∧
    ((Store.fresh.after [.seed, .createVariable "mine" 1]).database.findVariable 4).toOption.join.map
      (·.name) = some "mine" ∧
    ∃ created after, (change id (·.createVariable "other" 2) : Operation StoreFault Variable).apply
      ((Store.fresh.after [.seed, .createVariable "mine" 1]).after [.seed]) = (.ok created, after) ∧
      created.id = 4 ∧ created.name = "other" := by
  have before : (Store.fresh.after [.seed, .createVariable "mine" 1]).saved = none ∧
      ((Store.fresh.after [.seed, .createVariable "mine" 1]).database.findVariable 4).toOption.join.map
        (·.name) = some "mine" := by decide +kernel
  have answer : (((change id (·.createVariable "other" 2) : Operation StoreFault Variable).apply
      ((Store.fresh.after [.seed, .createVariable "mine" 1]).after [.seed])).1.toOption.map
        fun created => (created.id, created.name)) = some (4, "other") := by decide +kernel
  refine ⟨before.1, before.2, ?_⟩
  rcases answered : (change id (·.createVariable "other" 2) :
    Operation StoreFault Variable).apply
      ((Store.fresh.after [.seed, .createVariable "mine" 1]).after [.seed]) with
    ⟨fault | created, after⟩ <;> rw [answered] at answer
  · cases answer
  · obtain ⟨same, named⟩ := Prod.mk.inj (Option.some.inj answer)
    exact ⟨created, after, rfl, same, named⟩

end Formulary
