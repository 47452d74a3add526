import Formulary.Proofs.Health

/-!
Operations on healthy stores. Whatever an operation of the services answers there, it leaves a healthy
store, the values in its answer are finite, and its faults are about what was asked of it and never
about the store itself, as long as there are ids left for what it creates.
-/

namespace Formulary

class FaultOrigin (ε : Type) where
  internal : ε → Prop

open FaultOrigin (internal)

instance : FaultOrigin StoreFault := ⟨fun _ => True⟩

instance : FaultOrigin Recalculation.Fault where
  internal
    | .store _ => True
    | _ => False

instance : FaultOrigin Forest.Fault where
  internal
    | .store _ => True
    | _ => False

structure Store.Healthy (used : Tally) (kept : Option Database) (store : Store) : Prop where
  writable : store.obstacle = none
  saved : store.saved = kept
  database : store.database.Healthy used

theorem Store.Healthy.of_alike {used : Tally} {kept : Option Database} {before after : Store}
    (healthy : before.Healthy used kept) (alike : before.Alike after) : after.Healthy used kept := by
  refine ⟨alike.obstacle.trans healthy.writable, alike.saved.trans healthy.saved, ?_⟩
  rw [alike.database]
  exact healthy.database

namespace Operation

section Behavior

variable {ε φ α β : Type} [FaultOrigin ε] {kept : Option Database} {used : Tally}

/-- Whether an answer and the store that it leaves are sound, if the store was healthy before. -/
inductive Behaves (kept : Option Database) (used : Tally) (later : α → Tally) (gives : α → Prop) :
    Except ε α × Store → Prop
  | ok {value : α} {after : Store} (given : gives value) (healthy : after.Healthy (later value) kept) :
      Behaves kept used later gives (.ok value, after)
  | error {fault : ε} {after : Store} (plain : ¬ internal fault) (healthy : after.Healthy used kept) :
      Behaves kept used later gives (.error fault, after)

def Keeps (kept : Option Database) (used : Tally) (gives : α → Prop) (operation : Operation ε α) :
    Prop :=
  ∀ store, store.Healthy used kept → Behaves kept used (fun _ => used) gives (operation.apply store)

variable {gives : α → Prop} {store : Store}

theorem Keeps.silent {operation : Operation ε α} (inner : Keeps kept used gives operation) :
    Keeps kept used (fun _ => True) operation := by
  intro store healthy
  have behaves := inner store healthy
  generalize operation.apply store = result at behaves ⊢
  cases behaves with
  | error plain healthy => exact .error plain healthy
  | ok _ healthy => exact .ok trivial healthy

theorem behaves_bind {given : β → Prop} {later : β → Tally} {operation : Operation ε α}
    {next : α → Operation ε β}
    (first : Behaves kept used (fun _ => used) gives (operation.apply store))
    (rest : ∀ value middle, operation.apply store = (.ok value, middle) → gives value →
      middle.Healthy used kept → Behaves kept used later given ((next value).apply middle)) :
    Behaves kept used later given ((operation >>= next).apply store) := by
  rw [apply_bind]
  rcases ran : operation.apply store with ⟨fault | value, middle⟩ <;> rw [ran] at first
  · cases first with
    | error plain healthy => exact .error plain healthy
  · cases first with
    | ok given healthy => exact rest value middle ran given healthy

theorem behaves_bind_pure {given : β → Prop} {later : Tally} {operation : Operation ε α}
    {result : α → β} (first : Behaves kept used (fun _ => later) gives (operation.apply store))
    (sound : ∀ value, gives value → given (result value)) :
    Behaves kept used (fun _ => later) given
      ((operation >>= fun value => pure (result value)).apply store) := by
  rw [apply_bind]
  generalize operation.apply store = reached at first ⊢
  cases first with
  | error plain healthy => exact .error plain healthy
  | ok given healthy => exact .ok (sound _ given) healthy

theorem query_bind_behaves {given : β → Prop} {later : β → Tally} {fault : φ → ε}
    {read : Database → Except φ α} {next : α → Operation ε β} {value : α}
    (found : read store.database = .ok value)
    (rest : Behaves kept used later given ((next value).apply store)) :
    Behaves kept used later given ((query fault read >>= next).apply store) := by
  rw [apply_bind, apply_query, found]
  exact rest

theorem keeps_pure {value : α} (given : gives value) :
    Keeps kept used gives (pure value : Operation ε α) :=
  fun _ healthy => .ok given healthy

theorem keeps_throw {fault : ε} (plain : ¬ internal fault) :
    Keeps kept used gives (throw fault : Operation ε α) :=
  fun _ healthy => .error plain healthy

theorem keeps_record (event : Log.Event) :
    Keeps kept used (fun _ => True) (record event : Operation ε Unit) :=
  fun _ healthy => .ok trivial (healthy.of_alike rfl)

theorem keeps_liftM {result : Except ε α} (sound : ∀ value, result = .ok value → gives value)
    (plain : ∀ fault, result = .error fault → ¬ internal fault) :
    Keeps kept used gives (liftM result : Operation ε α) := by
  intro store healthy
  rw [apply_liftM]
  cases result with
  | ok value => exact .ok (sound value rfl) healthy
  | error fault => exact .error (plain fault rfl) healthy

theorem keeps_query {fault : φ → ε} {read : Database → Except φ α}
    (sound : ∀ database value, database.Healthy used → read database = .ok value → gives value)
    (plain : ∀ database reason, database.Healthy used → read database = .error reason →
      ¬ internal (fault reason)) : Keeps kept used gives (query fault read) := by
  intro store healthy
  rw [apply_query]
  cases found : read store.database with
  | ok value => exact .ok (sound _ value healthy.database found) healthy
  | error reason => exact .error (plain _ reason healthy.database found) healthy

theorem keeps_query_sure {fault : φ → ε} {read : Database → Except φ α}
    (reads : ∀ database, database.Healthy used → ∃ value, read database = .ok value ∧ gives value) :
    Keeps kept used gives (query fault read) := by
  refine keeps_query ?_ ?_ <;> intro database result healthy found <;>
    obtain ⟨value, read, given⟩ := reads database healthy <;> rw [found] at read
  · cases read
    exact given
  · cases read

theorem keeps_update {fault : StoreFault → ε} {write : Database → Except StoreFault Database}
    {entity : Entity} {id : Int}
    (writes : ∀ database, database.Healthy used → Database.Written used entity id (write database))
    (plain : ¬ internal (fault (.notFound entity id))) :
    Keeps kept used (fun _ => True) (update fault write) := by
  intro store healthy
  rcases writes _ healthy.database with ⟨after, written, sound⟩ | missing
  · rw [update_eq_ok.2 ⟨healthy.writable, after, written, rfl⟩]
    exact .ok trivial ⟨healthy.writable, healthy.saved, sound⟩
  · have refused : (update fault write).apply store = (.error (fault (.notFound entity id)), store) := by
      unfold update
      rw [apply_change, healthy.writable, missing]
      rfl
    rw [refused]
    exact .error plain healthy

theorem keeps_bind {given : β → Prop} {operation : Operation ε α} {next : α → Operation ε β}
    (first : Keeps kept used gives operation)
    (rest : ∀ value, gives value → Keeps kept used given (next value)) :
    Keeps kept used given (operation >>= next) :=
  fun store healthy => behaves_bind (first store healthy) fun value middle _ holds sound =>
    rest value holds middle sound

theorem keeps_attempt [FaultOrigin φ] {operation : Operation ε α}
    (inner : Keeps kept used gives operation) :
    Keeps kept used (fun answer => ∀ value, answer = .ok value → gives value)
      (attempt operation : Operation φ (Except ε α)) := by
  intro store healthy
  have behaves := inner store healthy
  rw [apply_attempt]
  generalize operation.apply store = reached at behaves ⊢
  cases behaves with
  | error _ healthy => exact .ok nofun healthy
  | ok given healthy =>
      refine .ok ?_ healthy
      rintro _ ⟨⟩
      exact given

theorem behaves_lift [FaultOrigin φ] {later : α → Tally} {fault : φ → ε} {operation : Operation φ α}
    (plain : ∀ reason, ¬ internal reason → ¬ internal (fault reason))
    (inner : Behaves kept used later gives (operation.apply store)) :
    Behaves kept used later gives ((lift fault operation).apply store) := by
  rw [apply_lift]
  generalize operation.apply store = reached at inner ⊢
  cases inner with
  | error apart healthy => exact .error (plain _ apart) healthy
  | ok given healthy => exact .ok given healthy

theorem behaves_transaction {later : α → Tally} {fault : DatabaseFault → ε} {operation : Operation ε α}
    (healthy : store.Healthy used none)
    (inner : ∀ saved before, before.Healthy used (some saved) →
      Behaves (some saved) used later gives (operation.apply before)) :
    Behaves none used later gives ((transaction fault operation).apply store) := by
  have begun : Store.Healthy used (some store.database) { store with saved := some store.database } :=
    ⟨healthy.writable, rfl, healthy.database⟩
  have behaves := inner store.database _ begun
  rw [apply_transaction healthy.saved]
  generalize operation.apply { store with saved := some store.database } = reached at behaves ⊢
  cases behaves with
  | error plain ended =>
      refine .error plain ⟨ended.writable, rfl, ?_⟩
      simp only [Store.rollBack, ended.saved, Option.getD_some]
      exact healthy.database
  | ok given ended =>
      dsimp only
      rw [ended.saved]
      exact .ok given ⟨ended.writable, rfl, ended.database⟩

end Behavior

end Operation

open Operation

variable {kept : Option Database} {used : Tally} {store : Store}

theorem Expression.plain_of_bind {ε : Type} [FaultOrigin ε] {lookup : Int → Except ε (Option Float)}
    {fault : ExpressionFault → ε} {ids : List Int} {reason : ε}
    (looked : ∀ id reason, lookup id = .error reason → ¬ internal reason)
    (faults : ∀ reason, ¬ internal (fault reason))
    (failed : bind lookup fault ids = .error reason) : ¬ internal reason := by
  induction ids with
  | nil => cases failed
  | cons id rest ih =>
      rcases except_bind_eq_error.1 failed with failed | ⟨found, _, failed⟩
      · exact looked id reason failed
      · cases found with
        | none =>
            cases failed
            exact faults _
        | some value =>
            rcases except_bind_eq_error.1 failed with failed | ⟨_, _, failed⟩
            · exact ih failed
            · cases failed

namespace Recalculation

theorem isFinite_valueOf {database : Database} {expression : Expression} {value : Float}
    (healthy : database.Healthy used) (written : expression.Finite)
    (valued : valueOf database expression = .ok value) : value.isFinite = true := by
  refine Expression.isFinite_evaluateWith written (fun id found looked => ?_) valued
  obtain ⟨given, read, finite⟩ := healthy.variableValue id
  rw [read] at looked
  cases looked
  exact finite found rfl

theorem plain_valueOf {database : Database} {expression : Expression} {fault : Fault}
    (healthy : database.Healthy used) (failed : valueOf database expression = .error fault) :
    ¬ internal fault := by
  have looked (id : Int) (reason : Fault)
      (refused : (database.variableValue id).mapError Fault.store = .error reason) :
      ¬ internal reason := by
    obtain ⟨given, read, _⟩ := healthy.variableValue id
    rw [read] at refused
    cases refused
  have faults (reason : ExpressionFault) : ¬ internal (Fault.expression reason) := not_false
  rcases except_bind_eq_error.1 failed with failed | ⟨bindings, _, failed⟩
  · exact Expression.plain_of_bind looked faults failed
  · split at failed <;> cases failed
    exact not_false

theorem keeps_ready : Keeps kept used (fun _ => True) ready := by
  refine keeps_query_sure fun database healthy => ?_
  obtain ⟨_, usable, _⟩ := healthy.vars
  obtain ⟨_, _, usableToo, _⟩ := healthy.calculations
  refine ⟨(), ?_, trivial⟩
  simp only [usable, usableToo, bind, Except.bind]
  rfl

theorem keeps_normalizeName (name : String) :
    Keeps kept used (fun _ => True) (liftM (normalizeName name) : Action String) := by
  refine keeps_liftM (fun _ _ => trivial) fun fault refused => ?_
  rw [normalizeName_eq_error refused]
  exact not_false

theorem keeps_parse (text : String) :
    Keeps kept used Expression.Finite (liftM (parse text) : Action Expression) := by
  refine keeps_liftM (fun expression read => ?_) fun fault refused => ?_
  · exact Expression.finite_of_parse (mapError_eq_ok.1 read)
  · obtain ⟨reason, _, rfl⟩ := mapError_eq_error.1 refused
    exact not_false

theorem keeps_evaluate {expression : Expression} (written : expression.Finite) :
    Keeps kept used (·.isFinite = true) (evaluate expression) := by
  refine keeps_bind (keeps_query ?_ ?_) fun value finite =>
    keeps_bind (keeps_record _) fun _ _ => keeps_pure finite
  · exact fun _ _ healthy valued => isFinite_valueOf healthy written valued
  · exact fun _ _ healthy failed => plain_valueOf healthy failed

theorem keeps_calculations {α : Type} {read : Database → Except StoreFault α}
    (reads : ∀ {database tables}, database.calculationTables = .ok tables →
      ∃ value, read database = .ok value) :
    Keeps kept used (fun _ => True) (query Fault.ofStore read) := by
  refine keeps_query_sure fun database healthy => ?_
  obtain ⟨table, dependencies, usable, _⟩ := healthy.calculations
  obtain ⟨value, found⟩ := reads usable
  exact ⟨value, found, trivial⟩

theorem keeps_findCalculation (id : Int) :
    Keeps kept used (fun _ => True) (query Fault.ofStore (·.findCalculation id)) :=
  keeps_calculations fun usable => ⟨_, except_bind_eq_ok.2 ⟨_, usable, rfl⟩⟩

theorem keeps_getCalculation (id : Int) : Keeps kept used (fun _ => True) (getCalculation id) := by
  refine keeps_bind (keeps_findCalculation id) fun found _ => ?_
  cases found with
  | none => exact keeps_throw not_false
  | some calculation => exact keeps_pure trivial

theorem keeps_setDependencies (id : Int) (references : List Int) :
    Keeps kept used (fun _ => True) (update Fault.ofStore (·.setDependencies id references)) :=
  keeps_update (fun _ healthy => healthy.setDependencies id references) not_false

theorem keeps_setCalculatedValue (id : Int) {value : Float} (finite : value.isFinite = true) :
    Keeps kept used (fun _ => True) (update Fault.ofStore (·.setCalculatedValue id value)) :=
  keeps_update (fun _ healthy => healthy.setCalculatedValue id finite) not_false

theorem keeps_process (id : Int) :
    Keeps kept used (fun outcome => outcome.value.isFinite = true) (process id) := by
  refine keeps_bind (keeps_getCalculation id) fun calculation _ => ?_
  refine keeps_bind (keeps_parse calculation.expression) fun expression written => ?_
  refine keeps_bind (keeps_evaluate written) fun value finite => ?_
  refine keeps_bind (keeps_setDependencies id expression.references) fun _ _ => ?_
  refine keeps_bind (keeps_setCalculatedValue id finite) fun _ _ => ?_
  exact keeps_bind (keeps_record _) fun _ _ => keeps_pure finite

theorem keeps_processDraft (draft : Draft) :
    Keeps kept used (fun outcome => outcome.value.isFinite = true) (processDraft draft) := by
  refine keeps_bind (keeps_parse draft.expression) fun expression written => ?_
  refine keeps_bind (keeps_evaluate written) fun value finite => ?_
  cases draft.id with
  | none => exact keeps_pure finite
  | some id =>
      refine keeps_bind (keeps_findCalculation id) fun found _ => ?_
      cases found with
      | none => exact keeps_bind (keeps_record _) fun _ _ => keeps_pure finite
      | some calculation =>
          refine keeps_bind (keeps_setCalculatedValue id finite) fun _ _ => ?_
          exact keeps_bind (keeps_record _) fun _ _ => keeps_pure finite

theorem keeps_processAll (candidates : List Calculation) :
    Keeps kept used (fun results => ∀ outcome ∈ results.1, outcome.value.isFinite = true)
      (processAll candidates) := by
  induction candidates with
  | nil => exact keeps_pure nofun
  | cons candidate rest ih =>
      unfold processAll
      refine keeps_bind (keeps_attempt (keeps_process candidate.id)) fun answer sound => ?_
      cases answer with
      | ok outcome =>
          refine keeps_bind ih fun results finite => keeps_pure ?_
          intro other inside
          rcases List.mem_cons.1 inside with rfl | inside
          · exact sound _ rfl
          · exact finite other inside
      | error fault =>
          refine keeps_bind (keeps_record _) fun _ _ => ?_
          exact keeps_bind ih fun results finite => keeps_pure finite

theorem keeps_recalculate (variableId : Int) :
    Keeps kept used (fun report => ∀ outcome ∈ report.updated, outcome.value.isFinite = true)
      (recalculate variableId) := by
  have listed : Keeps kept used (fun _ => True) (query Fault.ofStore (·.dependentsOf variableId)) :=
    keeps_calculations fun usable => ⟨_, except_bind_eq_ok.2 ⟨_, usable, rfl⟩⟩
  refine keeps_bind listed fun candidates _ => ?_
  refine keeps_bind (keeps_record _) fun _ _ => ?_
  refine keeps_bind (keeps_processAll candidates) fun results finite => ?_
  exact keeps_bind (keeps_record _) fun _ _ => keeps_pure finite

theorem keeps_replaceExpression (id : Int) (text : String) :
    Keeps kept used (fun _ => True) (replaceExpression id text) := by
  refine keeps_bind (keeps_parse text) fun expression _ => ?_
  have replaced : Keeps kept used (fun _ => True)
      (update Fault.ofStore (·.setExpression id text expression.references)) :=
    keeps_update (fun _ healthy => healthy.setExpression id text expression.references) not_false
  exact keeps_bind replaced fun _ _ => keeps_getCalculation id

theorem keeps_reindex (listed : List Calculation) :
    Keeps kept used (fun _ => True) (reindex listed) := by
  induction listed with
  | nil => exact keeps_pure trivial
  | cons calculation rest ih =>
      unfold reindex
      cases Expression.parse calculation.expression with
      | ok expression =>
          refine keeps_bind (keeps_setDependencies _ _) fun _ _ => ?_
          exact keeps_bind ih fun _ _ => keeps_pure trivial
      | error fault =>
          refine keeps_bind (keeps_record _) fun _ _ => ?_
          exact keeps_bind ih fun _ _ => keeps_pure trivial

theorem keeps_rebuildIndex : Keeps kept used (fun _ => True) rebuildIndex := by
  have listed : Keeps kept used (fun _ => True) (query Fault.ofStore (·.listCalculations)) :=
    keeps_calculations fun usable => ⟨_, except_bind_eq_ok.2 ⟨_, usable, rfl⟩⟩
  refine keeps_bind listed fun calculations _ => ?_
  refine keeps_bind (keeps_reindex calculations) fun report _ => ?_
  exact keeps_bind (keeps_record _) fun _ _ => keeps_pure trivial

theorem keeps_setVariable (id : Int) (value : Float) :
    Keeps kept used (fun changed => changed.value.isFinite = true) (setVariable id value) := by
  unfold setVariable
  cases finite : value.isFinite with
  | false => exact keeps_throw not_false
  | true =>
      have updated : Keeps kept used (fun _ => True)
          (update Fault.ofStore (·.setVariableValue id value)) :=
        keeps_update (fun _ healthy => healthy.setVariableValue id finite) not_false
      refine keeps_bind updated fun _ _ => ?_
      refine keeps_bind (keeps_query_sure fun _ healthy => healthy.findVariable id) fun found solid => ?_
      cases found with
      | none => exact keeps_throw not_false
      | some changed => exact keeps_pure (solid changed rfl)

theorem behaves_create (healthy : store.Healthy used kept)
    (room : used .calculations < greatestId.toNat) (name text : String) :
    Behaves kept used (fun _ => used.add (.one .calculations)) (fun _ => True)
      ((create name text).apply store) := by
  refine behaves_bind (keeps_normalizeName name store healthy) fun given middle _ _ healthy => ?_
  refine behaves_bind (keeps_parse text middle healthy) fun expression last _ _ healthy => ?_
  obtain ⟨created, after, written, sound⟩ :=
    healthy.database.createCalculation room given text expression.references
  rw [apply_lift, apply_insert, change_eq_ok.2 ⟨healthy.writable, after, written, rfl⟩]
  exact .ok trivial ⟨healthy.writable, healthy.saved, sound⟩

end Recalculation

namespace Forest

theorem keeps_resources {α : Type} {fault : StoreFault → Fault} (read : Table Resource → α) :
    Keeps kept used (fun _ => True)
      (query fault fun database => return read (← database.resourceTable)) := by
  refine keeps_query_sure fun database healthy => ?_
  obtain ⟨table, usable, _⟩ := healthy.resources
  exact ⟨_, except_bind_eq_ok.2 ⟨table, usable, rfl⟩, trivial⟩

theorem keeps_ready : Keeps kept used (fun _ => True) ready :=
  keeps_resources fun _ => ()

theorem keeps_getResource (id : Int) : Keeps kept used (fun _ => True) (getResource id) := by
  refine keeps_bind (keeps_resources (·.find? id)) fun found _ => ?_
  cases found with
  | none => exact keeps_throw not_false
  | some resource => exact keeps_pure trivial

theorem keeps_listChildren (parent : Option Int) :
    Keeps kept used (fun _ => True) (listChildren parent) := by
  have listed : Keeps kept used (fun _ => True) (query Fault.ofStore (·.listChildren parent)) :=
    keeps_resources fun table => table.rows.filter (·.parent = parent)
  cases parent with
  | none => exact listed
  | some id =>
      refine keeps_bind (keeps_resources (·.contains id)) fun held _ => ?_
      cases held with
      | true => exact listed
      | false => exact keeps_throw not_false

theorem keeps_ancestors (id : Int) (parent : Option Int) :
    Keeps kept used (fun _ => True) (ancestors id parent) := by
  have looked : Keeps kept used (fun _ => True) (query Fault.ofStore Database.resourceTable) :=
    keeps_query_sure fun _ healthy => healthy.resources.imp fun _ held => ⟨held.1, trivial⟩
  refine keeps_bind looked fun table _ => ?_
  dsimp only
  cases (Lineage.of table.rows id parent).revisited with
  | none => exact keeps_pure trivial
  | some revisited => exact keeps_bind (keeps_record _) fun _ _ => keeps_pure trivial

theorem keeps_lineage (id : Int) : Keeps kept used (fun _ => True) (lineage id) :=
  keeps_bind (keeps_getResource id) fun resource _ => keeps_ancestors id resource.parent

theorem keeps_move (id parent : Int) : Keeps kept used (fun _ => True) (move id parent) := by
  intro store healthy
  obtain ⟨table, usable, bounded⟩ := healthy.database.resources
  have looked : store.database.resourceExists id = .ok (table.contains id) :=
    except_bind_eq_ok.2 ⟨table, usable, rfl⟩
  have read : store.database.findResource parent = .ok (table.find? parent) :=
    except_bind_eq_ok.2 ⟨table, usable, rfl⟩
  refine query_bind_behaves looked ?_
  cases held : table.contains id with
  | false => exact keeps_throw not_false store healthy
  | true =>
      refine query_bind_behaves read ?_
      cases present : table.find? parent with
      | none => exact keeps_throw not_false store healthy
      | some above =>
          dsimp only
          by_cases same : id = parent
          · rw [if_pos same]
            exact keeps_throw not_false store healthy
          · rw [if_neg same]
            refine behaves_bind (keeps_ancestors parent above.parent store healthy) ?_
            intro lineage middle walked _ healthy
            by_cases inside : id ∈ lineage
            · rw [if_pos inside]
              exact keeps_bind (keeps_record _) (fun _ _ => keeps_throw not_false) middle healthy
            · rw [if_neg inside]
              -- Both rows are still there, for the walk has changed nothing.
              have alike := ancestors_alike parent above.parent store
              rw [walked] at alike
              rw [← alike.database] at usable
              obtain ⟨member, rfl⟩ := Table.find?_eq_some_iff.1 present
              have written := Database.setParent_eq_ok_iff.2
                ⟨table, usable, held, Table.contains_of_mem member, rfl⟩
              rw [apply_bind, update_eq_ok.2 ⟨healthy.writable, _, written, rfl⟩]
              refine keeps_record _ _ ⟨healthy.writable, healthy.saved, ?_⟩
              exact healthy.database.withResources usable (Table.columns_modify _ _ _ _) bounded

theorem behaves_create (healthy : store.Healthy used kept)
    (room : used .resources < greatestId.toNat) (name : String) (parent : Option Int) :
    Behaves kept used (fun _ => used.add (.one .resources)) (fun _ => True)
      ((create name parent).apply store) := by
  have added {given : String} {middle : Store} (healthy : middle.Healthy used kept)
      (attached : ∀ id, parent = some id → middle.database.resourceExists id = .ok true) :
      Behaves kept used (fun _ => used.add (.one .resources)) (fun _ => True)
        ((change Fault.ofStore (·.createResource given parent) >>= fun created => do
          record (.resourceCreated created.id parent.isSome)
          return created.id).apply middle) := by
    obtain ⟨created, after, written, sound⟩ := healthy.database.createResource room given attached
    rw [apply_bind, change_eq_ok.2 ⟨healthy.writable, after, written, rfl⟩]
    exact .ok trivial ⟨healthy.writable, healthy.saved, sound⟩
  have named : Keeps kept used (fun _ => True) (liftM (normalizeName name) : Action String) := by
    refine keeps_liftM (fun _ _ => trivial) fun fault refused => ?_
    rw [normalizeName_eq_error refused]
    exact not_false
  refine behaves_bind (named store healthy) fun given middle _ _ healthy => ?_
  cases parent with
  | none => exact added healthy nofun
  | some id =>
      obtain ⟨table, usable, _⟩ := healthy.database.resources
      have looked : middle.database.resourceExists id = .ok (table.contains id) :=
        except_bind_eq_ok.2 ⟨table, usable, rfl⟩
      refine query_bind_behaves looked ?_
      cases held : table.contains id with
      | false =>
          exact .error not_false (healthy.of_alike rfl)
      | true =>
          refine added healthy ?_
          rintro _ ⟨⟩
          rw [looked, held]

end Forest

theorem Demo.behaves_seed (healthy : store.Healthy used kept) :
    Behaves kept used (fun added => used.add (created added)) (fun _ => True) (seed.apply store) := by
  obtain ⟨added, after, loaded, sound⟩ := load_of_healthy healthy.database
  unfold seed
  rw [apply_bind, change_eq_ok.2 ⟨healthy.writable, after, loaded, rfl⟩]
  exact .ok trivial ⟨healthy.writable, healthy.saved, sound⟩

theorem behaves_createVariable (healthy : store.Healthy used kept)
    (room : used .vars < greatestId.toNat) (name : String) {value : Float}
    (finite : value.isFinite = true) :
    Behaves kept used (fun _ => used.add (.one .vars)) (fun _ => True)
      ((change id (·.createVariable name value) : Operation StoreFault Variable).apply store) := by
  obtain ⟨created, after, written, sound⟩ := healthy.database.createVariable room name finite
  rw [change_eq_ok.2 ⟨healthy.writable, after, written, rfl⟩]
  exact .ok trivial ⟨healthy.writable, healthy.saved, sound⟩

end Formulary
