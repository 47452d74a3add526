import Formulary.Proofs.Ancestry
import Formulary.Proofs.Health
import Formulary.Proofs.Index

/-!
What loading the demonstration data makes of a store. Variables, calculations and the index of
dependencies are the same afterwards whatever they were; the resources that were there stay, and
those of the demonstration that are missing are put among them. Loading it again adds nothing, and
loading it in vain changes nothing.
-/

namespace Formulary

def Database.Intact (database : Database) : Prop :=
  database.form = Store.fresh.database.form

theorem Database.Intact.usable {database : Database} (intact : database.Intact) :
    ∃ vars calculations dependencies resources,
      (database.variableTable = .ok vars ∧ vars.columns = TableName.vars.columns) ∧
      (database.calculationTables = .ok (calculations, dependencies) ∧
        calculations.columns = TableName.calculations.columns ∧
        dependencies.columns = TableName.dependencies.columns) ∧
      database.resourceTable = .ok resources := by
  have version : database.requireVersion = .ok () :=
    requireVersion_of_form (show database.form = Store.fresh.database.form from intact)
  obtain ⟨vars, held, varColumns⟩ := Option.map_eq_some_iff.1 (congrArg Form.vars intact)
  obtain ⟨calculations, listed, columns⟩ :=
    Option.map_eq_some_iff.1 (congrArg Form.calculations intact)
  obtain ⟨dependencies, indexed, indexColumns⟩ :=
    Option.map_eq_some_iff.1 (congrArg Form.dependencies intact)
  obtain ⟨resources, placed, resourceColumns⟩ :=
    Option.map_eq_some_iff.1 (congrArg Form.resources intact)
  have named (name : TableName) : requireColumns name name.columns = .ok () := by
    cases name <;> rfl
  refine ⟨vars, calculations, dependencies, resources, ⟨?_, varColumns⟩,
    ⟨?_, columns, indexColumns⟩, ?_⟩
  · rw [variableTable_eq_ok_iff, varColumns]
    exact ⟨version, held, named .vars⟩
  · rw [calculationTables_eq_ok_iff, columns, indexColumns]
    exact ⟨version, listed, named .calculations, indexed, named .dependencies⟩
  · rw [resourceTable_eq_ok_iff, resourceColumns]
    exact ⟨version, placed, named .resources⟩

namespace Table

variable {table : Table Resource} {rows : List Resource} {row : Resource}

theorem IsForest.put (forest : table.IsForest) (fresh : table.contains row.id = false)
    (attached : ∀ parent, row.parent = some parent → table.contains parent = true) :
    (table.put row).IsForest := by
  have rooted := Rooted.put (Rooted.of_isForest forest) fresh attached
  constructor
  · intro id loop
    obtain ⟨_, ⟨present, member, rfl, _⟩, _⟩ := Relation.TransGen.head'_iff.1 loop
    exact (rooted present member).not_own_ancestor loop
  · intro present member parent under
    rw [contains_put]
    rcases (mem_put_fresh fresh).1 member with rfl | inside
    · rw [attached parent under, Bool.or_true]
    · rw [forest.attached present inside parent under, Bool.or_true]

namespace Admits

theorem isForest_foldl_put (admitted : table.Admits rows) (forest : table.IsForest) :
    (rows.foldl Table.put table).IsForest := by
  induction rows generalizing table with
  | nil => exact forest
  | cons first rest ih =>
      obtain ⟨_, fresh, attached, further⟩ := admitted
      exact ih further (forest.put fresh attached)

theorem mem_foldl_put (admitted : table.Admits rows) :
    row ∈ (rows.foldl Table.put table).rows ↔ row ∈ table.rows ∨ row ∈ rows := by
  induction rows generalizing table with
  | nil => simp
  | cons first rest ih =>
      obtain ⟨_, fresh, _, further⟩ := admitted
      rw [List.foldl_cons, ih further, mem_put_fresh fresh, List.mem_cons, or_comm (a := row = first),
        or_assoc]

end Admits

end Table

namespace Demo

def variableTable : Table StoredVariable where
  columns := TableName.vars.columns
  rows := vars.map fun row => ⟨row.id, row.name, some row.value⟩
  lastId := 3
  sorted := by decide
  bounded := by decide

def calculationTable : Table Calculation where
  columns := TableName.calculations.columns
  rows := calculations
  lastId := 3
  sorted := by decide
  bounded := by decide

def dependencyTable : DependencyTable where
  columns := TableName.dependencies.columns
  rows := [⟨1, 1⟩, ⟨2, 1⟩, ⟨2, 2⟩, ⟨3, 1⟩, ⟨3, 3⟩]
  sorted := by decide

def beside (resources : Table Resource) : Database where
  version := Database.latestVersion
  vars := some variableTable
  calculations := some calculationTable
  dependencies := some dependencyTable
  resources := some resources

theorem index_calculations :
    index (.empty TableName.dependencies.columns) calculations = .ok dependencyTable := by
  have rows : (index (.empty TableName.dependencies.columns) calculations).toOption.map (·.rows) =
      some dependencyTable.rows := by
    decide +kernel
  obtain ⟨indexed, indexing⟩ :=
    index_of_parsed (.empty TableName.dependencies.columns) parse_calculations
  rw [indexing] at rows ⊢
  have same : indexed.rows = dependencyTable.rows := Option.some.inj rows
  have columns := Database.columns_index indexing
  have equal : indexed = dependencyTable :=
    DependencyTable.eq_of_rows columns fun row => by rw [same]
  rw [equal]

theorem indexed_tables : Indexed calculationTable dependencyTable := by
  have empty : Indexed (.empty TableName.calculations.columns)
      (.empty TableName.dependencies.columns) := ⟨nofun, nofun⟩
  exact empty.put_listed (by decide) (fun _ _ => rfl) index_calculations

/-- Whether a table of resources is another one with the missing ones of the demonstration, and how
many of these were missing. -/
structure Completed (before after : Table Resource) (added : Nat) : Prop where
  rows : ∀ row, row ∈ after.rows ↔
    row ∈ before.rows ∨ row ∈ resources ∧ before.contains row.id = false
  present : ∀ id ∈ [1, 2, 3], after.contains id = true
  added : added = ([1, 2, 3].filter fun id => !before.contains id).length
  forest : before.IsForest → after.IsForest

theorem mem_newResources {table : Table Resource} {row : Resource} :
    row ∈ newResources table ↔ row ∈ resources ∧ table.contains row.id = false := by
  simp [newResources]

theorem completed (table : Table Resource) :
    Completed table ((newResources table).foldl Table.put table) (newResources table).length := by
  have admitted := admits_newResources table
  have listed : resources.map (·.id) = [1, 2, 3] := rfl
  refine ⟨?_, ?_, ?_, admitted.isForest_foldl_put⟩
  · intro row
    rw [admitted.mem_foldl_put, mem_newResources]
  · intro id inside
    rw [← listed] at inside
    obtain ⟨row, given, rfl⟩ := List.mem_map.1 inside
    cases held : table.contains row.id with
    | true => exact Table.contains_foldl_put held _
    | false =>
        have placed := admitted.mem_foldl_put.2 (.inr (mem_newResources.2 ⟨given, held⟩))
        exact Table.contains_of_mem placed
  · rw [← listed, List.filter_map, List.length_map]
    rfl

theorem Completed.no_newResources {before after : Table Resource} {added : Nat}
    (completed : Completed before after added) : newResources after = [] := by
  refine List.filter_eq_nil_iff.2 fun row given => ?_
  have listed : row.id ∈ [1, 2, 3] := List.mem_map.2 ⟨row, given, rfl⟩
  simp [completed.present row.id listed]

theorem filled_variables (table : Table StoredVariable)
    (columns : table.columns = TableName.vars.columns) :
    (vars.map fun row => ⟨row.id, row.name, Database.cell row.value⟩).foldl Table.put table.reset =
      variableTable := by
  rw [Table.reset, columns]
  rfl

theorem filled_calculations (table : Table Calculation)
    (columns : table.columns = TableName.calculations.columns) :
    calculations.foldl Table.put table.reset = calculationTable := by
  rw [Table.reset, columns]
  rfl

theorem cleared_dependencies (table : DependencyTable)
    (columns : table.columns = TableName.dependencies.columns) :
    (table.remove fun _ => true) = .empty TableName.dependencies.columns :=
  DependencyTable.eq_of_rows columns fun row => by simp [DependencyTable.empty, DependencyTable.remove]

theorem load_of_intact {database : Database} (intact : database.Intact) :
    ∃ held, database.resources = some held ∧ load database =
      .ok ((newResources held).length, beside ((newResources held).foldl Table.put held)) := by
  obtain ⟨oldVars, table, dependencies, held, ⟨varsUsable, varColumns⟩,
    ⟨usable, columns, indexColumns⟩, resourcesUsable⟩ := intact.usable
  obtain ⟨indexed, indexing, loaded⟩ := load_of_usable varsUsable usable resourcesUsable
  rw [cleared_dependencies dependencies indexColumns, index_calculations] at indexing
  cases indexing
  refine ⟨held, (Database.resourceTable_eq_ok_iff.1 resourcesUsable).2.1, ?_⟩
  have version : database.version = Database.latestVersion := congrArg Database.Form.version intact
  rw [loaded, filled_variables oldVars varColumns, filled_calculations table columns, version]
  rfl

theorem intact_of_load {database after : Database} {added : Nat} (intact : database.Intact)
    (loaded : load database = .ok (added, after)) : after.Intact :=
  (Database.form_changed (.demoLoaded loaded)).trans intact

theorem load_beside {before resources : Table Resource} {added : Nat}
    (completed : Completed before resources added) (intact : (beside resources).Intact) :
    load (beside resources) = .ok (0, beside resources) := by
  obtain ⟨held, present, loaded⟩ := load_of_intact intact
  cases present
  rw [loaded, completed.no_newResources]
  rfl

theorem unchanged_of_seed_error {store left : Store} {fault : StoreFault}
    (failed : seed.apply store = (.error fault, left)) : left = store := by
  rcases Operation.bind_eq_error.1 failed with refused | ⟨_, _, _, recorded⟩
  · rw [Operation.apply_change] at refused
    split at refused
    · cases refused
      rfl
    · split at refused
      · cases refused
      · rename_i unloaded
        cases refused
        simp [load_lasting unloaded]
  · cases recorded

end Demo

namespace Script

variable {store : Store} {connection left : Connection} {fault : StoreFault}

theorem edit_of_obstacle {reason : StorageFault} {change : Maintenance.Edit}
    {savepoints : List Savepoint} (blocked : store.obstacle = some reason) :
    (edit change).apply ⟨store, savepoints⟩ =
      (.error (.ofStorage reason), ⟨store, savepoints⟩) := by
  unfold edit
  rw [apply_statement]
  simp only [blocked]

theorem unchanged_of_loadDemo_error (failed : loadDemo.apply connection = (.error fault, left)) :
    left = connection := by
  obtain ⟨store, savepoints⟩ := connection
  cases obstacle : store.obstacle with
  | none =>
      rw [loadDemo_apply savepoints obstacle] at failed
      split at failed
      · cases failed
      · cases failed
        rfl
  | some reason =>
      unfold loadDemo at failed
      cases found : store.database.calculationTables with
      | error fault =>
          rw [apply_bind_of_error _ (check_of_unusable found)] at failed
          cases failed
          rfl
      | ok tables =>
          have begun : fillTables.apply ⟨store, ⟨"seed_demo_data", store.database⟩ :: savepoints⟩ =
              (.error (.ofStorage reason),
                ⟨store, ⟨"seed_demo_data", store.database⟩ :: savepoints⟩) :=
            apply_bind_of_error _ (apply_bind_of_error _ (apply_bind_of_error _
              (edit_of_obstacle obstacle)))
          rw [apply_bind_of_ok _ (check_of_usable found), withSavepoint_of_error begun] at failed
          cases failed
          rfl

theorem unchanged_of_seed_error (failed : seed.apply connection = (.error fault, left)) :
    left = connection := by
  unfold seed at failed
  rw [apply_bind] at failed
  rcases ran : loadDemo.apply connection with ⟨reason | added, middle⟩
  · rw [ran] at failed
    cases failed
    exact unchanged_of_loadDemo_error ran
  · rw [ran] at failed
    cases failed

def seeded (connection : Connection) (added : Nat) (database : Database) : Connection :=
  { connection with
    store := { connection.store with
      database := database
      events := .demoSeeded Demo.vars.length Demo.calculations.length added ::
        connection.store.events } }

theorem seed_of_load {added : Nat} {database : Database}
    (writable : connection.store.obstacle = none)
    (loaded : Demo.load connection.store.database = .ok (added, database)) :
    seed.apply connection = (.ok added, seeded connection added database) := by
  obtain ⟨store, savepoints⟩ := connection
  unfold seed
  rw [apply_bind, loadDemo_apply savepoints writable, loaded]
  rfl

theorem operation_of_load {added : Nat} {database : Database}
    (writable : connection.store.obstacle = none)
    (loaded : Demo.load connection.store.database = .ok (added, database)) :
    Demo.seed.apply connection.store = (.ok added, (seeded connection added database).store) := by
  unfold Demo.seed
  rw [Operation.apply_bind, Operation.change_eq_ok.2 ⟨writable, _, loaded, rfl⟩]
  rfl

/-- Loading the demonstration data into an intact store that can be changed succeeds, statement by
statement and in one step. Variables, calculations and dependencies are then the same whatever was
there before: no calculation has a value, and the dependencies of each are what its expression
refers to. The resources that were there stay as they are, those of the demonstration that were
missing are added and counted, and a forest stays one. No row is in the way, not even one that
refers to a row which is not there. A second call adds none and changes nothing, and a call that
fails, on whatever store, changes nothing either. -/
theorem demo_after_seed (connection : Connection) :
    ((∀ row ∈ Demo.calculationTable.rows, row.value = none) ∧
      Indexed Demo.calculationTable Demo.dependencyTable) ∧
    (connection.store.obstacle = none → connection.store.database.Intact →
      ∃ old new added after again, connection.store.database.resources = some old ∧
        seed.apply connection = (.ok added, after) ∧
        Demo.seed.apply connection.store = (.ok added, after.store) ∧
        { connection.store with database := Demo.beside new }.Alike after.store ∧
        after.savepoints = connection.savepoints ∧
        Demo.Completed old new added ∧
        seed.apply after = (.ok 0, again) ∧ Demo.seed.apply after.store = (.ok 0, again.store) ∧
        after.store.Alike again.store ∧ again.savepoints = after.savepoints) ∧
    (∀ fault left, seed.apply connection = (.error fault, left) → left = connection) ∧
    ∀ fault left, Demo.seed.apply connection.store = (.error fault, left) →
      left = connection.store := by
  refine ⟨⟨unvalued_calculations, Demo.indexed_tables⟩, fun writable intact => ?_,
    fun _ _ failed => unchanged_of_seed_error failed,
    fun _ _ failed => Demo.unchanged_of_seed_error failed⟩
  obtain ⟨old, present, loaded⟩ := Demo.load_of_intact intact
  have completed := Demo.completed old
  have again := Demo.load_beside completed (Demo.intact_of_load intact loaded)
  let after := seeded connection (Demo.newResources old).length
    (Demo.beside ((Demo.newResources old).foldl Table.put old))
  have writableAfter : after.store.obstacle = none := writable
  have loadedAfter : Demo.load after.store.database = .ok (0, after.store.database) := again
  exact ⟨old, _, _, after, _, present, seed_of_load writable loaded,
    operation_of_load writable loaded, rfl, rfl, completed, seed_of_load writableAfter loadedAfter,
    operation_of_load writableAfter loadedAfter, rfl, rfl⟩

def occupied : Database where
  version := Database.latestVersion
  vars := some ⟨TableName.vars.columns, [⟨9, "rate", some 1.5⟩], 12, by decide, by decide⟩
  calculations := some
    ⟨TableName.calculations.columns, [⟨4, "one", "1", some 1⟩], 4, by decide, by decide⟩
  dependencies := some ⟨TableName.dependencies.columns, [⟨4, 9⟩], by decide⟩
  resources := some
    ⟨TableName.resources.columns, [⟨2, "mine", none⟩, ⟨7, "leaf", some 2⟩], 7, by decide, by decide⟩

theorem demo_after_seed_occupied :
    occupied.Intact ∧
    (∃ new after again, seed.apply ⟨.ofDatabase occupied none, []⟩ = (.ok 2, after) ∧
      after.store.database = Demo.beside new ∧ ⟨2, "mine", none⟩ ∈ new.rows ∧
      ⟨7, "leaf", some 2⟩ ∈ new.rows ∧ ⟨3, "Resource C", some 2⟩ ∈ new.rows ∧
      seed.apply after = (.ok 0, again) ∧ again.store.database = after.store.database) ∧
    ∃ fault, seed.apply ⟨.ofDatabase { occupied with resources := none } none, []⟩ =
      (.error fault, ⟨.ofDatabase { occupied with resources := none } none, []⟩) := by
  have intact : occupied.Intact := rfl
  refine ⟨intact, ?_, ?_⟩
  · obtain ⟨old, new, _, after, again, present, seeded, _, alike, _, completed, repeated, _,
      alikeAgain, _⟩ := (demo_after_seed ⟨.ofDatabase occupied none, []⟩).2.1 rfl intact
    cases present
    cases completed.added
    refine ⟨new, after, again, seeded, alike.database, (completed.rows _).2 (.inl ?_),
      (completed.rows _).2 (.inl ?_), (completed.rows _).2 (.inr ?_), repeated,
      alikeAgain.database⟩
    · decide
    · decide
    · decide
  · have refused :
        (seed.apply ⟨.ofDatabase { occupied with resources := none } none, []⟩).1.toBool = false := by
      decide +kernel
    rcases ran : seed.apply ⟨.ofDatabase { occupied with resources := none } none, []⟩ with
      ⟨fault | added, left⟩
    · rw [(demo_after_seed _).2.2.1 _ _ ran]
      exact ⟨fault, rfl⟩
    · rw [ran] at refused
      cases refused

end Script

end Formulary
