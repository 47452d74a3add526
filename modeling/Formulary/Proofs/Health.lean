import Formulary.Proofs.Finite
import Formulary.Proofs.Forest
import Formulary.Proofs.Statements
import Formulary.Proofs.Transaction

/-!
Healthy stores: the tables are there with their columns, every value is a finite number, and no table
has used up more ids than rows were created in it. Operations keep a store healthy, and as long as ids
are left, none of them fails over the store itself.
-/

namespace Formulary

abbrev Tally : Type := TableName → Nat

def Tally.one (name : TableName) : Tally :=
  fun other => if other = name then 1 else 0

def Tally.add (used created : Tally) : Tally :=
  fun name => used name + created name

theorem Tally.le_add (used created : Tally) (name : TableName) : used name ≤ used.add created name :=
  Nat.le_add_right _ _

def StoredVariable.Filled (row : StoredVariable) : Prop :=
  ∃ value, row.value = some value ∧ value.isFinite = true

def Calculation.Finite (row : Calculation) : Prop :=
  ∀ value, row.value = some value → value.isFinite = true

namespace Database

theorem valueCell_of_finite (table : Table StoredVariable) {value : Float}
    (finite : value.isFinite = true) :
    ∃ kept, valueCell table value = .ok (some kept) ∧ kept.isFinite = true := by
  obtain ⟨kept, held, solid⟩ := cell_of_finite finite
  refine ⟨kept, ?_, solid⟩
  unfold valueCell
  rw [held]

structure Healthy (used : Tally) (database : Database) : Prop where
  vars : ∃ table, database.variableTable = .ok table ∧ table.lastId ≤ used .vars ∧
    ∀ row ∈ table.rows, row.Filled
  calculations : ∃ table dependencies, database.calculationTables = .ok (table, dependencies) ∧
    table.lastId ≤ used .calculations ∧ ∀ row ∈ table.rows, row.Finite
  resources : ∃ table, database.resourceTable = .ok table ∧ table.lastId ≤ used .resources

def Written (used : Tally) (entity : Entity) (id : Int) (result : Except StoreFault Database) :
    Prop :=
  (∃ after, result = .ok after ∧ after.Healthy used) ∨ result = .error (.notFound entity id)

namespace Healthy

variable {database : Database} {used later : Tally}

theorem mono (healthy : database.Healthy used) (more : ∀ name, used name ≤ later name) :
    database.Healthy later := by
  obtain ⟨⟨vars, varsUsable, varsBounded, filled⟩, ⟨calculations, dependencies, usable, bounded,
    finite⟩, resources, resourcesUsable, resourcesBounded⟩ := healthy
  exact ⟨⟨vars, varsUsable, varsBounded.trans (more _), filled⟩,
    ⟨calculations, dependencies, usable, bounded.trans (more _), finite⟩,
    resources, resourcesUsable, resourcesBounded.trans (more _)⟩

theorem withVars {table changed : Table StoredVariable} (healthy : database.Healthy used)
    (usable : database.variableTable = .ok table) (columns : changed.columns = table.columns)
    (bounded : changed.lastId ≤ used .vars) (filled : ∀ row ∈ changed.rows, row.Filled) :
    { database with vars := some changed }.Healthy used :=
  ⟨⟨changed, variableTable_withVars usable columns, bounded, filled⟩, healthy.calculations,
    healthy.resources⟩

theorem withCalculations {table changed : Table Calculation}
    {dependencies indexed : DependencyTable} (healthy : database.Healthy used)
    (usable : database.calculationTables = .ok (table, dependencies))
    (columns : changed.columns = table.columns)
    (indexColumns : indexed.columns = dependencies.columns)
    (bounded : changed.lastId ≤ used .calculations) (finite : ∀ row ∈ changed.rows, row.Finite) :
    (database.withCalculations changed indexed).Healthy used :=
  ⟨healthy.vars, ⟨changed, indexed, calculationTables_withCalculations usable columns indexColumns,
    bounded, finite⟩, healthy.resources⟩

theorem withResources {table changed : Table Resource} (healthy : database.Healthy used)
    (usable : database.resourceTable = .ok table) (columns : changed.columns = table.columns)
    (bounded : changed.lastId ≤ used .resources) :
    { database with resources := some changed }.Healthy used := by
  obtain ⟨version, _, named⟩ := resourceTable_eq_ok_iff.1 usable
  refine ⟨healthy.vars, healthy.calculations, changed, ?_, bounded⟩
  rw [resourceTable_eq_ok_iff, columns]
  exact ⟨version, rfl, named⟩

theorem variableValue (healthy : database.Healthy used) (id : Int) :
    ∃ found, database.variableValue id = .ok found ∧
      ∀ value, found = some value → value.isFinite = true := by
  obtain ⟨table, usable, _, filled⟩ := healthy.vars
  unfold Database.variableValue
  rw [usable]
  cases found : table.find? id with
  | none => exact ⟨none, by simp [found, bind, Except.bind], by simp⟩
  | some row =>
      obtain ⟨value, stored, finite⟩ := filled row (Table.find?_eq_some_iff.1 found).1
      refine ⟨some value, by simp [found, stored, bind, Except.bind], ?_⟩
      rintro _ ⟨⟩
      exact finite

theorem findVariable (healthy : database.Healthy used) (id : Int) :
    ∃ found, database.findVariable id = .ok found ∧
      ∀ row, found = some row → row.value.isFinite = true := by
  obtain ⟨table, usable, _, filled⟩ := healthy.vars
  unfold Database.findVariable
  rw [usable]
  cases found : table.find? id with
  | none => exact ⟨none, by simp [found, bind, Except.bind], by simp⟩
  | some row =>
      obtain ⟨value, stored, finite⟩ := filled row (Table.find?_eq_some_iff.1 found).1
      refine ⟨some ⟨row.id, row.name, value⟩, ?_, ?_⟩
      · simp [found, readVariable, stored, bind, Except.bind]
      · rintro _ ⟨⟩
        exact finite

theorem changeCalculation {write : Table Calculation → DependencyTable → Database} {id : Int}
    (healthy : database.Healthy used)
    (writes : ∀ table dependencies, database.calculationTables = .ok (table, dependencies) →
      table.lastId ≤ used .calculations → (∀ row ∈ table.rows, row.Finite) →
        (write table dependencies).Healthy used) :
    Written used .calculation id (database.changeCalculation id write) := by
  obtain ⟨table, dependencies, usable, bounded, finite⟩ := healthy.calculations
  cases held : table.contains id with
  | true =>
      exact .inl ⟨_, changeCalculation_eq_ok_iff.2 ⟨_, _, usable, held, rfl⟩,
        writes table dependencies usable bounded finite⟩
  | false =>
      right
      simp only [Database.changeCalculation, usable, held, bind, Except.bind]
      rfl

theorem setExpression (healthy : database.Healthy used) (id : Int) (expression : String)
    (references : List Int) :
    Written used .calculation id (database.setExpression id expression references) := by
  refine healthy.changeCalculation fun table dependencies usable bounded finite => ?_
  refine healthy.withCalculations usable (Table.columns_modify _ _ _ _)
    (DependencyTable.columns_assign _ _ _) bounded ?_
  exact Table.forall_modify finite fun row solid => solid

theorem setDependencies (healthy : database.Healthy used) (id : Int) (references : List Int) :
    Written used .calculation id (database.setDependencies id references) := by
  refine healthy.changeCalculation fun table dependencies usable bounded finite => ?_
  exact healthy.withCalculations usable rfl (DependencyTable.columns_assign _ _ _) bounded finite

theorem setCalculatedValue (healthy : database.Healthy used) (id : Int) {value : Float}
    (solid : value.isFinite = true) :
    Written used .calculation id (database.setCalculatedValue id value) := by
  refine healthy.changeCalculation fun table dependencies usable bounded finite => ?_
  refine healthy.withCalculations usable (Table.columns_modify _ _ _ _) rfl bounded ?_
  refine Table.forall_modify finite fun row _ stored same => ?_
  obtain ⟨kept, held, finite⟩ := cell_of_finite solid
  rw [held] at same
  cases same
  exact finite

theorem setVariableValue (healthy : database.Healthy used) (id : Int) {value : Float}
    (solid : value.isFinite = true) :
    Written used .variable id (database.setVariableValue id value) := by
  obtain ⟨table, usable, bounded, filled⟩ := healthy.vars
  cases held : table.contains id with
  | true =>
      obtain ⟨kept, fits, finite⟩ := valueCell_of_finite table solid
      have written := setVariableValue_eq_ok_iff.2 ⟨table, _, usable, held, fits, rfl⟩
      refine .inl ⟨_, written, ?_⟩
      refine healthy.withVars usable (Table.columns_modify _ _ _ _) bounded ?_
      exact Table.forall_modify filled fun row _ => ⟨kept, rfl, finite⟩
  | false =>
      right
      simp only [Database.setVariableValue, usable, held, bind, Except.bind]
      rfl

theorem createVariable (healthy : database.Healthy used) (room : used .vars < greatestId.toNat)
    (name : String) {value : Float} (solid : value.isFinite = true) :
    ∃ created after, database.createVariable name value = .ok (created, after) ∧
      after.Healthy (used.add (.one .vars)) := by
  obtain ⟨table, usable, bounded, filled⟩ := healthy.vars
  have next := Table.nextId?_of_lt (bounded.trans_lt room)
  obtain ⟨kept, fits, finite⟩ := valueCell_of_finite table solid
  refine ⟨_, _, createVariable_eq_ok_iff.2 ⟨table, _, _, usable, next, fits, rfl, rfl⟩, ?_⟩
  refine (healthy.mono (used.le_add _)).withVars usable (Table.columns_put _ _) ?_ ?_
  · rw [Table.lastId_put_next next rfl]
    exact Nat.add_le_add_right bounded 1
  · exact Table.forall_put filled ⟨kept, rfl, finite⟩

theorem createCalculation (healthy : database.Healthy used)
    (room : used .calculations < greatestId.toNat) (name expression : String)
    (references : List Int) :
    ∃ created after, database.createCalculation name expression references = .ok (created, after) ∧
      after.Healthy (used.add (.one .calculations)) := by
  obtain ⟨table, dependencies, usable, bounded, finite⟩ := healthy.calculations
  have next := Table.nextId?_of_lt (bounded.trans_lt room)
  refine ⟨_, _, createCalculation_eq_ok_iff.2 ⟨table, dependencies, _, usable, next, rfl, rfl⟩, ?_⟩
  refine (healthy.mono (used.le_add _)).withCalculations usable (Table.columns_put _ _)
    (DependencyTable.columns_foldl_put _ _ _) ?_ ?_
  · rw [Table.lastId_put_next next rfl]
    exact Nat.add_le_add_right bounded 1
  · exact Table.forall_put finite nofun

theorem createResource (healthy : database.Healthy used)
    (room : used .resources < greatestId.toNat) (name : String) {parent : Option Int}
    (attached : ∀ id, parent = some id → database.resourceExists id = .ok true) :
    ∃ created after, database.createResource name parent = .ok (created, after) ∧
      after.Healthy (used.add (.one .resources)) := by
  obtain ⟨table, usable, bounded⟩ := healthy.resources
  have next := Table.nextId?_of_lt (bounded.trans_lt room)
  have allowed : requireParent (table.put ⟨table.lastId + 1, name, parent⟩) parent = .ok () := by
    refine requireParent_eq_ok_iff.2 fun id under => ?_
    have held := attached id under
    simp only [resourceExists, usable] at held
    rw [Table.contains_put, Except.ok.inj held, Bool.or_true]
  refine ⟨_, _, createResource_eq_ok_iff.2 ⟨table, _, usable, next, rfl, allowed, rfl⟩, ?_⟩
  refine (healthy.mono (used.le_add _)).withResources usable (Table.columns_put _ _) ?_
  rw [Table.lastId_put_next next rfl]
  exact Nat.add_le_add_right bounded 1

end Healthy

end Database

namespace Demo

theorem parse_calculations : ∀ row ∈ calculations, ∃ expression,
    Expression.parse row.expression = .ok expression := by
  have parsed : ∀ row ∈ calculations, (Expression.parse row.expression).toOption.isSome = true := by
    decide +kernel
  intro row listed
  have read := parsed row listed
  cases found : Expression.parse row.expression with
  | ok expression => exact ⟨expression, rfl⟩
  | error fault =>
      rw [found] at read
      cases read

theorem index_of_parsed {listed : List Calculation} (dependencies : DependencyTable)
    (parsed : ∀ row ∈ listed, ∃ expression, Expression.parse row.expression = .ok expression) :
    ∃ indexed, index dependencies listed = .ok indexed := by
  induction listed generalizing dependencies with
  | nil => exact ⟨dependencies, rfl⟩
  | cons row rest ih =>
      obtain ⟨expression, read⟩ := parsed row List.mem_cons_self
      unfold index
      rw [read]
      exact ih _ fun other later => parsed other (List.mem_cons_of_mem _ later)

theorem filled_vars (table : Table StoredVariable) :
    ∀ row ∈ ((vars.map fun row => ⟨row.id, row.name, Database.cell row.value⟩).foldl Table.put
      table.reset).rows, StoredVariable.Filled row := by
  have finite : ∀ row ∈ vars, row.value.isFinite = true := by decide +kernel
  refine Table.forall_foldl_put nofun fun row listed => ?_
  obtain ⟨given, inside, rfl⟩ := List.mem_map.1 listed
  exact Database.cell_of_finite (finite given inside)

theorem finite_calculations (table : Table Calculation) :
    ∀ row ∈ (calculations.foldl Table.put table.reset).rows, row.Finite := by
  refine Table.forall_foldl_put nofun fun row listed value stored => ?_
  rw [Script.unvalued_calculations row listed] at stored
  cases stored

theorem lastId_newResources (table : Table Resource) :
    ((newResources table).foldl Table.put table).lastId ≤
      table.lastId + (newResources table).length := by
  have met (id : Int) :
      table.contains id = false ∨ table.contains id = true ∧ id ≤ table.lastId := by
    cases held : table.contains id with
    | false => exact .inl rfl
    | true =>
        obtain ⟨row, member, rfl⟩ := Table.contains_iff.1 held
        exact .inr ⟨rfl, table.bounded row member⟩
  rcases met 1 with held₁ | ⟨held₁, _⟩ <;> rcases met 2 with held₂ | ⟨held₂, _⟩ <;>
    rcases met 3 with held₃ | ⟨held₃, _⟩ <;>
    simp [newResources, resources, held₁, held₂, held₃, Table.put, Row.id] <;> omega

def created (added : Nat) : Tally
  | .vars => vars.length
  | .calculations => calculations.length
  | .resources => added
  | .dependencies => 0

theorem load_of_usable {database : Database} {oldVars : Table StoredVariable}
    {table : Table Calculation} {dependencies : DependencyTable} {held : Table Resource}
    (varsUsable : database.variableTable = .ok oldVars)
    (usable : database.calculationTables = .ok (table, dependencies))
    (resourcesUsable : database.resourceTable = .ok held) :
    ∃ indexed, index (dependencies.remove fun _ => true) calculations = .ok indexed ∧
      load database = .ok ((newResources held).length, { database with
        vars := some ((vars.map fun row => ⟨row.id, row.name, Database.cell row.value⟩).foldl
          Table.put oldVars.reset)
        calculations := some (calculations.foldl Table.put table.reset)
        dependencies := some indexed
        resources := some ((newResources held).foldl Table.put held) }) := by
  obtain ⟨_, varsPresent, varsNamed⟩ := Database.variableTable_eq_ok_iff.1 varsUsable
  obtain ⟨_, present, named⟩ := Database.resourceTable_eq_ok_iff.1 resourcesUsable
  obtain ⟨indexed, indexing⟩ := index_of_parsed (dependencies.remove fun _ => true) parse_calculations
  have filled := Database.fillable_of_named Table.columns ["id", "name", "value"] varsNamed
    (by decide)
  have found := Database.fillable_of_named Table.columns ["id", "name", "parentId"] named
    (by decide)
  refine ⟨indexed, indexing, ?_⟩
  simp only [load, usable, varsPresent, present, filled, found, indexing, bind, Except.bind]
  rfl

theorem load_of_healthy {database : Database} {used : Tally} (healthy : database.Healthy used) :
    ∃ added after, load database = .ok (added, after) ∧ after.Healthy (used.add (created added)) := by
  obtain ⟨oldVars, varsUsable, _⟩ := healthy.vars
  obtain ⟨table, dependencies, usable, _⟩ := healthy.calculations
  obtain ⟨held, resourcesUsable, bounded⟩ := healthy.resources
  obtain ⟨indexed, indexing, loaded⟩ := load_of_usable varsUsable usable resourcesUsable
  refine ⟨_, _, loaded, ?_⟩
  have more := healthy.mono (used.le_add (created (newResources held).length))
  have indexColumns : indexed.columns = (dependencies.remove fun _ => true).columns :=
    Database.columns_index indexing
  have withVars := more.withVars varsUsable (Table.columns_foldl_put _ oldVars.reset)
    (Nat.le_add_left vars.length _) (filled_vars oldVars)
  have withCalculations := withVars.withCalculations usable
    (Table.columns_foldl_put _ table.reset) indexColumns
    (Nat.le_add_left calculations.length _) (finite_calculations table)
  exact withCalculations.withResources resourcesUsable (Table.columns_foldl_put _ _)
    ((lastId_newResources held).trans (Nat.add_le_add_right bounded _))

end Demo

end Formulary
