import Formulary.Proofs.Operation
import Formulary.Proofs.Table
import Formulary.Store.Calculations
import Formulary.Store.Demo
import Formulary.Store.Resources
import Formulary.Store.Variables

/-!
When tables can be used, and what the operations on them give then: each one either finds its tables
usable and its rows in place, or leaves with a fault that no transaction ends over.
-/

namespace Formulary

namespace Database

variable {database after : Database} {τ : Type}

theorem usable_eq_ok_iff {name : TableName} {columns : τ → List Column} {present : Option τ}
    {table : τ} :
    database.usable name columns present = .ok table ↔
      database.requireVersion = .ok () ∧ present = some table ∧
        requireColumns name (columns table) = .ok () := by
  unfold usable
  rw [except_bind_eq_ok]
  cases present with
  | none => simp
  | some found =>
      simp only [except_bind_eq_ok, except_pure]
      grind

theorem variableTable_eq_ok_iff {table : Table StoredVariable} :
    database.variableTable = .ok table ↔
      database.requireVersion = .ok () ∧ database.vars = some table ∧
        requireColumns .vars table.columns = .ok () :=
  usable_eq_ok_iff

theorem resourceTable_eq_ok_iff {table : Table Resource} :
    database.resourceTable = .ok table ↔
      database.requireVersion = .ok () ∧ database.resources = some table ∧
        requireColumns .resources table.columns = .ok () :=
  usable_eq_ok_iff

theorem calculationTables_eq_ok_iff {calculations : Table Calculation}
    {dependencies : DependencyTable} :
    database.calculationTables = .ok (calculations, dependencies) ↔
      database.requireVersion = .ok () ∧ database.calculations = some calculations ∧
        requireColumns .calculations calculations.columns = .ok () ∧
        database.dependencies = some dependencies ∧
        requireColumns .dependencies dependencies.columns = .ok () := by
  unfold calculationTables
  simp only [except_bind_eq_ok, usable_eq_ok_iff, except_pure, Except.ok.injEq,
    Prod.mk.injEq]
  grind

theorem variableTable_withVars {table changed : Table StoredVariable}
    (usable : database.variableTable = .ok table) (columns : changed.columns = table.columns) :
    { database with vars := some changed }.variableTable = .ok changed := by
  obtain ⟨version, _, named⟩ := variableTable_eq_ok_iff.1 usable
  rw [variableTable_eq_ok_iff, columns]
  exact ⟨version, rfl, named⟩

theorem calculationTables_withCalculations {calculations changed : Table Calculation}
    {dependencies indexed : DependencyTable}
    (usable : database.calculationTables = .ok (calculations, dependencies))
    (columns : changed.columns = calculations.columns)
    (indexColumns : indexed.columns = dependencies.columns) :
    (database.withCalculations changed indexed).calculationTables = .ok (changed, indexed) := by
  obtain ⟨version, _, named, _, indexNamed⟩ := calculationTables_eq_ok_iff.1 usable
  rw [calculationTables_eq_ok_iff, columns, indexColumns]
  exact ⟨version, rfl, named, rfl, indexNamed⟩

theorem usable_lasting {name : TableName} {columns : τ → List Column} {present : Option τ}
    {reason : StoreFault} (refused : database.usable name columns present = .error reason) :
    endsTransaction reason = false := by
  unfold usable at refused
  rcases except_bind_eq_error.1 refused with refused | ⟨_, _, refused⟩
  · unfold requireVersion recordedVersion at refused
    split at refused
    · rename_i found
      split at found
      · cases found
        cases refused
        rfl
      · cases found
    · split at refused <;> cases refused
      rfl
  · cases present with
    | none =>
        cases refused
        rfl
    | some table =>
        rcases except_bind_eq_error.1 refused with refused | ⟨_, _, refused⟩
        · unfold requireColumns at refused
          split at refused <;> cases refused
          rfl
        · cases refused

theorem calculationTables_lasting {reason : StoreFault}
    (refused : database.calculationTables = .error reason) : endsTransaction reason = false := by
  unfold calculationTables at refused
  rcases except_bind_eq_error.1 refused with refused | ⟨_, _, refused⟩
  · exact usable_lasting refused
  · rcases except_bind_eq_error.1 refused with refused | ⟨_, _, refused⟩
    · exact usable_lasting refused
    · cases refused

theorem createVariable_eq_ok_iff {name : String} {value : Float} {created : Variable} :
    database.createVariable name value = .ok (created, after) ↔
      ∃ table id stored, database.variableTable = .ok table ∧ table.nextId? = some id ∧
        valueCell table value = .ok stored ∧ created = ⟨id, name, value⟩ ∧
        after = { database with vars := some (table.put ⟨id, name, stored⟩) } := by
  unfold createVariable
  rw [except_bind_eq_ok]
  constructor
  · rintro ⟨table, usable, ran⟩
    cases next : table.nextId? with
    | none => simp [next] at ran
    | some id =>
        simp only [next, except_bind_eq_ok] at ran
        obtain ⟨stored, fits, same⟩ := ran
        cases same
        exact ⟨table, id, stored, usable, next, fits, rfl, rfl⟩
  · rintro ⟨table, id, stored, usable, next, fits, rfl, rfl⟩
    refine ⟨table, usable, ?_⟩
    simp only [next, except_bind_eq_ok]
    exact ⟨stored, fits, rfl⟩

theorem setVariableValue_eq_ok_iff {id : Int} {value : Float} :
    database.setVariableValue id value = .ok after ↔
      ∃ table stored, database.variableTable = .ok table ∧ table.contains id = true ∧
        valueCell table value = .ok stored ∧
        after = { database with vars := some (withValue table id stored) } := by
  unfold setVariableValue
  rw [except_bind_eq_ok]
  constructor
  · rintro ⟨table, usable, ran⟩
    cases held : table.contains id with
    | false => simp [held, bind, Except.bind] at ran
    | true =>
        simp only [held] at ran
        obtain ⟨stored, fits, same⟩ := except_bind_eq_ok.1 ran
        cases same
        exact ⟨table, stored, usable, held, fits, rfl⟩
  · rintro ⟨table, stored, usable, held, fits, rfl⟩
    refine ⟨table, usable, ?_⟩
    simp only [held]
    exact except_bind_eq_ok.2 ⟨stored, fits, rfl⟩

theorem setVariableValue_lasting {id : Int} {value : Float} {reason : StoreFault}
    (refused : database.setVariableValue id value = .error reason) :
    endsTransaction reason = false := by
  unfold setVariableValue at refused
  rcases except_bind_eq_error.1 refused with refused | ⟨table, _, refused⟩
  · exact usable_lasting refused
  · cases held : table.contains id with
    | false =>
        simp only [held] at refused
        cases refused
        rfl
    | true =>
        simp only [held] at refused
        rcases except_bind_eq_error.1 refused with refused | ⟨_, _, refused⟩
        · unfold valueCell at refused
          split at refused
          · cases refused
          · split at refused <;> cases refused
            rfl
        · cases refused

theorem createCalculation_eq_ok_iff {name expression : String} {references : List Int}
    {created : Calculation} :
    database.createCalculation name expression references = .ok (created, after) ↔
      ∃ calculations dependencies id,
        database.calculationTables = .ok (calculations, dependencies) ∧
        calculations.nextId? = some id ∧ created = ⟨id, name, expression, none⟩ ∧
        after = database.withCalculations (calculations.put created)
          (references.foldl (fun table variableId => table.put ⟨id, variableId⟩) dependencies) := by
  unfold createCalculation
  rw [except_bind_eq_ok]
  constructor
  · rintro ⟨⟨calculations, dependencies⟩, usable, ran⟩
    cases next : calculations.nextId? with
    | none => simp [next] at ran
    | some id =>
        simp only [next] at ran
        cases ran
        exact ⟨calculations, dependencies, id, usable, next, rfl, rfl⟩
  · rintro ⟨calculations, dependencies, id, usable, next, rfl, rfl⟩
    refine ⟨(calculations, dependencies), usable, ?_⟩
    simp only [next]
    rfl

theorem findCalculation_eq_ok_iff {id : Int} {found : Option Calculation} :
    database.findCalculation id = .ok found ↔
      ∃ calculations dependencies,
        database.calculationTables = .ok (calculations, dependencies) ∧
        found = calculations.find? id := by
  unfold findCalculation
  rw [except_bind_eq_ok]
  constructor
  · rintro ⟨⟨calculations, dependencies⟩, usable, same⟩
    cases same
    exact ⟨calculations, dependencies, usable, rfl⟩
  · rintro ⟨calculations, dependencies, usable, rfl⟩
    exact ⟨(calculations, dependencies), usable, rfl⟩

section

variable {id : Int} {write : Table Calculation → DependencyTable → Database}

theorem changeCalculation_eq_ok_iff :
    database.changeCalculation id write = .ok after ↔
      ∃ calculations dependencies,
        database.calculationTables = .ok (calculations, dependencies) ∧
        calculations.contains id = true ∧ after = write calculations dependencies := by
  unfold changeCalculation
  rw [except_bind_eq_ok]
  constructor
  · rintro ⟨⟨calculations, dependencies⟩, usable, ran⟩
    cases held : calculations.contains id with
    | false => simp [held, bind, Except.bind] at ran
    | true =>
        simp only [held] at ran
        cases ran
        exact ⟨calculations, dependencies, usable, held, rfl⟩
  · rintro ⟨calculations, dependencies, usable, held, rfl⟩
    refine ⟨(calculations, dependencies), usable, ?_⟩
    simp only [held]
    rfl

theorem changeCalculation_lasting {reason : StoreFault}
    (refused : database.changeCalculation id write = .error reason) :
    endsTransaction reason = false := by
  unfold changeCalculation at refused
  rcases except_bind_eq_error.1 refused with refused | ⟨⟨calculations, _⟩, _, refused⟩
  · exact calculationTables_lasting refused
  · cases held : calculations.contains id with
    | false =>
        simp only [held] at refused
        cases refused
        rfl
    | true =>
        simp only [held] at refused
        cases refused

end

theorem setExpression_eq_ok_iff {id : Int} {expression : String} {references : List Int} :
    database.setExpression id expression references = .ok after ↔
      ∃ calculations dependencies,
        database.calculationTables = .ok (calculations, dependencies) ∧
        calculations.contains id = true ∧
        after = database.withCalculations (withExpression calculations id expression)
          (dependencies.assign id references) :=
  changeCalculation_eq_ok_iff

theorem setCalculatedValue_eq_ok_iff {id : Int} {value : Float} :
    database.setCalculatedValue id value = .ok after ↔
      ∃ calculations dependencies,
        database.calculationTables = .ok (calculations, dependencies) ∧
        calculations.contains id = true ∧
        after = database.withCalculations (withCalculatedValue calculations id (cell value))
          dependencies :=
  changeCalculation_eq_ok_iff

theorem setDependencies_eq_ok_iff {id : Int} {references : List Int} :
    database.setDependencies id references = .ok after ↔
      ∃ calculations dependencies,
        database.calculationTables = .ok (calculations, dependencies) ∧
        calculations.contains id = true ∧
        after = database.withCalculations calculations (dependencies.assign id references) :=
  changeCalculation_eq_ok_iff

theorem dependentsOf_listed {calculations : Table Calculation} {dependencies : DependencyTable}
    (usable : database.calculationTables = .ok (calculations, dependencies)) (variableId : Int) :
    ∃ found, database.dependentsOf variableId = .ok found ∧ found.Pairwise (·.id < ·.id) ∧
      ∀ row, row ∈ found ↔
        row ∈ calculations.rows ∧ ⟨row.id, variableId⟩ ∈ dependencies.rows := by
  refine ⟨_, except_bind_eq_ok.2 ⟨_, usable, rfl⟩, calculations.sorted.filter _, ?_⟩
  intro row
  rw [List.mem_filter, decide_eq_true_iff]

theorem requireParent_eq_ok_iff {table : Table Resource} {parent : Option Int} :
    requireParent table parent = .ok () ↔ ∀ id, parent = some id → table.contains id = true := by
  cases parent <;> simp [requireParent]

theorem createResource_eq_ok_iff {name : String} {parent : Option Int} {created : Resource} :
    database.createResource name parent = .ok (created, after) ↔
      ∃ table id, database.resourceTable = .ok table ∧ table.nextId? = some id ∧
        created = ⟨id, name, parent⟩ ∧ requireParent (table.put created) parent = .ok () ∧
        after = { database with resources := some (table.put created) } := by
  unfold createResource
  rw [except_bind_eq_ok]
  constructor
  · rintro ⟨table, usable, ran⟩
    cases next : table.nextId? with
    | none => simp [next] at ran
    | some id =>
        simp only [next, except_bind_eq_ok] at ran
        obtain ⟨_, allowed, same⟩ := ran
        cases same
        exact ⟨table, id, usable, next, rfl, allowed, rfl⟩
  · rintro ⟨table, id, usable, next, rfl, allowed, rfl⟩
    refine ⟨table, usable, ?_⟩
    simp only [next, except_bind_eq_ok]
    exact ⟨(), allowed, rfl⟩

theorem setParent_eq_ok_iff {id parent : Int} :
    database.setParent id parent = .ok after ↔
      ∃ table, database.resourceTable = .ok table ∧ table.contains id = true ∧
        table.contains parent = true ∧
        after = { database with resources := some (withParent table id (some parent)) } := by
  unfold setParent
  rw [except_bind_eq_ok]
  constructor
  · rintro ⟨table, usable, ran⟩
    cases held : table.contains id with
    | false => simp [held, bind, Except.bind] at ran
    | true =>
        simp only [held] at ran
        obtain ⟨_, allowed, same⟩ := except_bind_eq_ok.1 ran
        cases same
        exact ⟨table, usable, held, requireParent_eq_ok_iff.1 allowed parent rfl, rfl⟩
  · rintro ⟨table, usable, held, parentHeld, rfl⟩
    refine ⟨table, usable, ?_⟩
    simp only [held]
    refine except_bind_eq_ok.2 ⟨(), requireParent_eq_ok_iff.2 ?_, rfl⟩
    intro other same
    cases same
    exact parentHeld

theorem setParent_lasting {id parent : Int} {reason : StoreFault}
    (refused : database.setParent id parent = .error reason) : endsTransaction reason = false := by
  unfold setParent at refused
  rcases except_bind_eq_error.1 refused with refused | ⟨table, _, refused⟩
  · exact usable_lasting refused
  · cases held : table.contains id with
    | false =>
        simp only [held] at refused
        cases refused
        rfl
    | true =>
        simp only [held] at refused
        rcases except_bind_eq_error.1 refused with refused | ⟨_, _, refused⟩
        · unfold requireParent at refused
          split at refused <;> cases refused
          rfl
        · cases refused

end Database

theorem Database.fillable_eq_ok {τ : Type} {name : TableName} {wanted : List String}
    {columns : τ → List Column} {present : Option τ} {table : τ}
    (found : Database.fillable name wanted columns present = .ok table) : present = some table := by
  unfold Database.fillable at found
  cases present with
  | none => simp at found
  | some given =>
      dsimp only at found
      split at found
      · cases found
      · cases found
        rfl

theorem Database.fillable_lasting {τ : Type} {name : TableName} {wanted : List String}
    {columns : τ → List Column} {present : Option τ} {reason : StorageFault}
    (refused : Database.fillable name wanted columns present = .error reason) :
    endsTransaction reason = false := by
  unfold Database.fillable at refused
  cases present with
  | none =>
      cases refused
      rfl
  | some table =>
      dsimp only at refused
      split at refused <;> cases refused
      rfl

theorem Demo.load_eq_ok {database after : Database} {added : Nat}
    (loaded : Demo.load database = .ok (added, after)) :
    ∃ calculations dependencies index vars resources,
      database.calculationTables = .ok (calculations, dependencies) ∧
      Demo.index (dependencies.remove fun _ => true) Demo.calculations = .ok index ∧
      database.vars = some vars ∧ database.resources = some resources ∧
      after = { database with
        vars := some ((Demo.vars.map fun row =>
          ⟨row.id, row.name, Database.cell row.value⟩).foldl Table.put vars.reset)
        calculations := some (Demo.calculations.foldl Table.put calculations.reset)
        dependencies := some index
        resources := some ((Demo.newResources resources).foldl Table.put resources) } := by
  unfold Demo.load at loaded
  simp only [except_bind_eq_ok] at loaded
  obtain ⟨⟨calculations, dependencies⟩, usable, vars, varsFound, index, indexed, resources,
    resourcesFound, answered⟩ := loaded
  cases answered
  exact ⟨calculations, dependencies, index, vars, resources, usable, indexed,
    Database.fillable_eq_ok (mapError_eq_ok.1 varsFound),
    Database.fillable_eq_ok (mapError_eq_ok.1 resourcesFound), rfl⟩

theorem Demo.index_lasting {dependencies : DependencyTable} {listed : List Calculation}
    {reason : StoreFault} (refused : Demo.index dependencies listed = .error reason) :
    endsTransaction reason = false := by
  induction listed generalizing dependencies with
  | nil => cases refused
  | cons calculation rest ih =>
      unfold Demo.index at refused
      split at refused
      · exact ih refused
      · cases refused
        rfl

theorem Demo.load_lasting {database : Database} {reason : StoreFault}
    (refused : Demo.load database = .error reason) : endsTransaction reason = false := by
  have filled {τ : Type} {name : TableName} {wanted : List String} {columns : τ → List Column}
      {present : Option τ} (failed : (Database.fillable name wanted columns present).mapError
        StoreFault.ofStorage = .error reason) : endsTransaction reason = false := by
    cases found : Database.fillable name wanted columns present with
    | ok table => simp [found] at failed
    | error why =>
        rw [found] at failed
        cases failed
        exact Database.fillable_lasting found
  unfold Demo.load at refused
  rcases except_bind_eq_error.1 refused with refused | ⟨⟨_, _⟩, _, refused⟩
  · exact Database.calculationTables_lasting refused
  rcases except_bind_eq_error.1 refused with refused | ⟨_, _, refused⟩
  · exact filled refused
  rcases except_bind_eq_error.1 refused with refused | ⟨_, _, refused⟩
  · exact index_lasting refused
  rcases except_bind_eq_error.1 refused with refused | ⟨_, _, refused⟩
  · exact filled refused
  · cases refused

end Formulary
