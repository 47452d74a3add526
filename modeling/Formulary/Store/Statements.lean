import Formulary.Store.Connection
import Formulary.Store.Demo
import Formulary.Store.Maintenance

/-!
The changes that take more than one statement, statement by statement: calculations are stored with
their dependencies, expressions and dependencies are replaced, and the demonstration data is loaded.
-/

namespace Formulary

/-- The table as if it had never held other rows than it does. -/
def Table.restart {ρ : Type} [Row ρ] (table : Table ρ) : Table ρ :=
  table.rows.foldl Table.put (.empty table.columns)

namespace Script

open Database (fillable readable)
open Maintenance (Edit requireParents parentAllowed cascade)

def edit (edit : Edit) : Script Nat :=
  statement fun database => (edit database).mapError .ofStorage

def check : Script Unit := do
  let _ ← ask (·.calculationTables)

/-! Calculations and their dependencies. -/

def insertCalculation (name expression : String) : Script Calculation :=
  statement fun database => do
    let table ← (fillable .calculations ["name", "expression", "calculated_value"] Table.columns
      database.calculations).mapError .ofStorage
    match table.nextId? with
    | none => throw (.ofStorage .full)
    | some id =>
      let created : Calculation := ⟨id, name, expression, none⟩
      return (created, { database with calculations := some (table.put created) })

def calculationExists (id : Int) (database : Database) : Except StoreFault Bool := do
  let table ← (readable .calculations ["id"] Table.columns database.calculations).mapError
    .ofStorage
  return table.contains id

/-- Adds a dependency unless it is there already. -/
def addDependency (calculation variableId : Int) : Edit := fun database => do
  let table ← fillable .dependencies ["calculation_id", "variable_id"] DependencyTable.columns
    database.dependencies
  requireParents true database
  let row : Dependency := ⟨calculation, variableId⟩
  let present := decide (row ∈ table.rows)
  if !present && !database.calculations.any (·.contains calculation) then throw .danglingReference
  return (if present then 0 else 1, { database with dependencies := some (table.put row) })

def removeDependencies (calculation : Int) : Edit := fun database => do
  let table ← readable .dependencies ["calculation_id"] DependencyTable.columns
    database.dependencies
  requireParents true database
  let shorter := table.remove (·.calculation = calculation)
  return (table.rows.length - shorter.rows.length, { database with dependencies := some shorter })

def writeDependencies (calculation : Int) : List Int → Script Unit
  | [] => return ()
  | variableId :: rest => do
    let _ ← edit (addDependency calculation variableId)
    writeDependencies calculation rest

def createCalculation (name expression : String) (references : List Int) :
    Script Calculation := do
  check
  withSavepoint "create_calculation" do
    let created ← insertCalculation name expression
    writeDependencies created.id references
    return created

def setExpression (id : Int) (expression : String) (references : List Int) : Script Unit := do
  check
  withSavepoint "update_expression" do
    let changed ← edit (Maintenance.replaceExpression id expression)
    if changed = 0 then throw (.notFound .calculation id)
    let _ ← edit (removeDependencies id)
    writeDependencies id references

def replaceDependencies (id : Int) (references : List Int) : Script Unit :=
  withSavepoint "replace_dependencies" do
    let present ← ask (calculationExists id)
    if !present then throw (.notFound .calculation id)
    let _ ← edit (removeDependencies id)
    writeDependencies id references

def setDependencies (id : Int) (references : List Int) : Script Unit := do
  check
  replaceDependencies id references

/-! The demonstration data. -/

def removeCalculations : Edit := fun database => do
  let table ← readable .calculations [] Table.columns database.calculations
  return (table.rows.length,
    cascade table.contains { database with calculations := some (table.remove fun _ => true) })

def removeVariables : Edit := fun database => do
  let table ← readable .vars [] Table.columns database.vars
  return (table.rows.length, { database with vars := some (table.remove fun _ => true) })

def restartIds : Edit := fun database =>
  .ok (0, { database with
    vars := database.vars.map Table.restart
    calculations := database.calculations.map Table.restart })

/-- Adds a resource unless its id is taken already. -/
def addResource (resource : Resource) : Edit := fun database => do
  let table ← fillable .resources ["id", "name", "parentId"] Table.columns database.resources
  if table.contains resource.id then return (0, database)
  let longer := table.put resource
  if !parentAllowed true longer resource.parent then throw .danglingReference
  return (1, { database with resources := some longer })

def seedVariables : List Variable → Script Unit
  | [] => return ()
  | row :: rest => do
    let _ ← edit (Maintenance.addVariable row.id row.name row.value)
    seedVariables rest

def seedCalculations : List Calculation → Script Unit
  | [] => return ()
  | row :: rest => do
    match Expression.parse row.expression with
    | .error fault => throw (.invalidData s!"demo calculation {row.id}: {fault.message}")
    | .ok expression =>
      let _ ← edit (Maintenance.addCalculation row.id row.name row.expression)
      replaceDependencies row.id expression.references
      seedCalculations rest

def seedResources : List Resource → Script Nat
  | [] => return 0
  | row :: rest => do
    let added ← edit (addResource row)
    let more ← seedResources rest
    return added + more

/-- Empties the tables that are loaded as a whole, so that their ids start anew. -/
def clearTables : Script Unit := do
  let _ ← edit (Maintenance.clearDependencies true)
  let _ ← edit removeCalculations
  let _ ← edit removeVariables
  let _ ← edit restartIds

def refillVariables : Script Unit := do
  clearTables
  seedVariables Demo.vars

def fillTables : Script Nat := do
  refillVariables
  seedCalculations Demo.calculations
  seedResources Demo.resources

def loadDemo : Script Nat := do
  check
  withSavepoint "seed_demo_data" fillTables

def seed : Script Nat := do
  let added ← loadDemo
  record (.demoSeeded Demo.vars.length Demo.calculations.length added)
  return added

end Script

end Formulary
