import Formulary.Store.Database

/-!
Calculations in the database, and the index of the variables that their expressions mention.
-/

namespace Formulary.Database

def withCalculations (database : Database) (calculations : Table Calculation)
    (dependencies : DependencyTable) : Database :=
  { database with calculations := some calculations, dependencies := some dependencies }

def createCalculation (database : Database) (name expression : String) (references : List Int) :
    Except StoreFault (Calculation × Database) := do
  let (calculations, dependencies) ← database.calculationTables
  match calculations.nextId? with
  | none => throw (.ofStorage .full)
  | some id =>
    let created : Calculation := ⟨id, name, expression, none⟩
    return (created, database.withCalculations (calculations.put created)
      (references.foldl (fun table variableId => table.put ⟨id, variableId⟩) dependencies))

def findCalculation (database : Database) (id : Int) :
    Except StoreFault (Option Calculation) := do
  return (← database.calculationTables).1.find? id

def listCalculations (database : Database) : Except StoreFault (List Calculation) := do
  return (← database.calculationTables).1.rows

def changeCalculation (database : Database) (id : Int)
    (write : Table Calculation → DependencyTable → Database) : Except StoreFault Database := do
  let (calculations, dependencies) ← database.calculationTables
  if !calculations.contains id then throw (.notFound .calculation id)
  return write calculations dependencies

def setExpression (database : Database) (id : Int) (expression : String)
    (references : List Int) : Except StoreFault Database :=
  database.changeCalculation id fun calculations dependencies =>
    database.withCalculations (withExpression calculations id expression)
      (dependencies.assign id references)

def setCalculatedValue (database : Database) (id : Int) (value : Float) :
    Except StoreFault Database :=
  database.changeCalculation id fun calculations dependencies =>
    database.withCalculations (withCalculatedValue calculations id (cell value)) dependencies

def setDependencies (database : Database) (id : Int) (references : List Int) :
    Except StoreFault Database :=
  database.changeCalculation id fun calculations dependencies =>
    database.withCalculations calculations (dependencies.assign id references)

def dependenciesOf (database : Database) (id : Int) : Except StoreFault (List Int) := do
  let (_, dependencies) ← database.calculationTables
  return (dependencies.rows.filter (·.calculation = id)).map (·.variableId)

def dependentsOf (database : Database) (variableId : Int) :
    Except StoreFault (List Calculation) := do
  let (calculations, dependencies) ← database.calculationTables
  return calculations.rows.filter fun row => ⟨row.id, variableId⟩ ∈ dependencies.rows

end Formulary.Database
