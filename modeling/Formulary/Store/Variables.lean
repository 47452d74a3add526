import Formulary.Store.Database

/-!
Variables in the database.
-/

namespace Formulary.Database

def readVariable (row : StoredVariable) : Except StoreFault Variable :=
  match row.value with
  | some value => .ok ⟨row.id, row.name, value⟩
  | none => .error (.ofStorage (.emptyCell 2 "value"))

/-- The cell for a value, which may be empty only if the table does not require values. -/
def valueCell (table : Table StoredVariable) (value : Float) :
    Except StoreFault (Option Float) :=
  match cell value with
  | some stored => .ok (some stored)
  | none =>
    if table.columns.any fun column => column.name = "value" && column.required then
      .error (.ofStorage (.missingValue "variables.value"))
    else .ok none

def createVariable (database : Database) (name : String) (value : Float) :
    Except StoreFault (Variable × Database) := do
  let table ← database.variableTable
  match table.nextId? with
  | none => throw (.ofStorage .full)
  | some id =>
    let stored ← valueCell table value
    return (⟨id, name, value⟩, { database with vars := some (table.put ⟨id, name, stored⟩) })

def findVariable (database : Database) (id : Int) : Except StoreFault (Option Variable) := do
  match (← database.variableTable).find? id with
  | some row => return some (← readVariable row)
  | none => return none

def variableValue (database : Database) (id : Int) : Except StoreFault (Option Float) := do
  match (← database.variableTable).find? id with
  | none => return none
  | some row =>
    match row.value with
    | some value => return some value
    | none => throw (.invalidData s!"variables.value is NULL for id {id}")

def listVariables (database : Database) : Except StoreFault (List Variable) := do
  (← database.variableTable).rows.mapM readVariable

def setVariableValue (database : Database) (id : Int) (value : Float) :
    Except StoreFault Database := do
  let table ← database.variableTable
  if !table.contains id then throw (.notFound .variable id)
  let stored ← valueCell table value
  return { database with vars := some (withValue table id stored) }

end Formulary.Database
