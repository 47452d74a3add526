import Formulary.Store.Columns

/-!
Edits of the tables by hand, past the rules that the other operations keep. They are how a store
comes to hold dangling parents, dependencies of no calculation, expressions that do not parse, or
tables of another form. `guarded` says whether references between rows are enforced.

Tables are found whatever the capitals in their names. Each edit gives the number of rows that it
changed.
-/

namespace Formulary.Maintenance

open Database (sameName columnText fillable readable)

abbrev Edit : Type := Database → Except StorageFault (Nat × Database)

def tableNamed? (name : String) : Option TableName :=
  [.vars, .calculations, .dependencies, .resources].find? (sameName ·.text name)

def requireFree {ρ : Type} [Row ρ] (name : TableName) (table : Table ρ) (id : Int) :
    Except StorageFault Unit :=
  if table.contains id then .error (.duplicateKey [columnText name table.columns "id"]) else .ok ()

def addVariable (id : Int) (name : String) (value : Float) : Edit := fun database => do
  let table ← fillable .vars ["id", "name", "value"] Table.columns database.vars
  let stored := Database.cell value
  if stored.isNone && table.columns.any fun column =>
      sameName column.name "value" && column.required then
    throw (.missingValue (columnText .vars table.columns "value"))
  requireFree .vars table id
  return (1, { database with vars := some (table.put ⟨id, name, stored⟩) })

def addCalculation (id : Int) (name expression : String) : Edit := fun database => do
  let table ← fillable .calculations ["id", "name", "expression"] Table.columns
    database.calculations
  requireFree .calculations table id
  return (1, { database with calculations := some (table.put ⟨id, name, expression, none⟩) })

def replaceExpression (id : Int) (expression : String) : Edit := fun database => do
  let table ← readable .calculations ["expression", "id"] Table.columns database.calculations
  if !table.contains id then return (0, database)
  return (1, { database with
    calculations := some (Database.withExpression table id expression) })

/-- Guarded, dependencies can only be edited while there is a table for what they depend on. -/
def requireParents (guarded : Bool) (database : Database) : Except StorageFault Unit :=
  if guarded && database.calculations.isNone then .error (.noSuchTable "main.calculations")
  else .ok ()

def addDependency (guarded : Bool) (calculation variableId : Int) : Edit := fun database => do
  let table ← fillable .dependencies ["calculation_id", "variable_id"] DependencyTable.columns
    database.dependencies
  requireParents guarded database
  let row : Dependency := ⟨calculation, variableId⟩
  if row ∈ table.rows then
    throw (.duplicateKey
      (["calculation_id", "variable_id"].map (columnText .dependencies table.columns)))
  if guarded && !database.calculations.any (·.contains calculation) then throw .danglingReference
  return (1, { database with dependencies := some (table.put row) })

def clearDependencies (guarded : Bool) : Edit := fun database => do
  let table ← readable .dependencies [] DependencyTable.columns database.dependencies
  requireParents guarded database
  return (table.rows.length, { database with dependencies := some (table.remove fun _ => true) })

def parentAllowed (guarded : Bool) (table : Table Resource) (parent : Option Int) : Bool :=
  !guarded || parent.all table.contains

def addResource (guarded : Bool) (id : Int) (name : String) (parent : Option Int) : Edit :=
  fun database => do
    let table ← fillable .resources ["id", "name", "parentId"] Table.columns database.resources
    requireFree .resources table id
    let longer := table.put ⟨id, name, parent⟩
    if !parentAllowed guarded longer parent then throw .danglingReference
    return (1, { database with resources := some longer })

def replaceParent (guarded : Bool) (id : Int) (parent : Option Int) : Edit := fun database => do
  let table ← readable .resources ["parentId", "id"] Table.columns database.resources
  if !table.contains id then return (0, database)
  if !parentAllowed guarded table parent then throw .danglingReference
  return (1, { database with
    resources := some (Database.withParent table id parent) })

def cascade (gone : Int → Bool) (database : Database) : Database :=
  { database with
    dependencies := database.dependencies.map (·.remove fun row => gone row.calculation) }

def cellOf (table : DependencyTable) (row : Dependency) (column : String) : Option Int :=
  let cells := table.columns.zip [row.calculation, row.variableId]
  (cells.find? (sameName ·.1.name column)).map (·.2)

/-- Deletes the row with the given id. Guarded, its dependencies go with a calculation, and a
resource that is a parent stays. -/
def deleteRow (guarded : Bool) (name : String) (id : Int) : Edit := fun database => do
  let count {ρ : Type} [Row ρ] (table : Table ρ) := if table.contains id then 1 else 0
  match tableNamed? name with
  | none => throw (.noSuchTable name)
  | some .vars =>
    let table ← readable .vars ["id"] Table.columns database.vars
    return (count table, { database with vars := some (table.remove (·.id = id)) })
  | some .calculations =>
    let table ← readable .calculations ["id"] Table.columns database.calculations
    let shorter := { database with calculations := some (table.remove (·.id = id)) }
    return (count table,
      if guarded && table.contains id then cascade (· = id) shorter else shorter)
  | some .dependencies =>
    let table ← readable .dependencies ["id"] DependencyTable.columns database.dependencies
    requireParents guarded database
    let shorter := table.remove fun row => cellOf table row "id" = some id
    return (table.rows.length - shorter.rows.length, { database with dependencies := some shorter })
  | some .resources =>
    let table ← readable .resources ["id"] Table.columns database.resources
    let shorter := table.remove (·.id = id)
    if guarded && table.contains id && shorter.rows.any (·.parent = some id) then
      throw .danglingReference
    return (count table, { database with resources := some shorter })

def greatestVersion : Int := 2147483647

/-- Records another version; one that does not fit 32 bits counts as zero. -/
def recordVersion (version : Int) (database : Database) : Database :=
  let fits := -greatestVersion ≤ version + 1 ∧ version ≤ greatestVersion
  { database with version := if fits then version else 0 }

/-- Removes a table. Guarded, its rows are deleted first. -/
def dropTable (guarded : Bool) (name : String) (database : Database) :
    Except StorageFault Database := do
  match tableNamed? name with
  | none => throw (.noSuchTable name)
  | some .vars =>
    let _ ← readable .vars [] Table.columns database.vars
    return { database with vars := none }
  | some .calculations =>
    let table ← readable .calculations [] Table.columns database.calculations
    let without := { database with calculations := none }
    return if guarded then cascade table.contains without else without
  | some .dependencies =>
    let _ ← readable .dependencies [] DependencyTable.columns database.dependencies
    return { database with dependencies := none }
  | some .resources =>
    let _ ← readable .resources [] Table.columns database.resources
    return { database with resources := none }

def repeated? : List Column → Option Column
  | [] => none
  | column :: rest =>
    match rest.find? (sameName ·.name column.name) with
    | some again => some again
    | none => repeated? rest

def renameIn (name : TableName) (columns : List Column) (old new : String) :
    Except StorageFault (List Column) :=
  let renamed := columns.map fun column =>
    if sameName column.name old then { column with name := new } else column
  if !columns.any (sameName ·.name old) then .error (.noColumnToRename old)
  else match repeated? renamed with
    | some column => .error (.duplicateColumn name.text column.name)
    | none => .ok renamed

def renameColumn (name old new : String) (database : Database) :
    Except StorageFault Database := do
  match tableNamed? name with
  | none => throw (.noSuchTable name)
  | some .vars =>
    let table ← readable .vars [] Table.columns database.vars
    let columns ← renameIn .vars table.columns old new
    return { database with vars := some (table.withColumns columns) }
  | some .calculations =>
    let table ← readable .calculations [] Table.columns database.calculations
    let columns ← renameIn .calculations table.columns old new
    return { database with calculations := some (table.withColumns columns) }
  | some .dependencies =>
    let table ← readable .dependencies [] DependencyTable.columns database.dependencies
    let columns ← renameIn .dependencies table.columns old new
    return { database with dependencies := some (table.withColumns columns) }
  | some .resources =>
    let table ← readable .resources [] Table.columns database.resources
    let columns ← renameIn .resources table.columns old new
    return { database with resources := some (table.withColumns columns) }

/-- The table of variables rebuilt so that values may be missing, with the same rows and one whose
value is. -/
def admitMissingValue (id : Int) (database : Database) : Except StorageFault Database := do
  let table ← readable .vars ["id", "name", "value"] Table.columns database.vars
  let columns := TableName.vars.columns.map fun column =>
    if column.name = "value" then { column with required := false } else column
  let rebuilt : Table StoredVariable := table.rows.foldl Table.put (.empty columns)
  return { database with vars := some (rebuilt.put ⟨id, "nil", none⟩) }

def listResources (database : Database) : Except StorageFault (List Resource) := do
  return (← readable .resources ["id", "name", "parentId"] Table.columns database.resources).rows

end Formulary.Maintenance
