import Formulary.Store.Fault
import Formulary.Store.Table

/-!
The database: the tables that are present, and the version of the schema that they are recorded to
have. Every operation on a table first makes sure that the version is the one it is written for
and that the table has the columns it uses.
-/

namespace Formulary

structure StoredVariable where
  id : Int
  name : String
  /-- Empty only in a table that does not require values. -/
  value : Option Float

instance : Row StoredVariable := ⟨StoredVariable.id⟩
instance : Row Calculation := ⟨Calculation.id⟩
instance : Row Resource := ⟨Resource.id⟩

inductive TableName
  | vars
  | calculations
  | dependencies
  | resources
  deriving DecidableEq, Repr

namespace TableName

def text : TableName → String
  | vars => "variables"
  | calculations => "calculations"
  | dependencies => "calculation_dependencies"
  | resources => "singleresource"

def columns : TableName → List Column
  | vars => [⟨"id", true⟩, ⟨"name", true⟩, ⟨"value", true⟩]
  | calculations =>
    [⟨"id", true⟩, ⟨"name", true⟩, ⟨"expression", true⟩, ⟨"calculated_value", false⟩]
  | dependencies => [⟨"calculation_id", true⟩, ⟨"variable_id", true⟩]
  | resources => [⟨"id", true⟩, ⟨"name", true⟩, ⟨"parentId", false⟩]

end TableName

structure Database where
  version : Int
  vars : Option (Table StoredVariable)
  calculations : Option (Table Calculation)
  dependencies : Option DependencyTable
  resources : Option (Table Resource)

namespace Database

def blank : Database :=
  ⟨0, none, none, none, none⟩

def latestVersion : Nat := 2

/-- The recorded version, which is a natural number unless somebody tampered with it. -/
def recordedVersion (database : Database) : Except StorageFault Nat :=
  if database.version < 0 then .error (.versionOutOfRange database.version)
  else .ok database.version.toNat

def requireVersion (database : Database) : Except StoreFault Unit :=
  match database.recordedVersion with
  | .error fault => .error (.ofStorage fault)
  | .ok found =>
    if found = latestVersion then .ok () else .error (.wrongVersion latestVersion found)

def requireColumns (table : TableName) (present : List Column) : Except StoreFault Unit :=
  match table.columns.find? fun column => !present.any (·.name = column.name) with
  | some column => .error (.missingColumn table.text column.name)
  | none => .ok ()

def usable (database : Database) (name : TableName) (columns : τ → List Column)
    (present : Option τ) : Except StoreFault τ := do
  database.requireVersion
  match present with
  | none => throw (.missingTable name.text)
  | some table =>
    requireColumns name (columns table)
    return table

def variableTable (database : Database) : Except StoreFault (Table StoredVariable) :=
  database.usable .vars Table.columns database.vars

def resourceTable (database : Database) : Except StoreFault (Table Resource) :=
  database.usable .resources Table.columns database.resources

def calculationTables (database : Database) :
    Except StoreFault (Table Calculation × DependencyTable) := do
  let calculations ← database.usable .calculations Table.columns database.calculations
  let dependencies ← database.usable .dependencies DependencyTable.columns database.dependencies
  return (calculations, dependencies)

def withValue (table : Table StoredVariable) (id : Int) (value : Option Float) :
    Table StoredVariable :=
  table.modify id (fun row => { row with value := value }) fun _ => rfl

def withCalculatedValue (table : Table Calculation) (id : Int) (value : Option Float) :
    Table Calculation :=
  table.modify id (fun row => { row with value := value }) fun _ => rfl

def withParent (table : Table Resource) (id : Int) (parent : Option Int) : Table Resource :=
  table.modify id (fun row => { row with parent := parent }) fun _ => rfl

def withExpression (table : Table Calculation) (id : Int) (expression : String) :
    Table Calculation :=
  table.modify id (fun row => { row with expression := expression }) fun _ => rfl

/-- A number as a cell holds it: what is no number leaves the cell empty, and the two zeros are
one. -/
def cell (x : Float) : Option Float :=
  if x.isNaN then none else if x == 0 then some 0 else some x

end Database

end Formulary
