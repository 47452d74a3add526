import Formulary.Json.Printer
import Formulary.Json.Reader
import Formulary.Store.Database

/-!
The text in which a file keeps a database. It is a JSON value in which every number of a cell is
given by its bits, so that reading it back gives the number that was written.
-/

namespace Formulary.Snapshot

/-! Writing. -/

def ofColumn (column : Column) : Json :=
  .array [.text column.name, .boolean column.required]

def ofColumns (columns : List Column) : Json :=
  .array (columns.map ofColumn)

def ofReal (x : Float) : Json :=
  .integer x.toBits.toNat

def ofTable {ρ : Type} [Row ρ] (ofRow : ρ → List Json) (table : Table ρ) : Json :=
  .ofFields [("columns", ofColumns table.columns), ("lastId", .integer table.lastId),
    ("rows", .array (table.rows.map fun row => .array (ofRow row)))]

def ofVariable (row : StoredVariable) : List Json :=
  [.integer row.id, .text row.name, .ofOption ofReal row.value]

def ofCalculation (row : Calculation) : List Json :=
  [.integer row.id, .text row.name, .text row.expression, .ofOption ofReal row.value]

def ofResource (row : Resource) : List Json :=
  [.integer row.id, .text row.name, .ofOption .integer row.parent]

def ofDependencies (table : DependencyTable) : Json :=
  .ofFields [("columns", ofColumns table.columns),
    ("rows", .array (table.rows.map fun row =>
      .array [.integer row.calculation, .integer row.variableId]))]

def ofDatabase (database : Database) : Json :=
  .ofFields [("version", .integer database.version),
    ("variables", .ofOption (ofTable ofVariable) database.vars),
    ("calculations", .ofOption (ofTable ofCalculation) database.calculations),
    ("dependencies", .ofOption ofDependencies database.dependencies),
    ("resources", .ofOption (ofTable ofResource) database.resources)]

def write (database : Database) : String :=
  (ofDatabase database).write

/-! Reading. -/

def readInteger : Json → Option Int
  | .number (.integer value) => some value
  | _ => none

def nullable (read : Json → Option α) : Json → Option (Option α)
  | .null => some none
  | value => (read value).map some

def readItems : Json → Option (List Json)
  | .array items => some items
  | _ => none

def readReal (value : Json) : Option Float :=
  (readInteger value).map fun bits => .ofBits bits.toNat.toUInt64

def readColumn : Json → Option Column
  | .array [.text name, .boolean required] => some ⟨name, required⟩
  | _ => none

def readColumns (value : Json) : Option (List Column) := do
  (← readItems (← value.field? "columns")).mapM readColumn

def readRows (readRow : Json → Option ρ) (value : Json) : Option (List ρ) := do
  (← readItems (← value.field? "rows")).mapM readRow

def readTable {ρ : Type} [Row ρ] (readRow : Json → Option ρ) (value : Json) : Option (Table ρ) := do
  let rows ← readRows readRow value
  let lastId ← readInteger (← value.field? "lastId")
  return (rows.foldl Table.put (.empty (← readColumns value))).reserve lastId.toNat

def readVariable : Json → Option StoredVariable
  | .array [id, .text name, value] => return ⟨← readInteger id, name, ← nullable readReal value⟩
  | _ => none

def readCalculation : Json → Option Calculation
  | .array [id, .text name, .text expression, value] =>
    return ⟨← readInteger id, name, expression, ← nullable readReal value⟩
  | _ => none

def readResource : Json → Option Resource
  | .array [id, .text name, parent] =>
    return ⟨← readInteger id, name, ← nullable readInteger parent⟩
  | _ => none

def readDependency : Json → Option Dependency
  | .array [calculation, variableId] => return ⟨← readInteger calculation, ← readInteger variableId⟩
  | _ => none

def readDependencies (value : Json) : Option DependencyTable := do
  let rows ← readRows readDependency value
  return rows.foldl DependencyTable.put (.empty (← readColumns value))

def readDatabase (value : Json) : Option Database :=
  return { version := ← readInteger (← value.field? "version")
           vars := ← nullable (readTable readVariable) (← value.field? "variables")
           calculations := ← nullable (readTable readCalculation) (← value.field? "calculations")
           dependencies := ← nullable readDependencies (← value.field? "dependencies")
           resources := ← nullable (readTable readResource) (← value.field? "resources") }

def read (text : String) : Option Database :=
  if text = "" then some .blank
  else match Json.read text with
    | .ok value => readDatabase value
    | .error _ => none

end Formulary.Snapshot
