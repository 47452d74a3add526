import Formulary.Store.Database

/-!
Statements that name columns, on tables of any form. Columns are found whatever the capitals in
their names.
-/

namespace Formulary.Database

def sameName (left right : String) : Bool :=
  left.map Char.toLower = right.map Char.toLower

/-- A column as faults name it: after its table, and in the capitals that the table has it in. -/
def columnText (table : TableName) (columns : List Column) (name : String) : String :=
  let found := columns.find? (sameName ·.name name)
  table.text ++ "." ++ (found.map (·.name)).getD name

def fillable (name : TableName) (wanted : List String) (columns : τ → List Column)
    (present : Option τ) : Except StorageFault τ :=
  match present with
  | none => .error (.noSuchTable name.text)
  | some table =>
    match wanted.find? fun column => !(columns table).any (sameName ·.name column) with
    | some column => .error (.noColumnToFill name.text column)
    | none => .ok table

def readable (name : TableName) (wanted : List String) (columns : τ → List Column)
    (present : Option τ) : Except StorageFault τ :=
  match present with
  | none => .error (.noSuchTable name.text)
  | some table =>
    match wanted.find? fun column => !(columns table).any (sameName ·.name column) with
    | some column => .error (.noSuchColumn column)
    | none => .ok table

end Formulary.Database
