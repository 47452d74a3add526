import Formulary.Store.Database

/-!
Resources in the database. A row may name as its parent only a row that is there once it is
written itself, so also itself.
-/

namespace Formulary.Database

def requireParent (table : Table Resource) (parent : Option Int) : Except StoreFault Unit :=
  if parent.all table.contains then .ok () else .error (.ofStorage .danglingReference)

def createResource (database : Database) (name : String) (parent : Option Int) :
    Except StoreFault (Resource × Database) := do
  let table ← database.resourceTable
  match table.nextId? with
  | none => throw (.ofStorage .full)
  | some id =>
    let created : Resource := ⟨id, name, parent⟩
    let longer := table.put created
    requireParent longer parent
    return (created, { database with resources := some longer })

def findResource (database : Database) (id : Int) : Except StoreFault (Option Resource) := do
  return (← database.resourceTable).find? id

def resourceExists (database : Database) (id : Int) : Except StoreFault Bool := do
  return (← database.resourceTable).contains id

def listChildren (database : Database) (parent : Option Int) :
    Except StoreFault (List Resource) := do
  return (← database.resourceTable).rows.filter (·.parent = parent)

def setParent (database : Database) (id parent : Int) : Except StoreFault Database := do
  let table ← database.resourceTable
  if !table.contains id then throw (.notFound .resource id)
  requireParent table (some parent)
  return { database with resources := some (withParent table id (some parent)) }

end Formulary.Database
