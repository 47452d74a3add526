import Formulary.Forest.Lineage
import Formulary.Store
import Formulary.Text.Blank

/-!
The forest of resources: they are created under a parent or as roots and moved to another parent,
and nothing may become its own ancestor.
-/

namespace Formulary.Forest

inductive Fault
  | blankName
  | resourceNotFound (id : Int)
  | parentNotFound (id : Int)
  | danglingParent (id : Int)
  | ownParent (id : Int)
  | cycle (resource parent : Int)
  | store (fault : StoreFault)
  deriving DecidableEq, Repr

namespace Fault

def message : Fault → String
  | blankName => "resource name must not be blank"
  | resourceNotFound id => s!"resource not found: {id}"
  | parentNotFound id => s!"parent resource not found: {id}"
  | danglingParent id => s!"cannot attach new resource to missing parent {id}"
  | ownParent id => s!"resource {id} cannot be its own parent"
  | cycle resource parent => s!"moving resource {resource} under {parent} would create a cycle"
  | store fault => fault.message

def cause? : Fault → Option String
  | store fault => some fault.message
  | _ => none

/-- A fault of the tables; a missing resource is a fault of its own. -/
def ofStore : StoreFault → Fault
  | .notFound .resource id => resourceNotFound id
  | fault => store fault

def ofDatabase (fault : DatabaseFault) : Fault :=
  store (.database fault)

end Fault

abbrev Action (α : Type) : Type := Operation Fault α

open Operation (query update change record)

def ready : Action Unit :=
  query Fault.store fun database => do
    let _ ← database.resourceTable
    return ()

def getResource (id : Int) : Action Resource := do
  match ← query Fault.ofStore (·.findResource id) with
  | some resource => return resource
  | none => throw (.resourceNotFound id)

def exists? (id : Int) : Action Bool :=
  query Fault.ofStore (·.resourceExists id)

def listChildren (parent : Option Int) : Action (List Resource) := do
  match parent with
  | none => pure ()
  | some id => if !(← exists? id) then throw (.resourceNotFound id)
  query Fault.ofStore (·.listChildren parent)

def ancestors (id : Int) (parent : Option Int) : Action (List Int) := do
  let table ← query Fault.ofStore Database.resourceTable
  let lineage := Lineage.of table.rows id parent
  match lineage.revisited with
  | some revisited => record (.lineageLooped id revisited)
  | none => pure ()
  return lineage.ancestors

def lineage (id : Int) : Action (List Int) := do
  let resource ← getResource id
  ancestors id resource.parent

/-- A name without blanks at its ends, of which something has to be left. -/
def normalizeName (name : String) : Except Fault String :=
  let trimmed := Text.trim name
  if trimmed = "" then .error .blankName else .ok trimmed

def create (name : String) (parent : Option Int) : Action Int := do
  let name ← normalizeName name
  match parent with
  | none => pure ()
  | some id =>
    if !(← exists? id) then
      record (.resourceOrphaned id)
      throw (.danglingParent id)
  let created ← change Fault.ofStore (·.createResource name parent)
  record (.resourceCreated created.id parent.isSome)
  return created.id

def move (id parent : Int) : Action Unit := do
  if !(← exists? id) then throw (.resourceNotFound id)
  let some above ← query Fault.ofStore (·.findResource parent)
    | throw (.parentNotFound parent)
  if id = parent then throw (.ownParent id)
  let lineage ← ancestors parent above.parent
  if id ∈ lineage then
    record (.moveLooped id parent)
    throw (.cycle id parent)
  update Fault.ofStore (·.setParent id parent)
  record (.resourceMoved id parent)

end Formulary.Forest
