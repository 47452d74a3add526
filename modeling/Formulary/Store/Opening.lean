import Formulary.Store

/-!
Opening and closing of stores. A database is brought to the latest version when it is opened.
-/

namespace Formulary

inductive StoreMode
  | file
  | memory
  deriving DecidableEq, Repr

def StoreMode.name : StoreMode → String
  | file => "file"
  | memory => "memory"

inductive Found
  /-- A database, and why nothing can be changed in it, if so. -/
  | database (content : Database) (obstacle : Option StorageFault)
  | unreachable (fault : StorageFault)
  | unusable (fault : StorageFault)

namespace Store

open Log

def opening (mode : StoreMode) (found : Found) : Except DatabaseFault Store × List Event :=
  let unusable (fault : DatabaseFault) : Except DatabaseFault Store × List Event :=
    (.error fault, [.storeOpening mode.name, .storeUnusable mode.name fault.message])
  match found with
  | .unreachable fault =>
    (.error (.storage fault),
      [.storeOpening mode.name, .storeUnreachable mode.name fault.message])
  | .unusable fault => unusable (.storage fault)
  | .database content obstacle =>
    match content.migrate, obstacle with
    | .error fault, _ => unusable fault
    | .ok (_ :: _, _), some fault => unusable (.storage fault)
    | .ok (applied, migrated), _ =>
      (.ok (.ofDatabase migrated obstacle),
        .storeOpening mode.name ::
          (applied.map fun migration => .migrated migration.version migration.name) ++
          [.storeOpened mode.name])

/-! Migrations statement by statement: all that are pending run in one transaction. -/

def createTables : List TableName → Operation DatabaseFault Unit
  | [] => return ()
  | name :: rest => do
    Operation.update (id : DatabaseFault → DatabaseFault) fun database => .ok (database.ensure name)
    createTables rest

def applyMigrations : List Migration → Operation DatabaseFault Unit
  | [] => return ()
  | migration :: rest => do
    createTables migration.tables
    Operation.update (id : DatabaseFault → DatabaseFault) fun database =>
      .ok { database with version := migration.version }
    Operation.record (.migrated migration.version migration.name)
    applyMigrations rest

/-- Nothing is begun if there is nothing to do. -/
def runMigrations : List Migration → Operation DatabaseFault Unit
  | [] => return ()
  | pending => Operation.transaction id (applyMigrations pending)

def migrate : Operation DatabaseFault Nat := do
  let pending ← Operation.query id Database.pendingMigrations
  runMigrations pending
  match (← get).database.recordedVersion with
  | .ok version => return version
  | .error fault => throw (.storage fault)

end Store

end Formulary
