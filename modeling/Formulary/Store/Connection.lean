import Formulary.Store

/-!
Connections: a store and the savepoints that are open on it. What fails after a savepoint was set is
undone back to it, and nothing more, also in a transaction. A savepoint that is set outside of a
transaction begins one.

Scripts change a store statement by statement. Each statement is done as a whole or not at all; what
undoes the earlier ones of a script that fails is a savepoint. One that a full table has ended
cannot be rolled back to any more, which is recorded.
-/

namespace Formulary

structure Savepoint where
  name : String
  /-- What the database was when the savepoint was set. -/
  kept : Database

structure Connection where
  store : Store
  /-- The latest first. -/
  savepoints : List Savepoint

abbrev Script (α : Type) : Type := ExceptT StoreFault (StateM Connection) α

namespace Connection

def withDatabase (connection : Connection) (database : Database) : Connection :=
  { connection with store := { connection.store with database := database } }

/-- What the database was before the open transaction, be it begun as one or by a savepoint. -/
def start? (connection : Connection) : Option Database :=
  connection.store.saved <|> connection.savepoints.getLast?.map (·.kept)

/-- Undoes the open transaction, with which its savepoints end. -/
def rollBack (connection : Connection) : Connection :=
  ⟨{ connection.store with saved := connection.start? }.rollBack, []⟩

/-- The latest savepoint of a name, and those set before it. -/
def since (connection : Connection) (name : String) : List Savepoint :=
  connection.savepoints.dropWhile (·.name ≠ name)

end Connection

namespace Script

def apply (script : Script α) (connection : Connection) : Except StoreFault α × Connection :=
  (ExceptT.run script).run connection

def attempt (script : Script α) : Script (Except StoreFault α) :=
  fun connection => let (answer, after) := script.apply connection; (.ok answer, after)

def record (event : Log.Event) : Script Unit :=
  modify fun connection =>
    { connection with
      store := { connection.store with events := event :: connection.store.events } }

def ask (read : Database → Except StoreFault α) : Script α := do
  liftM (read (← get).store.database)

def statement (write : Database → Except StoreFault (α × Database)) : Script α := do
  if let some reason := (← get).store.obstacle then throw (.ofStorage reason)
  match write (← get).store.database with
  | .ok (value, database) =>
    modify (·.withDatabase database)
    return value
  | .error fault =>
    if endsTransaction fault then modify Connection.rollBack
    throw fault

def change (write : Database → Except StoreFault Database) : Script Unit :=
  statement fun database => (write database).map fun changed => ((), changed)

def mark (name : String) : Script Unit :=
  modify fun connection =>
    { connection with
      savepoints := ⟨name, connection.store.database⟩ :: connection.savepoints }

/-- Forgets a savepoint and those set after it; what was done since stays. -/
def release (name : String) : Script Unit := do
  match (← get).since name with
  | [] => throw (.ofStorage (.noSuchSavepoint name))
  | _ :: earlier => modify fun connection => { connection with savepoints := earlier }

/-- Undoes what was done since a savepoint, which itself stays open. -/
def rollBackTo (name : String) : Script Unit := do
  match (← get).since name with
  | [] => throw (.ofStorage (.noSuchSavepoint name))
  | point :: earlier =>
    modify fun connection =>
      { connection.withDatabase point.kept with savepoints := point :: earlier }

def withSavepoint (name : String) (body : Script α) : Script α := do
  mark name
  match ← attempt body with
  | .ok value =>
    release name
    return value
  | .error fault =>
    let undone ← attempt (do rollBackTo name; release name)
    if let .error _ := undone then record (.savepointLost name)
    throw fault

end Script

end Formulary
