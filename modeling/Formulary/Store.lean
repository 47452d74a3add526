import Formulary.Log.Event
import Formulary.Store.Migration

/-!
An open store: a database, perhaps with a transaction begun on it, what keeps it from being changed
if anything does, and what was logged.

An operation may change the store and fail afterwards; what it did stays, unless it ran inside a
transaction, which undoes the changes to the database of an operation that fails. A full table ends
the transaction at once: what was done in it is undone, and what follows runs outside of it. The
log keeps what was recorded either way.
-/

namespace Formulary

structure Store where
  database : Database
  /-- Why nothing can be changed, if so. -/
  obstacle : Option StorageFault
  /-- What the database was when the open transaction began. -/
  saved : Option Database
  /-- What was recorded, the latest first. -/
  events : List Log.Event

abbrev Operation (ε α : Type) : Type := ExceptT ε (StateM Store) α

namespace Store

def ofDatabase (database : Database) (obstacle : Option StorageFault) : Store :=
  ⟨database, obstacle, none, []⟩

def log (store : Store) : List Log.Event :=
  store.events.reverse

def rollBack (store : Store) : Store :=
  { store with database := store.saved.getD store.database, saved := none }

end Store

namespace Operation

def apply (operation : Operation ε α) (store : Store) : Except ε α × Store :=
  (ExceptT.run operation).run store

def record (event : Log.Event) : Operation ε Unit :=
  modify fun store => { store with events := event :: store.events }

def query (fault : φ → ε) (read : Database → Except φ α) : Operation ε α := do
  match read (← get).database with
  | .ok value => return value
  | .error reason => throw (fault reason)

/-- Changes the database. A change that fails leaves it as it is, or undoes the open transaction if
the fault ends that. -/
def change [FromStorage φ] (fault : φ → ε) (write : Database → Except φ (α × Database)) :
    Operation ε α := do
  if let some reason := (← get).obstacle then throw (fault (FromStorage.ofStorage reason))
  match write (← get).database with
  | .ok (value, database) =>
    modify fun store => { store with database }
    return value
  | .error reason =>
    if endsTransaction reason then modify Store.rollBack
    throw (fault reason)

def update [FromStorage φ] (fault : φ → ε) (write : Database → Except φ Database) :
    Operation ε Unit :=
  change fault fun database => (write database).map fun changed => ((), changed)

def attempt (operation : Operation ε α) : Operation ε' (Except ε α) :=
  fun store => let (answer, after) := operation.apply store; (.ok answer, after)

def lift (fault : φ → ε) (operation : Operation φ α) : Operation ε α := do
  match ← attempt operation with
  | .ok value => return value
  | .error reason => throw (fault reason)

/-- Begins a transaction. There is only one at a time. -/
def begin (fault : DatabaseFault → ε) : Operation ε Unit := do
  if (← get).saved.isSome then throw (fault (.storage .nestedTransaction))
  modify fun store => { store with saved := some store.database }

def commit (fault : DatabaseFault → ε) : Operation ε Unit := do
  if (← get).saved.isNone then throw (fault (.storage .noTransaction))
  modify fun store => { store with saved := none }

/-- Runs an operation as a whole or not at all. -/
def transaction (fault : DatabaseFault → ε) (operation : Operation ε α) : Operation ε α := do
  begin fault
  match ← attempt operation with
  | .ok value =>
    commit fault
    return value
  | .error reason =>
    modify Store.rollBack
    throw reason

end Operation

end Formulary
