/-!
Why the store refuses an operation.
-/

namespace Formulary

inductive StorageFault
  | noSuchTable (table : String)
  | noSuchColumn (column : String)
  | noColumnToRename (column : String)
  | duplicateColumn (table column : String)
  | noColumnToFill (table column : String)
  | danglingReference
  | missingValue (column : String)
  | duplicateKey (columns : List String)
  | full
  | nestedTransaction
  | noTransaction
  | noSuchSavepoint (savepoint : String)
  | versionOutOfRange (found : Int)
  | emptyCell (index : Nat) (column : String)
  | cannotOpen (address : Option String)
  | notDatabase
  | foreignAuthority (authority : String)
  | noSuchCacheMode (text : String)
  | noSuchAccessMode (text : String)
  | accessNotAllowed (text : String)
  | noSuchEngine (name : String)
  | readOnly
  /-- A change that was not finished would have to be undone in a store that is only read. -/
  | unfinishedChange
  | locked
  | notLocked
  | unreadable
  | unknownPermissions
  | notDeleted
  deriving DecidableEq, Repr

def StorageFault.message : StorageFault → String
  | noSuchTable table => s!"no such table: {table}"
  | noSuchColumn column => s!"no such column: {column}"
  | noColumnToRename column => s!"no such column: \"{column}\""
  | duplicateColumn table column =>
    s!"error in table {table} after rename: duplicate column name: {column}"
  | noColumnToFill table column => s!"table {table} has no column named {column}"
  | danglingReference => "FOREIGN KEY constraint failed"
  | missingValue column => "NOT NULL constraint failed: " ++ column
  | duplicateKey columns => "UNIQUE constraint failed: " ++ ", ".intercalate columns
  | full => "database or disk is full"
  | nestedTransaction => "cannot start a transaction within a transaction"
  | noTransaction => "cannot commit - no transaction is active"
  | noSuchSavepoint savepoint => s!"no such savepoint: {savepoint}"
  | versionOutOfRange found => s!"Integer {found} out of range at index 0"
  | emptyCell index column => s!"Invalid column type Null at index: {index}, name: {column}"
  | cannotOpen none => "unable to open database file"
  | cannotOpen (some address) => s!"unable to open database file: {address}"
  | notDatabase => "file is not a database"
  | foreignAuthority authority => s!"invalid uri authority: {authority}"
  | noSuchCacheMode text => s!"no such cache mode: {text}"
  | noSuchAccessMode text => s!"no such access mode: {text}"
  | accessNotAllowed text => s!"access mode not allowed: {text}"
  | noSuchEngine name => s!"no such vfs: {name}"
  | readOnly | unfinishedChange => "attempt to write a readonly database"
  | locked => "database is locked"
  | notLocked | unreadable | unknownPermissions | notDeleted => "disk I/O error"

inductive DatabaseFault
  | storage (fault : StorageFault)
  | unsupportedVersion (found latest : Nat)
  deriving DecidableEq, Repr

def DatabaseFault.message : DatabaseFault → String
  | storage fault => fault.message
  | unsupportedVersion found latest =>
    s!"database schema version {found} is newer than supported {latest}"

def DatabaseFault.cause? : DatabaseFault → Option String
  | storage fault => some fault.message
  | unsupportedVersion _ _ => none

inductive Entity
  | variable
  | calculation
  | resource
  deriving DecidableEq, Repr

def Entity.name : Entity → String
  | .variable => "variable"
  | .calculation => "calculation"
  | .resource => "resource"

inductive StoreFault
  | database (fault : DatabaseFault)
  | notFound (entity : Entity) (id : Int)
  | wrongVersion (expected found : Nat)
  | missingTable (table : String)
  | missingColumn (table column : String)
  | invalidData (message : String)
  deriving DecidableEq, Repr

namespace StoreFault

def message : StoreFault → String
  | database fault => fault.message
  | notFound entity id => s!"{entity.name} not found: {id}"
  | wrongVersion expected found =>
    s!"repository requires schema version {expected}, got {found}"
  | missingTable table => s!"repository requires table `{table}`"
  | missingColumn table column => s!"repository requires column `{column}` in table `{table}`"
  | invalidData message => s!"invalid persisted data: {message}"

def cause? : StoreFault → Option String
  | database fault => some fault.message
  | _ => none

def ofStorage (fault : StorageFault) : StoreFault :=
  database (.storage fault)

end StoreFault

class FromStorage (φ : Type) where
  ofStorage : StorageFault → φ
  storage? : φ → Option StorageFault

namespace FromStorage

instance : FromStorage StorageFault := ⟨id, some⟩

instance : FromStorage DatabaseFault where
  ofStorage := .storage
  storage?
    | .storage fault => some fault
    | .unsupportedVersion _ _ => none

instance : FromStorage StoreFault where
  ofStorage := .ofStorage
  storage?
    | .database fault => storage? fault
    | _ => none

end FromStorage

/-- Whether a fault ends the open transaction, as only a full table does. -/
def endsTransaction [FromStorage φ] (fault : φ) : Bool :=
  FromStorage.storage? fault = some .full

end Formulary
