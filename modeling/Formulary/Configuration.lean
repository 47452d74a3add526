import Formulary.Log.Logging

/-!
The configuration of a run, read from variables of the environment. One that is not set, or blank,
stands for its default; one that cannot be understood is a fault.
-/

namespace Formulary

structure Configuration where
  databasePath : Option String
  logLevel : String
  logTarget : Log.Target
  seedDemo : Bool
  deriving DecidableEq, Repr

namespace Configuration

inductive Fault
  | logDirectory (fault : Log.TargetFault)
  | flag (key value : String)
  deriving DecidableEq, Repr

def databaseKey : String := "LINEAGE_DB_PATH"

def levelKey : String := "LINEAGE_LOG_LEVEL"

def directoryKey : String := "LINEAGE_LOG_DIR"

def demoKey : String := "LINEAGE_SEED_DEMO"

def Fault.message : Fault → String
  | logDirectory fault => s!"{directoryKey}: {fault.message}"
  | flag key value => s!"{key}: expected 1|0|true|false|yes|no, got `{value}`"

def standardFile : String := "lineage.sqlite3"

def flag (key value : String) : Except Fault Bool :=
  match value.map Char.toLower with
  | "1" => .ok true
  | "true" => .ok true
  | "yes" => .ok true
  | "0" => .ok false
  | "false" => .ok false
  | "no" => .ok false
  | _ => .error (.flag key value)

def setting (environment : String → Option String) (key : String) : Option String :=
  ((environment key).map Text.trim).filter (· ≠ "")

def ofEnvironment (environment : String → Option String) : Except Fault Configuration := do
  let logTarget ← match setting environment directoryKey with
    | some path => (Log.Target.ofText path).mapError Fault.logDirectory
    | none => pure .stderr
  let seedDemo ← match setting environment demoKey with
    | some value => flag demoKey value
    | none => pure false
  return { databasePath := setting environment databaseKey
           logLevel := (setting environment levelKey).getD Log.Level.standard.name
           logTarget
           seedDemo }

end Configuration

end Formulary
