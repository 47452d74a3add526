import Formulary.Store.Database

/-!
Migrations bring a database to the latest version of the schema. Each one creates the tables of its
version that are not there and leaves those that are.
-/

namespace Formulary

/-- The database with a table, which is empty unless it was there. -/
def Database.ensure (database : Database) : TableName → Database
  | .vars => { database with vars := some (database.vars.getD (.empty TableName.vars.columns)) }
  | .calculations =>
    { database with
      calculations := some (database.calculations.getD (.empty TableName.calculations.columns)) }
  | .dependencies =>
    { database with
      dependencies := some (database.dependencies.getD (.empty TableName.dependencies.columns)) }
  | .resources =>
    { database with
      resources := some (database.resources.getD (.empty TableName.resources.columns)) }

structure Migration where
  version : Nat
  name : String
  /-- The tables of the version, in the order in which they are created. -/
  tables : List TableName

namespace Migration

def initial : Migration :=
  ⟨1, "init", [.resources, .vars, .calculations]⟩

def dependencyIndex : Migration :=
  ⟨2, "calculation_dependencies", [.dependencies]⟩

/-- All migrations by version; the last one leads to the latest version. -/
def all : List Migration := [initial, dependencyIndex]

def create (migration : Migration) (database : Database) : Database :=
  migration.tables.foldl Database.ensure database

def apply (migration : Migration) (database : Database) : Database :=
  { migration.create database with version := migration.version }

end Migration

namespace Database

def pendingMigrations (database : Database) : Except DatabaseFault (List Migration) :=
  match database.recordedVersion with
  | .error fault => .error (.storage fault)
  | .ok found =>
    if latestVersion < found then .error (.unsupportedVersion found latestVersion)
    else .ok (Migration.all.filter (found < ·.version))

def applyAll (database : Database) (migrations : List Migration) : Database :=
  migrations.foldl (fun database migration => migration.apply database) database

def migrate (database : Database) : Except DatabaseFault (List Migration × Database) := do
  let pending ← database.pendingMigrations
  return (pending, database.applyAll pending)

end Database

end Formulary
