import Formulary.Api.Handler
import Formulary.CommandLine.Arguments
import Formulary.Configuration
import Formulary.Disk.Stores
import Formulary.Json.Printer
import Formulary.Store.Demo

/-!
A run of the command: it answers one request on the store that its arguments and its environment
name. What it needs of the world is the disk it finds, and what it does to it is the disk it leaves
and the records of its log.
-/

namespace Formulary.CommandLine

structure Shown where
  exitCode : Nat
  output : List String
  errors : List String
  deriving DecidableEq, Repr

namespace Shown

def usage : String :=
  "usage: lineage METHOD PATH [BODY] [--db F] [--seed] [--rebuild-index] [--log-level L] " ++
    "[--log-dir D] [--pretty]"

def misuse : Shown :=
  ⟨2, [], [usage]⟩

def labelled (label indent text : String) : List String :=
  match (Text.pieces '\n' text.toList).map String.ofList with
  | [] => [label]
  | first :: rest => (label ++ first) :: rest.map (indent ++ ·)

def causes : List String → List String
  | [] => []
  | [cause] => "" :: "Caused by:" :: labelled "    " "    " cause
  | many =>
    "" :: "Caused by:" ::
      (many.mapIdx fun index cause => labelled s!"    {index}: " "       " cause).flatten

def failed (message : String) (behind : List String) : Shown :=
  ⟨1, [], labelled "Error: " "" message ++ causes behind⟩

def answered (pretty : Bool) (response : Response) : Shown where
  exitCode := if response.isSuccess then 0 else 1
  output := [if pretty then response.body.writePretty else response.body.write]
  errors :=
    if response.isSuccess then [] else [s!"request failed with status {response.status}"]

end Shown

def numbered? (fault : StorageFault) : Option String :=
  let said : Option (Nat × String) := match fault with
    | .foreignAuthority _ | .noSuchCacheMode _ | .noSuchAccessMode _ | .noSuchEngine _ =>
      some (1, "SQL error or missing database")
    | .accessNotAllowed _ => some (3, "Access permission denied")
    | .locked => some (5, "The database file is locked")
    | .readOnly => some (8, "Attempt to write a readonly database")
    | .cannotOpen _ => some (14, "Unable to open the database file")
    | .notDatabase => some (26, "File opened that is not a database file")
    | .unreadable => some (266, "Error reading from disk")
    | .unfinishedChange =>
      some (776, "Database has hot journal that must be rolled back (requires write access)")
    | .unknownPermissions => some (1802, "Error invoking fstat to get file metadata")
    | .notDeleted => some (2570, "I/O error within xDelete of a VFS object")
    | .notLocked => some (3850, "I/O error in the advisory file locking logic")
    | _ => none
  said.map fun (number, text) => s!"Error code {number}: {text}"

def databaseCauses : DatabaseFault → List String
  | .storage fault => fault.message :: fault.message :: (numbered? fault).toList
  | fault => [fault.message]

def storeCauses : StoreFault → List String
  | .database fault => fault.message :: databaseCauses fault
  | fault => [fault.message]

def recalculationCauses : Recalculation.Fault → List String
  | .store fault => fault.message :: storeCauses fault
  | fault => [fault.message]

def configure (environment : String → Option String) (arguments : Arguments) :
    Except Shown Configuration := do
  let configuration ← (Configuration.ofEnvironment environment).mapError fun fault =>
    .failed "invalid environment configuration" [fault.message]
  let logTarget ← match arguments.logDirectory with
    | none => pure configuration.logTarget
    | some text => (Log.Target.ofText text).mapError fun fault => .failed fault.message []
  return { databasePath := arguments.databasePath.orElse fun _ => configuration.databasePath
           logLevel := arguments.logLevel.getD configuration.logLevel
           logTarget
           seedDemo := configuration.seedDemo || arguments.seed }

def databasePath (temporary : String) (configuration : Configuration) : String :=
  configuration.databasePath.getD (Disk.join temporary Configuration.standardFile)

def readBody : Option String → Except Shown (Option Json)
  | none => .ok none
  | some text =>
    match Json.read text with
    | .ok body => .ok (some body)
    | .error fault => .error (.failed "request body is not valid JSON" [fault.message])

def rebuild : Recalculation.Action Unit := do
  let report ← Operation.transaction Recalculation.Fault.ofDatabase do
    Recalculation.ready
    Recalculation.rebuildIndex
  Operation.record (.indexRebuiltOnDemand report.rebuilt report.skipped.length)

def serve (configuration : Configuration) (arguments : Arguments) (body : Option Json) :
    Operation Shown Shown := do
  if configuration.seedDemo then
    let _ ← Operation.lift (fun fault => .failed "failed to seed demo data" (storeCauses fault))
      (Operation.transaction StoreFault.database Demo.seed)
  if arguments.rebuildIndex then
    Operation.lift
      (fun fault => .failed "failed to rebuild dependency index" (recalculationCauses fault))
      rebuild
  let response ← fun store =>
    let (response, after) := Api.handle ⟨arguments.method, arguments.path, body⟩ store
    (.ok response, after)
  return .answered arguments.pretty response

def settle : Except α α → α
  | .ok value => value
  | .error value => value

def visited (working : List String) (environment : String → Option String) (temporary : String)
    (list : List String) : List (List String) :=
  let configuration? : Option Configuration := do
    let arguments ← Arguments.ofList list
    (configure environment arguments).toOption
  match configuration? with
  | none => []
  | some configuration =>
    let forLog := match configuration.logTarget with
      | .directory path => Disk.along [] (Disk.steps (Disk.join path Log.Logging.fileName))
      | .stderr => []
    Disk.along [] working ++ forLog ++
      Disk.storePlaces working (databasePath temporary configuration)

/-- Answers the request on the store at `address` and closes it, unless it cannot be opened or made
ready. -/
def runOn (address : String) (configuration : Configuration) (arguments : Arguments)
    (body : Option Json) (logging : Log.Logging) : Shown × Log.Logging :=
  let opened := logging.disk.openStore address
  let logging := { logging with disk := opened.disk }
  match Store.opening .file opened.found with
  | (.error fault, events) =>
    (.failed s!"failed to open store at {address}" (databaseCauses fault),
      logging.recordAll events)
  | (.ok store, events) =>
    let (answer, after) := (serve configuration arguments body).apply store
    let closing := match answer with
      | .ok _ => [.storeClosed StoreMode.file.name]
      | .error _ => []
    let recorded := logging.recordAll (events ++ after.log ++ closing)
    let kept := match opened.place with
      | some place => recorded.disk.put place (.database after.database)
      | none => recorded.disk
    (settle answer, { recorded with disk := kept })

def run (environment : String → Option String) (temporary : String) (list : List String)
    (disk : Disk) : Shown × Log.Logging :=
  let idle : Log.Logging := ⟨none, disk⟩
  match Arguments.ofList list with
  | none => (.misuse, idle)
  | some arguments =>
    match configure environment arguments with
    | .error shown => (shown, idle)
    | .ok configuration =>
      match idle.activate configuration.logLevel configuration.logTarget with
      | (.error fault, logging) =>
        (.failed "failed to initialize logging" [fault.message], logging)
      | (.ok (), logging) =>
        match readBody arguments.body with
        | .error shown => (shown, logging)
        | .ok body =>
          runOn (databasePath temporary configuration) configuration arguments body logging

end Formulary.CommandLine
