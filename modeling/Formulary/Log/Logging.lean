import Formulary.Disk
import Formulary.Log.Event

/-!
Logging is configured once: the first configuration that can be put to work stays, and a later one
is accepted only if it is the same.
-/

namespace Formulary.Log

inductive Target
  | directory (path : String)
  | stderr
  deriving DecidableEq, Repr

inductive TargetFault
  | blank
  | relative (path : String)
  deriving DecidableEq, Repr

def TargetFault.message : TargetFault → String
  | blank => "log_dir cannot be empty"
  | relative path => s!"log_dir must be an absolute path, got `{path}`"

namespace Target

def ofText (text : String) : Except TargetFault Target :=
  let path := Text.trim text
  if path = "" then .error .blank
  else if Disk.isAbsolute path then .ok (.directory path)
  else .error (.relative path)

def text : Target → String
  | directory path => path
  | stderr => "stderr"

/-- Whether two targets are the same; directories are if their paths have the same components. -/
def same : Target → Target → Bool
  | directory left, directory right => Disk.components left = Disk.components right
  | stderr, stderr => true
  | _, _ => false

end Target

structure Active where
  level : Level
  target : Target
  records : List Event
  deriving DecidableEq, Repr

inductive LoggingFault
  | unsupportedLevel (text : String)
  | directoryNotCreated (path : String) (reason : Disk.Fault)
  | otherTarget (active wanted : Target)
  | otherLevel (active wanted : Level)
  deriving DecidableEq, Repr

def LoggingFault.message : LoggingFault → String
  | unsupportedLevel text =>
    s!"unsupported log level `{text}`; expected trace|debug|info|warn|error"
  | directoryNotCreated path reason =>
    s!"failed to create log directory `{path}`: {reason.message}"
  | otherTarget active wanted =>
    s!"logging already initialized at `{active.text}`; refusing to switch to `{wanted.text}`"
  | otherLevel active wanted =>
    "logging already initialized with level " ++
      s!"`{active.name}`; refusing to switch to `{wanted.name}`"

structure Logging where
  active : Option Active
  disk : Disk

namespace Logging

def status (logging : Logging) : Option (Level × Target) :=
  logging.active.map fun active => (active.level, active.target)

def fileName : String := "lineage_rCURRENT.log"

def withFile (target : Target) (disk : Disk) : Disk :=
  match target with
  | .directory path => disk.createFile (Disk.join path fileName)
  | .stderr => disk

def record (event : Event) (logging : Logging) : Logging :=
  match logging.active with
  | none => logging
  | some active =>
    if active.level.urgency ≤ event.level.urgency then
      ⟨some { active with records := active.records ++ [event] },
        withFile active.target logging.disk⟩
    else logging

def recordAll (events : List Event) (logging : Logging) : Logging :=
  events.foldl (fun logging event => logging.record event) logging

def agree (active : Active) (level : Level) (target : Target) : Except LoggingFault Unit :=
  if !active.target.same target then .error (.otherTarget active.target target)
  else if active.level ≠ level then .error (.otherLevel active.level level)
  else .ok ()

def prepare (target : Target) (disk : Disk) : Except LoggingFault Unit × Disk :=
  match target with
  | .stderr => (.ok (), disk)
  | .directory path =>
    match disk.createDirectory path with
    | (.ok (), larger) => (.ok (), larger)
    | (.error reason, larger) => (.error (.directoryNotCreated path reason), larger)

def activate (levelText : String) (target : Target) (logging : Logging) :
    Except LoggingFault Unit × Logging :=
  match Level.ofText levelText with
  | .error text => (.error (.unsupportedLevel text), logging)
  | .ok level =>
    match logging.active with
    | some active => (agree active level target, logging)
    | none =>
      match prepare target logging.disk with
      | (.error fault, disk) => (.error fault, { logging with disk })
      | (.ok (), disk) =>
        let working : Logging := ⟨some ⟨level, target, []⟩, disk⟩
        (.ok (), record (.loggingActive level.name target.text) (record .started working))

def longestPayload : Nat := 160

def summarize (payload : String) : String :=
  let line := payload.toList.map fun c => if c = '\n' ∨ c = '\r' then ' ' else c
  if line.length > longestPayload then .ofList (line.take longestPayload) ++ "..."
  else .ofList line

def recordCrash (payload : Option String) (logging : Logging) : Logging :=
  logging.record (.crashed (summarize (payload.getD "non-string panic payload")))

def filePlace? (disk : Disk) (directory : String) : Option (List String) :=
  match disk.resolve (Disk.join directory fileName) with
  | .error _ => none
  | .ok position =>
    if position.found.isSome && !position.isDirectory then some position.place else none

def recordsIn (logging : Logging) (path : String) : Option (List Event) :=
  match logging.active with
  | some ⟨_, .directory used, first :: rest⟩ =>
    match filePlace? logging.disk used, filePlace? logging.disk path with
    | some written, some asked => if written = asked then some (first :: rest) else none
    | _, _ => none
  | _ => none

end Logging

end Formulary.Log
