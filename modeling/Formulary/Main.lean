import Formulary.CommandLine.Run
import Formulary.Store.Snapshot

/-!
The command with the disk and the environment in which it is started.
-/

namespace Formulary.CommandLine

def look (place : List String) : IO (Option Disk.Entry) := do
  try
    let text ← IO.FS.readFile (Disk.pathOf place)
    if text = "" then return some .empty
    match Snapshot.read text with
    | some content => return some (.database content)
    | none => return some .other
  catch
    | .noFileOrDirectory .. => return none
    | .inappropriateType .. => return some (.directory [])
    | _ => return some .other

def survey (working : List String) (places : List (List String)) : IO Disk := do
  let mut disk : Disk := ⟨.directory [], working⟩
  for place in places do
    if (disk.entry? place).isNone then
      if let some entry ← look place then disk := disk.put place entry
  return disk

def update (places : List (List String)) (before after : Disk) : IO Unit := do
  for place in places.eraseDups do
    let path := Disk.pathOf place
    match before.entry? place, after.entry? place with
    | none, some (.directory _) => IO.FS.createDir path
    | none, some .empty => IO.FS.writeFile path ""
    | some _, none => IO.FS.removeFile path
    | _, some (.database content) => IO.FS.writeFile path (Snapshot.write content)
    | _, _ => pure ()

def writeLog (logging : Log.Logging) : IO Unit := do
  if let some active := logging.active then
    let lines := active.records.map Log.Event.line
    match active.target with
    | .stderr => lines.forM fun line => IO.eprintln line
    | .directory path =>
      let file ← IO.FS.Handle.mk (Disk.join path Log.Logging.fileName) .append
      lines.forM fun line => file.putStrLn line

def settings : IO (List (String × String)) := do
  let keys := [Configuration.databaseKey, Configuration.levelKey, Configuration.directoryKey,
    Configuration.demoKey]
  keys.filterMapM fun key => do
    return (← IO.getEnv key).map ((key, ·))

end Formulary.CommandLine

open Formulary CommandLine

def main (arguments : List String) : IO UInt32 := do
  let known ← settings
  let environment (key : String) := known.lookup key
  let temporary := (← IO.getEnv "TMPDIR").getD "/tmp"
  let working := Disk.steps (toString (← IO.currentDir))
  let places := visited working environment temporary arguments
  let before ← survey working places
  let (shown, logging) := run environment temporary arguments before
  update places before logging.disk
  writeLog logging
  shown.output.forM fun line => IO.println line
  shown.errors.forM fun line => IO.eprintln line
  return shown.exitCode.toUInt32
