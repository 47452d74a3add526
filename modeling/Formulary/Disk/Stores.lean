import Formulary.Disk
import Formulary.Store.Address
import Formulary.Store.Opening

/-!
Stores on a disk. A store is kept in the file to which the path of its address leads. Two files
beside it may tell of changes: a journal that undoes one that was not finished, and a log of changes
that are not in the file yet. The files here hold neither, so one of them is removed or refused.
A third file beside it may lock the store.
-/

namespace Formulary.Disk

/-! Places. -/

/-- A path in which stores are looked for is shorter than this, every directory on it as well. -/
def storePathLimit : Nat := 512

def longestEnding : Nat := 8

/-- Where steps lead when a step back takes back the step before it, whatever that led to. They must
not lead through a file. -/
def Position.retrace? (position : Position) : List String → Option Position
  | [] => some position
  | step :: rest =>
    if step = ".." then position.back.retrace? rest
    else
      let next := position.enter step
      if (pathOf next.place).utf8ByteSize ≥ storePathLimit then none
      else if position.found.isSome && !position.isDirectory then none
      else if position.found.isSome && step.utf8ByteSize > longestName then none
      else next.retrace? rest

def storePosition? (disk : Disk) (path : String) : Option Position :=
  ((disk.outset (isAbsolute path)).retrace? (steps path)).filter fun position =>
    position.place ≠ [] && (pathOf position.place).utf8ByteSize + longestEnding ≤ storePathLimit

def beside (place : List String) (ending : String) : List String :=
  place.dropLast ++ [place.getLastD "" ++ ending]

def journalOf (place : List String) : List String :=
  beside place "-journal"

def changeLogOf (place : List String) : List String :=
  beside place "-wal"

def lockOf (place : List String) : List String :=
  beside place ".lock"

def hasLongName (place : List String) : Bool :=
  (place.getLastD "").utf8ByteSize > longestName

/-! Files beside the file of a store. -/

def companion? (disk : Disk) (place : List String) : Option Entry :=
  match disk.entry? place with
  | some .empty => none
  | found => found

def lockFault? (disk : Disk) (address : Address) (place : List String) : Option StorageFault :=
  let lock := lockOf place
  if address.engine ≠ .lockFile || address.lockless then none
  else if hasLongName lock then some .notLocked
  else if (disk.entry? lock).isSome then some .locked
  else none

/-- Settles the journal of a store. It tells of nothing that could be undone, so it is removed; next
to a store that holds something it counts as an unfinished change, which a reader cannot undo. -/
def settleJournal (disk : Disk) (address : Address) (place : List String) (entry : Entry) :
    Except StorageFault Disk :=
  let journal := journalOf place
  match disk.companion? journal, entry with
  | none, _ => .ok disk
  | some (.directory _), .empty => .ok disk
  | some (.directory _), _ => .error .unreadable
  | some _, .empty => .ok (if address.isReadOnly then disk else disk.remove journal)
  | some _, _ =>
    if address.isReadOnly then .error .unfinishedChange else .ok (disk.remove journal)

/-- Settles the log of changes of a store. It tells of nothing that could be taken over, so it is
removed; to read it next to a store that holds something, memory has to be shared. -/
def settleChangeLog (disk : Disk) (address : Address) (place : List String) (entry : Entry) :
    Except StorageFault Disk :=
  let changeLog := changeLogOf place
  match disk.companion? changeLog, entry with
  | none, _ => .ok disk
  | some (.directory _), .empty => .error .notDeleted
  | some (.directory _), _ => .error (.cannotOpen none)
  | some _, .empty => .ok (disk.remove changeLog)
  | some _, _ =>
    if address.sharesNothing then .error (.cannotOpen none)
    else .ok (if address.isReadOnly then disk else disk.remove changeLog)

def settle (disk : Disk) (address : Address) (place : List String) (entry : Entry) :
    Except StorageFault Unit × Disk :=
  if address.immutable then (.ok (), disk)
  else match disk.lockFault? address place with
    | some fault => (.error fault, disk)
    | none =>
      let undone :=
        if address.engine = .lockFile then .ok disk
        else disk.settleJournal address place entry
      match undone with
      | .error fault => (.error fault, disk)
      | .ok disk =>
        match disk.settleChangeLog address place entry with
        | .error fault => (.error fault, disk)
        | .ok disk => (.ok (), disk)

def obstacle? (disk : Disk) (address : Address) (place : List String) : Option StorageFault :=
  let journal := journalOf place
  if address.isReadOnly then some .readOnly
  else if hasLongName journal || (disk.entry? journal).any (·.isDirectory) then
    some (.cannotOpen none)
  else none

/-! Opening. -/

structure Opened where
  found : Found
  place : Option (List String)
  disk : Disk

/-- Reads the file of a store. A store that is new is written at once, which leaves no journal. -/
def readStore (disk : Disk) (address : Address) (place : List String) (entry : Entry) : Opened :=
  match disk.settle address place entry with
  | (.error fault, disk) => ⟨.unusable fault, none, disk⟩
  | (.ok (), disk) =>
    let obstacle := disk.obstacle? address place
    match entry with
    | .database content => ⟨.database content obstacle, some place, disk⟩
    | .empty =>
      let written := if obstacle.isNone then disk.remove (journalOf place) else disk
      ⟨.database .blank obstacle, some place, written⟩
    | _ => ⟨.unusable .notDatabase, none, disk⟩

def openFile (disk : Disk) (text : String) (address : Address) : Opened :=
  let refused (fault : StorageFault) : Opened := ⟨.unreachable fault, none, disk⟩
  match disk.storePosition? address.path with
  | none => refused (.cannotOpen text)
  | some position =>
    let place := position.place
    if address.model?.any (!disk.contains ·) then refused .unknownPermissions
    else match position.found with
      | none =>
        if address.access = .create && position.back.isDirectory then
          (disk.put place .empty).readStore address place .empty
        else refused (.cannotOpen text)
      | some (.directory _) =>
        if address.access = .read then ⟨.unusable .unreadable, none, disk⟩
        else refused (.cannotOpen text)
      | some entry => disk.readStore address place entry

def longestMemoryPath : Nat := 1016

def openStore (disk : Disk) (text : String) : Opened :=
  let inMemory (readOnly : Bool) : Opened :=
    ⟨.database .blank (if readOnly then some .readOnly else none), none, disk⟩
  match Address.ofText text with
  | .error fault => ⟨.unreachable fault, none, disk⟩
  | .ok address =>
    if address.isTransient then inMemory (address.access = .read)
    else if address.engine = .memory then
      if address.path.utf8ByteSize > longestMemoryPath then
        ⟨.unreachable (.cannotOpen text), none, disk⟩
      else inMemory address.isReadOnly
    else disk.openFile text address

def storePlaces (working : List String) (text : String) : List (List String) :=
  match Address.ofText text with
  | .error _ => []
  | .ok address =>
    let passed (path : String) : List (List String) :=
      along (if isAbsolute path then [] else working) (steps path)
    let store := passed address.path
    let place := store.getLastD []
    let model := (address.model?.map passed).getD []
    store ++ [journalOf place, changeLogOf place, lockOf place] ++ model

end Formulary.Disk
