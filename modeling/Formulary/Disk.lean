import Formulary.Disk.Path
import Formulary.Disk.Position

/-!
The disk that the program uses: where paths lead on it, and how directories are created.
-/

namespace Formulary

structure Disk where
  root : Disk.Entry
  working : List String

namespace Disk

def entry? (disk : Disk) (place : List String) : Option Entry :=
  disk.root.find? place

def put (disk : Disk) (place : List String) (entry : Entry) : Disk :=
  { disk with root := disk.root.replace (some entry) place }

def remove (disk : Disk) (place : List String) : Disk :=
  { disk with root := disk.root.replace none place }

/-- Where a path starts: at the root if it is absolute, else in the working directory. -/
def outset (disk : Disk) (absolute : Bool) : Position :=
  let top := Position.ofRoot disk.root
  if absolute then top else disk.working.foldl Position.enter top

def follow (disk : Disk) (absolute : Bool) (way : List String) : Except Fault Position :=
  (disk.outset absolute).follow way

def checkPath (path : String) : Except Fault Unit :=
  if '\x00' ∈ path.toList then .error .nulInName
  else if path = "" then .error .missing
  else if path.utf8ByteSize > longestPath then .error .nameTooLong
  else .ok ()

def resolve (disk : Disk) (path : String) : Except Fault Position := do
  checkPath path
  disk.follow (isAbsolute path) (steps path)

def contains (disk : Disk) (path : String) : Bool :=
  match disk.resolve path with
  | .ok position => position.found.isSome
  | .error _ => false

def isDirectory (disk : Disk) (absolute : Bool) (way : List String) : Bool :=
  match disk.follow absolute way with
  | .ok position => position.isDirectory
  | .error _ => false

/-- The disk with one more directory, to which the given steps lead. A way that `stays` at its end
names a directory that has to be there, so that none is created. -/
def makeDirectory (disk : Disk) (absolute stays : Bool) (way : List String) :
    Except Fault Disk := do
  let position ← disk.follow absolute way
  if position.found.isSome then
    throw (if stays && !position.isDirectory then .notDirectory else .alreadyThere)
  if stays then throw .missing
  return disk.put position.place (.directory [])

def ensureDirectory (disk : Disk) (absolute stays : Bool) (way : List String) :
    Except Fault Disk :=
  match disk.makeDirectory absolute stays way with
  | .error .alreadyThere =>
    if disk.isDirectory absolute way then .ok disk else .error .alreadyThere
  | made => made

/-- Creates the directory to which the steps lead, given from the last to the first, and all on the
way to it that are not there. What was created before a fault stays. -/
def makeDirectories (disk : Disk) (absolute stays : Bool) :
    List String → Except Fault Unit × Disk
  | [] => (.ok (), disk)
  | last :: above =>
    let way := (last :: above).reverse
    match disk.ensureDirectory absolute stays way with
    | .ok larger => (.ok (), larger)
    | .error .missing =>
      match disk.makeDirectories absolute false above with
      | (.error fault, larger) => (.error fault, larger)
      | (.ok (), larger) =>
        match larger.ensureDirectory absolute stays way with
        | .ok largest => (.ok (), largest)
        | .error fault => (.error fault, larger)
    | .error fault => (.error fault, disk)

/-- Creates a directory and all on the way to it. The empty path asks for nothing. -/
def createDirectory (disk : Disk) (path : String) : Except Fault Unit × Disk :=
  if path = "" then (.ok (), disk)
  else match checkPath path with
    | .ok () => disk.makeDirectories (isAbsolute path) (staysAtEnd path) (steps path).reverse
    | .error fault => (.error fault, disk)

def createFile (disk : Disk) (path : String) : Disk :=
  match disk.resolve path with
  | .ok position => if position.found.isNone then disk.put position.place .empty else disk
  | .error _ => disk

end Disk

end Formulary
