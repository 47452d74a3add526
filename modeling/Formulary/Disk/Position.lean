import Formulary.Disk.Entry

/-!
Walks over a disk, step by step. A walk keeps what it came through, so that a step back is as short
as a step on.
-/

namespace Formulary.Disk

inductive Fault
  | missing
  | notDirectory
  | alreadyThere
  | nameTooLong
  | nulInName
  deriving DecidableEq, Repr

def Fault.message : Fault → String
  | missing => "No such file or directory (os error 2)"
  | notDirectory => "Not a directory (os error 20)"
  | alreadyThere => "File exists (os error 17)"
  | nameTooLong => "File name too long (os error 36)"
  | nulInName => "file name contained an unexpected NUL byte"

def longestName : Nat := 255

structure Position where
  found : Option Entry
  /-- The steps from the root, the last one first, each with what it was taken from. -/
  way : List (String × Option Entry)

namespace Position

def ofRoot (root : Entry) : Position :=
  ⟨some root, []⟩

def place (position : Position) : List String :=
  (position.way.map (·.1)).reverse

def enter (position : Position) (name : String) : Position :=
  ⟨position.found.bind (·.child? name), (name, position.found) :: position.way⟩

def back (position : Position) : Position :=
  match position.way with
  | [] => position
  | (_, above) :: way => ⟨above, way⟩

def step (position : Position) (name : String) : Position :=
  if name = ".." then position.back else position.enter name

def isDirectory (position : Position) : Bool :=
  position.found.any (·.isDirectory)

def follow (position : Position) : List String → Except Fault Position
  | [] => .ok position
  | step :: rest =>
    if position.found.isNone then .error .missing
    else if !position.isDirectory then .error .notDirectory
    else if step.utf8ByteSize > longestName then .error .nameTooLong
    else (position.step step).follow rest

end Position

end Formulary.Disk
