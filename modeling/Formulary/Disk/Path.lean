import Formulary.Text.Pieces

/-!
Paths of files and directories.
-/

namespace Formulary.Disk

def longestPath : Nat := 4095

/-- The steps of a path. Slashes beside one another and steps that stay in place do not count. -/
def steps (path : String) : List String :=
  (Text.nonEmptyPieces '/' path).filter (· ≠ ".")

def staysAtEnd (path : String) : Bool :=
  (Text.nonEmptyPieces '/' path).getLast? = some "."

def isAbsolute (path : String) : Bool :=
  path.toList.head? = some '/'

inductive Component
  | root
  | here
  | step (name : String)
  deriving DecidableEq, Repr

/-- The parts of a path, by which it is compared. A step that stays in place is one of them only where
a relative path starts with it. -/
def components (path : String) : List Component :=
  let leading :=
    if isAbsolute path then [.root]
    else if (Text.pieces '/' path.toList).head? = some ['.'] then [.here]
    else []
  leading ++ (steps path).map .step

def pathOf (place : List String) : String :=
  "/" ++ "/".intercalate place

def join (directory file : String) : String :=
  if directory = "" then file
  else if directory.toList.getLast? = some '/' then directory ++ file else directory ++ "/" ++ file

def along (place : List String) : List String → List (List String)
  | [] => [place]
  | step :: rest =>
    place :: along (if step = ".." then place.dropLast else place ++ [step]) rest

end Formulary.Disk
