import Formulary.Store.Database

/-!
What a disk holds: directories, files in which a store keeps its database, files in which there is
nothing, and files that hold something else.
-/

namespace Formulary.Disk

inductive Entry
  | directory (children : List (String × Entry))
  | database (content : Database)
  | empty
  | other

namespace Entry

def isDirectory : Entry → Bool
  | directory _ => true
  | _ => false

def child? : Entry → String → Option Entry
  | directory children, name => children.lookup name
  | _, _ => none

def find? (entry : Entry) : List String → Option Entry
  | [] => some entry
  | step :: rest =>
    match entry.child? step with
    | some child => child.find? rest
    | none => none

def withChild (entry : Entry) (name : String) (child : Option Entry) : Entry :=
  match entry with
  | directory children =>
    let others := children.filter (·.1 ≠ name)
    directory (child.elim others fun child => (name, child) :: others)
  | file => file

def replace (changed : Option Entry) (entry : Entry) : List String → Entry
  | [] => changed.getD entry
  | [last] => entry.withChild last changed
  | step :: rest =>
    match entry.child? step with
    | some child => entry.withChild step (some (child.replace changed rest))
    | none => entry

end Entry

end Formulary.Disk
