import Formulary.Api.Method

/-!
The arguments of the command line: a method, a path and perhaps a body, with options anywhere
between them. After `--` nothing is an option.
-/

namespace Formulary.CommandLine

inductive ValueOption
  | database
  | logLevel
  | logDirectory
  deriving DecidableEq, Repr

inductive Switch
  | seed
  | rebuildIndex
  | pretty
  deriving DecidableEq, Repr

def ValueOption.ofName? : String → Option ValueOption
  | "--db" => some .database
  | "--log-level" => some .logLevel
  | "--log-dir" => some .logDirectory
  | _ => none

def Switch.ofName? : String → Option Switch
  | "--seed" => some .seed
  | "--rebuild-index" => some .rebuildIndex
  | "--pretty" => some .pretty
  | _ => none

structure Sorted where
  positional : List String
  values : List (ValueOption × String)
  switches : List Switch
  deriving DecidableEq, Repr

def looksLikeOption (argument : String) : Bool :=
  argument.toList.head? = some '-' && argument ≠ "-"

def assignment? (argument : String) : Option (String × String) :=
  match argument.toList.dropWhile (· ≠ '=') with
  | [] => none
  | _ :: value => some (.ofList (argument.toList.takeWhile (· ≠ '=')), .ofList value)

/-- Sorts the arguments. Options must be known, come once, and have a value if they need one; only
the file of the store may not be the empty text. -/
def sort : List String → Option Sorted
  | [] => some ⟨[], [], []⟩
  | "--" :: rest => some ⟨rest, [], []⟩
  | argument :: rest =>
    let withValue (option : ValueOption) (value : String) (sorted : Sorted) : Option Sorted :=
      if sorted.values.any (·.1 = option) || (option = .database && value = "") then none
      else some { sorted with values := (option, value) :: sorted.values }
    if !looksLikeOption argument then
      (sort rest).map fun sorted => { sorted with positional := argument :: sorted.positional }
    else
      match Switch.ofName? argument with
      | some switch =>
        (sort rest).bind fun sorted =>
          if switch ∈ sorted.switches then none
          else some { sorted with switches := switch :: sorted.switches }
      | none =>
        match assignment? argument with
        | some (name, value) =>
          (ValueOption.ofName? name).bind fun option => (sort rest).bind (withValue option value)
        | none =>
          match ValueOption.ofName? argument, rest with
          | some option, value :: rest =>
            if looksLikeOption value then none else (sort rest).bind (withValue option value)
          | _, _ => none

structure Arguments where
  method : Api.Method
  path : String
  body : Option String
  databasePath : Option String
  logLevel : Option String
  logDirectory : Option String
  seed : Bool
  rebuildIndex : Bool
  pretty : Bool
  deriving DecidableEq, Repr

def Arguments.ofList (arguments : List String) : Option Arguments := do
  let sorted ← sort arguments
  let value (option : ValueOption) := (sorted.values.find? (·.1 = option)).map (·.2)
  let (method, path, body) ← match sorted.positional with
    | [method, path] => some (method, path, none)
    | [method, path, body] => some (method, path, some body)
    | _ => none
  let method ← (Api.Method.ofText method).toOption
  return { method, path, body
           databasePath := value .database
           logLevel := value .logLevel
           logDirectory := value .logDirectory
           seed := .seed ∈ sorted.switches
           rebuildIndex := .rebuildIndex ∈ sorted.switches
           pretty := .pretty ∈ sorted.switches }

end Formulary.CommandLine
