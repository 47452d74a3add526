/-!
JSON values. The fields of an object stand in the order of their keys, each key once.
-/

namespace Formulary

inductive Json.Number
  | integer (value : Int)
  | real (value : Float)

inductive Json
  | null
  | boolean (value : Bool)
  | number (value : Json.Number)
  | text (value : String)
  | array (items : List Json)
  | object (fields : List (String × Json))

namespace Json

instance : Inhabited Json := ⟨.null⟩

def integer (value : Int) : Json :=
  .number (.integer value)

def real (value : Float) : Json :=
  .number (.real value)

def finite (value : Float) : Json :=
  if value.isFinite then real value else .null

def ofOption (write : α → Json) : Option α → Json
  | some value => write value
  | none => .null

def insertField (key : String) (value : Json) : List (String × Json) → List (String × Json)
  | [] => [(key, value)]
  | (other, bound) :: rest =>
    if key < other then (key, value) :: (other, bound) :: rest
    else if key = other then (key, value) :: rest
    else (other, bound) :: insertField key value rest

/-- The object with the given fields; of several with one key the last counts. -/
def ofFields (fields : List (String × Json)) : Json :=
  .object (fields.foldl (fun sorted (key, value) => insertField key value sorted) [])

def lookupField (fields : List (String × Json)) (key : String) : Option Json :=
  (fields.find? fun (other, _) => other = key).map (·.2)

def field? : Json → String → Option Json
  | .object fields, key => lookupField fields key
  | _, _ => none

def text? : Json → Option String
  | .text value => some value
  | _ => none

end Json

end Formulary
