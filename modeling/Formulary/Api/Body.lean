import Formulary.Record.Json

/-!
The bodies of requests.
-/

namespace Formulary.Api

open Json (Decoder Mismatch Shape asInteger asNullable asReal asText permitted required)

structure NewResource where
  name : String
  parent : Option Int
  deriving DecidableEq, Repr

namespace NewResource

def shape : Shape :=
  ⟨"CreateResourceBody", [.of "name" asText false, .of "parentId" (asNullable asInteger) true]⟩

def ofJson : Decoder NewResource := fun value => do
  let members ← shape.members value
  return { name := ← required members "name" asText
           parent := ← permitted members "parentId" asInteger }

end NewResource

structure NewParent where
  parent : Int
  deriving DecidableEq, Repr

namespace NewParent

def shape : Shape :=
  ⟨"ReparentBody", [.of "parentId" asInteger false]⟩

def ofJson : Decoder NewParent := fun value => do
  let members ← shape.members value
  return ⟨← required members "parentId" asInteger⟩

end NewParent

structure NewValue where
  id : Int
  value : Float

namespace NewValue

def shape : Shape :=
  ⟨"UpdateVariableBody", [.of "id" asInteger false, .of "value" asReal false]⟩

def ofJson : Decoder NewValue := fun value => do
  let members ← shape.members value
  return { id := ← required members "id" asInteger
           value := ← required members "value" asReal }

end NewValue

def draftOfJson : Decoder Draft := fun value =>
  match (value.field? "calculation").map Draft.ofJson with
  | some (.ok draft) => .ok draft
  | _ =>
    match Draft.ofJson value with
    | .ok draft => .ok draft
    | .error _ => .error (.noForm "EvaluateBody")

end Formulary.Api
