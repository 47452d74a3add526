import Formulary.Json.Shape
import Formulary.Record

/-!
The records as JSON values.
-/

namespace Formulary

open Json (Decoder Field Shape asInteger asNullable asReal asText permitted required)

namespace Variable

def toJson (record : Variable) : Json :=
  .ofFields [("id", .integer record.id), ("name", .text record.name),
    ("value", .finite record.value)]

def shape : Shape :=
  ⟨"Variable", [.of "id" asInteger false, .of "name" asText false, .of "value" asReal false]⟩

def ofJson : Decoder Variable := fun value => do
  let members ← shape.members value
  return { id := ← required members "id" asInteger
           name := ← required members "name" asText
           value := ← required members "value" asReal }

end Variable

namespace Calculation

def toJson (record : Calculation) : Json :=
  .ofFields [("id", .integer record.id), ("name", .text record.name),
    ("expression", .text record.expression),
    ("calculatedValue", .ofOption .finite record.value)]

def shape : Shape :=
  ⟨"Calculation", [.of "id" asInteger false, .of "name" asText false,
    .of "expression" asText false, .of "calculatedValue" (asNullable asReal) false]⟩

def ofJson : Decoder Calculation := fun value => do
  let members ← shape.members value
  return { id := ← required members "id" asInteger
           name := ← required members "name" asText
           expression := ← required members "expression" asText
           value := ← permitted members "calculatedValue" asReal }

end Calculation

namespace Draft

def toJson (record : Draft) : Json :=
  .ofFields [("id", .ofOption .integer record.id), ("name", .text record.name),
    ("expression", .text record.expression)]

def shape : Shape :=
  ⟨"CalculationDraft", [.of "id" (asNullable asInteger) true, .of "name" asText false,
    .of "expression" asText false]⟩

def ofJson : Decoder Draft := fun value => do
  let members ← shape.members value
  return { id := ← permitted members "id" asInteger
           name := ← required members "name" asText
           expression := ← required members "expression" asText }

end Draft

namespace Outcome

def toJson (record : Outcome) : Json :=
  .ofFields ((record.id.toList.map fun id => ("id", .integer id)) ++
    [("name", .text record.name), ("expression", .text record.expression),
     ("calculatedValue", .finite record.value)])

def shape : Shape :=
  ⟨"CalculationResult", [.of "id" (asNullable asInteger) true, .of "name" asText false,
    .of "expression" asText false, .of "calculatedValue" asReal false]⟩

def ofJson : Decoder Outcome := fun value => do
  let members ← shape.members value
  return { id := ← permitted members "id" asInteger
           name := ← required members "name" asText
           expression := ← required members "expression" asText
           value := ← required members "calculatedValue" asReal }

end Outcome

namespace Resource

def toJson (record : Resource) : Json :=
  .ofFields [("id", .integer record.id), ("name", .text record.name),
    ("parentId", .ofOption .integer record.parent)]

def shape : Shape :=
  ⟨"Resource", [.of "id" asInteger false, .of "name" asText false,
    .of "parentId" (asNullable asInteger) false]⟩

def ofJson : Decoder Resource := fun value => do
  let members ← shape.members value
  return { id := ← required members "id" asInteger
           name := ← required members "name" asText
           parent := ← permitted members "parentId" asInteger }

end Resource

end Formulary
