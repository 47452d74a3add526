import Formulary.Api.Body
import Formulary.Api.Route

/-!
Requests on a store. Each one is answered with a status and a JSON value, also when it fails; what
a failing request had changed is undone.
-/

namespace Formulary

structure Request where
  method : Api.Method
  path : String
  body : Option Json

structure Response where
  status : Nat
  body : Json

namespace Response

def success (body : Json) : Response :=
  ⟨200, body⟩

def failure (fault : Api.Fault) : Response :=
  ⟨fault.status, .ofFields [("error",
    .ofFields [("code", .text fault.code), ("message", .text fault.message)])]⟩

def isSuccess (response : Response) : Bool :=
  200 ≤ response.status && response.status < 300

end Response

namespace Api

open Operation (lift transaction)

abbrev Action (α : Type) : Type := Operation Fault α

def onForest (action : Forest.Action α) : Action α :=
  lift Fault.forest (transaction Forest.Fault.ofDatabase do
    Forest.ready
    action)

def onCalculations (action : Recalculation.Action α) : Action α :=
  lift Fault.recalculation (transaction Recalculation.Fault.ofDatabase do
    Recalculation.ready
    action)

def decodeBody (decode : Json.Decoder α) : Option Json → Except Fault α
  | none => .error (.invalidBody "body is required")
  | some body => (decode body).mapError fun mismatch => .invalidBody mismatch.message

def welcomeMessage : String := "Welcome to the ResourceLineage APIs!"

def moveMessage : String := "Resource parent updated successfully"

def failureToJson (failure : Recalculation.Failure) : Json :=
  .ofFields [("calculationId", .integer failure.calculation), ("name", .text failure.name),
    ("message", .text failure.message)]

/-- Does what a route stands for. A variable is updated in a transaction of its own, before those
that depend on it are recalculated in another. -/
def perform (route : Route) (body : Option Json) : Action Json := do
  match route with
  | .welcome => return .ofFields [("message", .text welcomeMessage)]
  | .createResource =>
    let new ← decodeBody NewResource.ofJson body
    let id ← onForest (Forest.create new.name new.parent)
    return .ofFields [("id", .integer id)]
  | .lineage id =>
    let ancestors ← onForest (Forest.lineage id)
    return .ofFields [("lineage", .array (ancestors.map .integer))]
  | .children id =>
    let children ← onForest (Forest.listChildren (some id))
    return .ofFields [("children", .array (children.map Resource.toJson))]
  | .move id =>
    let new ← decodeBody NewParent.ofJson body
    onForest (Forest.move id new.parent)
    return .ofFields [("message", .text moveMessage)]
  | .processCalculation id =>
    let outcome ← onCalculations (Recalculation.process id)
    return outcome.toJson
  | .recalculate id =>
    let report ← onCalculations (Recalculation.recalculate id)
    return .array (report.updated.map Outcome.toJson)
  | .updateVariable =>
    let new ← decodeBody NewValue.ofJson body
    let changed ← onCalculations (Recalculation.setVariable new.id new.value)
    let report ← onCalculations (Recalculation.recalculate changed.id)
    return .ofFields [("variable", changed.toJson),
      ("recalculated", .array (report.updated.map Outcome.toJson)),
      ("failed", .array (report.failed.map failureToJson))]
  | .evaluate =>
    let draft ← decodeBody draftOfJson body
    let outcome ← onCalculations (Recalculation.processDraft draft)
    return outcome.toJson

def answer (request : Request) : Action (Route × Json) := do
  let route ← Route.find request.method request.path
  let body ← perform route request.body
  return (route, body)

def handle (request : Request) (store : Store) : Response × Store :=
  match (answer request).apply store with
  | (.ok (route, body), after) =>
    let event := .requestAnswered request.method.name route.label
    (.success body, { after with events := event :: after.events })
  | (.error fault, after) =>
    let event := .requestRefused request.method.name request.path fault.status fault.code
    (.failure fault, { after with events := event :: after.events })

end Api

end Formulary
