import Formulary.Api.Fault
import Formulary.Text.Integer
import Formulary.Text.Pieces

/-!
Routes: what a request asks for, by its method and its path.
-/

namespace Formulary.Api

inductive Route
  | welcome
  | createResource
  | lineage (resource : Int)
  | children (resource : Int)
  | move (resource : Int)
  | processCalculation (calculation : Int)
  | recalculate (variableId : Int)
  | updateVariable
  | evaluate
  deriving DecidableEq, Repr

namespace Route

def label : Route → String
  | welcome => "welcome"
  | createResource => "create_resource"
  | lineage _ => "lineage"
  | children _ => "children"
  | move _ => "reparent"
  | processCalculation _ => "process_calculation"
  | recalculate _ => "recalculate"
  | updateVariable => "update_variable"
  | evaluate => "evaluate"

/-- The parts of a path. Blanks around it and slashes beside one another do not count. -/
def segments (path : String) : List String :=
  Text.nonEmptyPieces '/' (Text.trim path)

def withId (route : Int → Route) (text : String) : Except Fault Route :=
  match Text.integer? text with
  | some id => .ok (route id)
  | none => .error (.invalidId text)

/-- The route of a request. The words `expressions` and `evaluate` are no ids. -/
def find (method : Method) (path : String) : Except Fault Route :=
  let notAllowed : Except Fault Route := .error (.methodNotAllowed method path)
  match segments path with
  | [] =>
    match method with
    | .get => .ok welcome
    | .post => .ok createResource
    | _ => notAllowed
  | [first] =>
    if first = "expressions" then
      match method with
      | .post => .ok updateVariable
      | _ => notAllowed
    else
      match method with
      | .get => withId lineage first
      | .put => withId move first
      | _ => notAllowed
  | [first, second] =>
    if first = "expressions" then
      if second = "evaluate" then
        match method with
        | .post => .ok evaluate
        | _ => notAllowed
      else
        match method with
        | .get => withId processCalculation second
        | .put => withId recalculate second
        | _ => notAllowed
    else if second = "children" then
      match method with
      | .get => withId children first
      | _ => notAllowed
    else .error (.routeNotFound path)
  | _ => .error (.routeNotFound path)

end Route

end Formulary.Api
