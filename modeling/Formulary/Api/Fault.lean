import Formulary.Api.Method
import Formulary.Forest
import Formulary.Recalculation

/-!
Why a request is refused: the message, a code that programs can read, and a status.
-/

namespace Formulary.Api

inductive Fault
  | routeNotFound (path : String)
  | methodNotAllowed (method : Method) (path : String)
  | invalidId (text : String)
  | invalidBody (message : String)
  | notEncoded (message : String)
  | forest (fault : Forest.Fault)
  | recalculation (fault : Recalculation.Fault)

namespace Fault

def message : Fault → String
  | routeNotFound path => s!"no route for `{path}`"
  | methodNotAllowed method path => s!"method {method.name} is not allowed on `{path}`"
  | invalidId text => s!"`{text}` is not a valid id"
  | invalidBody message => s!"invalid request body: {message}"
  | notEncoded message => s!"failed to encode response: {message}"
  | forest fault => fault.message
  | recalculation fault => fault.message

def cause? : Fault → Option String
  | forest fault => some fault.message
  | recalculation fault => some fault.message
  | _ => none

def forestCode : Forest.Fault → Nat × String
  | .blankName => (400, "invalid_name")
  | .resourceNotFound _ => (404, "resource_not_found")
  | .parentNotFound _ => (404, "parent_not_found")
  | .danglingParent _ => (404, "dangling_parent")
  | .ownParent _ => (400, "self_parent")
  | .cycle _ _ => (400, "cycle")
  | .store _ => (500, "storage_error")

def recalculationCode : Recalculation.Fault → Nat × String
  | .calculationNotFound _ => (404, "calculation_not_found")
  | .variableNotFound _ => (404, "variable_not_found")
  | .blankName => (400, "invalid_name")
  | .valueNotFinite _ => (400, "invalid_value")
  | .expression (.malformedReference _ _ _) => (400, "reference_parse")
  | .expression (.unknownVariable _) => (400, "unknown_variable_reference")
  | .expression (.arithmetic _) => (500, "evaluation_error")
  | .store _ => (500, "storage_error")

def statusAndCode : Fault → Nat × String
  | routeNotFound _ => (404, "route_not_found")
  | methodNotAllowed _ _ => (405, "method_not_allowed")
  | invalidId _ => (400, "invalid_id")
  | invalidBody _ => (400, "invalid_body")
  | notEncoded _ => (500, "serialization_error")
  | forest fault => forestCode fault
  | recalculation fault => recalculationCode fault

def status (fault : Fault) : Nat :=
  fault.statusAndCode.1

def code (fault : Fault) : String :=
  fault.statusAndCode.2

end Fault

end Formulary.Api
