import Formulary.Text.Blank

/-!
The methods of requests.
-/

namespace Formulary.Api

inductive Method
  | get
  | post
  | put
  | patch
  | delete
  deriving DecidableEq, Repr

structure UnknownMethod where
  name : String
  deriving DecidableEq, Repr

def UnknownMethod.message (unknown : UnknownMethod) : String :=
  s!"unknown request method `{unknown.name}`"

namespace Method

def name : Method → String
  | get => "GET"
  | post => "POST"
  | put => "PUT"
  | patch => "PATCH"
  | delete => "DELETE"

def ofText (text : String) : Except UnknownMethod Method :=
  match (Text.trim text).map Char.toUpper with
  | "GET" => .ok get
  | "POST" => .ok post
  | "PUT" => .ok put
  | "PATCH" => .ok patch
  | "DELETE" => .ok delete
  | other => .error ⟨other⟩

end Method

end Formulary.Api
