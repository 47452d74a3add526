/-!
The records that the store keeps: named variables, calculations over them, and resources that form
a forest.
-/

namespace Formulary

/-- The greatest id of a row. Ids are signed integers of 64 bits. -/
def greatestId : Int := 9223372036854775807

structure Variable where
  id : Int
  name : String
  value : Float

structure Calculation where
  id : Int
  name : String
  expression : String
  value : Option Float

structure Draft where
  id : Option Int
  name : String
  expression : String
  deriving DecidableEq, Repr

structure Outcome where
  id : Option Int
  name : String
  expression : String
  value : Float

structure Resource where
  id : Int
  name : String
  parent : Option Int
  deriving DecidableEq, Repr

def Resource.isRoot (resource : Resource) : Bool :=
  resource.parent.isNone

end Formulary
