import Formulary.Expression.Parser

/-!
Evaluation. The variables that an expression mentions are looked up first, all of them; only then
is anything computed. Operands are evaluated from left to right, and every operation has to give a
finite number.
-/

namespace Formulary

/-- Values of variables. Of several for one id the first counts. -/
abbrev Bindings : Type := List (Int × Float)

namespace Bindings

def lookup (bindings : Bindings) (id : Int) : Option Float :=
  (bindings.find? fun (bound, _) => bound = id).map (·.2)

def ofPairs (pairs : List (Int × Float)) : Bindings :=
  pairs.reverse

end Bindings

def Sign.apply : Sign → Float → Float
  | plus, x => x
  | minus, x => -x

/-- The result of an operation, whether finite or not; division by zero has none. -/
def Operator.apply? : Operator → Float → Float → Option Float
  | add, x, y => some (x + y)
  | subtract, x, y => some (x - y)
  | multiply, x, y => some (x * y)
  | divide, x, y => if y == 0 then none else some (x / y)

namespace Expression

def evaluate (bindings : Bindings) : Expression → Except ExpressionFault Float
  | number value _ => .ok value
  | reference target _ =>
    match bindings.lookup target.id with
    | some value => .ok value
    | none => .error (.unknownVariable target.id)
  | signed sign operand _ => do
    let value ← operand.evaluate bindings
    return sign.apply value
  | binary operator left right span => do
    let x ← left.evaluate bindings
    let y ← right.evaluate bindings
    match operator.apply? x y with
    | none => throw (.arithmetic (.divisionByZero right.span.start))
    | some value =>
      if value.isFinite then return value
      else throw (.arithmetic (.notFinite operator span.start))

/-- Looks up the given variables, one after the other; the first that has no value is the fault.
A look-up may fail for a reason of its own. -/
def bind (lookup : Int → Except ε (Option Float)) (fault : ExpressionFault → ε) :
    List Int → Except ε Bindings
  | [] => .ok []
  | id :: rest => do
    match ← lookup id with
    | none => throw (fault (.unknownVariable id))
    | some value => return (id, value) :: (← bind lookup fault rest)

def evaluateWith (lookup : Int → Except ε (Option Float)) (fault : ExpressionFault → ε)
    (expression : Expression) : Except ε Float := do
  let bindings ← bind lookup fault expression.references
  match expression.evaluate bindings with
  | .ok value => return value
  | .error reason => throw (fault reason)

def evaluateText (lookup : Int → Except ε (Option Float)) (fault : ExpressionFault → ε)
    (text : String) : Except ε Float := do
  let expression ← (parse text).mapError fault
  expression.evaluateWith lookup fault

end Expression

def Bindings.evaluate (values : Bindings) (text : String) : Except ExpressionFault Float :=
  Expression.evaluateText (fun id => .ok (values.lookup id)) id text

end Formulary
