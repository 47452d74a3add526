import Formulary.Expression.Evaluation
import Formulary.Store
import Formulary.Store.Calculations
import Formulary.Store.Variables
import Formulary.Text.Blank

/-!
Calculations over the variables of the store: they are created and changed, evaluated one by one or
as drafts, and recalculated after a variable has changed.
-/

namespace Formulary.Recalculation

inductive Fault
  | calculationNotFound (id : Int)
  | variableNotFound (id : Int)
  | blankName
  | valueNotFinite (value : Float)
  | expression (fault : ExpressionFault)
  | store (fault : StoreFault)

namespace Fault

def message : Fault → String
  | calculationNotFound id => s!"calculation not found: {id}"
  | variableNotFound id => s!"variable not found: {id}"
  | blankName => "calculation name must not be blank"
  | valueNotFinite value =>
    s!"variable value must be finite, got {Decimal.Layout.plain.write value}"
  | expression fault => fault.message
  | store fault => fault.message

def cause? : Fault → Option String
  | expression fault => some fault.message
  | store fault => some fault.message
  | _ => none

def ofStore : StoreFault → Fault
  | .notFound .calculation id => calculationNotFound id
  | .notFound .variable id => variableNotFound id
  | fault => store fault

def ofDatabase (fault : DatabaseFault) : Fault :=
  store (.database fault)

end Fault

abbrev Action (α : Type) : Type := Operation Fault α

structure Failure where
  calculation : Int
  name : String
  message : String
  deriving DecidableEq, Repr

structure Report where
  variableId : Int
  updated : List Outcome
  failed : List Failure

structure IndexReport where
  rebuilt : Nat
  /-- Calculations whose expression does not parse; their dependencies are kept. -/
  skipped : List Int
  deriving DecidableEq, Repr

open Operation (query update change record attempt lift)

def ready : Action Unit :=
  query Fault.store fun database => do
    let _ ← database.variableTable
    let _ ← database.calculationTables
    return ()

def parse (text : String) : Except Fault Expression :=
  (Expression.parse text).mapError Fault.expression

def valueOf (database : Database) (expression : Expression) : Except Fault Float :=
  expression.evaluateWith (fun id => (database.variableValue id).mapError Fault.store)
    Fault.expression

def evaluate (expression : Expression) : Action Float := do
  let value ← query id (valueOf · expression)
  record (.expressionEvaluated expression.references.length)
  return value

def getCalculation (id : Int) : Action Calculation := do
  match ← query Fault.ofStore (·.findCalculation id) with
  | some calculation => return calculation
  | none => throw (.calculationNotFound id)

def process (id : Int) : Action Outcome := do
  let calculation ← getCalculation id
  let expression ← parse calculation.expression
  let value ← evaluate expression
  update Fault.ofStore (·.setDependencies id expression.references)
  update Fault.ofStore (·.setCalculatedValue id value)
  record (.valueStored id)
  return ⟨some calculation.id, calculation.name, calculation.expression, value⟩

/-- Evaluates a draft. Its value is stored if its id is that of a stored calculation, of which
neither name nor expression changes. -/
def processDraft (draft : Draft) : Action Outcome := do
  let expression ← parse draft.expression
  let value ← evaluate expression
  match draft.id with
  | none => pure ()
  | some id =>
    match ← query Fault.ofStore (·.findCalculation id) with
    | some _ =>
      update Fault.ofStore (·.setCalculatedValue id value)
      record (.valueStored id)
    | none => record (.valueDropped id)
  return ⟨draft.id, draft.name, draft.expression, value⟩

/-- Processes calculations one after the other; one that fails does not keep the rest from it. -/
def processAll : List Calculation → Action (List Outcome × List Failure)
  | [] => return ([], [])
  | candidate :: rest => do
    match ← attempt (process candidate.id) with
    | .ok outcome =>
      let (updated, failed) ← processAll rest
      return (outcome :: updated, failed)
    | .error fault =>
      record (.passItemFailed candidate.id fault.message)
      let (updated, failed) ← processAll rest
      return (updated, ⟨candidate.id, candidate.name, fault.message⟩ :: failed)

def recalculate (variableId : Int) : Action Report := do
  let candidates ← query Fault.ofStore (·.dependentsOf variableId)
  record (.passStarted variableId candidates.length)
  let (updated, failed) ← processAll candidates
  record (.passFinished variableId updated.length failed.length)
  return ⟨variableId, updated, failed⟩

def normalizeName (name : String) : Except Fault String :=
  let trimmed := Text.trim name
  if trimmed = "" then .error .blankName else .ok trimmed

/-- Stores a calculation and its dependencies. If the table is full, the savepoint to which the two
would have been undone is gone as well, which is recorded. -/
def insert (name expression : String) (references : List Int) :
    Operation StoreFault Calculation := do
  match ← attempt (change id (·.createCalculation name expression references)) with
  | .ok created => return created
  | .error fault =>
    if endsTransaction fault then record (.savepointLost "create_calculation")
    throw fault

/-- Stores a calculation whose expression parses. The variables it mentions need not exist. -/
def create (name expression : String) : Action Calculation := do
  let name ← normalizeName name
  let parsed ← parse expression
  lift Fault.ofStore (insert name expression parsed.references)

/-- Replaces the expression of a calculation by one that parses; nothing is evaluated. -/
def replaceExpression (id : Int) (expression : String) : Action Calculation := do
  let parsed ← parse expression
  update Fault.ofStore (·.setExpression id expression parsed.references)
  getCalculation id

def reindex : List Calculation → Action IndexReport
  | [] => return ⟨0, []⟩
  | calculation :: rest => do
    match Expression.parse calculation.expression with
    | .ok expression =>
      update Fault.ofStore (·.setDependencies calculation.id expression.references)
      let report ← reindex rest
      return { report with rebuilt := report.rebuilt + 1 }
    | .error fault =>
      record (.indexItemSkipped calculation.id fault.message)
      let report ← reindex rest
      return { report with skipped := calculation.id :: report.skipped }

def rebuildIndex : Action IndexReport := do
  let calculations ← query Fault.ofStore (·.listCalculations)
  let report ← reindex calculations
  record (.indexRebuilt report.rebuilt report.skipped.length)
  return report

/-- Sets the value of a variable; what depends on it is not recalculated. -/
def setVariable (id : Int) (value : Float) : Action Variable := do
  if !value.isFinite then throw (.valueNotFinite value)
  update Fault.ofStore (·.setVariableValue id value)
  match ← query Fault.ofStore (·.findVariable id) with
  | some changed => return changed
  | none => throw (.variableNotFound id)

end Formulary.Recalculation
