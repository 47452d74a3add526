import Formulary.Forest
import Formulary.Recalculation
import Formulary.Store.Demo
import Formulary.Store.Resources
import Formulary.Store.Statements

/-!
Tasks: the calls of the tables, of the services and of the demonstration data. A list of tasks runs
one after the other, and one that fails does not keep the rest from it. What encloses such a list in
a transaction decides by its answers whether the transaction is kept.
-/

namespace Formulary

inductive TableTask
  | createVariable (name : String) (value : Float)
  | findVariable (id : Int)
  | variableValue (id : Int)
  | listVariables
  | setVariableValue (id : Int) (value : Float)
  | createCalculation (name expression : String) (references : List Int)
  | findCalculation (id : Int)
  | listCalculations
  | setExpression (id : Int) (expression : String) (references : List Int)
  | setCalculatedValue (id : Int) (value : Float)
  | setDependencies (id : Int) (references : List Int)
  | dependenciesOf (id : Int)
  | dependentsOf (variableId : Int)
  | createResource (name : String) (parent : Option Int)
  | findResource (id : Int)
  | resourceExists (id : Int)
  | listChildren (parent : Option Int)
  | setParent (id parent : Int)
  | seed

namespace TableTask

def Value : TableTask → Type
  | createVariable _ _ => Variable
  | findVariable _ => Option Variable
  | variableValue _ => Option Float
  | listVariables => List Variable
  | createCalculation _ _ _ => Calculation
  | findCalculation _ => Option Calculation
  | listCalculations | dependentsOf _ => List Calculation
  | dependenciesOf _ => List Int
  | createResource _ _ => Resource
  | findResource _ => Option Resource
  | resourceExists _ => Bool
  | listChildren _ => List Resource
  | seed => Nat
  | setVariableValue _ _ | setExpression _ _ _ | setCalculatedValue _ _ | setDependencies _ _
  | setParent _ _ => Unit

open Operation (query update change)

def operation : (task : TableTask) → Operation StoreFault task.Value
  | createVariable name value => change id (·.createVariable name value)
  | findVariable sought => query id (·.findVariable sought)
  | variableValue sought => query id (·.variableValue sought)
  | listVariables => query id (·.listVariables)
  | setVariableValue sought value => update id (·.setVariableValue sought value)
  | createCalculation name expression references =>
    Recalculation.insert name expression references
  | findCalculation sought => query id (·.findCalculation sought)
  | listCalculations => query id (·.listCalculations)
  | setExpression sought expression references =>
    update id (·.setExpression sought expression references)
  | setCalculatedValue sought value => update id (·.setCalculatedValue sought value)
  | setDependencies sought references => update id (·.setDependencies sought references)
  | dependenciesOf sought => query id (·.dependenciesOf sought)
  | dependentsOf variableId => query id (·.dependentsOf variableId)
  | createResource name parent => change id (·.createResource name parent)
  | findResource sought => query id (·.findResource sought)
  | resourceExists sought => query id (·.resourceExists sought)
  | listChildren parent => query id (·.listChildren parent)
  | setParent sought parent => update id (·.setParent sought parent)
  | seed => Demo.seed

/-- A task statement by statement. -/
def script : (task : TableTask) → Script task.Value
  | createVariable name value => .statement (·.createVariable name value)
  | findVariable sought => .ask (·.findVariable sought)
  | variableValue sought => .ask (·.variableValue sought)
  | listVariables => .ask (·.listVariables)
  | setVariableValue sought value => .change (·.setVariableValue sought value)
  | createCalculation name expression references =>
    .createCalculation name expression references
  | findCalculation sought => .ask (·.findCalculation sought)
  | listCalculations => .ask (·.listCalculations)
  | setExpression sought expression references => .setExpression sought expression references
  | setCalculatedValue sought value => .change (·.setCalculatedValue sought value)
  | setDependencies sought references => .setDependencies sought references
  | dependenciesOf sought => .ask (·.dependenciesOf sought)
  | dependentsOf variableId => .ask (·.dependentsOf variableId)
  | createResource name parent => .statement (·.createResource name parent)
  | findResource sought => .ask (·.findResource sought)
  | resourceExists sought => .ask (·.resourceExists sought)
  | listChildren parent => .ask (·.listChildren parent)
  | setParent sought parent => .change (·.setParent sought parent)
  | seed => .seed

end TableTask

namespace Recalculation

inductive Task
  | process (id : Int)
  | processDraft (draft : Draft)
  | recalculate (variableId : Int)
  | outcomes (variableId : Int)
  | create (name expression : String)
  | replaceExpression (id : Int) (expression : String)
  | getCalculation (id : Int)
  | rebuildIndex
  | setVariable (id : Int) (value : Float)

namespace Task

def Value : Task → Type
  | process _ | processDraft _ => Outcome
  | recalculate _ => Report
  | outcomes _ => List Outcome
  | create _ _ | replaceExpression _ _ | getCalculation _ => Calculation
  | rebuildIndex => IndexReport
  | setVariable _ _ => Variable

def action : (task : Task) → Action task.Value
  | process id => Recalculation.process id
  | processDraft draft => Recalculation.processDraft draft
  | recalculate variableId => Recalculation.recalculate variableId
  | outcomes variableId => do
    let report ← Recalculation.recalculate variableId
    return report.updated
  | create name expression => Recalculation.create name expression
  | replaceExpression id expression => Recalculation.replaceExpression id expression
  | getCalculation id => Recalculation.getCalculation id
  | rebuildIndex => Recalculation.rebuildIndex
  | setVariable id value => Recalculation.setVariable id value

end Task

instance : FromStorage Fault where
  ofStorage reason := .store (.ofStorage reason)
  storage?
    | .store fault => FromStorage.storage? fault
    | _ => none

end Recalculation

namespace Forest

inductive Task
  | getResource (id : Int)
  | listChildren (parent : Option Int)
  | lineage (id : Int)
  | create (name : String) (parent : Option Int)
  | move (id parent : Int)

namespace Task

def Value : Task → Type
  | getResource _ => Resource
  | listChildren _ => List Resource
  | lineage _ => List Int
  | create _ _ => Int
  | move _ _ => Unit

def action : (task : Task) → Action task.Value
  | getResource id => Forest.getResource id
  | listChildren parent => Forest.listChildren parent
  | lineage id => Forest.lineage id
  | create name parent => Forest.create name parent
  | move id parent => Forest.move id parent

end Task

instance : FromStorage Fault where
  ofStorage reason := .store (.ofStorage reason)
  storage?
    | .store fault => FromStorage.storage? fault
    | _ => none

end Forest

inductive Task
  | table (task : TableTask)
  | recalculation (task : Recalculation.Task)
  | forest (task : Forest.Task)

namespace Task

def Fault : Task → Type
  | table _ => StoreFault
  | recalculation _ => Recalculation.Fault
  | forest _ => Forest.Fault

def Value : Task → Type
  | table task => task.Value
  | recalculation task => task.Value
  | forest task => task.Value

/-- Services first make sure of the tables that they need. -/
def operation : (task : Task) → Operation task.Fault task.Value
  | table task => task.operation
  | recalculation task => do
    Recalculation.ready
    task.action
  | forest task => do
    Forest.ready
    task.action

instance : (task : Task) → FromStorage task.Fault
  | table _ => inferInstanceAs (FromStorage StoreFault)
  | recalculation _ => inferInstanceAs (FromStorage Recalculation.Fault)
  | forest _ => inferInstanceAs (FromStorage Forest.Fault)

end Task

structure Answered where
  task : Task
  answer : Except task.Fault task.Value

def Answered.refused (answered : Answered) : Bool :=
  match answered.answer with
  | .ok _ => false
  | .error _ => true

/-- Whether a task was refused because its table is full. -/
def Answered.full (answered : Answered) : Bool :=
  match answered.answer with
  | .ok _ => false
  | .error fault => endsTransaction fault

def performAll : List Task → Store → List Answered × Store
  | [], store => ([], store)
  | task :: rest, store =>
    let (answer, middle) := task.operation.apply store
    let (answers, after) := performAll rest middle
    (⟨task, answer⟩ :: answers, after)

/-- Performs tasks, and then succeeds or fails as their answers say. -/
def closure (tasks : List Task) (verdict : List Answered → Except ε α) : Operation ε α := fun store =>
  let (answers, after) := performAll tasks store
  (verdict answers, after)

end Formulary
