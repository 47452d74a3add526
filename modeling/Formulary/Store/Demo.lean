import Formulary.Expression.Parser
import Formulary.Store
import Formulary.Store.Calculations
import Formulary.Store.Columns

/-!
The demonstration data. Variables and calculations are replaced by it as a whole, so that their ids
are always the same; resources are only added where their id is free.
-/

namespace Formulary.Demo

def vars : List Variable :=
  [⟨1, "base_price", 2.5⟩, ⟨2, "tax_rate", 0.08⟩, ⟨3, "discount", 5.0⟩]

def calculations : List Calculation :=
  [⟨1, "price_with_markup",
      "\x7b \"id\": 1, \"name\": \"base_price\" \x7d + 10 * 2", none⟩,
   ⟨2, "price_with_tax",
      "\x7b \"id\": 1, \"name\": \"base_price\" \x7d * " ++
        "(1 + \x7b \"id\": 2, \"name\": \"tax_rate\" \x7d)", none⟩,
   ⟨3, "discounted_price",
      "\x7b \"id\": 1, \"name\": \"base_price\" \x7d * 10 - " ++
        "\x7b \"id\": 3, \"name\": \"discount\" \x7d", none⟩]

/-- Parents stand before their children. -/
def resources : List Resource :=
  [⟨1, "Resource A", none⟩, ⟨2, "Resource B", some 1⟩, ⟨3, "Resource C", some 2⟩]

def index (dependencies : DependencyTable) : List Calculation → Except StoreFault DependencyTable
  | [] => .ok dependencies
  | calculation :: rest =>
    match Expression.parse calculation.expression with
    | .ok expression => index (dependencies.assign calculation.id expression.references) rest
    | .error fault =>
      .error (.invalidData s!"demo calculation {calculation.id}: {fault.message}")

def newResources (table : Table Resource) : List Resource :=
  resources.filter fun resource => !table.contains resource.id

def load (database : Database) : Except StoreFault (Nat × Database) := do
  let (oldCalculations, oldDependencies) ← database.calculationTables
  let oldVariables ← (Database.fillable .vars ["id", "name", "value"] Table.columns
    database.vars).mapError .ofStorage
  let dependencies ← index (oldDependencies.remove fun _ => true) calculations
  let oldResources ← (Database.fillable .resources ["id", "name", "parentId"] Table.columns
    database.resources).mapError .ofStorage
  let added := newResources oldResources
  return (added.length,
    { database with
      vars := some ((vars.map fun row => ⟨row.id, row.name, Database.cell row.value⟩).foldl
        Table.put oldVariables.reset)
      calculations := some (calculations.foldl Table.put oldCalculations.reset)
      dependencies := some dependencies
      resources := some (added.foldl Table.put oldResources) })

def seed : Operation StoreFault Nat := do
  let added ← Operation.change id load
  Operation.record (.demoSeeded vars.length calculations.length added)
  return added

end Formulary.Demo
