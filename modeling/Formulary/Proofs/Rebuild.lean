import Formulary.Proofs.Index
import Formulary.Proofs.Statements

/-!
Rebuilding the index. Whatever dependencies there are before, afterwards those of each calculation
that parses are the variables that it mentions; all else stays as it is, so that rebuilding the
index once more changes nothing.
-/

namespace Formulary

/-- What becomes of dependencies when those of the listed calculations are renewed, as far as these
parse. -/
structure Renewed (listed : List Calculation) (before after : DependencyTable) : Prop where
  columns : after.columns = before.columns
  parsed : ∀ calculation ∈ listed, ∀ expression,
    Expression.parse calculation.expression = .ok expression →
      ∀ variableId, ⟨calculation.id, variableId⟩ ∈ after.rows ↔ variableId ∈ expression.mentions
  kept : ∀ row : Dependency,
    (∀ calculation ∈ listed, calculation.id = row.calculation →
      ∃ fault, Expression.parse calculation.expression = .error fault) →
      (row ∈ after.rows ↔ row ∈ before.rows)

namespace Renewed

variable {calculation : Calculation} {rest listed : List Calculation}
  {before after again : DependencyTable}

theorem nil (table : DependencyTable) : Renewed [] table table :=
  ⟨rfl, by simp, fun _ _ => Iff.rfl⟩

theorem skip {fault : ExpressionFault} (renewed : Renewed rest before after)
    (refused : Expression.parse calculation.expression = .error fault) :
    Renewed (calculation :: rest) before after := by
  refine ⟨renewed.columns, ?_, ?_⟩
  · intro other inside expression read
    rcases List.mem_cons.1 inside with rfl | inside
    · rw [refused] at read
      cases read
    · exact renewed.parsed other inside expression read
  · intro row unparsed
    exact renewed.kept row fun other inside => unparsed other (List.mem_cons_of_mem _ inside)

theorem assign {expression : Expression}
    (renewed : Renewed rest (before.assign calculation.id expression.references) after)
    (apart : ∀ other ∈ rest, calculation.id ≠ other.id)
    (read : Expression.parse calculation.expression = .ok expression) :
    Renewed (calculation :: rest) before after := by
  refine ⟨?_, ?_, ?_⟩
  · rw [renewed.columns, DependencyTable.columns_assign]
  · intro other inside found readToo variableId
    rcases List.mem_cons.1 inside with rfl | inside
    · -- None of the rest has this id, so that what is assigned first stays to the end.
      have last := renewed.kept ⟨other.id, variableId⟩ fun later behind same =>
        absurd same.symm (apart later behind)
      rw [read] at readToo
      cases readToo
      rw [last, DependencyTable.mem_assign, ← Expression.mem_references]
      simp
    · exact renewed.parsed other inside found readToo variableId
  · intro row unparsed
    have different : row.calculation ≠ calculation.id := by
      intro same
      obtain ⟨fault, refused⟩ := unparsed calculation List.mem_cons_self same.symm
      rw [read] at refused
      cases refused
    have later := renewed.kept row fun other inside =>
      unparsed other (List.mem_cons_of_mem _ inside)
    rw [later, DependencyTable.mem_assign]
    simp [different]

theorem unique (first : Renewed listed before after) (second : Renewed listed after again) :
    again = after := by
  refine DependencyTable.eq_of_rows second.columns fun row => ?_
  by_cases unparsed : ∀ calculation ∈ listed, calculation.id = row.calculation →
      ∃ fault, Expression.parse calculation.expression = .error fault
  · exact second.kept row unparsed
  · push Not at unparsed
    obtain ⟨calculation, inside, same, parses⟩ := unparsed
    cases read : Expression.parse calculation.expression with
    | error fault => exact absurd read (parses fault)
    | ok expression =>
        have early := first.parsed calculation inside expression read row.variableId
        have late := second.parsed calculation inside expression read row.variableId
        rw [same] at early late
        exact late.trans early.symm

end Renewed

namespace Recalculation

open Operation

def parses (calculation : Calculation) : Bool :=
  (Expression.parse calculation.expression).isOk

theorem parses_eq_true {calculation : Calculation} :
    parses calculation = true ↔
      ∃ expression, Expression.parse calculation.expression = .ok expression := by
  unfold parses
  cases Expression.parse calculation.expression <;> simp [Except.isOk, Except.toBool]

theorem parses_eq_false {calculation : Calculation} :
    parses calculation = false ↔
      ∃ fault, Expression.parse calculation.expression = .error fault := by
  unfold parses
  cases Expression.parse calculation.expression <;> simp [Except.isOk, Except.toBool]

def survey (listed : List Calculation) : IndexReport :=
  ⟨listed.countP parses, (listed.filter (!parses ·)).map (·.id)⟩

theorem survey_cons_of_parses {calculation : Calculation} (read : parses calculation = true)
    (rest : List Calculation) :
    survey (calculation :: rest) = { survey rest with rebuilt := (survey rest).rebuilt + 1 } := by
  simp [survey, read]

theorem survey_cons_of_not_parses {calculation : Calculation} (refused : parses calculation = false)
    (rest : List Calculation) :
    survey (calculation :: rest) =
      { survey rest with skipped := calculation.id :: (survey rest).skipped } := by
  simp [survey, refused]

theorem mem_skipped {listed : List Calculation} {id : Int} :
    id ∈ (survey listed).skipped ↔ ∃ calculation ∈ listed, calculation.id = id ∧
      ∃ fault, Expression.parse calculation.expression = .error fault := by
  unfold survey
  rw [List.mem_map]
  constructor
  · rintro ⟨calculation, inside, rfl⟩
    obtain ⟨member, refused⟩ := List.mem_filter.1 inside
    exact ⟨calculation, member, rfl, parses_eq_false.1 (by simpa using refused)⟩
  · rintro ⟨calculation, member, rfl, refused⟩
    exact ⟨calculation, List.mem_filter.2 ⟨member, by simpa using parses_eq_false.2 refused⟩, rfl⟩

theorem rebuilt_add_skipped (listed : List Calculation) :
    (survey listed).rebuilt + (survey listed).skipped.length = listed.length := by
  have parted := List.length_eq_countP_add_countP parses (l := listed)
  simpa [survey, List.countP_eq_length_filter] using parted.symm

theorem leaves_reindex {calculations : Table Calculation} (listed : List Calculation)
    {store : Store} {dependencies : DependencyTable} (writable : store.obstacle = none)
    (usable : store.database.calculationTables = .ok (calculations, dependencies))
    (stored : ∀ calculation ∈ listed, calculation ∈ calculations.rows)
    (distinct : listed.Pairwise (·.id ≠ ·.id)) :
    ∃ index, Leaves (reindex listed) store (.ok (survey listed))
        (store.database.withCalculations calculations index) ∧
      Renewed listed dependencies index := by
  induction listed generalizing store dependencies with
  | nil =>
      refine ⟨dependencies, ?_, .nil dependencies⟩
      rw [Database.withCalculations_self usable]
      exact leaves_pure _
  | cons calculation rest ih =>
      obtain ⟨apart, distinctRest⟩ := List.pairwise_cons.1 distinct
      have storedRest : ∀ other ∈ rest, other ∈ calculations.rows :=
        fun other inside => stored other (List.mem_cons_of_mem _ inside)
      unfold reindex
      cases read : Expression.parse calculation.expression with
      | error fault =>
          obtain ⟨index, leaves, renewed⟩ := ih writable usable storedRest distinctRest
          refine ⟨index, ?_, renewed.skip read⟩
          rw [survey_cons_of_not_parses (parses_eq_false.2 ⟨fault, read⟩)]
          refine leaves_bind (leaves_record _) (leaves_bind leaves ?_)
          exact leaves_pure _
      | ok expression =>
          have held : calculations.contains calculation.id = true :=
            Table.contains_of_mem (stored calculation List.mem_cons_self)
          have usableAfter := Database.calculationTables_withCalculations usable rfl
            (DependencyTable.columns_assign dependencies calculation.id expression.references)
          let next : Store := { store with
            database := store.database.withCalculations calculations
              (dependencies.assign calculation.id expression.references) }
          obtain ⟨index, leaves, renewed⟩ := @ih next _ writable usableAfter storedRest distinctRest
          refine ⟨index, ?_, renewed.assign apart read⟩
          rw [survey_cons_of_parses (parses_eq_true.2 ⟨expression, read⟩)]
          refine leaves_bind (leaves_update writable
            (Database.setDependencies_eq_ok_iff.2 ⟨_, _, usable, held, rfl⟩)) ?_
          refine leaves_bind leaves ?_
          exact leaves_pure _

section Rebuild

variable {store : Store} {calculations : Table Calculation} {dependencies : DependencyTable}
  (writable : store.obstacle = none)
  (usable : store.database.calculationTables = .ok (calculations, dependencies))

include writable usable

theorem leaves_rebuildIndex :
    ∃ index, Leaves rebuildIndex store (.ok (survey calculations.rows))
        (store.database.withCalculations calculations index) ∧
      Renewed calculations.rows dependencies index := by
  have listed : store.database.listCalculations = .ok calculations.rows :=
    except_bind_eq_ok.2 ⟨_, usable, rfl⟩
  have distinct : calculations.rows.Pairwise (·.id ≠ ·.id) :=
    calculations.sorted.imp fun below same => absurd below (by simp [same])
  obtain ⟨index, leaves, renewed⟩ :=
    leaves_reindex calculations.rows writable usable (fun _ inside => inside) distinct
  refine ⟨index, ?_, renewed⟩
  refine leaves_bind (leaves_query listed) (leaves_bind leaves ?_)
  exact leaves_bind (leaves_record _) (leaves_pure _)

/-- The index of a usable store can be rebuilt whatever it holds. Afterwards the dependencies of
each calculation that parses are the variables that its expression mentions; those of the others,
which are reported in ascending order, and of calculations that there are not stay as they are, and
so does all else. Rebuilding the index again reports the same and changes nothing. -/
theorem rebuild_renews :
    ∃ report after index,
      rebuildIndex.apply store = (.ok report, after) ∧ store.Steady after ∧
      after.database = { store.database with dependencies := some index } ∧
      index.columns = dependencies.columns ∧
      (∀ calculation ∈ calculations.rows, ∀ expression,
        Expression.parse calculation.expression = .ok expression → ∀ variableId,
          ⟨calculation.id, variableId⟩ ∈ index.rows ↔ variableId ∈ expression.mentions) ∧
      (∀ calculation ∈ calculations.rows, ∀ fault,
        Expression.parse calculation.expression = .error fault → ∀ variableId,
          ⟨calculation.id, variableId⟩ ∈ index.rows ↔
            ⟨calculation.id, variableId⟩ ∈ dependencies.rows) ∧
      (∀ row : Dependency, calculations.contains row.calculation = false →
        (row ∈ index.rows ↔ row ∈ dependencies.rows)) ∧
      report.skipped.Pairwise (· < ·) ∧
      (∀ id, id ∈ report.skipped ↔ ∃ calculation ∈ calculations.rows, calculation.id = id ∧
        ∃ fault, Expression.parse calculation.expression = .error fault) ∧
      report.rebuilt + report.skipped.length = calculations.rows.length ∧
      ∃ again, rebuildIndex.apply after = (.ok report, again) ∧ after.Alike again := by
  obtain ⟨index, leaves, renewed⟩ := leaves_rebuildIndex writable usable
  obtain ⟨after, performed, alike⟩ := leaves.apply_eq
  have database := alike.database
  have usableAfter : after.database.calculationTables = .ok (calculations, index) := by
    rw [database]
    exact Database.calculationTables_withCalculations usable rfl renewed.columns
  obtain ⟨second, leavesAgain, renewedAgain⟩ :=
    leaves_rebuildIndex (alike.obstacle.trans writable) usableAfter
  obtain ⟨again, performedAgain, alikeAgain⟩ := leavesAgain.apply_eq
  rw [renewed.unique renewedAgain, Database.withCalculations_self usableAfter] at alikeAgain
  refine ⟨_, after, index, performed, ⟨alike.obstacle, alike.saved⟩, ?_, renewed.columns,
    renewed.parsed, ?_, ?_, ?_, fun id => mem_skipped, rebuilt_add_skipped _, again,
    performedAgain, alikeAgain⟩
  · obtain ⟨_, present, _⟩ := Database.calculationTables_eq_ok_iff.1 usable
    rw [database, Database.withCalculations, ← present]
  · intro calculation inside fault refused variableId
    refine renewed.kept _ fun other member same => ?_
    rw [Table.eq_of_id_eq member inside same]
    exact ⟨fault, refused⟩
  · intro row missing
    refine renewed.kept row fun other member same => ?_
    have held := Table.contains_of_mem member
    rw [id_calculation, same, missing] at held
    cases held
  · exact List.pairwise_map.2 (calculations.sorted.filter _)

end Rebuild

def astray : Store :=
  .ofDatabase
    { Store.fresh.database with
      calculations := some (((Table.empty TableName.calculations.columns).put
        ⟨1, "double", "\x7b\"id\":1\x7d * 2", none⟩).put ⟨2, "unread", "1 +", some 7⟩)
      dependencies := some ((((DependencyTable.empty TableName.dependencies.columns).put
        ⟨1, 5⟩).put ⟨2, 3⟩).put ⟨9, 1⟩) } none

theorem rebuild_renews_astray :
    ∃ calculations dependencies, astray.obstacle = none ∧
      astray.database.calculationTables = .ok (calculations, dependencies) ∧
      ∃ report after index, rebuildIndex.apply astray = (.ok report, after) ∧
        after.database.dependencies = some index ∧ report = ⟨1, [2]⟩ ∧
        index.rows = [⟨1, 1⟩, ⟨2, 3⟩, ⟨9, 1⟩] := by
  have usable : astray.database.calculationTables = .ok _ := rfl
  have computed : (rebuildIndex.apply astray).1.toOption = some ⟨1, [2]⟩ ∧
      (rebuildIndex.apply astray).2.database.dependencies.map (·.rows) =
        some [⟨1, 1⟩, ⟨2, 3⟩, ⟨9, 1⟩] := by
    decide +kernel
  obtain ⟨report, after, index, performed, _, database, _⟩ := rebuild_renews rfl usable
  rw [performed, database] at computed
  exact ⟨_, _, rfl, usable, report, after, index, performed, by rw [database],
    Option.some.inj computed.1, Option.some.inj computed.2⟩

end Recalculation

end Formulary
