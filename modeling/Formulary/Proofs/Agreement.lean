import Formulary.Proofs.Freshness
import Formulary.Proofs.Stages
import Formulary.Task

/-!
A calculation has one value, whichever way it is asked for: processed as it is stored, as a draft of
the same expression, or as the expression alone over the variables that have a value.
-/

namespace Formulary

def Database.bindings (database : Database) : Bindings :=
  match database.vars with
  | none => []
  | some table => table.rows.filterMap fun row => row.value.map (row.id, ·)

theorem Database.lookup_bindings {database : Database} {id : Int} {found : Option Float}
    (read : database.variableValue id = .ok found) : database.bindings.lookup id = found := by
  obtain ⟨table, usable, looked⟩ := except_bind_eq_ok.1 read
  obtain ⟨_, present, _⟩ := variableTable_eq_ok_iff.1 usable
  unfold bindings Bindings.lookup
  rw [present]
  dsimp only
  generalize searched : List.find? _ _ = first
  cases first with
  | some binding =>
      obtain ⟨bound, value⟩ := binding
      have same : bound = id := by simpa using List.find?_some searched
      obtain ⟨row, member, filled⟩ := List.mem_filterMap.1 (List.mem_of_find?_eq_some searched)
      obtain ⟨stored, holds, paired⟩ := Option.map_eq_some_iff.1 filled
      cases paired
      have listed : table.find? id = some row := Table.find?_eq_some_iff.2 ⟨member, same⟩
      rw [listed] at looked
      simp only [holds] at looked
      exact Except.ok.inj looked
  | none =>
      cases listed : table.find? id with
      | none =>
          rw [listed] at looked
          exact Except.ok.inj looked
      | some row =>
          rw [listed] at looked
          obtain ⟨member, same⟩ := Table.find?_eq_some_iff.1 listed
          cases holds : row.value with
          | none => simp [holds] at looked
          | some value =>
              have bound : (row.id, value) ∈ table.rows.filterMap fun row =>
                  row.value.map (row.id, ·) := List.mem_filterMap.2 ⟨row, member, by rw [holds]; rfl⟩
              have other : ¬ row.id = id := by simpa using List.find?_eq_none.1 searched _ bound
              exact absurd same other

namespace Recalculation

open Operation

theorem valueOfText_bindings (database : Database) (text : String) :
    (∃ reason, valueOfText database text = .error (.store reason)) ∨
      ∃ result, valueOfText database text = result.mapError Fault.expression ∧
        database.bindings.evaluate text = result := by
  obtain ⟨outcome, staged⟩ := exists_staged
    (fun id => (database.variableValue id).mapError Fault.store) Fault.expression text.toList
  have answer : valueOfText database text = outcome := staged.evaluateText_eq
  have looked (id : Int) (found : Option Float)
      (read : (database.variableValue id).mapError Fault.store = .ok found) :
      (.ok (database.bindings.lookup id) : Except ExpressionFault (Option Float)) = .ok found := by
    rw [Database.lookup_bindings (mapError_eq_ok.1 read)]
  rcases staged.transfer _ id looked with ⟨id, reason, fails, same⟩ | ⟨result, same, moved⟩
  · obtain ⟨why, _, raised⟩ := mapError_eq_error.1 fails
    exact .inl ⟨why, by rw [answer, same, raised]⟩
  · refine .inr ⟨result, by rw [answer, same], ?_⟩
    have pure : result.mapError id = result := by cases result <;> rfl
    rw [pure] at moved
    exact moved.evaluateText_eq

theorem evaluate_bindings {database : Database} {text : String} {value : Float}
    (valued : valueOfText database text = .ok value) :
    database.bindings.evaluate text = .ok value := by
  rcases valueOfText_bindings database text with ⟨reason, fails⟩ | ⟨result, same, evaluated⟩
  · rw [valued] at fails
    cases fails
  · rw [evaluated]
    exact mapError_eq_ok.1 (same.symm.trans valued)

theorem evaluate_bindings_error {database : Database} {text : String} {reason : ExpressionFault}
    (refused : valueOfText database text = .error (.expression reason)) :
    database.bindings.evaluate text = .error reason := by
  rcases valueOfText_bindings database text with ⟨_, fails⟩ | ⟨result, same, evaluated⟩
  · rw [refused] at fails
    cases fails
  · obtain ⟨found, failed, raised⟩ := mapError_eq_error.1 (same.symm.trans refused)
    cases raised
    rw [evaluated, failed]

def serve (task : Task) (store : Store) : Except Fault task.Value × Store :=
  (Formulary.Task.recalculation task).operation.apply store

theorem serve_cases (store : Store) :
    (∃ reason, ∀ task, serve task store = (.error (.store reason), store)) ∨
      ∃ calculations dependencies,
        store.database.calculationTables = .ok (calculations, dependencies) ∧
          ∀ task, serve task store = task.action.apply store := by
  have served (task : Task) : serve task store = (do ready; task.action : Action _).apply store := rfl
  simp only [apply_bind] at served
  rcases ready_cases store with checked | ⟨reason, checked⟩ <;> simp only [checked] at served
  · obtain ⟨calculations, dependencies, usable⟩ := usable_of_ready (congrArg Prod.fst checked)
    exact .inr ⟨calculations, dependencies, usable, served⟩
  · exact .inl ⟨reason, served⟩

theorem Processed.drafted {store : Store} {calculations : Table Calculation}
    {dependencies : DependencyTable} {calculation : Calculation} {answer : Except Fault Outcome}
    {kept : Database}
    (processed : Processed store calculations dependencies calculation.id answer kept)
    (member : calculation ∈ calculations.rows) (name : String) :
    (∃ fault, answer = .error fault ∧ kept = store.database ∧
      Drafted store calculations dependencies
        ⟨some calculation.id, name, calculation.expression⟩ (.error fault) store.database ∧
      ∀ reason, fault = .expression reason →
        store.database.bindings.evaluate calculation.expression = .error reason) ∨
    ∃ value expression,
      answer = .ok ⟨some calculation.id, calculation.name, calculation.expression, value⟩ ∧
      Expression.parse calculation.expression = .ok expression ∧
      store.database.bindings.evaluate calculation.expression = .ok value ∧
      kept = store.database.withCalculations
        (Database.withCalculatedValue calculations calculation.id (Database.cell value))
        (dependencies.assign calculation.id expression.references) ∧
      Drafted store calculations dependencies
        ⟨some calculation.id, name, calculation.expression⟩
        (.ok ⟨some calculation.id, name, calculation.expression, value⟩)
        (store.database.withCalculations
          (Database.withCalculatedValue calculations calculation.id (Database.cell value))
          dependencies) := by
  have listed : calculations.find? calculation.id = some calculation :=
    Table.find?_eq_some_iff.2 ⟨member, rfl⟩
  cases processed with
  | missing absent =>
      rw [listed] at absent
      cases absent
  | unvalued present refused =>
      cases listed.symm.trans present
      refine .inl ⟨_, rfl, rfl, .unvalued refused, ?_⟩
      rintro reason rfl
      exact evaluate_bindings_error refused
  | blocked present valued unwritable =>
      cases listed.symm.trans present
      exact .inl ⟨_, rfl, rfl, .blocked valued rfl listed unwritable, nofun⟩
  | stored present parsed valued writable =>
      cases listed.symm.trans present
      have found := valueOfText_eq_ok.2 ⟨_, parsed, valued⟩
      exact .inr ⟨_, _, rfl, parsed, evaluate_bindings found, rfl,
        .stored found rfl listed writable⟩

/-- A calculation answers the same whether it is processed or given as a draft under any name: the
same fault, which changes nothing, or the same value, which is that of its expression over the
variables. Both store the value; only the first renews the dependencies. And a draft changes no
more than the value of the calculation that it names, and nothing if it is refused. -/
theorem evaluations_agree (store : Store) :
    (∀ table calculation name answer kept drafted left,
      store.database.calculations = some table → calculation ∈ table.rows →
      serve (.process calculation.id) store = (answer, kept) →
      serve (.processDraft ⟨some calculation.id, name, calculation.expression⟩) store =
          (drafted, left) →
        (∃ fault, answer = .error fault ∧ drafted = .error fault ∧
          store.Alike kept ∧ store.Alike left ∧
          ∀ reason, fault = .expression reason →
            store.database.bindings.evaluate calculation.expression = .error reason) ∨
        ∃ value expression dependencies valued indexed,
          answer = .ok ⟨some calculation.id, calculation.name, calculation.expression, value⟩ ∧
          drafted = .ok ⟨some calculation.id, name, calculation.expression, value⟩ ∧
          store.database.bindings.evaluate calculation.expression = .ok value ∧
          Expression.parse calculation.expression = .ok expression ∧
          store.database.dependencies = some dependencies ∧
          Table.Replaced (⟨calculation.id, calculation.name, calculation.expression,
            Database.cell value⟩ : Calculation) table valued ∧
          DependencyTable.Assigned calculation.id expression.references dependencies indexed ∧
          Store.Alike { store with database :=
            { store.database with calculations := some valued } } left ∧
          Store.Alike { store with database :=
            { store.database with calculations := some valued, dependencies := some indexed } } kept) ∧
    ∀ draft answer left, serve (.processDraft draft) store = (answer, left) →
      store.Alike left ∨
        ∃ id value table dependencies row valued, draft.id = some id ∧ table.find? id = some row ∧
          answer = .ok ⟨draft.id, draft.name, draft.expression, value⟩ ∧
          store.database.bindings.evaluate draft.expression = .ok value ∧
          store.database.calculations = some table ∧
          store.database.dependencies = some dependencies ∧
          Table.Replaced (⟨id, row.name, row.expression, Database.cell value⟩ : Calculation) table
            valued ∧
          Store.Alike { store with database :=
            { store.database with calculations := some valued } } left := by
  rcases serve_cases store with ⟨reason, served⟩ | ⟨calculations, dependencies, usable, served⟩
  · constructor
    · intro table calculation name answer kept drafted left _ _ processed given
      rw [served] at processed given
      cases processed
      cases given
      exact .inl ⟨_, rfl, rfl, .refl store, .refl store, nofun⟩
    · intro draft answer left given
      rw [served] at given
      cases given
      exact .inl (.refl store)
  · obtain ⟨_, listed, _, indexed, _⟩ := Database.calculationTables_eq_ok_iff.1 usable
    have unindexed (table : Table Calculation) : store.database.withCalculations table dependencies =
        { store.database with calculations := some table } := by
      rw [Database.withCalculations, ← indexed]
    constructor
    · intro table calculation name answer kept drafted left listedToo member processed given
      rw [served] at processed given
      rw [listed] at listedToo
      cases listedToo
      obtain ⟨answered, database, outcome⟩ :=
        exists_processed store calculations dependencies calculation.id
      obtain ⟨rfl, alike⟩ := (outcome.leaves usable).eq_of_apply processed
      rcases outcome.drafted member name with ⟨fault, rfl, rfl, refused, fails⟩ |
        ⟨value, expression, rfl, parsed, evaluated, rfl, outcomeToo⟩
      · obtain ⟨rfl, alikeToo⟩ := (refused.leaves usable).eq_of_apply given
        exact .inl ⟨fault, rfl, rfl, alike, alikeToo, fails⟩
      · obtain ⟨rfl, alikeToo⟩ := (outcomeToo.leaves usable).eq_of_apply given
        have found : calculations.find? calculation.id = some calculation :=
          Table.find?_eq_some_iff.2 ⟨member, rfl⟩
        have assigned := DependencyTable.assigned_assign calculation.id expression.references dependencies
        rw [unindexed] at alikeToo
        exact .inr ⟨value, expression, dependencies, _, _, rfl, rfl, evaluated, parsed, indexed,
          Database.replaced_withCalculatedValue found _, assigned, alikeToo, alike⟩
    · intro draft answer left given
      rw [served] at given
      obtain ⟨answered, database, outcome⟩ := exists_drafted store calculations dependencies draft
      obtain ⟨rfl, alike⟩ := (outcome.leaves usable).eq_of_apply given
      cases outcome with
      | unvalued | dropped | blocked => exact .inl alike
      | stored valued target present writable =>
          rw [unindexed] at alike
          exact .inr ⟨_, _, _, _, _, _, target, present, rfl, evaluate_bindings valued, listed,
            indexed, Database.replaced_withCalculatedValue present _, alike⟩

theorem evaluations_agree_doubling :
    ∃ value kept left valued,
      serve (.process 1) doubling =
        (.ok ⟨some 1, "double", "\x7b\"id\":1\x7d * 2", value⟩, kept) ∧
      serve (.processDraft ⟨some 1, "twice", "\x7b\"id\":1\x7d * 2"⟩) doubling =
        (.ok ⟨some 1, "twice", "\x7b\"id\":1\x7d * 2", value⟩, left) ∧
      doubling.database.bindings.evaluate "\x7b\"id\":1\x7d * 2" = .ok value ∧
      left.database = { doubling.database with calculations := some valued } ∧
      kept.database.calculations = some valued ∧
      valued.find? 1 = some ⟨1, "double", "\x7b\"id\":1\x7d * 2", Database.cell value⟩ := by
  have answered : (serve (.process 1) doubling).1.toOption.isSome = true := by decide +kernel
  have member : (⟨1, "double", "\x7b\"id\":1\x7d * 2", some 4⟩ : Calculation) ∈
      ((Table.empty TableName.calculations.columns).put
        ⟨1, "double", "\x7b\"id\":1\x7d * 2", some 4⟩).rows := List.mem_singleton.2 rfl
  rcases processed : serve (.process 1) doubling with ⟨answer, kept⟩
  rcases given : serve (.processDraft ⟨some 1, "twice", "\x7b\"id\":1\x7d * 2"⟩) doubling with
    ⟨drafted, left⟩
  rw [processed] at answered
  rcases (evaluations_agree doubling).1 _ _ "twice" answer kept drafted left rfl member processed
    given with ⟨fault, rfl, _⟩ |
      ⟨value, _, _, valued, _, rfl, rfl, evaluated, _, _, replaced, _, alikeLeft, alikeKept⟩
  · cases answered
  · exact ⟨value, kept, left, valued, rfl, rfl, evaluated, alikeLeft.database,
      congrArg Database.calculations alikeKept.database, replaced.written⟩

end Recalculation

end Formulary
