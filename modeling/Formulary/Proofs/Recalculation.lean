import Formulary.Proofs.Operation
import Formulary.Proofs.Schema
import Formulary.Recalculation

/-!
What the operations on calculations and variables do to a store when they succeed, and that they
change nothing when they fail.
-/

namespace Formulary.Recalculation

open Operation

variable {store after : Store}

theorem ready_cases (store : Store) :
    (ready.apply store = (.ok (), store)) ∨
      ∃ reason, ready.apply store = (.error (.store reason), store) := by
  unfold ready
  rw [apply_query]
  generalize Bind.bind store.database.variableTable _ = checked
  cases checked with
  | ok _ => exact .inl rfl
  | error reason => exact .inr ⟨reason, rfl⟩

theorem usable_of_ready (intact : (ready.apply store).1 = .ok ()) :
    ∃ calculations dependencies,
      store.database.calculationTables = .ok (calculations, dependencies) := by
  unfold ready at intact
  rw [apply_query] at intact
  obtain ⟨_, _, checked⟩ := except_bind_eq_ok.1 (mapError_eq_ok.1 intact)
  obtain ⟨⟨calculations, dependencies⟩, usable, _⟩ := except_bind_eq_ok.1 checked
  exact ⟨calculations, dependencies, usable⟩

theorem normalizeName_eq_error {name : String} {fault : Fault}
    (refused : normalizeName name = .error fault) : fault = .blankName := by
  unfold normalizeName at refused
  by_cases blank : Text.trim name = ""
  · simp only [blank, if_true] at refused
    exact (Except.error.inj refused).symm
  · simp [blank] at refused

theorem getCalculation_eq_ok {id : Int} {calculation : Calculation} :
    (getCalculation id).apply store = (.ok calculation, after) ↔
      store.database.findCalculation id = .ok (some calculation) ∧ store = after := by
  unfold getCalculation
  rw [bind_eq_ok]
  constructor
  · rintro ⟨found, middle, looked, ran⟩
    obtain ⟨read, rfl⟩ := query_eq_ok.1 looked
    cases found with
    | none => simp at ran
    | some present =>
        cases ran
        exact ⟨read, rfl⟩
  · rintro ⟨read, rfl⟩
    exact ⟨some calculation, store, query_eq_ok.2 ⟨read, rfl⟩, rfl⟩

theorem getCalculation_alike (id : Int) : Within Store.Alike (getCalculation id) := by
  refine within_bind alike_progress (within_query alike_progress _ _) fun found => ?_
  cases found with
  | none => exact within_throw alike_progress _
  | some calculation => exact within_pure alike_progress _

theorem evaluate_eq_ok {expression : Expression} {value : Float} :
    (evaluate expression).apply store = (.ok value, after) ↔
      valueOf store.database expression = .ok value ∧
        after = { store with
          events := .expressionEvaluated expression.references.length :: store.events } := by
  unfold evaluate
  rw [bind_eq_ok]
  constructor
  · rintro ⟨found, middle, looked, ran⟩
    obtain ⟨read, rfl⟩ := query_eq_ok.1 looked
    cases ran
    exact ⟨read, rfl⟩
  · rintro ⟨read, rfl⟩
    exact ⟨value, store, query_eq_ok.2 ⟨read, rfl⟩, rfl⟩

theorem evaluate_alike (expression : Expression) : Within Store.Alike (evaluate expression) :=
  within_bind alike_progress (within_query alike_progress _ _) fun value =>
    within_record_pure alike_progress _ value

theorem apply_evaluate (expression : Expression) (store : Store) :
    (evaluate expression).apply store =
      match valueOf store.database expression with
      | .error fault => (.error fault, store)
      | .ok value => (.ok value, { store with
          events := .expressionEvaluated expression.references.length :: store.events }) := by
  unfold evaluate
  rw [apply_bind, apply_query]
  cases valueOf store.database expression <;> rfl

theorem process_eq_ok {id : Int} {outcome : Outcome}
    (processed : (process id).apply store = (.ok outcome, after)) :
    store.obstacle = none ∧ ∃ calculation expression value indexed database,
      store.database.findCalculation id = .ok (some calculation) ∧
      Expression.parse calculation.expression = .ok expression ∧
      valueOf store.database expression = .ok value ∧
      store.database.setDependencies id expression.references = .ok indexed ∧
      indexed.setCalculatedValue id value = .ok database ∧
      outcome = ⟨some calculation.id, calculation.name, calculation.expression, value⟩ ∧
      Store.Alike { store with database } after := by
  simp only [process, bind_eq_ok, liftM_eq] at processed
  obtain ⟨calculation, _, got, expression, _, ⟨read, rfl⟩, value, _, evaluated, _, _, indexing,
    _, _, storing, _, _, recorded, answered⟩ := processed
  obtain ⟨present, rfl⟩ := getCalculation_eq_ok.1 got
  obtain ⟨valued, rfl⟩ := evaluate_eq_ok.1 evaluated
  obtain ⟨writable, indexed, written, rfl⟩ := update_eq_ok.1 indexing
  obtain ⟨_, database, stored, rfl⟩ := update_eq_ok.1 storing
  cases recorded
  cases answered
  exact ⟨writable, calculation, expression, value, indexed, database, present,
    mapError_eq_ok.1 read, valued, written, stored, rfl, rfl⟩

theorem setCalculatedValue_after_setDependencies {database indexed : Database} {id : Int}
    {references : List Int} (indexing : database.setDependencies id references = .ok indexed)
    (value : Float) : ∃ stored, indexed.setCalculatedValue id value = .ok stored := by
  obtain ⟨calculations, dependencies, usable, held, rfl⟩ :=
    Database.setDependencies_eq_ok_iff.1 indexing
  have usableAfter := Database.calculationTables_withCalculations usable rfl
    (DependencyTable.columns_assign dependencies id references)
  exact ⟨_, Database.setCalculatedValue_eq_ok_iff.2 ⟨_, _, usableAfter, held, rfl⟩⟩

theorem process_atomic (id : Int) : Atomic (process id) := by
  refine failsWithin_bind alike_progress (getCalculation_alike id) fun calculation => ?_
  refine failsWithin_bind alike_progress (within_liftM alike_progress _) fun expression => ?_
  refine failsWithin_bind alike_progress (evaluate_alike expression) fun value => ?_
  intro store fault after failed
  rcases bind_eq_error.1 failed with refused | ⟨_, _, indexing, failed⟩
  · exact atomic_update Database.changeCalculation_lasting refused
  obtain ⟨writable, indexed, written, rfl⟩ := update_eq_ok.1 indexing
  -- What was stored first is not lost, for the second change cannot fail.
  obtain ⟨database, stored⟩ := setCalculatedValue_after_setDependencies written value
  rcases bind_eq_error.1 failed with refused | ⟨_, _, _, failed⟩
  · have succeeded := refused.symm.trans (update_eq_ok.2 ⟨writable, database, stored, rfl⟩)
    simp at succeeded
  · cases failed

def valueOfText (database : Database) (text : String) : Except Fault Float := do
  valueOf database (← parse text)

theorem valueOfText_eq_ok {database : Database} {text : String} {value : Float} :
    valueOfText database text = .ok value ↔
      ∃ expression, Expression.parse text = .ok expression ∧
        valueOf database expression = .ok value := by
  unfold valueOfText parse
  simp only [except_bind_eq_ok, mapError_eq_ok]

theorem valueOfText_bind {α : Type} (database : Database) (text : String) (rest : Except Fault α) :
    (do let _ ← valueOfText database text; rest) =
      (do
        let expression ← parse text
        let _ ← valueOf database expression
        rest) := by
  unfold valueOfText
  cases parse text <;> rfl

theorem leaves_evaluate (expression : Expression) :
    Leaves (evaluate expression) store (valueOf store.database expression) store.database := by
  intro start alike
  have same : valueOf start.database expression = valueOf store.database expression := by
    rw [alike.database]
  rw [← same, apply_evaluate]
  cases valueOf start.database expression with
  | error fault => exact ⟨rfl, alike⟩
  | ok value => exact ⟨rfl, alike.trans rfl⟩

section Evaluating

variable {α : Type} {answer : Except Fault α} {database : Database} {text : String}
  {next : Expression → Float → Action α}

theorem leaves_valued {expression : Expression} {value : Float}
    (parsed : Expression.parse text = .ok expression)
    (valued : valueOf store.database expression = .ok value)
    (rest : Leaves (next expression value) store answer database) :
    Leaves (do
      let expression ← parse text
      let value ← evaluate expression
      next expression value : Action α) store answer database := by
  refine leaves_bind (leaves_liftM (mapError_eq_ok.2 parsed)) ?_
  exact leaves_bind (valued ▸ leaves_evaluate expression) rest

theorem leaves_unvalued {fault : Fault} (refused : valueOfText store.database text = .error fault) :
    Leaves (do
      let expression ← parse text
      let value ← evaluate expression
      next expression value : Action α) store (.error fault) store.database := by
  rcases except_bind_eq_error.1 refused with refused | ⟨expression, read, refused⟩
  · exact leaves_bind_error (leaves_liftM refused)
  · refine leaves_bind (leaves_liftM read) ?_
    exact leaves_bind_error (refused ▸ leaves_evaluate expression)

end Evaluating

section Processed

variable {calculations : Table Calculation} {dependencies : DependencyTable} {id : Int}
  {draft : Draft}

/-- What comes of processing a calculation, and the database that is left. -/
inductive Processed (store : Store) (calculations : Table Calculation)
    (dependencies : DependencyTable) (id : Int) : Except Fault Outcome → Database → Prop
  | missing (absent : calculations.find? id = none) :
      Processed store calculations dependencies id (.error (.calculationNotFound id)) store.database
  | unvalued {calculation : Calculation} {fault : Fault}
      (present : calculations.find? id = some calculation)
      (refused : valueOfText store.database calculation.expression = .error fault) :
      Processed store calculations dependencies id (.error fault) store.database
  | blocked {calculation : Calculation} {value : Float} {reason : StorageFault}
      (present : calculations.find? id = some calculation)
      (valued : valueOfText store.database calculation.expression = .ok value)
      (unwritable : store.obstacle = some reason) :
      Processed store calculations dependencies id (.error (.store (.ofStorage reason)))
        store.database
  | stored {calculation : Calculation} {expression : Expression} {value : Float}
      (present : calculations.find? id = some calculation)
      (parsed : Expression.parse calculation.expression = .ok expression)
      (valued : valueOf store.database expression = .ok value) (writable : store.obstacle = none) :
      Processed store calculations dependencies id
        (.ok ⟨some calculation.id, calculation.name, calculation.expression, value⟩)
        (store.database.withCalculations
          (Database.withCalculatedValue calculations id (Database.cell value))
          (dependencies.assign id expression.references))

inductive Drafted (store : Store) (calculations : Table Calculation)
    (dependencies : DependencyTable) (draft : Draft) : Except Fault Outcome → Database → Prop
  | unvalued {fault : Fault} (refused : valueOfText store.database draft.expression = .error fault) :
      Drafted store calculations dependencies draft (.error fault) store.database
  | dropped {value : Float} (valued : valueOfText store.database draft.expression = .ok value)
      (absent : ∀ id, draft.id = some id → calculations.find? id = none) :
      Drafted store calculations dependencies draft
        (.ok ⟨draft.id, draft.name, draft.expression, value⟩) store.database
  | blocked {id : Int} {calculation : Calculation} {value : Float} {reason : StorageFault}
      (valued : valueOfText store.database draft.expression = .ok value)
      (target : draft.id = some id) (present : calculations.find? id = some calculation)
      (unwritable : store.obstacle = some reason) :
      Drafted store calculations dependencies draft (.error (.store (.ofStorage reason)))
        store.database
  | stored {id : Int} {calculation : Calculation} {value : Float}
      (valued : valueOfText store.database draft.expression = .ok value)
      (target : draft.id = some id) (present : calculations.find? id = some calculation)
      (writable : store.obstacle = none) :
      Drafted store calculations dependencies draft
        (.ok ⟨draft.id, draft.name, draft.expression, value⟩)
        (store.database.withCalculations
          (Database.withCalculatedValue calculations id (Database.cell value)) dependencies)

theorem exists_processed (store : Store) (calculations : Table Calculation)
    (dependencies : DependencyTable) (id : Int) :
    ∃ answer database, Processed store calculations dependencies id answer database := by
  cases present : calculations.find? id with
  | none => exact ⟨_, _, .missing present⟩
  | some calculation =>
      cases valued : valueOfText store.database calculation.expression with
      | error fault => exact ⟨_, _, .unvalued present valued⟩
      | ok value =>
          cases obstacle : store.obstacle with
          | some reason => exact ⟨_, _, .blocked present valued obstacle⟩
          | none =>
              obtain ⟨expression, parsed, result⟩ := valueOfText_eq_ok.1 valued
              exact ⟨_, _, .stored present parsed result obstacle⟩

theorem exists_drafted (store : Store) (calculations : Table Calculation)
    (dependencies : DependencyTable) (draft : Draft) :
    ∃ answer database, Drafted store calculations dependencies draft answer database := by
  cases valued : valueOfText store.database draft.expression with
  | error fault => exact ⟨_, _, .unvalued valued⟩
  | ok value =>
      cases target : draft.id with
      | none => exact ⟨_, _, .dropped valued (by simp [target])⟩
      | some id =>
          cases present : calculations.find? id with
          | none => exact ⟨_, _, .dropped valued (by simp [target, present])⟩
          | some calculation =>
              cases obstacle : store.obstacle with
              | some reason => exact ⟨_, _, .blocked valued target present obstacle⟩
              | none => exact ⟨_, _, .stored valued target present obstacle⟩

variable (usable : store.database.calculationTables = .ok (calculations, dependencies))

include usable

theorem leaves_findCalculation (id : Int) :
    Leaves (query Fault.ofStore (·.findCalculation id)) store (.ok (calculations.find? id))
      store.database :=
  leaves_query (Database.findCalculation_eq_ok_iff.2 ⟨calculations, dependencies, usable, rfl⟩)

theorem leaves_getCalculation {calculation : Calculation}
    (present : calculations.find? id = some calculation) :
    Leaves (getCalculation id) store (.ok calculation) store.database := by
  refine leaves_bind (leaves_findCalculation usable id) ?_
  rw [present]
  exact leaves_pure calculation

theorem leaves_getCalculation_missing (absent : calculations.find? id = none) :
    Leaves (getCalculation id) store (.error (.calculationNotFound id)) store.database := by
  refine leaves_bind (leaves_findCalculation usable id) ?_
  rw [absent]
  exact leaves_throw _

theorem Processed.leaves {answer : Except Fault Outcome} {database : Database}
    (processed : Processed store calculations dependencies id answer database) :
    Leaves (process id) store answer database := by
  cases processed with
  | missing absent => exact leaves_bind_error (leaves_getCalculation_missing usable absent)
  | unvalued present refused =>
      exact leaves_bind (leaves_getCalculation usable present) (leaves_unvalued refused)
  | blocked present valued unwritable =>
      obtain ⟨expression, parsed, result⟩ := valueOfText_eq_ok.1 valued
      refine leaves_bind (leaves_getCalculation usable present) (leaves_valued parsed result ?_)
      exact leaves_bind_error (leaves_update_blocked unwritable)
  | @stored calculation expression value present parsed valued writable =>
      obtain ⟨member, same⟩ := Table.find?_eq_some_iff.1 present
      have held : calculations.contains id = true := same ▸ Table.contains_of_mem member
      have usableIndexed := Database.calculationTables_withCalculations usable rfl
        (DependencyTable.columns_assign dependencies id expression.references)
      refine leaves_bind (leaves_getCalculation usable present) (leaves_valued parsed valued ?_)
      refine leaves_bind (leaves_update writable
        (Database.setDependencies_eq_ok_iff.2 ⟨_, _, usable, held, rfl⟩)) ?_
      refine leaves_bind (leaves_update writable
        (Database.setCalculatedValue_eq_ok_iff.2 ⟨_, _, usableIndexed, held, rfl⟩)) ?_
      exact leaves_bind (leaves_record _) (leaves_pure _)

theorem Drafted.leaves {answer : Except Fault Outcome} {database : Database}
    (drafted : Drafted store calculations dependencies draft answer database) :
    Leaves (processDraft draft) store answer database := by
  cases drafted with
  | unvalued refused => exact leaves_unvalued refused
  | dropped valued absent =>
      obtain ⟨expression, parsed, result⟩ := valueOfText_eq_ok.1 valued
      refine leaves_valued parsed result ?_
      cases target : draft.id with
      | none => exact leaves_pure _
      | some id =>
          refine leaves_bind (leaves_findCalculation usable id) ?_
          rw [absent id target]
          exact leaves_bind (leaves_record _) (leaves_pure _)
  | @blocked id calculation value reason valued target present unwritable =>
      obtain ⟨expression, parsed, result⟩ := valueOfText_eq_ok.1 valued
      refine leaves_valued parsed result ?_
      rw [target]
      refine leaves_bind (leaves_findCalculation usable id) ?_
      rw [present]
      exact leaves_bind_error (leaves_update_blocked unwritable)
  | @stored id calculation value valued target present writable =>
      obtain ⟨expression, parsed, result⟩ := valueOfText_eq_ok.1 valued
      obtain ⟨member, same⟩ := Table.find?_eq_some_iff.1 present
      have held : calculations.contains id = true := same ▸ Table.contains_of_mem member
      refine leaves_valued parsed result ?_
      rw [target]
      refine leaves_bind (leaves_findCalculation usable id) ?_
      rw [present]
      refine leaves_bind (leaves_update writable
        (Database.setCalculatedValue_eq_ok_iff.2 ⟨_, _, usable, held, rfl⟩)) ?_
      exact leaves_bind (leaves_record _) (leaves_pure _)

end Processed

theorem process_succeeds {id : Int} {calculation : Calculation} {expression : Expression}
    {value : Float} (writable : store.obstacle = none)
    (found : store.database.findCalculation id = .ok (some calculation))
    (parsed : Expression.parse calculation.expression = .ok expression)
    (valued : valueOf store.database expression = .ok value) :
    ∃ outcome after, (process id).apply store = (.ok outcome, after) := by
  obtain ⟨calculations, dependencies, usable, present⟩ :=
    Database.findCalculation_eq_ok_iff.1 found
  have processed : Processed store calculations dependencies id _ _ :=
    .stored present.symm parsed valued writable
  obtain ⟨after, ran, _⟩ := (processed.leaves usable).apply_eq
  exact ⟨_, after, ran⟩

theorem isNaN_of_isFinite {x : Float} (finite : x.isFinite = true) : x.isNaN = false := by
  unfold Float.isFinite Float.Model.isFinite at finite
  unfold Float.isNaN Float.Model.isNaN
  cases unpacked : x.toModel.unpack <;> rw [unpacked] at finite <;> first | rfl | cases finite

theorem valueCell_of_isFinite {table : Table StoredVariable} {value : Float}
    {stored : Option Float} (finite : value.isFinite = true)
    (fits : Database.valueCell table value = .ok stored) :
    stored = Database.cell value ∧ stored.isSome = true := by
  have number := isNaN_of_isFinite finite
  have present : (Database.cell value).isSome = true := by
    unfold Database.cell
    simp only [number, Bool.false_eq_true, if_false]
    split <;> rfl
  obtain ⟨kept, holds⟩ := Option.isSome_iff_exists.1 present
  unfold Database.valueCell at fits
  rw [holds] at fits ⊢
  cases fits
  exact ⟨rfl, rfl⟩

theorem findVariable_after_setVariableValue {database changed : Database} {id : Int}
    {value : Float} (finite : value.isFinite = true)
    (written : database.setVariableValue id value = .ok changed) :
    ∃ shown, changed.findVariable id = .ok (some shown) ∧ shown.id = id := by
  obtain ⟨table, stored, usable, held, fits, rfl⟩ := Database.setVariableValue_eq_ok_iff.1 written
  have usableAfter : { database with
      vars := some (Database.withValue table id stored) }.variableTable = .ok _ :=
    Database.variableTable_withVars usable rfl
  obtain ⟨same, filled⟩ := valueCell_of_isFinite finite fits
  obtain ⟨kept, rfl⟩ := Option.isSome_iff_exists.1 filled
  obtain ⟨row, member, rowId⟩ := Table.contains_iff.1 held
  have found : (Database.withValue table id (some kept)).find? id =
      some { row with value := some kept } := by
    rw [Table.find?_eq_some_iff]
    refine ⟨Table.mem_modify.2 ⟨row, member, ?_⟩, rowId⟩
    rw [if_pos rowId]
  refine ⟨⟨row.id, row.name, kept⟩, ?_, rowId⟩
  unfold Database.findVariable
  rw [except_bind_eq_ok]
  refine ⟨_, usableAfter, ?_⟩
  rw [found]
  rfl

theorem setVariable_eq_ok {id : Int} {value : Float} {changed : Variable}
    (ran : (setVariable id value).apply store = (.ok changed, after)) :
    value.isFinite = true ∧ store.obstacle = none ∧
      ∃ database, store.database.setVariableValue id value = .ok database ∧
        changed.id = id ∧ after = { store with database } := by
  unfold setVariable at ran
  cases finite : value.isFinite with
  | false => simp [finite] at ran
  | true =>
      simp only [finite, Bool.not_true, Bool.false_eq_true, if_false, bind_eq_ok] at ran
      obtain ⟨_, _, updated, found, _, looked, answered⟩ := ran
      obtain ⟨writable, database, written, rfl⟩ := update_eq_ok.1 updated
      obtain ⟨read, rfl⟩ := query_eq_ok.1 looked
      obtain ⟨shown, present, same⟩ := findVariable_after_setVariableValue finite written
      rw [present] at read
      cases read
      cases answered
      exact ⟨rfl, writable, database, written, same, rfl⟩

theorem setVariable_atomic (id : Int) (value : Float) : Atomic (setVariable id value) := by
  unfold setVariable
  cases finite : value.isFinite with
  | false => exact failsWithin_throw alike_progress _
  | true =>
      intro store fault after failed
      rcases bind_eq_error.1 failed with refused | ⟨_, _, updated, failed⟩
      · exact atomic_update Database.setVariableValue_lasting refused
      · obtain ⟨writable, database, written, rfl⟩ := update_eq_ok.1 updated
        obtain ⟨shown, present, _⟩ := findVariable_after_setVariableValue finite written
        rw [apply_bind, apply_query, present] at failed
        cases failed

theorem within_steady_process (id : Int) : Within Store.Steady (process id) := by
  refine within_of_answers ?_ ?_
  · intro store outcome after processed
    obtain ⟨_, _, _, _, _, database, _, _, _, _, _, _, alike⟩ := process_eq_ok processed
    exact ⟨alike.obstacle, alike.saved⟩
  · intro store fault after failed
    exact (process_atomic id failed).steady

theorem within_steady_setVariable (id : Int) (value : Float) :
    Within Store.Steady (setVariable id value) := by
  refine within_of_answers ?_ ?_
  · intro store changed after ran
    obtain ⟨_, _, database, _, _, rfl⟩ := setVariable_eq_ok ran
    exact ⟨rfl, rfl⟩
  · intro store fault after failed
    exact (setVariable_atomic id value failed).steady

section Passes

variable {relation : Store → Store → Prop} (progress : Progress relation)

include progress

theorem within_processAll (each : ∀ id, Within relation (process id))
    (candidates : List Calculation) : Within relation (processAll candidates) := by
  induction candidates with
  | nil => exact within_pure progress _
  | cons candidate rest ih =>
      unfold processAll
      refine within_bind progress (within_attempt (each candidate.id)) fun answer => ?_
      cases answer with
      | ok outcome => exact within_bind progress ih fun _ => within_pure progress _
      | error fault =>
          exact within_bind progress (within_record progress _) fun _ =>
            within_bind progress ih fun _ => within_pure progress _

theorem within_recalculate (each : ∀ id, Within relation (process id)) (variableId : Int) :
    Within relation (recalculate variableId) := by
  unfold recalculate
  refine within_bind progress (within_query progress _ _) fun candidates => ?_
  refine within_bind progress (within_record progress _) fun _ => ?_
  refine within_bind progress (within_processAll progress each candidates) fun results => ?_
  exact within_record_pure progress _ _

end Passes

end Formulary.Recalculation
