import Formulary.Proofs.Statements
import Formulary.Proofs.Transaction

/-!
Transactions are transparent: tasks answer and do in a transaction what they answer and do outside
of one, as long as no table is full, and a transaction that fails leaves nothing of them.
-/

namespace Formulary

namespace Operation

section Oblivious

variable {ε φ α β : Type}

def Oblivious (operation : Operation ε α) : Prop :=
  ∀ ⦃store answer after⦄, operation.apply store = (answer, after) →
    after.obstacle = store.obstacle ∧
      ∀ saved, operation.apply { store with saved := saved } = (answer, { after with saved := saved })

theorem Oblivious.saved_eq {operation : Operation ε α} (oblivious : Oblivious operation)
    {store after : Store} {answer : Except ε α} (ran : operation.apply store = (answer, after)) :
    after.saved = store.saved := by
  have again := (oblivious ran).2 store.saved
  have same := congrArg Store.saved (Prod.mk.inj (ran.symm.trans again)).2
  exact same

theorem oblivious_pure (value : α) : Oblivious (pure value : Operation ε α) := by
  rintro store _ _ ⟨⟩
  exact ⟨rfl, fun saved => rfl⟩

theorem oblivious_throw (fault : ε) : Oblivious (throw fault : Operation ε α) := by
  rintro store _ _ ⟨⟩
  exact ⟨rfl, fun saved => rfl⟩

theorem oblivious_record (event : Log.Event) : Oblivious (record event : Operation ε Unit) := by
  rintro store _ _ ⟨⟩
  exact ⟨rfl, fun saved => rfl⟩

theorem oblivious_liftM (result : Except ε α) : Oblivious (liftM result : Operation ε α) := by
  intro store answer after ran
  obtain ⟨rfl, rfl⟩ := liftM_eq.1 ran
  exact ⟨rfl, fun saved => apply_liftM result _⟩

theorem oblivious_query (fault : φ → ε) (read : Database → Except φ α) :
    Oblivious (query fault read) := by
  intro store answer after ran
  rw [apply_query] at ran
  cases ran
  exact ⟨rfl, fun saved => apply_query fault read _⟩

theorem oblivious_bind {operation : Operation ε α} {next : α → Operation ε β}
    (first : Oblivious operation) (rest : ∀ value, Oblivious (next value)) :
    Oblivious (operation >>= next) := by
  intro store answer after ran
  rw [apply_bind] at ran
  rcases began : operation.apply store with ⟨fault | value, middle⟩ <;> rw [began] at ran
  · cases ran
    obtain ⟨same, inside⟩ := first began
    refine ⟨same, fun saved => ?_⟩
    rw [apply_bind, inside saved]
  · obtain ⟨same, inside⟩ := first began
    obtain ⟨still, further⟩ := rest value ran
    refine ⟨still.trans same, fun saved => ?_⟩
    rw [apply_bind, inside saved]
    exact further saved

theorem oblivious_attempt {operation : Operation ε α} (inner : Oblivious operation) :
    Oblivious (attempt operation : Operation φ (Except ε α)) := by
  rintro store _ _ ⟨⟩
  obtain ⟨same, inside⟩ := inner (Prod.eta (operation.apply store)).symm
  refine ⟨same, fun saved => ?_⟩
  rw [apply_attempt, inside saved]
  rfl

theorem change_answer [FromStorage φ] (fault : φ → ε) (write : Database → Except φ (α × Database))
    (store : Store) (saved : Option Database) :
    ((change fault write).apply { store with saved := saved }).1 =
      ((change fault write).apply store).1 := by
  rw [apply_change, apply_change]
  dsimp only
  cases store.obstacle with
  | some reason => rfl
  | none => cases write store.database <;> rfl

theorem change_lasting [FromStorage φ] {fault : φ → ε} {write : Database → Except φ (α × Database)}
    {store after : Store} {answer : Except ε α}
    (lasting : ∀ reason, write store.database = .error reason → endsTransaction reason = false)
    (ran : (change fault write).apply store = (answer, after)) :
    after.obstacle = store.obstacle ∧ after.saved = store.saved ∧ ∀ saved,
      (change fault write).apply { store with saved := saved } =
        (answer, { after with saved := saved }) := by
  cases answer with
  | ok value =>
      obtain ⟨writable, database, written, rfl⟩ := change_eq_ok.1 ran
      exact ⟨rfl, rfl, fun saved => change_eq_ok.2 ⟨writable, database, written, rfl⟩⟩
  | error reported =>
      obtain rfl := change_eq_error lasting ran
      refine ⟨rfl, rfl, fun saved => ?_⟩
      have same := change_answer fault write after saved
      have still : ∀ reason, write { after with saved := saved }.database = .error reason →
          endsTransaction reason = false := lasting
      rcases failed : (change fault write).apply { after with saved := saved } with ⟨result, reached⟩
      rw [ran, failed] at same
      cases same
      rw [change_eq_error still failed]

theorem oblivious_change [FromStorage φ] {fault : φ → ε}
    {write : Database → Except φ (α × Database)}
    (lasting : ∀ {database reason}, write database = .error reason →
      endsTransaction reason = false) : Oblivious (change fault write) := by
  intro store answer after ran
  obtain ⟨obstacle, _, inside⟩ := change_lasting (fun _ => lasting) ran
  exact ⟨obstacle, inside⟩

theorem oblivious_update [FromStorage φ] {fault : φ → ε} {write : Database → Except φ Database}
    (lasting : ∀ {database reason}, write database = .error reason →
      endsTransaction reason = false) : Oblivious (update fault write) := by
  refine oblivious_change ?_
  intro database reason refused
  cases written : write database with
  | ok changed => simp [written, Except.map] at refused
  | error found =>
      rw [written] at refused
      cases refused
      exact lasting written

theorem oblivious_record_pure (event : Log.Event) (value : α) :
    Oblivious (do record event; return value : Operation ε α) :=
  oblivious_bind (oblivious_record event) fun _ => oblivious_pure value

end Oblivious

section Transparent

variable {ε φ α β : Type} [FromStorage ε] [FromStorage φ]

/-- Whether an operation does in a transaction what it does outside of one, unless it fails since a
table is full, which ends the transaction. -/
def Transparent (operation : Operation ε α) : Prop :=
  ∀ ⦃store answer after⦄, operation.apply store = (answer, after) → store.saved = none →
    after.obstacle = store.obstacle ∧ after.saved = none ∧ ∀ kept, ∃ inside,
      operation.apply { store with saved := some kept } = (answer, inside) ∧
        (inside = { after with saved := some kept } ∨
          (∃ fault, answer = .error fault ∧ endsTransaction fault = true) ∧
            inside.database = kept ∧ inside.obstacle = store.obstacle ∧ inside.saved = none)

omit [FromStorage φ] in
theorem transparent_of_oblivious {operation : Operation ε α} (oblivious : Oblivious operation) :
    Transparent operation := by
  intro store answer after ran idle
  obtain ⟨obstacle, inside⟩ := oblivious ran
  exact ⟨obstacle, (oblivious.saved_eq ran).trans idle, fun kept => ⟨_, inside (some kept), .inl rfl⟩⟩

theorem transparent_change {fault : φ → ε} (ends : ∀ {reason}, endsTransaction reason = true →
    endsTransaction (fault reason) = true) (write : Database → Except φ (α × Database)) :
    Transparent (change fault write) := by
  intro store answer after ran idle
  by_cases found_full : ∃ reason, write store.database = .error reason ∧
      endsTransaction reason = true
  · obtain ⟨reason, refused, full⟩ := found_full
    rw [apply_change] at ran
    cases obstacle : store.obstacle with
    | some found =>
        simp only [obstacle] at ran
        cases ran
        refine ⟨obstacle, idle, fun kept => ⟨{ store with saved := some kept }, ?_, .inl rfl⟩⟩
        rw [apply_change]
        simp only [obstacle]
    | none =>
        simp only [obstacle, refused, full, if_true] at ran
        cases ran
        refine ⟨obstacle, rfl, fun kept => ?_⟩
        refine ⟨{ store with saved := some kept }.rollBack, ?_, .inr ⟨⟨_, rfl, ends full⟩, ?_⟩⟩
        · rw [apply_change]
          simp only [obstacle, refused, full, if_true]
        · exact ⟨rfl, obstacle, rfl⟩
  · have lasting (reason : φ) (refused : write store.database = .error reason) :
        endsTransaction reason = false := by
      cases ends : endsTransaction reason with
      | false => rfl
      | true => exact absurd ⟨reason, refused, ends⟩ found_full
    obtain ⟨obstacle, saved, inside⟩ := change_lasting lasting ran
    exact ⟨obstacle, saved.trans idle, fun kept => ⟨_, inside (some kept), .inl rfl⟩⟩

omit [FromStorage φ] in
theorem transparent_bind {operation : Operation ε α} {next : α → Operation ε β}
    (first : Oblivious operation) (rest : ∀ value, Transparent (next value)) :
    Transparent (operation >>= next) := by
  intro store answer after ran idle
  rw [apply_bind] at ran
  rcases began : operation.apply store with ⟨fault | value, middle⟩ <;> rw [began] at ran <;>
    obtain ⟨same, inside⟩ := first began
  · cases ran
    refine ⟨same, (first.saved_eq began).trans idle, fun kept => ⟨_, ?_, .inl rfl⟩⟩
    rw [apply_bind, inside (some kept)]
  · obtain ⟨still, closed, further⟩ := rest value ran ((first.saved_eq began).trans idle)
    refine ⟨still.trans same, closed, fun kept => ?_⟩
    rw [apply_bind, inside (some kept)]
    obtain ⟨reached, ranInside, same | ended⟩ := further kept
    · exact ⟨reached, ranInside, .inl same⟩
    · obtain ⟨refused, database, obstacle, saved⟩ := ended
      exact ⟨reached, ranInside, .inr ⟨refused, database, obstacle.trans same, saved⟩⟩

omit [FromStorage φ] in
theorem transparent_bind_sure {operation : Operation ε α} {next : α → Operation ε β}
    (first : Transparent operation) (rest : ∀ value, Oblivious (next value)) :
    Transparent (operation >>= next) := by
  intro store answer after ran idle
  rw [apply_bind] at ran
  rcases began : operation.apply store with ⟨fault | value, middle⟩ <;> rw [began] at ran <;>
    obtain ⟨same, closed, inside⟩ := first began idle
  · cases ran
    refine ⟨same, closed, fun kept => ?_⟩
    obtain ⟨reached, ranInside, ended⟩ := inside kept
    refine ⟨reached, ?_, ended.imp_right fun ⟨⟨why, refused, full⟩, undone⟩ => ?_⟩
    · rw [apply_bind, ranInside]
    · cases refused
      exact ⟨⟨fault, rfl, full⟩, undone⟩
  · obtain ⟨still, further⟩ := rest value ran
    refine ⟨still.trans same, ((rest value).saved_eq ran).trans closed, fun kept => ?_⟩
    obtain ⟨reached, ranInside, rfl | ⟨⟨_, refused, _⟩, _⟩⟩ := inside kept
    · refine ⟨_, ?_, .inl rfl⟩
      rw [apply_bind, ranInside]
      exact further (some kept)
    · cases refused

theorem transparent_lift {fault : φ → ε} (ends : ∀ {reason}, endsTransaction reason = true →
    endsTransaction (fault reason) = true) {operation : Operation φ α}
    (inner : Transparent operation) : Transparent (lift fault operation) := by
  intro store answer after ran idle
  rw [apply_lift] at ran
  rcases began : operation.apply store with ⟨result, reached⟩
  rw [began] at ran
  cases ran
  obtain ⟨same, closed, inside⟩ := inner began idle
  refine ⟨same, closed, fun kept => ?_⟩
  obtain ⟨reached, ranInside, ended⟩ := inside kept
  refine ⟨reached, ?_, ended.imp_right fun ⟨⟨why, refused, full⟩, undone⟩ => ?_⟩
  · rw [apply_lift, ranInside]
  · rw [refused]
    exact ⟨⟨fault why, rfl, ends full⟩, undone⟩

end Transparent

end Operation

open Operation

namespace Recalculation

theorem ends_ofStore {reason : StoreFault} (ends : endsTransaction reason = true) :
    endsTransaction (Fault.ofStore reason) = true := by
  cases reason with
  | database fault => exact ends
  | _ => cases ends

theorem oblivious_ready : Oblivious ready :=
  oblivious_query _ _

theorem oblivious_getCalculation (id : Int) : Oblivious (getCalculation id) := by
  refine oblivious_bind (oblivious_query _ _) fun found => ?_
  cases found with
  | none => exact oblivious_throw _
  | some calculation => exact oblivious_pure _

theorem oblivious_evaluate (expression : Expression) : Oblivious (evaluate expression) :=
  oblivious_bind (oblivious_query _ _) fun _ => oblivious_record_pure _ _

theorem oblivious_process (id : Int) : Oblivious (process id) := by
  refine oblivious_bind (oblivious_getCalculation id) fun calculation => ?_
  refine oblivious_bind (oblivious_liftM _) fun expression => ?_
  refine oblivious_bind (oblivious_evaluate expression) fun value => ?_
  refine oblivious_bind (oblivious_update Database.changeCalculation_lasting) fun _ => ?_
  refine oblivious_bind (oblivious_update Database.changeCalculation_lasting) fun _ => ?_
  exact oblivious_record_pure _ _

theorem oblivious_processDraft (draft : Draft) : Oblivious (processDraft draft) := by
  refine oblivious_bind (oblivious_liftM _) fun expression => ?_
  refine oblivious_bind (oblivious_evaluate expression) fun value => ?_
  cases draft.id with
  | none => exact oblivious_pure _
  | some id =>
      refine oblivious_bind (oblivious_query _ _) fun found => ?_
      cases found with
      | none => exact oblivious_record_pure _ _
      | some calculation =>
          refine oblivious_bind (oblivious_update Database.changeCalculation_lasting) fun _ => ?_
          exact oblivious_record_pure _ _

theorem oblivious_processAll (candidates : List Calculation) :
    Oblivious (processAll candidates) := by
  induction candidates with
  | nil => exact oblivious_pure _
  | cons candidate rest ih =>
      refine oblivious_bind (oblivious_attempt (oblivious_process candidate.id)) fun answer => ?_
      cases answer with
      | ok outcome => exact oblivious_bind ih fun _ => oblivious_pure _
      | error fault =>
          exact oblivious_bind (oblivious_record _) fun _ =>
            oblivious_bind ih fun _ => oblivious_pure _

theorem oblivious_recalculate (variableId : Int) : Oblivious (recalculate variableId) := by
  refine oblivious_bind (oblivious_query _ _) fun candidates => ?_
  refine oblivious_bind (oblivious_record _) fun _ => ?_
  refine oblivious_bind (oblivious_processAll candidates) fun results => ?_
  exact oblivious_record_pure _ _

theorem oblivious_replaceExpression (id : Int) (expression : String) :
    Oblivious (replaceExpression id expression) := by
  refine oblivious_bind (oblivious_liftM _) fun parsed => ?_
  refine oblivious_bind (oblivious_update Database.changeCalculation_lasting) fun _ => ?_
  exact oblivious_getCalculation id

theorem oblivious_reindex (listed : List Calculation) : Oblivious (reindex listed) := by
  induction listed with
  | nil => exact oblivious_pure _
  | cons calculation rest ih =>
      unfold reindex
      cases Expression.parse calculation.expression with
      | ok expression =>
          refine oblivious_bind (oblivious_update Database.changeCalculation_lasting) fun _ => ?_
          exact oblivious_bind ih fun _ => oblivious_pure _
      | error fault =>
          exact oblivious_bind (oblivious_record _) fun _ =>
            oblivious_bind ih fun _ => oblivious_pure _

theorem oblivious_rebuildIndex : Oblivious rebuildIndex := by
  refine oblivious_bind (oblivious_query _ _) fun listed => ?_
  exact oblivious_bind (oblivious_reindex listed) fun _ => oblivious_record_pure _ _

theorem oblivious_setVariable (id : Int) (value : Float) : Oblivious (setVariable id value) := by
  unfold setVariable
  cases value.isFinite with
  | false => exact oblivious_throw _
  | true =>
      refine oblivious_bind (oblivious_update Database.setVariableValue_lasting) fun _ => ?_
      refine oblivious_bind (oblivious_query _ _) fun found => ?_
      cases found with
      | none => exact oblivious_throw _
      | some changed => exact oblivious_pure _

theorem transparent_insert (name expression : String) (references : List Int) :
    Transparent (insert name expression references) := by
  have inner : Transparent (change (id : StoreFault → StoreFault)
      (·.createCalculation name expression references)) := transparent_change id _
  intro store answer after ran idle
  rw [apply_insert] at ran
  rcases attempted : (change (id : StoreFault → StoreFault)
    (·.createCalculation name expression references)).apply store with ⟨fault | created, middle⟩ <;>
    rw [attempted] at ran <;> obtain ⟨same, closed, inside⟩ := inner attempted idle
  · cases full : endsTransaction fault with
    | false =>
        simp only [full] at ran
        cases ran
        refine ⟨same, closed, fun kept => ?_⟩
        obtain ⟨reached, ranInside, ended⟩ := inside kept
        refine ⟨reached, ?_, ended⟩
        rw [apply_insert, ranInside]
        simp only [full]
        rfl
    | true =>
        simp only [full, if_true] at ran
        cases ran
        refine ⟨same, closed, fun kept => ?_⟩
        obtain ⟨reached, ranInside, ended⟩ := inside kept
        refine ⟨{ reached with events := .savepointLost "create_calculation" :: reached.events },
          ?_, ended.imp ?_ ?_⟩
        · rw [apply_insert, ranInside]
          simp only [full, if_true]
        · rintro rfl
          rfl
        · rintro ⟨refused, database, obstacle, saved⟩
          exact ⟨refused, database, obstacle, saved⟩
  · cases ran
    refine ⟨same, closed, fun kept => ?_⟩
    obtain ⟨reached, ranInside, ended⟩ := inside kept
    refine ⟨reached, ?_, ended⟩
    rw [apply_insert, ranInside]

theorem transparent_create (name expression : String) : Transparent (create name expression) := by
  refine transparent_bind (oblivious_liftM _) fun name => ?_
  refine transparent_bind (oblivious_liftM _) fun parsed => ?_
  exact transparent_lift ends_ofStore (transparent_insert name expression parsed.references)

theorem Task.transparent (task : Task) : Transparent task.action := by
  cases task with
  | process id => exact transparent_of_oblivious (oblivious_process id)
  | processDraft draft => exact transparent_of_oblivious (oblivious_processDraft draft)
  | recalculate variableId => exact transparent_of_oblivious (oblivious_recalculate variableId)
  | outcomes variableId =>
      exact transparent_of_oblivious
        (oblivious_bind (oblivious_recalculate variableId) fun _ => oblivious_pure _)
  | create name expression => exact transparent_create name expression
  | replaceExpression id expression =>
      exact transparent_of_oblivious (oblivious_replaceExpression id expression)
  | getCalculation id => exact transparent_of_oblivious (oblivious_getCalculation id)
  | rebuildIndex => exact transparent_of_oblivious oblivious_rebuildIndex
  | setVariable id value => exact transparent_of_oblivious (oblivious_setVariable id value)

end Recalculation

namespace Forest

theorem ends_ofStore {reason : StoreFault} (ends : endsTransaction reason = true) :
    endsTransaction (Fault.ofStore reason) = true := by
  cases reason with
  | database fault => exact ends
  | _ => cases ends

theorem oblivious_getResource (id : Int) : Oblivious (getResource id) := by
  refine oblivious_bind (oblivious_query _ _) fun found => ?_
  cases found with
  | none => exact oblivious_throw _
  | some resource => exact oblivious_pure _

theorem oblivious_listChildren (parent : Option Int) : Oblivious (listChildren parent) := by
  have listed : Oblivious (query Fault.ofStore (·.listChildren parent)) := oblivious_query _ _
  cases parent with
  | none => exact listed
  | some id =>
      refine oblivious_bind (oblivious_query _ _) fun held => ?_
      cases held with
      | true => exact listed
      | false => exact oblivious_throw _

theorem oblivious_ancestors (id : Int) (parent : Option Int) : Oblivious (ancestors id parent) := by
  refine oblivious_bind (oblivious_query _ _) fun table => ?_
  dsimp only
  cases (Lineage.of table.rows id parent).revisited with
  | none => exact oblivious_pure _
  | some revisited => exact oblivious_record_pure _ _

theorem oblivious_lineage (id : Int) : Oblivious (lineage id) :=
  oblivious_bind (oblivious_getResource id) fun resource => oblivious_ancestors id resource.parent

theorem oblivious_move (id parent : Int) : Oblivious (move id parent) := by
  unfold move
  refine oblivious_bind (oblivious_query _ _) fun held => ?_
  cases held with
  | false => exact oblivious_throw _
  | true =>
      refine oblivious_bind (oblivious_query _ _) fun found => ?_
      cases found with
      | none => exact oblivious_throw _
      | some above =>
          dsimp only
          by_cases same : id = parent
          · rw [if_pos same]
            exact oblivious_throw _
          · rw [if_neg same]
            refine oblivious_bind (oblivious_ancestors parent above.parent) fun lineage => ?_
            by_cases inside : id ∈ lineage
            · rw [if_pos inside]
              exact oblivious_bind (oblivious_record _) fun _ => oblivious_throw _
            · rw [if_neg inside]
              refine oblivious_bind (oblivious_update Database.setParent_lasting) fun _ => ?_
              exact oblivious_record _

theorem transparent_create (name : String) (parent : Option Int) :
    Transparent (create name parent) := by
  have written (given : String) : Transparent (change Fault.ofStore (·.createResource given parent) >>=
      fun created => do
        record (.resourceCreated created.id parent.isSome)
        return created.id) :=
    transparent_bind_sure (transparent_change ends_ofStore _) fun _ => oblivious_record_pure _ _
  refine transparent_bind (oblivious_liftM _) fun given => ?_
  cases parent with
  | none => exact written given
  | some id =>
      refine transparent_bind (oblivious_query _ _) fun held => ?_
      cases held with
      | true => exact written given
      | false =>
          exact transparent_of_oblivious
            (oblivious_bind (oblivious_record _) fun _ => oblivious_throw _)

theorem Task.transparent (task : Task) : Transparent task.action := by
  cases task with
  | getResource id => exact transparent_of_oblivious (oblivious_getResource id)
  | listChildren parent => exact transparent_of_oblivious (oblivious_listChildren parent)
  | lineage id => exact transparent_of_oblivious (oblivious_lineage id)
  | create name parent => exact transparent_create name parent
  | move id parent => exact transparent_of_oblivious (oblivious_move id parent)

end Forest

theorem TableTask.transparent (task : TableTask) : Transparent task.operation := by
  have asked {α : Type} (read : Database → Except StoreFault α) :
      Transparent (query (id : StoreFault → StoreFault) read) :=
    transparent_of_oblivious (oblivious_query id read)
  have created {α : Type} (write : Database → Except StoreFault (α × Database)) :
      Transparent (change (id : StoreFault → StoreFault) write) :=
    transparent_change (fun ends => ends) write
  have changed {write : Database → Except StoreFault Database}
      (lasting : ∀ {database reason}, write database = .error reason →
        endsTransaction reason = false) :
      Transparent (update (id : StoreFault → StoreFault) write) :=
    transparent_of_oblivious (oblivious_update lasting)
  cases task with
  | createVariable name value => exact created (·.createVariable name value)
  | createResource name parent => exact created (·.createResource name parent)
  | createCalculation name expression references =>
      exact Recalculation.transparent_insert name expression references
  | setVariableValue id value => exact changed Database.setVariableValue_lasting
  | setExpression id expression references => exact changed Database.changeCalculation_lasting
  | setCalculatedValue id value => exact changed Database.changeCalculation_lasting
  | setDependencies id references => exact changed Database.changeCalculation_lasting
  | setParent id parent => exact changed Database.setParent_lasting
  | seed =>
      exact transparent_of_oblivious
        (oblivious_bind (oblivious_change Demo.load_lasting) fun _ => oblivious_record_pure _ _)
  | findVariable id => exact asked (·.findVariable id)
  | variableValue id => exact asked (·.variableValue id)
  | listVariables => exact asked (·.listVariables)
  | findCalculation id => exact asked (·.findCalculation id)
  | listCalculations => exact asked (·.listCalculations)
  | dependenciesOf id => exact asked (·.dependenciesOf id)
  | dependentsOf variableId => exact asked (·.dependentsOf variableId)
  | findResource id => exact asked (·.findResource id)
  | resourceExists id => exact asked (·.resourceExists id)
  | listChildren parent => exact asked (·.listChildren parent)

theorem Task.transparent (task : Task) : Transparent task.operation := by
  cases task with
  | table task => exact task.transparent
  | recalculation task => exact transparent_bind Recalculation.oblivious_ready fun _ => task.transparent
  | forest task => exact transparent_bind (oblivious_query _ _) fun _ => task.transparent

/-! Tasks one after the other: a transaction goes on up to the first one that ends it. -/

section Lists

variable {store after : Store} {answers : List Answered}

theorem performAll_inside {tasks : List Task} (performed : performAll tasks store = (answers, after))
    (idle : store.saved = none) (room : ∀ answered ∈ answers.dropLast, answered.full = false)
    (kept : Database) :
    after.obstacle = store.obstacle ∧ after.saved = none ∧ ∃ inside,
      performAll tasks { store with saved := some kept } = (answers, inside) ∧
        (inside = { after with saved := some kept } ∨
          (∃ answered ∈ answers, answered.full = true) ∧
            inside.database = kept ∧ inside.obstacle = store.obstacle ∧ inside.saved = none) := by
  induction tasks generalizing store answers with
  | nil =>
      cases performed
      exact ⟨rfl, idle, _, rfl, .inl rfl⟩
  | cons task rest ih =>
      rcases ran : task.operation.apply store with ⟨answer, middle⟩
      rcases later : performAll rest middle with ⟨more, last⟩
      simp only [performAll, ran, later] at performed
      cases performed
      obtain ⟨obstacle, closed, inside⟩ := task.transparent ran idle
      obtain ⟨reached, ranInside, rfl | ⟨⟨fault, rfl, full⟩, undone⟩⟩ := inside kept
      · have roomLater : ∀ answered ∈ more.dropLast, answered.full = false := by
          intro answered within
          cases more with
          | nil => cases within
          | cons _ _ => exact room answered (List.mem_cons_of_mem _ within)
        obtain ⟨same, stillClosed, final, performedInside, ends⟩ := ih later closed roomLater
        refine ⟨same.trans obstacle, stillClosed, final, ?_, ends.imp_right ?_⟩
        · simp only [performAll, ranInside, performedInside]
        · rintro ⟨⟨answered, within, full⟩, database, untouched, ended⟩
          exact ⟨⟨answered, List.mem_cons_of_mem _ within, full⟩, database,
            untouched.trans obstacle, ended⟩
      · cases rest with
        | nil =>
            cases later
            refine ⟨obstacle, closed, reached, ?_, .inr ⟨⟨_, List.mem_cons_self, full⟩, undone⟩⟩
            simp only [performAll, ranInside]
        | cons next others =>
            -- The transaction has ended with a task that is not the last one.
            cases later
            have lasting : endsTransaction fault = false :=
              room ⟨task, .error fault⟩ List.mem_cons_self
            rw [full] at lasting
            cases lasting

end Lists

theorem closure_apply {ε α : Type} (tasks : List Task) (verdict : List Answered → Except ε α)
    (store : Store) : (closure tasks verdict).apply store =
      (verdict (performAll tasks store).1, (performAll tasks store).2) := rfl

/-- Tasks answer and leave in a transaction what they answer and leave one by one, as long as no table
is full, and a transaction that fails leaves nothing of them. In one or outside of one, a task that
takes several statements does statement by statement what it does in one step: it leaves no savepoint
open, and where it fails, it has undone its own statements and no others. -/
theorem transaction_transparent {ε α : Type} (fault : DatabaseFault → ε) (tasks : List Task)
    (verdict : List Answered → Except ε α) {store after : Store} {answers : List Answered}
    (idle : store.saved = none) (performed : performAll tasks store = (answers, after)) :
    (∀ value, verdict answers = .ok value → (∀ answered ∈ answers, answered.full = false) →
      (transaction fault (closure tasks verdict)).apply store = (.ok value, after)) ∧
    (∀ reason, verdict answers = .error reason →
      (∀ answered ∈ answers.dropLast, answered.full = false) →
        ∃ events, (transaction fault (closure tasks verdict)).apply store =
          (.error reason, { store with events := events })) ∧
    ∀ (task : TableTask) {before reached : Store} {answer : Except StoreFault task.Value},
      before.obstacle = none → task.operation.apply before = (answer, reached) →
        task.script.apply ⟨before, []⟩ = (answer, ⟨reached, []⟩) ∧
          ∀ reason, answer = .error reason → endsTransaction reason = false →
            reached = before := by
  refine ⟨?_, ?_, ?_⟩
  · intro value accepted room
    obtain ⟨_, closed, inside, performedInside, rfl | ⟨⟨answered, within, full⟩, _⟩⟩ :=
      performAll_inside performed idle (fun answered within =>
        room answered (List.dropLast_subset answers within)) store.database
    · rw [apply_transaction idle, closure_apply, performedInside, accepted]
      obtain ⟨database, obstacle, saved, events⟩ := after
      cases closed
      rfl
    · rw [room answered within] at full
      cases full
  · intro reason rejected room
    have undone {middle : Store} (same : middle.rollBack.database = store.database)
        (obstacle : middle.obstacle = store.obstacle) :
        middle.rollBack = { store with events := middle.events } :=
      Store.Alike.of_fields same obstacle idle.symm
    obtain ⟨obstacle, _, inside, performedInside, rfl | ⟨_, database, untouched, ended⟩⟩ :=
      performAll_inside performed idle room store.database
    · refine ⟨after.events, ?_⟩
      rw [apply_transaction idle, closure_apply, performedInside, rejected]
      exact congrArg (Prod.mk _) (undone rfl obstacle)
    · refine ⟨inside.events, ?_⟩
      rw [apply_transaction idle, closure_apply, performedInside, rejected]
      refine congrArg (Prod.mk _) (undone ?_ untouched)
      unfold Store.rollBack
      rw [ended]
      exact database
  · intro task before reached answer writable ran
    refine ⟨?_, ?_⟩
    · rw [task.refines writable, ran]
    · rintro reason rfl lasting
      exact task.allOrNothing ran lasting

def errand : List Task :=
  [.table (.createResource "kept" none), .table (.setExpression 7 "2" [1]),
    .recalculation (.create "sum" "\x7bid: 1\x7d + 1")]

theorem transaction_transparent_errand :
    (performAll errand Store.fresh).1.map Answered.refused = [false, true, false] ∧
    (transaction id (closure errand fun _ => Except.ok ())).apply Store.fresh =
      (.ok (), (performAll errand Store.fresh).2) ∧
    (∃ events, (transaction id (closure errand fun _ =>
      (.error (.storage .locked) : Except DatabaseFault Unit))).apply Store.fresh =
        (.error (.storage .locked), { Store.fresh with events := events })) ∧
    (TableTask.setExpression 7 "2" [1]).script.apply ⟨Store.fresh, []⟩ =
      (.error (.notFound .calculation 7),
        ⟨((TableTask.setExpression 7 "2" [1]).operation.apply Store.fresh).2, []⟩) ∧
    ((TableTask.setExpression 7 "2" [1]).operation.apply Store.fresh).2 = Store.fresh := by
  have room : ∀ answered ∈ (performAll errand Store.fresh).1, answered.full = false := by
    decide +kernel
  have kept := (transaction_transparent id errand (fun _ => Except.ok ()) rfl
    (Prod.eta (performAll errand Store.fresh)).symm).1 () rfl room
  have undone := (transaction_transparent id errand
    (fun _ => (.error (.storage .locked) : Except DatabaseFault Unit)) rfl
    (Prod.eta (performAll errand Store.fresh)).symm).2.1 _ rfl fun answered within =>
      room answered (List.dropLast_subset _ within)
  have ran : (TableTask.setExpression 7 "2" [1]).operation.apply Store.fresh =
      (.error (.notFound .calculation 7),
        ((TableTask.setExpression 7 "2" [1]).operation.apply Store.fresh).2) := rfl
  have stepwise := (transaction_transparent id errand (fun _ => Except.ok ()) rfl
    (Prod.eta (performAll errand Store.fresh)).symm).2.2 (.setExpression 7 "2" [1]) rfl ran
  exact ⟨by decide +kernel, kept, undone, stepwise.1, stepwise.2 _ rfl rfl⟩

def crowded : Store :=
  { Store.fresh with
    database := { Store.fresh.database with
      vars := some ((Table.empty TableName.vars.columns).reserve greatestId.toNat) } }

def crowding : List Task :=
  [.table (.createResource "kept" none), .table (.createVariable "one more" 2)]

/-- A full table ends the transaction, and with it what was done before, which stays when it is done
outside of one. -/
theorem transaction_transparent_crowded :
    crowded.saved = none ∧
    (performAll crowding crowded).1.map Answered.full = [false, true] ∧
    (performAll crowding crowded).2.database.resources.any (·.contains 1) = true ∧
    (transaction id (closure crowding fun _ => Except.ok ())).apply crowded =
      (.error (.storage .noTransaction), crowded) :=
  ⟨rfl, by decide +kernel, by decide +kernel, rfl⟩

end Formulary
