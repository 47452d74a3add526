import Formulary.Api.Handler
import Formulary.Proofs.Forest
import Formulary.Proofs.Recalculation
import Formulary.Proofs.Transaction

/-!
Requests that are refused leave no trace, and those that only read leave none in any case.
-/

namespace Formulary

open Operation

theorem Forest.guarded_create (name : String) (parent : Option Int) :
    Guarded (Forest.create name parent) := by
  have steady {α : Type} {operation : Forest.Action α} (silent : Within Store.Alike operation) :
      Within Store.Steady operation := within_of_alike steady_progress silent
  refine guarded_bind (steady (within_liftM alike_progress _)) fun given => ?_
  have written : Guarded (change Fault.ofStore (·.createResource given parent) >>= fun created => do
      record (.resourceCreated created.id parent.isSome)
      return created.id) := by
    refine guarded_bind_sure (guarded_change _ _) fun created => ?_
    exact steady (within_record_pure alike_progress _ _)
  cases parent with
  | none => exact written
  | some id =>
      refine guarded_bind (steady (within_query alike_progress _ _)) fun held => ?_
      cases held with
      | true => exact written
      | false =>
          exact guarded_of_steady (steady (within_record_throw alike_progress _ _))

theorem Forest.within_steady_move (id parent : Int) :
    Within Store.Steady (Forest.move id parent) := by
  refine within_of_answers ?_ ?_
  · intro store _ after moved
    obtain ⟨_, _, database, _, _, _, _, _, alike⟩ := move_eq_ok moved
    exact ⟨alike.obstacle, alike.saved⟩
  · intro store fault after failed
    exact (move_atomic id parent failed).steady

theorem Recalculation.within_steady_processDraft (draft : Draft) :
    Within Store.Steady (processDraft draft) := by
  have recorded (event : Log.Event) : Within Store.Steady (record event : Action Unit) :=
    within_record steady_progress event
  have done (outcome : Outcome) : Within Store.Steady (pure outcome : Action Outcome) :=
    within_pure steady_progress outcome
  refine within_bind steady_progress (within_liftM steady_progress _) fun expression => ?_
  refine within_bind steady_progress
    (within_of_alike steady_progress (evaluate_alike expression)) fun value => ?_
  cases draft.id with
  | none => exact done _
  | some id =>
      refine within_bind steady_progress (within_query steady_progress _ _) fun found => ?_
      cases found with
      | none => exact within_bind steady_progress (recorded _) fun _ => done _
      | some calculation =>
          refine within_bind steady_progress
            (within_steady_update Database.changeCalculation_lasting) fun _ => ?_
          exact within_bind steady_progress (recorded _) fun _ => done _

namespace Api

variable {α : Type} {store after : Store}

theorem onForest_fails {action : Forest.Action α} (guarded : Guarded action) :
    FailsWithin Undone (onForest action) :=
  failsWithin_lift Fault.forest <| transaction_fails <|
    guarded_bind (within_query steady_progress _ _) fun _ => guarded

theorem onCalculations_fails {action : Recalculation.Action α}
    (steady : Within Store.Steady action) : FailsWithin Undone (onCalculations action) :=
  failsWithin_lift Fault.recalculation <| transaction_fails <|
    guarded_bind (within_query steady_progress _ _) fun _ => guarded_of_steady steady

theorem within_alike_onForest {action : Forest.Action α} (silent : Within Store.Alike action) :
    Within Store.Alike (onForest action) :=
  within_lift Fault.forest <| transaction_alike <|
    within_bind alike_progress (within_query alike_progress _ _) fun _ => silent

theorem perform_fails {route : Route} (single : route ≠ .updateVariable) (body : Option Json) :
    FailsWithin Undone (perform route body) := by
  have decoded {β : Type} (result : Except Fault β) : Within Undone (liftM result : Action β) :=
    within_liftM undone_progress result
  cases route with
  | welcome => exact failsWithin_of_within (within_pure undone_progress _)
  | createResource =>
      refine failsWithin_bind undone_progress (decoded _) fun new => ?_
      have refused := onForest_fails (Forest.guarded_create new.name new.parent)
      exact failsWithin_bind_sure refused (by simp)
  | lineage id =>
      have silent := within_alike_onForest (Forest.lineage_alike id)
      refine failsWithin_bind_sure ?_ (by simp)
      exact failsWithin_of_within (within_of_alike undone_progress silent)
  | children id =>
      have silent := within_alike_onForest (Forest.listChildren_alike (some id))
      refine failsWithin_bind_sure ?_ (by simp)
      exact failsWithin_of_within (within_of_alike undone_progress silent)
  | move id =>
      refine failsWithin_bind undone_progress (decoded _) fun new => ?_
      have refused := onForest_fails (guarded_of_steady (Forest.within_steady_move id new.parent))
      exact failsWithin_bind_sure refused (by simp)
  | processCalculation id =>
      have refused := onCalculations_fails (Recalculation.within_steady_process id)
      exact failsWithin_bind_sure refused (by simp)
  | recalculate id =>
      have refused := onCalculations_fails (Recalculation.within_recalculate steady_progress
        Recalculation.within_steady_process id)
      exact failsWithin_bind_sure refused (by simp)
  | updateVariable => exact absurd rfl single
  | evaluate =>
      refine failsWithin_bind undone_progress (decoded _) fun draft => ?_
      have refused := onCalculations_fails (Recalculation.within_steady_processDraft draft)
      exact failsWithin_bind_sure refused (by simp)

def SameButValue (id : Int) (before after : Database) : Prop :=
  ∃ table kept row value, before.vars = some table ∧ table.find? id = some row ∧
    Table.Replaced (⟨id, row.name, value⟩ : StoredVariable) table kept ∧
    after = { before with vars := some kept }

theorem onCalculations_setVariable {id : Int} {value : Float} {changed : Variable}
    (idle : store.saved = none)
    (ran : (onCalculations (Recalculation.setVariable id value)).apply store =
      (.ok changed, after)) :
    after.saved = none ∧ SameButValue id store.database after.database := by
  unfold onCalculations at ran
  rw [apply_lift] at ran
  rcases answered : (transaction Recalculation.Fault.ofDatabase (do
      Recalculation.ready
      Recalculation.setVariable id value)).apply store with ⟨fault | given, reached⟩ <;>
    rw [answered] at ran
  · cases ran
  · cases ran
    obtain ⟨middle, inner, rfl⟩ := transaction_eq_ok idle answered
    obtain ⟨_, _, looked, updated⟩ := bind_eq_ok.1 inner
    obtain ⟨_, rfl⟩ := query_eq_ok.1 looked
    obtain ⟨_, _, database, written, _, rfl⟩ := Recalculation.setVariable_eq_ok updated
    obtain ⟨table, stored, usable, held, _, rfl⟩ := Database.setVariableValue_eq_ok_iff.1 written
    obtain ⟨_, present, _⟩ := Database.variableTable_eq_ok_iff.1 usable
    obtain ⟨row, found⟩ := Table.exists_find? held
    exact ⟨rfl, table, _, row, stored, present, found, Database.replaced_withValue found stored, rfl⟩

theorem updateVariable_eq_error {body : Option Json} {fault : Fault} (idle : store.saved = none)
    (failed : (perform .updateVariable body).apply store = (.error fault, after)) :
    after.saved = none ∧ (after.database = store.database ∨
      ∃ new changed middle reason last, decodeBody NewValue.ofJson body = .ok new ∧
        (onCalculations (Recalculation.setVariable new.id new.value)).apply store =
          (.ok changed, middle) ∧
        (onCalculations (Recalculation.recalculate changed.id)).apply middle =
          (.error reason, last) ∧
        SameButValue new.id store.database after.database) := by
  rcases bind_eq_error.1 failed with refused | ⟨new, _, decoded, failed⟩
  · obtain ⟨_, rfl⟩ := liftM_eq.1 refused
    exact ⟨idle, .inl rfl⟩
  obtain ⟨read, rfl⟩ := liftM_eq.1 decoded
  rcases bind_eq_error.1 failed with refused | ⟨changed, middle, updated, failed⟩
  · obtain ⟨same, closed⟩ :=
      onCalculations_fails (Recalculation.within_steady_setVariable _ _) refused idle
    exact ⟨closed, .inl same⟩
  obtain ⟨stillIdle, sameBut⟩ := onCalculations_setVariable idle updated
  rcases bind_eq_error.1 failed with refused | ⟨_, _, _, failed⟩
  · have passes := Recalculation.within_recalculate steady_progress
      Recalculation.within_steady_process changed.id
    obtain ⟨same, closed⟩ := onCalculations_fails passes refused stillIdle
    refine ⟨closed, .inr ⟨new, changed, middle, fault, after, read, updated, refused, ?_⟩⟩
    rw [same]
    exact sameBut
  · cases failed

def Reads (request : Request) : Prop :=
  request.method = .get ∧ (Route.segments request.path = [] ∨
    (∃ id, Route.segments request.path = [id]) ∨
      ∃ id, Route.segments request.path = [id, "children"])

theorem perform_alike_of_reads {request : Request} {route : Route} (reads : Reads request)
    (found : Route.find request.method request.path = .ok route) (body : Option Json) :
    Within Store.Alike (perform route body) := by
  have done (value : Json) : Within Store.Alike (pure value : Action Json) :=
    within_pure alike_progress value
  obtain ⟨get, empty | ⟨id, one⟩ | ⟨id, two⟩⟩ := reads
  · unfold Route.find at found
    rw [empty, get] at found
    cases found
    exact done _
  · unfold Route.find at found
    rw [one, get] at found
    dsimp only at found
    split at found
    · cases found
    · unfold Route.withId at found
      split at found
      · cases found
        exact within_bind alike_progress
          (within_alike_onForest (Forest.lineage_alike _)) fun _ => done _
      · cases found
  · unfold Route.find at found
    rw [two, get] at found
    dsimp only at found
    split at found
    · -- The word `children` is no id, so that no calculation is meant.
      have noId : Text.integer? "children" = none := by decide
      simp [Route.withId, noId] at found
    · unfold Route.withId at found
      split at found
      · split at found
        · cases found
          exact within_bind alike_progress
            (within_alike_onForest (Forest.listChildren_alike _)) fun _ => done _
        · cases found
      · cases found

theorem handle_alike_of_reads {request : Request} (reads : Reads request) (store : Store) :
    store.Alike (handle request store).2 := by
  have answered : store.Alike ((answer request).apply store).2 := by
    unfold answer
    rw [apply_bind, apply_liftM]
    cases found : Route.find request.method request.path with
    | error fault => exact .refl store
    | ok route =>
        have silent := perform_alike_of_reads reads found request.body
        exact within_bind alike_progress silent (fun _ => within_pure alike_progress _) store
  unfold handle
  rcases ran : (answer request).apply store with ⟨fault | ⟨route, body⟩, after⟩ <;>
    rw [ran] at answered
  · exact answered.trans rfl
  · exact answered.trans rfl

/-- Whatever the state of a store: a request that is refused outside of a transaction leaves the
database as it was, with its counters, and no transaction open, unless an update was kept of which
the recalculation failed as a whole; then at most the value of that variable has changed. A request
that only reads changes nothing, whatever its answer. -/
theorem refusal_leaves_no_trace (request : Request) (store : Store) :
    (store.saved = none → (handle request store).1.status ≠ 200 →
      (handle request store).2.saved = none ∧
        ((handle request store).2.database = store.database ∨
          Route.find request.method request.path = .ok .updateVariable ∧
            ∃ new changed middle reason last,
              decodeBody NewValue.ofJson request.body = .ok new ∧
              (onCalculations (Recalculation.setVariable new.id new.value)).apply store =
                (.ok changed, middle) ∧
              (onCalculations (Recalculation.recalculate changed.id)).apply middle =
                (.error reason, last) ∧
              SameButValue new.id store.database (handle request store).2.database)) ∧
    (Reads request → store.Alike (handle request store).2) := by
  refine ⟨?_, fun reads => handle_alike_of_reads reads store⟩
  intro idle refused
  unfold handle at refused ⊢
  rcases ran : (answer request).apply store with ⟨fault | ⟨route, body⟩, after⟩ <;>
    rw [ran] at refused
  · dsimp only
    rcases bind_eq_error.1 ran with unrouted | ⟨route, _, routed, failed⟩
    · obtain ⟨_, rfl⟩ := liftM_eq.1 unrouted
      exact ⟨idle, .inl rfl⟩
    obtain ⟨found, rfl⟩ := liftM_eq.1 routed
    rcases bind_eq_error.1 failed with failed | ⟨_, _, _, failed⟩
    · by_cases double : route = .updateVariable
      · subst double
        obtain ⟨closed, same | exception⟩ := updateVariable_eq_error idle failed
        · exact ⟨closed, .inl same⟩
        · exact ⟨closed, .inr ⟨found, exception⟩⟩
      · obtain ⟨same, closed⟩ := perform_fails double request.body failed idle
        exact ⟨closed, .inl same⟩
    · cases failed
  · exact absurd rfl refused

def exhausted : Store :=
  .ofDatabase
    { version := Database.latestVersion
      vars := some (.empty TableName.vars.columns)
      calculations := some (.empty TableName.calculations.columns)
      dependencies := some (.empty TableName.dependencies.columns)
      resources := some ((Table.empty TableName.resources.columns).reserve greatestId.toNat) } none

theorem refusal_leaves_no_trace_exhausted :
    ((handle ⟨.post, "/", some (.ofFields [("name", .text "x")])⟩ exhausted).1.status ≠ 200 ∧
      (handle ⟨.post, "/", some (.ofFields [("name", .text "x")])⟩ exhausted).2.saved = none ∧
      (handle ⟨.post, "/", some (.ofFields [("name", .text "x")])⟩ exhausted).2.database =
        exhausted.database) ∧
    Reads ⟨.get, "/7", none⟩ ∧ exhausted.Alike (handle ⟨.get, "/7", none⟩ exhausted).2 := by
  have refused :
      (handle ⟨.post, "/", some (.ofFields [("name", .text "x")])⟩ exhausted).1.status ≠ 200 := by
    decide +kernel
  have reads : Reads ⟨.get, "/7", none⟩ := ⟨rfl, .inr (.inl ⟨"7", by decide⟩)⟩
  refine ⟨⟨refused, ?_⟩, reads, (refusal_leaves_no_trace _ exhausted).2 reads⟩
  obtain ⟨closed, same | ⟨updates, _⟩⟩ := (refusal_leaves_no_trace _ exhausted).1 rfl refused
  · exact ⟨closed, same⟩
  · have other : Route.find .post "/" = .ok .createResource := rfl
    rw [other] at updates
    cases updates

end Api

end Formulary
