import Formulary.Proofs.Operation
import Formulary.Store.Connection

/-!
Savepoints: what runs after one is kept if it succeeds, and undone if it fails, down to where the
savepoint was set and no further, whatever savepoints and transactions are open around it.
-/

namespace Formulary.Script

variable {α β : Type} {store : Store} {connection middle : Connection}

@[simp] theorem apply_pure (value : α) (connection : Connection) :
    (pure value : Script α).apply connection = (.ok value, connection) := rfl

@[simp] theorem apply_throw (fault : StoreFault) (connection : Connection) :
    (throw fault : Script α).apply connection = (.error fault, connection) := rfl

theorem apply_bind (script : Script α) (next : α → Script β) (connection : Connection) :
    (script >>= next).apply connection =
      match script.apply connection with
      | (.ok value, after) => (next value).apply after
      | (.error fault, after) => (.error fault, after) := by
  change (ExceptT.bindCont next (script.apply connection).1).run (script.apply connection).2 = _
  rcases script.apply connection with ⟨fault | value, after⟩ <;> rfl

theorem apply_bind_of_ok {script : Script α} {value : α} (next : α → Script β)
    (ran : script.apply connection = (.ok value, middle)) :
    (script >>= next).apply connection = (next value).apply middle := by
  rw [apply_bind, ran]

theorem apply_bind_of_error {script : Script α} {fault : StoreFault} (next : α → Script β)
    (ran : script.apply connection = (.error fault, middle)) :
    (script >>= next).apply connection = (.error fault, middle) := by
  rw [apply_bind, ran]

theorem apply_ask (read : Database → Except StoreFault α) (connection : Connection) :
    (ask read).apply connection = (read connection.store.database, connection) := by
  change (liftM (read connection.store.database) : Script α).apply connection = _
  cases read connection.store.database <;> rfl

@[simp] theorem apply_record (event : Log.Event) (connection : Connection) :
    (record event).apply connection =
      (.ok (), { connection with
        store := { connection.store with events := event :: connection.store.events } }) := rfl

@[simp] theorem apply_get (connection : Connection) :
    (get : Script Connection).apply connection = (.ok connection, connection) := rfl

@[simp] theorem apply_modify (change : Connection → Connection) (connection : Connection) :
    (modify change : Script PUnit).apply connection = (.ok ⟨⟩, change connection) := rfl

@[simp] theorem apply_attempt (script : Script α) (connection : Connection) :
    (attempt script).apply connection =
      (.ok (script.apply connection).1, (script.apply connection).2) := rfl

theorem apply_statement (write : Database → Except StoreFault (α × Database))
    (connection : Connection) :
    (statement write).apply connection =
      match connection.store.obstacle with
      | some reason => (.error (.ofStorage reason), connection)
      | none =>
        match write connection.store.database with
        | .ok (value, database) => (.ok value, connection.withDatabase database)
        | .error fault =>
          (.error fault, if endsTransaction fault then connection.rollBack else connection) := by
  unfold statement
  simp only [apply_bind, apply_get]
  cases connection.store.obstacle with
  | some reason => rfl
  | none =>
      dsimp only
      rw [apply_bind, apply_get]
      dsimp only
      cases write connection.store.database with
      | ok result => rfl
      | error fault =>
          by_cases ends : endsTransaction fault = true
          · simp only [ends, if_true, apply_bind, apply_modify, apply_throw]
          · simp only [ends]
            rfl

section Savepoints

variable {name : String} {body : Script α} {value : α} {fault : StoreFault}
  {savepoints : List Savepoint} {after : Store}

theorem since_own (store : Store) (point : Savepoint) (savepoints : List Savepoint) :
    Connection.since ⟨store, point :: savepoints⟩ point.name = point :: savepoints := by
  simp [Connection.since]

theorem release_own (store : Store) (point : Savepoint) (savepoints : List Savepoint) :
    (release point.name).apply ⟨store, point :: savepoints⟩ = (.ok (), ⟨store, savepoints⟩) := by
  unfold release
  rw [apply_bind, apply_get]
  dsimp only
  rw [since_own]
  rfl

theorem rollBackTo_own (store : Store) (point : Savepoint) (savepoints : List Savepoint) :
    (rollBackTo point.name).apply ⟨store, point :: savepoints⟩ =
      (.ok (), ⟨{ store with database := point.kept }, point :: savepoints⟩) := by
  unfold rollBackTo
  rw [apply_bind, apply_get]
  dsimp only
  rw [since_own]
  rfl

theorem withSavepoint_of_ok
    (ran : body.apply ⟨store, ⟨name, store.database⟩ :: savepoints⟩ =
      (.ok value, ⟨after, ⟨name, store.database⟩ :: savepoints⟩)) :
    (withSavepoint name body).apply ⟨store, savepoints⟩ = (.ok value, ⟨after, savepoints⟩) := by
  unfold withSavepoint mark
  simp only [apply_bind, apply_modify, apply_attempt, ran]
  rw [release_own after ⟨name, store.database⟩]
  rfl

theorem withSavepoint_of_error
    (ran : body.apply ⟨store, ⟨name, store.database⟩ :: savepoints⟩ =
      (.error fault, ⟨after, ⟨name, store.database⟩ :: savepoints⟩)) :
    (withSavepoint name body).apply ⟨store, savepoints⟩ =
      (.error fault, ⟨{ after with database := store.database }, savepoints⟩) := by
  unfold withSavepoint mark
  simp only [apply_bind, apply_modify, apply_attempt, ran]
  rw [rollBackTo_own after ⟨name, store.database⟩]
  dsimp only
  rw [release_own _ ⟨name, store.database⟩]
  rfl

/-- A body that fails since a table is full leaves nothing to be undone. -/
theorem withSavepoint_of_ended
    (ran : body.apply ⟨store, ⟨name, store.database⟩ :: savepoints⟩ = (.error fault, ⟨after, []⟩)) :
    (withSavepoint name body).apply ⟨store, savepoints⟩ =
      (.error fault, ⟨{ after with events := .savepointLost name :: after.events }, []⟩) := by
  unfold withSavepoint mark release rollBackTo
  simp only [apply_bind, apply_modify, apply_attempt, ran, apply_get]
  rfl

inductive Follows (body : Script α) (store : Store) (savepoints : List Savepoint) :
    Except StoreFault (α × Database) → Prop
  | ok {value : α} {database : Database} (ran : body.apply ⟨store, savepoints⟩ =
      (.ok value, ⟨{ store with database := database }, savepoints⟩)) :
      Follows body store savepoints (.ok (value, database))
  | error {fault : StoreFault} {left : Database} (ran : body.apply ⟨store, savepoints⟩ =
      (.error fault, ⟨{ store with database := left }, savepoints⟩)) :
      Follows body store savepoints (.error fault)

theorem Follows.begun {first : Script α} {next : α → Script β} {database : Database}
    {result : Except StoreFault (β × Database)}
    (ran : first.apply ⟨store, savepoints⟩ =
      (.ok value, ⟨{ store with database := database }, savepoints⟩))
    (rest : Follows (next value) { store with database := database } savepoints result) :
    Follows (first >>= next) store savepoints result := by
  have began := apply_bind_of_ok next ran
  cases rest with
  | ok ended => exact .ok (began.trans ended)
  | error ended => exact .error (began.trans ended)

theorem Follows.bind {γ : Type} {stage : Except StoreFault γ} {reached : γ → α × Database}
    {next : α → Script β} {later : γ → Except StoreFault (β × Database)}
    (first : Follows body store savepoints (stage.map reached))
    (rest : ∀ found, stage = .ok found →
      Follows (next (reached found).1) { store with database := (reached found).2 } savepoints
        (later found)) :
    Follows (body >>= next) store savepoints (stage >>= later) := by
  cases stage with
  | error fault =>
      cases first with
      | error ran => exact .error (apply_bind_of_error _ ran)
  | ok found =>
      have further := rest found rfl
      rcases outcome : reached found with ⟨value, database⟩
      simp only [Except.map, outcome] at first
      rw [outcome] at further
      cases first with
      | ok ran => exact .begun ran further

end Savepoints

end Formulary.Script
