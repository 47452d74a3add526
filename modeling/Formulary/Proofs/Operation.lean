import Formulary.Store

/-!
How operations act on stores: what it takes for each of their parts to succeed or to fail, and how
a relation between the store before and the store after carries over from the parts to the whole.
-/

namespace Formulary

section Results

variable {ε φ α β : Type}

@[simp] theorem except_pure (value : α) : (pure value : Except ε α) = .ok value := rfl

theorem except_bind_eq_ok {result : Except ε α} {next : α → Except ε β} {value : β} :
    (result >>= next) = .ok value ↔ ∃ first, result = .ok first ∧ next first = .ok value := by
  cases result <;> simp [bind, Except.bind]

theorem except_bind_eq_error {result : Except ε α} {next : α → Except ε β} {fault : ε} :
    (result >>= next) = .error fault ↔
      result = .error fault ∨ ∃ first, result = .ok first ∧ next first = .error fault := by
  cases result <;> simp [bind, Except.bind]

theorem toOption_eq_some {result : Except ε α} {value : α} :
    result.toOption = some value ↔ result = .ok value := by
  cases result <;> simp [Except.toOption]

@[simp] theorem mapError_ok (fault : φ → ε) (value : α) :
    (Except.ok value : Except φ α).mapError fault = .ok value := rfl

@[simp] theorem mapError_error (fault : φ → ε) (reason : φ) :
    (Except.error reason : Except φ α).mapError fault = .error (fault reason) := rfl

theorem mapError_eq_ok {result : Except φ α} {fault : φ → ε} {value : α} :
    result.mapError fault = .ok value ↔ result = .ok value := by
  cases result <;> simp

theorem mapError_eq_error {result : Except φ α} {fault : φ → ε} {raised : ε} :
    result.mapError fault = .error raised ↔ ∃ reason, result = .error reason ∧ fault reason = raised := by
  cases result <;> simp

end Results

def Store.Alike (before after : Store) : Prop :=
  after = { before with events := after.events }

namespace Store.Alike

theorem refl (store : Store) : Alike store store := rfl

theorem trans {first second third : Store} (left : Alike first second)
    (right : Alike second third) : Alike first third := by
  unfold Alike at *
  rw [right, left]

theorem database {before after : Store} (alike : Alike before after) :
    after.database = before.database := by
  rw [alike]

theorem saved {before after : Store} (alike : Alike before after) :
    after.saved = before.saved := by
  rw [alike]

theorem obstacle {before after : Store} (alike : Alike before after) :
    after.obstacle = before.obstacle := by
  rw [alike]

theorem of_fields {before after : Store} (database : after.database = before.database)
    (obstacle : after.obstacle = before.obstacle) (saved : after.saved = before.saved) :
    Alike before after := by
  rw [Alike, ← database, ← obstacle, ← saved]

end Store.Alike

structure Store.Steady (before after : Store) : Prop where
  obstacle : after.obstacle = before.obstacle
  saved : after.saved = before.saved

theorem Store.Alike.steady {before after : Store} (alike : Alike before after) :
    before.Steady after :=
  ⟨alike.obstacle, alike.saved⟩

namespace Operation

section Parts

variable {ε φ α β : Type} {store after : Store}

@[simp] theorem apply_pure (value : α) (store : Store) :
    (pure value : Operation ε α).apply store = (.ok value, store) := rfl

@[simp] theorem apply_throw (fault : ε) (store : Store) :
    (throw fault : Operation ε α).apply store = (.error fault, store) := rfl

@[simp] theorem apply_get (store : Store) :
    (get : Operation ε Store).apply store = (.ok store, store) := rfl

@[simp] theorem apply_modify (change : Store → Store) (store : Store) :
    (modify change : Operation ε PUnit).apply store = (.ok ⟨⟩, change store) := rfl

@[simp] theorem apply_liftM (result : Except ε α) (store : Store) :
    (liftM result : Operation ε α).apply store = (result, store) := by
  cases result <;> rfl

theorem liftM_eq {result answer : Except ε α} :
    (liftM result : Operation ε α).apply store = (answer, after) ↔
      result = answer ∧ store = after := by
  rw [apply_liftM, Prod.mk.injEq]

@[simp] theorem apply_record (event : Log.Event) (store : Store) :
    (record event : Operation ε Unit).apply store =
      (.ok (), { store with events := event :: store.events }) := rfl

@[simp] theorem apply_attempt (operation : Operation ε α) (store : Store) :
    (attempt operation : Operation φ (Except ε α)).apply store =
      (.ok (operation.apply store).1, (operation.apply store).2) := rfl

theorem apply_bind (operation : Operation ε α) (next : α → Operation ε β) (store : Store) :
    (operation >>= next).apply store =
      match operation.apply store with
      | (.ok value, after) => (next value).apply after
      | (.error fault, after) => (.error fault, after) := by
  change (ExceptT.bindCont next (operation.apply store).1).run (operation.apply store).2 = _
  rcases operation.apply store with ⟨fault | value, after⟩ <;> rfl

theorem bind_eq_ok {operation : Operation ε α} {next : α → Operation ε β} {value : β} :
    (operation >>= next).apply store = (.ok value, after) ↔
      ∃ first middle, operation.apply store = (.ok first, middle) ∧
        (next first).apply middle = (.ok value, after) := by
  rw [apply_bind]
  rcases operation.apply store with ⟨fault | first, middle⟩
  · simp
  · constructor
    · intro ran
      exact ⟨first, middle, rfl, ran⟩
    · rintro ⟨_, _, same, ran⟩
      cases same
      exact ran

theorem bind_eq_error {operation : Operation ε α} {next : α → Operation ε β} {fault : ε} :
    (operation >>= next).apply store = (.error fault, after) ↔
      operation.apply store = (.error fault, after) ∨
        ∃ first middle, operation.apply store = (.ok first, middle) ∧
          (next first).apply middle = (.error fault, after) := by
  rw [apply_bind]
  rcases operation.apply store with ⟨reason | first, middle⟩
  · simp
  · constructor
    · intro ran
      exact .inr ⟨first, middle, rfl, ran⟩
    · rintro (same | ⟨_, _, same, ran⟩)
      · cases same
      · cases same
        exact ran

theorem after_bind_pure {operation : Operation ε α} {next : α → Operation ε β}
    (pure : ∀ value middle, ((next value).apply middle).2 = middle) (store : Store) :
    ((operation >>= next).apply store).2 = (operation.apply store).2 := by
  rw [apply_bind]
  rcases operation.apply store with ⟨fault | value, middle⟩
  · rfl
  · exact pure value middle

theorem apply_query (fault : φ → ε) (read : Database → Except φ α) (store : Store) :
    (query fault read).apply store = ((read store.database).mapError fault, store) := by
  unfold query
  simp only [apply_bind, apply_get]
  cases read store.database <;> rfl

theorem query_eq_ok {fault : φ → ε} {read : Database → Except φ α} {value : α} :
    (query fault read).apply store = (.ok value, after) ↔
      read store.database = .ok value ∧ store = after := by
  rw [apply_query]
  cases read store.database <;> simp

theorem apply_lift (fault : φ → ε) (operation : Operation φ α) (store : Store) :
    (lift fault operation).apply store =
      ((operation.apply store).1.mapError fault, (operation.apply store).2) := by
  unfold lift
  simp only [apply_bind, apply_attempt]
  cases (operation.apply store).1 <;> rfl

theorem apply_change [FromStorage φ] (fault : φ → ε)
    (write : Database → Except φ (α × Database)) (store : Store) :
    (change fault write).apply store =
      match store.obstacle with
      | some reason => (.error (fault (FromStorage.ofStorage reason)), store)
      | none =>
        match write store.database with
        | .ok (value, database) => (.ok value, { store with database })
        | .error reason =>
          (.error (fault reason), if endsTransaction reason then store.rollBack else store) := by
  unfold change
  simp only [apply_bind, apply_get]
  cases obstacle : store.obstacle with
  | some reason => rfl
  | none =>
      simp only [apply_bind, apply_get]
      cases write store.database with
      | ok result =>
          rcases result with ⟨value, database⟩
          simp only [apply_bind, apply_modify, apply_pure, obstacle]
      | error reason =>
          by_cases ends : endsTransaction reason = true
          · simp only [ends, if_true, apply_bind, apply_modify, apply_throw]
          · simp only [ends, apply_throw, Bool.false_eq_true, if_false]

theorem change_eq_ok [FromStorage φ] {fault : φ → ε}
    {write : Database → Except φ (α × Database)} {value : α} :
    (change fault write).apply store = (.ok value, after) ↔
      store.obstacle = none ∧ ∃ database, write store.database = .ok (value, database) ∧
        after = { store with database } := by
  rw [apply_change]
  cases obstacle : store.obstacle with
  | some reason => simp
  | none =>
      cases written : write store.database with
      | ok result =>
          rcases result with ⟨given, database⟩
          constructor
          · intro ran
            cases ran
            exact ⟨rfl, database, rfl, by rw [← obstacle]⟩
          · rintro ⟨_, _, same, rfl⟩
            cases same
            rfl
      | error reason => simp

theorem change_eq_error [FromStorage φ] {fault : φ → ε}
    {write : Database → Except φ (α × Database)} {reported : ε}
    (lasting : ∀ reason, write store.database = .error reason → endsTransaction reason = false)
    (failed : (change fault write).apply store = (.error reported, after)) :
    after = store := by
  rw [apply_change] at failed
  split at failed
  · cases failed
    rfl
  · split at failed
    · cases failed
    · rename_i reason refused
      rw [lasting reason refused] at failed
      cases failed
      rfl

theorem update_eq_ok [FromStorage φ] {fault : φ → ε} {write : Database → Except φ Database} :
    (update fault write).apply store = (.ok (), after) ↔
      store.obstacle = none ∧ ∃ database, write store.database = .ok database ∧
        after = { store with database } := by
  unfold update
  rw [change_eq_ok]
  cases write store.database <;> simp [Except.map]

theorem update_eq_error [FromStorage φ] {fault : φ → ε} {write : Database → Except φ Database}
    {reported : ε}
    (lasting : ∀ reason, write store.database = .error reason → endsTransaction reason = false)
    (failed : (update fault write).apply store = (.error reported, after)) :
    after = store := by
  refine change_eq_error (fun reason refused => lasting reason ?_) failed
  cases written : write store.database with
  | ok database => simp [written, Except.map] at refused
  | error found => simpa [written, Except.map] using refused

theorem apply_begin (fault : DatabaseFault → ε) (store : Store) :
    (begin fault).apply store =
      match store.saved with
      | some _ => (.error (fault (.storage .nestedTransaction)), store)
      | none => (.ok (), { store with saved := some store.database }) := by
  unfold begin
  rw [apply_bind, apply_get]
  cases saved : store.saved <;> simp [saved]

theorem apply_commit (fault : DatabaseFault → ε) (store : Store) :
    (commit fault).apply store =
      match store.saved with
      | some _ => (.ok (), { store with saved := none })
      | none => (.error (fault (.storage .noTransaction)), store) := by
  unfold commit
  rw [apply_bind, apply_get]
  cases saved : store.saved <;> simp [saved]

end Parts

/-- A relation that is kept when operations follow one another and when something is recorded. -/
structure Progress (relation : Store → Store → Prop) : Prop where
  alike : ∀ {before after}, before.Alike after → relation before after
  trans : ∀ {first second third},
    relation first second → relation second third → relation first third

def Within (relation : Store → Store → Prop) (operation : Operation ε α) : Prop :=
  ∀ store, relation store (operation.apply store).2

section Within

variable {ε φ α β : Type} {relation : Store → Store → Prop} (progress : Progress relation)

include progress

theorem within_pure (value : α) : Within relation (pure value : Operation ε α) :=
  fun store => progress.alike (.refl store)

theorem within_throw (fault : ε) : Within relation (throw fault : Operation ε α) :=
  fun store => progress.alike (.refl store)

theorem within_record (event : Log.Event) :
    Within relation (record event : Operation ε Unit) :=
  fun _ => progress.alike rfl

theorem within_query (fault : φ → ε) (read : Database → Except φ α) :
    Within relation (query fault read) := by
  intro store
  rw [apply_query]
  exact progress.alike (.refl store)

theorem within_liftM (result : Except ε α) :
    Within relation (liftM result : Operation ε α) := by
  intro store
  rw [apply_liftM]
  exact progress.alike (.refl store)

theorem bind_within_ok {operation : Operation ε α} {next : α → Operation ε β} {store : Store}
    (first : relation store (operation.apply store).2)
    (rest : ∀ value middle, operation.apply store = (.ok value, middle) →
      relation middle ((next value).apply middle).2) :
    relation store ((operation >>= next).apply store).2 := by
  rw [apply_bind]
  rcases ran : operation.apply store with ⟨fault | value, middle⟩ <;> rw [ran] at first
  · exact first
  · exact progress.trans first (rest value middle ran)

theorem bind_within {operation : Operation ε α} {next : α → Operation ε β} {store : Store}
    (first : relation store (operation.apply store).2)
    (rest : ∀ value, Within relation (next value)) :
    relation store ((operation >>= next).apply store).2 :=
  bind_within_ok progress first fun value middle _ => rest value middle

theorem within_bind {operation : Operation ε α} {next : α → Operation ε β}
    (first : Within relation operation) (rest : ∀ value, Within relation (next value)) :
    Within relation (operation >>= next) :=
  fun store => bind_within progress (first store) rest

theorem within_record_pure (event : Log.Event) (value : α) :
    Within relation (do record event; return value : Operation ε α) :=
  within_bind progress (within_record progress event) fun _ => within_pure progress value

theorem within_record_throw (event : Log.Event) (fault : ε) :
    Within relation (do record event; throw fault : Operation ε α) :=
  within_bind progress (within_record progress event) fun _ => within_throw progress fault

theorem query_bind_within {fault : φ → ε} {read : Database → Except φ α}
    {next : α → Operation ε β} {store : Store}
    (rest : ∀ value, read store.database = .ok value →
      relation store ((next value).apply store).2) :
    relation store ((query fault read >>= next).apply store).2 := by
  rw [apply_bind, apply_query]
  cases found : read store.database with
  | error reason => exact progress.alike (.refl store)
  | ok value => exact rest value found

omit progress in
theorem within_attempt {operation : Operation ε α} (inner : Within relation operation) :
    Within relation (attempt operation : Operation φ (Except ε α)) :=
  inner

omit progress in
theorem within_lift (fault : φ → ε) {operation : Operation φ α}
    (inner : Within relation operation) : Within relation (lift fault operation) := by
  intro store
  rw [apply_lift]
  exact inner store

omit progress in
theorem within_of_answers {operation : Operation ε α}
    (succeeds : ∀ store value after,
      operation.apply store = (.ok value, after) → relation store after)
    (fails : ∀ store fault after,
      operation.apply store = (.error fault, after) → relation store after) :
    Within relation operation := by
  intro store
  rcases answered : operation.apply store with ⟨fault | value, after⟩
  · exact fails store fault after answered
  · exact succeeds store value after answered

theorem within_of_alike {operation : Operation ε α} (silent : Within Store.Alike operation) :
    Within relation operation :=
  fun store => progress.alike (silent store)

omit progress in
theorem alike_progress : Progress Store.Alike where
  alike := id
  trans := .trans

omit progress in
theorem steady_progress : Progress Store.Steady where
  alike := Store.Alike.steady
  trans := by
    intro first second third left right
    exact ⟨right.obstacle.trans left.obstacle, right.saved.trans left.saved⟩

end Within

def FailsWithin (relation : Store → Store → Prop) (operation : Operation ε α) : Prop :=
  ∀ ⦃store fault after⦄, operation.apply store = (.error fault, after) → relation store after

abbrev Atomic (operation : Operation ε α) : Prop :=
  FailsWithin Store.Alike operation

section FailsWithin

variable {ε φ α β : Type} {relation : Store → Store → Prop}

theorem failsWithin_of_within {operation : Operation ε α} (inner : Within relation operation) :
    FailsWithin relation operation := by
  intro store fault after failed
  have reached := inner store
  rwa [failed] at reached

theorem atomic_update [FromStorage φ] {fault : φ → ε} {write : Database → Except φ Database}
    (lasting : ∀ {database reason}, write database = .error reason →
      endsTransaction reason = false) : Atomic (update fault write) := by
  intro store reported after failed
  rw [update_eq_error (fun _ => lasting) failed]
  exact .refl store

theorem within_steady_update [FromStorage φ] {fault : φ → ε}
    {write : Database → Except φ Database}
    (lasting : ∀ {database reason}, write database = .error reason →
      endsTransaction reason = false) : Within Store.Steady (update fault write) := by
  refine within_of_answers ?_ ?_
  · intro store _ after ran
    obtain ⟨_, database, _, rfl⟩ := update_eq_ok.1 ran
    exact ⟨rfl, rfl⟩
  · intro store reported after failed
    exact (atomic_update lasting failed).steady

theorem failsWithin_bind_sure {operation : Operation ε α} {next : α → Operation ε β}
    (inner : FailsWithin relation operation)
    (sure : ∀ value store fault after, (next value).apply store ≠ (.error fault, after)) :
    FailsWithin relation (operation >>= next) := by
  intro store fault after failed
  rcases bind_eq_error.1 failed with failed | ⟨value, middle, _, failed⟩
  · exact inner failed
  · exact absurd failed (sure value middle fault after)

theorem failsWithin_lift (fault : φ → ε) {operation : Operation φ α}
    (inner : FailsWithin relation operation) : FailsWithin relation (lift fault operation) := by
  intro store reported after failed
  rw [apply_lift] at failed
  rcases answered : operation.apply store with ⟨reason | value, reached⟩ <;>
    rw [answered] at failed
  · cases failed
    exact inner answered
  · cases failed

variable (progress : Progress relation)

include progress

theorem failsWithin_throw (fault : ε) : FailsWithin relation (throw fault : Operation ε α) :=
  failsWithin_of_within (within_throw progress fault)

theorem failsWithin_bind {operation : Operation ε α} {next : α → Operation ε β}
    (first : Within relation operation) (rest : ∀ value, FailsWithin relation (next value)) :
    FailsWithin relation (operation >>= next) := by
  intro store fault after failed
  have reached := first store
  rcases bind_eq_error.1 failed with failed | ⟨value, middle, ran, failed⟩
  · rwa [failed] at reached
  · rw [ran] at reached
    exact progress.trans reached (rest value failed)

end FailsWithin

def Leaves (operation : Operation ε α) (store : Store) (answer : Except ε α)
    (database : Database) : Prop :=
  ∀ start, store.Alike start →
    (operation.apply start).1 = answer ∧
      Store.Alike { store with database } (operation.apply start).2

section Leaves

variable {ε φ α β : Type} {store : Store} {answer : Except ε β} {database : Database}

theorem Leaves.apply_eq {operation : Operation ε β} (leaves : Leaves operation store answer database) :
    ∃ after, operation.apply store = (answer, after) ∧ Store.Alike { store with database } after := by
  obtain ⟨answered, alike⟩ := leaves store (.refl store)
  exact ⟨_, Prod.ext answered rfl, alike⟩

theorem Leaves.eq_of_apply {operation : Operation ε β} {given : Except ε β} {after : Store}
    (leaves : Leaves operation store answer database)
    (ran : operation.apply store = (given, after)) :
    given = answer ∧ Store.Alike { store with database } after := by
  obtain ⟨_, same, alike⟩ := leaves.apply_eq
  cases same.symm.trans ran
  exact ⟨rfl, alike⟩

theorem leaves_pure (value : α) : Leaves (pure value : Operation ε α) store (.ok value) store.database :=
  fun _ alike => ⟨rfl, alike⟩

theorem leaves_throw (fault : ε) :
    Leaves (throw fault : Operation ε α) store (.error fault) store.database :=
  fun _ alike => ⟨rfl, alike⟩

theorem leaves_record (event : Log.Event) :
    Leaves (record event : Operation ε Unit) store (.ok ()) store.database :=
  fun _ alike => ⟨rfl, alike.trans rfl⟩

theorem leaves_liftM {result given : Except ε α} (same : result = given) :
    Leaves (liftM result : Operation ε α) store given store.database := by
  intro start alike
  rw [apply_liftM]
  exact ⟨same, alike⟩

theorem leaves_query {fault : φ → ε} {read : Database → Except φ α} {value : α}
    (found : read store.database = .ok value) :
    Leaves (query fault read) store (.ok value) store.database := by
  intro start alike
  rw [apply_query, alike.database, found]
  exact ⟨rfl, alike⟩

theorem leaves_update [FromStorage φ] {fault : φ → ε} {write : Database → Except φ Database}
    (writable : store.obstacle = none) (written : write store.database = .ok database) :
    Leaves (update fault write) store (.ok ()) database := by
  intro start alike
  have ran : (update fault write).apply start = (.ok (), { start with database }) := by
    refine update_eq_ok.2 ⟨alike.obstacle.trans writable, database, ?_, rfl⟩
    rw [alike.database, written]
  rw [ran]
  exact ⟨rfl, .of_fields rfl alike.obstacle alike.saved⟩

theorem leaves_update_blocked [FromStorage φ] {fault : φ → ε}
    {write : Database → Except φ Database} {reason : StorageFault}
    (blocked : store.obstacle = some reason) :
    Leaves (update fault write) store (.error (fault (FromStorage.ofStorage reason)))
      store.database := by
  intro start alike
  have ran : (update fault write).apply start =
      (.error (fault (FromStorage.ofStorage reason)), start) := by
    rw [update, apply_change, alike.obstacle, blocked]
  rw [ran]
  exact ⟨rfl, alike⟩

theorem leaves_bind {operation : Operation ε α} {next : α → Operation ε β} {value : α}
    {middle : Database} (first : Leaves operation store (.ok value) middle)
    (rest : Leaves (next value) { store with database := middle } answer database) :
    Leaves (operation >>= next) store answer database := by
  intro start alike
  obtain ⟨answered, reached⟩ := first start alike
  rw [apply_bind]
  rcases ran : operation.apply start with ⟨fault | given, after⟩ <;> rw [ran] at answered reached
  · cases answered
  · cases answered
    exact rest after reached

theorem leaves_bind_error {operation : Operation ε α} {next : α → Operation ε β} {fault : ε}
    (first : Leaves operation store (.error fault) database) :
    Leaves (operation >>= next) store (.error fault) database := by
  intro start alike
  obtain ⟨answered, reached⟩ := first start alike
  rw [apply_bind]
  rcases ran : operation.apply start with ⟨reason | given, after⟩ <;> rw [ran] at answered reached
  · cases answered
    exact ⟨rfl, reached⟩
  · cases answered

end Leaves

end Operation

end Formulary
