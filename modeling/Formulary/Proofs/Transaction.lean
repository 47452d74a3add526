import Formulary.Proofs.Operation

/-!
Transactions: what runs in one is kept as a whole or undone as a whole, whatever it changed before
it failed, and also if its failure has ended the transaction already.
-/

namespace Formulary.Operation

variable {ε φ α β : Type} {store after : Store}

/-- Whether an operation keeps the transaction open in which it runs, except that it may end it by
failing, with all of it undone. -/
def Guarded (operation : Operation ε α) : Prop :=
  ∀ ⦃store answer after kept⦄, operation.apply store = (answer, after) →
    store.saved = some kept → after.saved = some kept ∨
      ((∃ fault, answer = .error fault) ∧ after.saved = none ∧ after.database = kept)

theorem guarded_of_steady {operation : Operation ε α} (steady : Within Store.Steady operation) :
    Guarded operation := by
  intro store answer after kept ran saved
  have same := steady store
  rw [ran] at same
  exact .inl (same.saved.trans saved)

theorem guarded_change [FromStorage φ] (fault : φ → ε)
    (write : Database → Except φ (α × Database)) : Guarded (change fault write) := by
  intro store answer after kept ran saved
  rw [apply_change] at ran
  split at ran
  · cases ran
    exact .inl saved
  · split at ran
    · cases ran
      exact .inl saved
    · cases ran
      split
      · refine .inr ⟨⟨_, rfl⟩, rfl, ?_⟩
        simp [Store.rollBack, saved]
      · exact .inl saved

theorem guarded_bind {operation : Operation ε α} {next : α → Operation ε β}
    (steady : Within Store.Steady operation) (rest : ∀ value, Guarded (next value)) :
    Guarded (operation >>= next) := by
  intro store answer after kept ran saved
  have same := steady store
  rw [apply_bind] at ran
  rcases first : operation.apply store with ⟨fault | value, middle⟩ <;>
    rw [first] at ran same
  · cases ran
    exact .inl (same.saved.trans saved)
  · exact rest value ran (same.saved.trans saved)

theorem guarded_bind_sure {operation : Operation ε α} {next : α → Operation ε β}
    (guarded : Guarded operation) (steady : ∀ value, Within Store.Steady (next value)) :
    Guarded (operation >>= next) := by
  intro store answer after kept ran saved
  rw [apply_bind] at ran
  rcases first : operation.apply store with ⟨fault | value, middle⟩ <;> rw [first] at ran
  · cases ran
    rcases guarded first saved with opened | ⟨_, closed⟩
    · exact .inl opened
    · exact .inr ⟨⟨fault, rfl⟩, closed⟩
  · rcases guarded first saved with opened | ⟨⟨fault, refused⟩, _⟩
    · have same := steady value middle
      dsimp only at ran
      rw [ran] at same
      exact .inl (same.saved.trans opened)
    · cases refused

theorem apply_transaction {fault : DatabaseFault → ε} {operation : Operation ε α}
    (idle : store.saved = none) : (transaction fault operation).apply store =
      match operation.apply { store with saved := some store.database } with
      | (.error reason, middle) => (.error reason, middle.rollBack)
      | (.ok value, middle) =>
        match middle.saved with
        | some _ => (.ok value, { middle with saved := none })
        | none => (.error (fault (.storage .noTransaction)), middle) := by
  unfold transaction
  rw [apply_bind, apply_begin, idle]
  dsimp only
  rw [apply_bind, apply_attempt]
  rcases operation.apply { store with saved := some store.database } with ⟨reason | value, middle⟩
  · rfl
  · dsimp only
    rw [apply_bind, apply_commit]
    cases middle.saved <;> rfl

theorem transaction_eq_ok {fault : DatabaseFault → ε} {operation : Operation ε α} {value : α}
    (idle : store.saved = none)
    (ran : (transaction fault operation).apply store = (.ok value, after)) :
    ∃ middle, operation.apply { store with saved := some store.database } = (.ok value, middle) ∧
      after = { middle with saved := none } := by
  rw [apply_transaction idle] at ran
  rcases answered : operation.apply { store with saved := some store.database } with
    ⟨reason | given, middle⟩ <;> rw [answered] at ran
  · cases ran
  · dsimp only at ran
    cases saved : middle.saved <;> rw [saved] at ran
    · cases ran
    · cases ran
      exact ⟨middle, rfl, rfl⟩

def Undone (before after : Store) : Prop :=
  before.saved = none → after.database = before.database ∧ after.saved = none

theorem undone_progress : Progress Undone where
  alike := by
    intro before after alike idle
    exact ⟨alike.database, alike.saved.trans idle⟩
  trans := by
    intro first second third left right idle
    obtain ⟨same, stillIdle⟩ := left idle
    obtain ⟨again, closed⟩ := right stillIdle
    exact ⟨again.trans same, closed⟩

theorem transaction_fails {fault : DatabaseFault → ε} {operation : Operation ε α}
    (guarded : Guarded operation) : FailsWithin Undone (transaction fault operation) := by
  intro store reason after failed idle
  rw [apply_transaction idle] at failed
  rcases answered : operation.apply { store with saved := some store.database } with
    ⟨found | value, middle⟩ <;> rw [answered] at failed
  · cases failed
    rcases guarded answered rfl with saved | ⟨_, closed, same⟩
    · simp [Store.rollBack, saved]
    · simp [Store.rollBack, closed, same]
  · rcases guarded answered rfl with saved | ⟨⟨_, refused⟩, _⟩
    · simp [saved] at failed
    · cases refused

theorem transaction_alike {fault : DatabaseFault → ε} {operation : Operation ε α}
    (silent : Within Store.Alike operation) :
    Within Store.Alike (transaction fault operation) := by
  intro store
  cases saved : store.saved with
  | some kept =>
      unfold transaction
      rw [apply_bind, apply_begin, saved]
      exact .refl store
  | none =>
      have same := silent { store with saved := some store.database }
      rw [apply_transaction saved]
      rcases answered : operation.apply { store with saved := some store.database } with
        ⟨reason | value, middle⟩ <;> rw [answered] at same
      · refine .of_fields ?_ same.obstacle saved.symm
        change middle.saved.getD middle.database = store.database
        rw [same.saved]
        rfl
      · dsimp only
        rw [same.saved]
        exact .of_fields same.database same.obstacle saved.symm

end Formulary.Operation
