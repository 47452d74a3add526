import Formulary.Forest
import Formulary.Proofs.Operation
import Formulary.Proofs.Schema

/-!
What the operations on resources do to a store when they succeed, and that a move that fails
changes nothing.
-/

namespace Formulary.Forest

open Operation

variable {store after : Store}

theorem trimmed_of_normalizeName {name given : String}
    (normal : normalizeName name = .ok given) : Text.Trimmed given := by
  unfold normalizeName at normal
  by_cases blank : Text.trim name = ""
  · simp [blank] at normal
  · simp only [blank, if_false, Except.ok.injEq] at normal
    rw [← normal]
    exact Text.trimmed_trim blank

theorem normalizeName_eq_error {name : String} {fault : Fault}
    (refused : normalizeName name = .error fault) : fault = .blankName := by
  unfold normalizeName at refused
  by_cases blank : Text.trim name = ""
  · simp only [blank, if_true] at refused
    exact (Except.error.inj refused).symm
  · simp [blank] at refused

theorem getResource_alike (id : Int) : Within Store.Alike (getResource id) := by
  refine within_bind alike_progress (within_query alike_progress _ _) fun found => ?_
  cases found with
  | none => exact within_throw alike_progress _
  | some resource => exact within_pure alike_progress _

theorem listChildren_alike (parent : Option Int) : Within Store.Alike (listChildren parent) := by
  have listed : Within Store.Alike (query Fault.ofStore (·.listChildren parent)) :=
    within_query alike_progress _ _
  cases parent with
  | none => exact listed
  | some id =>
      refine within_bind alike_progress (within_query alike_progress _ _) fun held => ?_
      cases held with
      | false => exact within_throw alike_progress _
      | true => exact listed

theorem ancestors_alike (id : Int) (parent : Option Int) :
    Within Store.Alike (ancestors id parent) := by
  refine within_bind alike_progress (within_query alike_progress _ _) fun table => ?_
  dsimp only
  cases (Lineage.of table.rows id parent).revisited with
  | none => exact within_pure alike_progress _
  | some again =>
      exact within_record_pure alike_progress _ _

theorem lineage_alike (id : Int) : Within Store.Alike (lineage id) :=
  within_bind alike_progress (getResource_alike id) fun resource =>
    ancestors_alike id resource.parent

theorem ancestors_eq_ok {id : Int} {parent : Option Int} {found : List Int}
    (walked : (ancestors id parent).apply store = (.ok found, after)) :
    ∃ table, store.database.resourceTable = .ok table ∧
      found = (Lineage.of table.rows id parent).ancestors := by
  unfold ancestors at walked
  rw [bind_eq_ok] at walked
  obtain ⟨table, _, looked, walked⟩ := walked
  obtain ⟨usable, rfl⟩ := query_eq_ok.1 looked
  refine ⟨table, usable, ?_⟩
  dsimp only at walked
  cases revisited : (Lineage.of table.rows id parent).revisited with
  | none =>
      rw [revisited] at walked
      cases walked
      rfl
  | some again =>
      simp only [revisited, bind_eq_ok] at walked
      obtain ⟨_, _, _, answered⟩ := walked
      cases answered
      rfl

theorem getResource_of_find? {table : Table Resource} {id : Int} {found : Option Resource}
    (usable : store.database.resourceTable = .ok table) (present : table.find? id = found) :
    (getResource id).apply store =
      (match found with | some row => .ok row | none => .error (.resourceNotFound id), store) := by
  have read : store.database.findResource id = .ok found :=
    except_bind_eq_ok.2 ⟨table, usable, congrArg Except.ok present⟩
  unfold getResource
  rw [apply_bind, apply_query, read]
  cases found <;> rfl

theorem lineage_of_mem {table : Table Resource} {row : Resource}
    (usable : store.database.resourceTable = .ok table) (member : row ∈ table.rows) :
    ((lineage row.id).apply store).1 =
      .ok (Lineage.of table.rows row.id row.parent).ancestors := by
  have present : table.find? row.id = some row := Table.find?_eq_some_iff.2 ⟨member, rfl⟩
  unfold lineage ancestors
  rw [apply_bind, getResource_of_find? usable present]
  dsimp only
  rw [apply_bind, apply_query, usable]
  dsimp only [mapError_ok]
  cases (Lineage.of table.rows row.id row.parent).revisited <;> rfl

theorem lineage_of_missing {table : Table Resource} {id : Int}
    (usable : store.database.resourceTable = .ok table) (missing : table.find? id = none) :
    ((lineage id).apply store).1 = .error (.resourceNotFound id) := by
  unfold lineage
  rw [apply_bind, getResource_of_find? usable missing]

theorem added_eq_ok {name : String} {parent : Option Int} {id : Int}
    (added : (change Fault.ofStore (·.createResource name parent) >>= fun created => do
      record (.resourceCreated created.id parent.isSome)
      return created.id).apply store = (.ok id, after)) :
    ∃ table, store.database.resourceTable = .ok table ∧ table.contains id = false ∧
      after.database =
        { store.database with resources := some (table.put ⟨id, name, parent⟩) } := by
  obtain ⟨created, _, changed, added⟩ := bind_eq_ok.1 added
  obtain ⟨_, database, written, rfl⟩ := change_eq_ok.1 changed
  cases added
  obtain ⟨table, next, usable, free, rfl, _, rfl⟩ := Database.createResource_eq_ok_iff.1 written
  exact ⟨table, usable, Table.not_contains_nextId? free, rfl⟩

theorem create_eq_ok {name : String} {parent : Option Int} {id : Int}
    (created : (create name parent).apply store = (.ok id, after)) :
    ∃ table given, store.database.resourceTable = .ok table ∧ table.contains id = false ∧
      (∀ above, parent = some above → table.contains above = true) ∧
      after.database =
        { store.database with resources := some (table.put ⟨id, given, parent⟩) } := by
  obtain ⟨given, _, normalized, created⟩ := bind_eq_ok.1 created
  obtain ⟨_, rfl⟩ := liftM_eq.1 normalized
  cases parent with
  | none =>
      obtain ⟨table, usable, fresh, same⟩ := added_eq_ok created
      exact ⟨table, given, usable, fresh, by simp, same⟩
  | some above =>
      obtain ⟨held, _, looked, created⟩ := bind_eq_ok.1 created
      obtain ⟨found, rfl⟩ := query_eq_ok.1 looked
      cases held with
      | false => simp [bind_eq_ok] at created
      | true =>
          obtain ⟨table, usable, fresh, same⟩ := added_eq_ok created
          refine ⟨table, given, usable, fresh, ?_, same⟩
          rintro _ ⟨⟩
          obtain ⟨_, again, held⟩ := except_bind_eq_ok.1 found
          rw [usable] at again
          cases again
          exact Except.ok.inj held

theorem move_eq_ok {id parent : Int}
    (moved : (move id parent).apply store = (.ok (), after)) :
    ∃ table above database, store.database.resourceTable = .ok table ∧
      table.find? parent = some above ∧ id ≠ parent ∧
      id ∉ (Lineage.of table.rows parent above.parent).ancestors ∧
      store.database.setParent id parent = .ok database ∧
      Store.Alike { store with database } after := by
  unfold move exists? at moved
  simp only [bind_eq_ok] at moved
  obtain ⟨held, _, looked, moved⟩ := moved
  obtain ⟨_, rfl⟩ := query_eq_ok.1 looked
  cases held with
  | false => simp at moved
  | true =>
      simp only [Bool.not_true, Bool.false_eq_true, if_false, bind_eq_ok] at moved
      obtain ⟨found, _, lookedUp, moved⟩ := moved
      obtain ⟨read, rfl⟩ := query_eq_ok.1 lookedUp
      cases found with
      | none => simp at moved
      | some above =>
          by_cases same : id = parent
          · simp [same] at moved
          · simp only [same, if_false, bind_eq_ok] at moved
            obtain ⟨lineage, middle, walked, moved⟩ := moved
            obtain ⟨table, usable, rfl⟩ := ancestors_eq_ok walked
            have alike := ancestors_alike parent above.parent store
            rw [walked] at alike
            by_cases inside : id ∈ (Lineage.of table.rows parent above.parent).ancestors
            · simp [inside, bind_eq_ok] at moved
            · simp only [inside, if_false, bind_eq_ok] at moved
              obtain ⟨_, _, updated, moved⟩ := moved
              obtain ⟨_, database, written, rfl⟩ := update_eq_ok.1 updated
              cases moved
              obtain ⟨_, unique, looked⟩ := except_bind_eq_ok.1 read
              rw [usable] at unique
              cases unique
              rw [except_pure, Except.ok.injEq] at looked
              rw [alike.database] at written
              refine ⟨table, above, database, usable, looked, same, inside, written, ?_⟩
              rw [Store.Alike, alike.obstacle, alike.saved]

theorem move_atomic (id parent : Int) : Atomic (move id parent) := by
  unfold move
  refine failsWithin_bind alike_progress (within_query alike_progress _ _) fun held => ?_
  cases held with
  | false => exact failsWithin_throw alike_progress _
  | true =>
      refine failsWithin_bind alike_progress (within_query alike_progress _ _) fun found => ?_
      cases found with
      | none => exact failsWithin_throw alike_progress _
      | some above =>
          dsimp only
          by_cases same : id = parent
          · rw [if_pos same]
            exact failsWithin_throw alike_progress _
          · rw [if_neg same]
            have walked := ancestors_alike parent above.parent
            refine failsWithin_bind alike_progress walked fun lineage => ?_
            by_cases inside : id ∈ lineage
            · rw [if_pos inside]
              exact failsWithin_of_within (within_record_throw alike_progress _ _)
            · rw [if_neg inside]
              refine failsWithin_bind_sure (atomic_update Database.setParent_lasting) ?_
              simp

end Formulary.Forest
