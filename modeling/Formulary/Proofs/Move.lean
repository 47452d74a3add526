import Formulary.Proofs.Lineage

/-!
Moves in any table, also in one where resources come round to themselves already: a move is refused
for the first thing that speaks against it, and one that is made brings nothing round to itself.
-/

namespace Formulary

open Relation (ReflTransGen TransGen)

namespace Forest

open Database (withParent)
open Operation

/-- What a move has to answer, by the parents and by what keeps the store from being changed. -/
inductive Ruling (obstacle : Option StorageFault) (table : Table Resource) (id parent : Int) :
    Except Fault Unit → Prop
  | missing (absent : table.contains id = false) :
      Ruling obstacle table id parent (.error (.resourceNotFound id))
  | parentMissing (held : table.contains id = true) (absent : table.contains parent = false) :
      Ruling obstacle table id parent (.error (.parentNotFound parent))
  | own (held : table.contains id = true) (same : id = parent) :
      Ruling obstacle table id parent (.error (.ownParent id))
  | cycle (held : table.contains id = true) (parentHeld : table.contains parent = true)
      (different : id ≠ parent) (below : TransGen (Under table.rows) parent id) :
      Ruling obstacle table id parent (.error (.cycle id parent))
  | blocked {reason : StorageFault} (held : table.contains id = true)
      (parentHeld : table.contains parent = true) (different : id ≠ parent)
      (apart : ¬ TransGen (Under table.rows) parent id) (unwritable : obstacle = some reason) :
      Ruling obstacle table id parent (.error (.store (.ofStorage reason)))
  | made (held : table.contains id = true) (parentHeld : table.contains parent = true)
      (different : id ≠ parent) (apart : ¬ TransGen (Under table.rows) parent id)
      (writable : obstacle = none) : Ruling obstacle table id parent (.ok ())

theorem exists_ruling (obstacle : Option StorageFault) (table : Table Resource) (id parent : Int) :
    ∃ answer, Ruling obstacle table id parent answer := by
  cases held : table.contains id with
  | false => exact ⟨_, .missing held⟩
  | true =>
      cases parentHeld : table.contains parent with
      | false => exact ⟨_, .parentMissing held parentHeld⟩
      | true =>
          by_cases same : id = parent
          · exact ⟨_, .own held same⟩
          · by_cases below : TransGen (Under table.rows) parent id
            · exact ⟨_, .cycle held parentHeld same below⟩
            · cases found : obstacle with
              | none => exact ⟨_, .made held parentHeld same below rfl⟩
              | some reason => exact ⟨_, .blocked held parentHeld same below rfl⟩

section Answers

variable {store : Store} {table : Table Resource} {id parent : Int}

theorem leaves_exists (usable : store.database.resourceTable = .ok table) (id : Int) :
    Leaves (exists? id) store (.ok (table.contains id)) store.database :=
  leaves_query (except_bind_eq_ok.2 ⟨table, usable, rfl⟩)

theorem leaves_find (usable : store.database.resourceTable = .ok table) (id : Int) :
    Leaves (query Fault.ofStore (·.findResource id)) store (.ok (table.find? id))
      store.database :=
  leaves_query (except_bind_eq_ok.2 ⟨table, usable, rfl⟩)

theorem leaves_ancestors (usable : store.database.resourceTable = .ok table) (id : Int)
    (parent : Option Int) :
    Leaves (ancestors id parent) store (.ok (Lineage.of table.rows id parent).ancestors)
      store.database := by
  refine leaves_bind (leaves_query usable) ?_
  dsimp only
  cases (Lineage.of table.rows id parent).revisited with
  | none => exact leaves_pure _
  | some again => exact leaves_bind (leaves_record _) (leaves_pure _)

theorem leaves_move {above : Resource} {answer : Except Fault Unit} {database : Database}
    (usable : store.database.resourceTable = .ok table) (held : table.contains id = true)
    (found : table.find? parent = some above) (different : id ≠ parent)
    (rest : Leaves (do
        if id ∈ (Lineage.of table.rows parent above.parent).ancestors then
          record (.moveLooped id parent)
          throw (.cycle id parent)
        update Fault.ofStore (·.setParent id parent)
        record (.resourceMoved id parent)) store answer database) :
    Leaves (move id parent) store answer database := by
  have here := leaves_exists usable id
  have there := leaves_find usable parent
  rw [held] at here
  rw [found] at there
  refine leaves_bind here (leaves_bind there ?_)
  dsimp only
  rw [if_neg different]
  exact leaves_bind (leaves_ancestors usable parent above.parent) rest

def settled (database : Database) (table : Table Resource) (id parent : Int) :
    Except Fault Unit → Database
  | .ok () => { database with resources := some (withParent table id (some parent)) }
  | .error _ => database

theorem Ruling.leaves {answer : Except Fault Unit}
    (usable : store.database.resourceTable = .ok table)
    (ruling : Ruling store.obstacle table id parent answer) :
    Leaves (move id parent) store answer (settled store.database table id parent answer) := by
  have looked := leaves_exists usable id
  have found := leaves_find usable parent
  cases ruling with
  | missing absent =>
      rw [absent] at looked
      exact leaves_bind looked (leaves_throw _)
  | parentMissing held absent =>
      rw [held] at looked
      rw [Table.find?_eq_none_of_not_contains absent] at found
      exact leaves_bind looked (leaves_bind found (leaves_throw _))
  | own held same =>
      subst same
      obtain ⟨row, present⟩ := Table.exists_find? held
      rw [held] at looked
      rw [present] at found
      refine leaves_bind looked (leaves_bind found ?_)
      dsimp only
      rw [if_pos rfl]
      exact leaves_throw _
  | cycle held parentHeld different below =>
      obtain ⟨above, present⟩ := Table.exists_find? parentHeld
      have inside := (Lineage.mem_of_iff present).2 ⟨different, below⟩
      refine leaves_move usable held present different ?_
      rw [if_pos inside]
      exact leaves_bind (leaves_record _) (leaves_throw _)
  | blocked held parentHeld different apart unwritable =>
      obtain ⟨above, present⟩ := Table.exists_find? parentHeld
      have outside := mt (Lineage.mem_of_iff present).1 (not_and_of_not_right (id ≠ parent) apart)
      refine leaves_move usable held present different ?_
      rw [if_neg outside]
      exact leaves_bind_error (leaves_update_blocked unwritable)
  | made held parentHeld different apart writable =>
      obtain ⟨above, present⟩ := Table.exists_find? parentHeld
      have outside := mt (Lineage.mem_of_iff present).1 (not_and_of_not_right (id ≠ parent) apart)
      have written := Database.setParent_eq_ok_iff.2 ⟨table, usable, held, parentHeld, rfl⟩
      refine leaves_move usable held present different ?_
      rw [if_neg outside]
      exact leaves_bind (leaves_update writable written) (leaves_record _)

theorem move_apply (usable : store.database.resourceTable = .ok table) (id parent : Int) :
    ∃ answer after, (move id parent).apply store = (answer, after) ∧
      Ruling store.obstacle table id parent answer ∧
      Store.Alike { store with database := settled store.database table id parent answer } after := by
  obtain ⟨answer, ruling⟩ := exists_ruling store.obstacle table id parent
  obtain ⟨after, moved, alike⟩ := (ruling.leaves usable).apply_eq
  exact ⟨answer, after, moved, ruling, alike⟩

end Answers

section Loops

variable {table : Table Resource} {id parent : Int}

theorem under_moved {child above : Int}
    (link : Under (withParent table id (some parent)).rows child above) :
    (child = id ∧ above = parent) ∨ (child ≠ id ∧ Under table.rows child above) := by
  obtain ⟨row, inside, rfl, under⟩ := link
  obtain ⟨old, member, rfl⟩ := Table.mem_modify.1 inside
  by_cases target : old.id = id
  · rw [id_resource, if_pos target] at under ⊢
    cases under
    exact .inl ⟨target, rfl⟩
  · rw [id_resource, if_neg target] at under ⊢
    exact .inr ⟨target, old, member, rfl, under⟩

theorem reached_of_moved {start : Int}
    (way : ReflTransGen (Under (withParent table id (some parent)).rows) start id) :
    start = id ∨ TransGen (Under table.rows) start id := by
  induction way using ReflTransGen.head_induction_on with
  | refl => exact .inl rfl
  | head link _ ih =>
      rcases under_moved link with ⟨here, _⟩ | ⟨_, old⟩
      · exact .inl here
      · rcases ih with rfl | further
        · exact .inr (.single old)
        · exact .inr (.head old further)

theorem not_looped_moved (different : id ≠ parent) (apart : ¬ TransGen (Under table.rows) parent id) :
    ¬ TransGen (Under (withParent table id (some parent)).rows) id id := by
  intro loop
  obtain ⟨next, link, back⟩ := TransGen.head'_iff.1 loop
  rcases under_moved link with ⟨_, rfl⟩ | ⟨elsewhere, _⟩
  · rcases reached_of_moved back with same | below
    · exact different same.symm
    · exact apart below
  · exact elsewhere rfl

theorem through_moved {start stop : Int}
    (way : TransGen (Under (withParent table id (some parent)).rows) start stop) :
    TransGen (Under table.rows) start stop ∨
      (ReflTransGen (Under (withParent table id (some parent)).rows) start id ∧
        ReflTransGen (Under (withParent table id (some parent)).rows) id stop) := by
  induction way with
  | single link =>
      rcases under_moved link with ⟨rfl, _⟩ | ⟨_, old⟩
      · exact .inr ⟨.refl, .single link⟩
      · exact .inl (.single old)
  | tail way link ih =>
      rcases under_moved link with ⟨rfl, _⟩ | ⟨_, old⟩
      · exact .inr ⟨way.to_reflTransGen, .single link⟩
      · rcases ih with before | ⟨there, back⟩
        · exact .inl (.tail before old)
        · exact .inr ⟨there, .tail back link⟩

theorem looped_of_moved {other : Int}
    (fixed : ¬ TransGen (Under (withParent table id (some parent)).rows) id id)
    (loop : TransGen (Under (withParent table id (some parent)).rows) other other) :
    TransGen (Under table.rows) other other := by
  rcases through_moved loop with before | ⟨there, back⟩
  · exact before
  · exact absurd (TransGen.trans_right back (loop.trans_left there)) fixed

end Loops

variable {store : Store} {table : Table Resource}

/-- In any table, a move is refused for the first thing that speaks against it, which leaves the
store as it is, and made if nothing does. One that is made gives the resource its new parent and
changes nothing else; the resource does not come round to itself then, and nothing does that did not
before. -/
theorem move_decides (usable : store.database.resourceTable = .ok table) (id parent : Int) :
    (∀ answer, ((move id parent).apply store).1 = answer ↔
      Ruling store.obstacle table id parent answer) ∧
    (∀ fault after, (move id parent).apply store = (.error fault, after) → store.Alike after) ∧
    ∀ after, (move id parent).apply store = (.ok (), after) →
      ∃ row kept, table.find? id = some row ∧
        Table.Replaced (⟨id, row.name, some parent⟩ : Resource) table kept ∧
        Store.Alike { store with database := { store.database with resources := some kept } } after ∧
        ¬ TransGen (Under kept.rows) id id ∧
        ∀ other, TransGen (Under kept.rows) other other → TransGen (Under table.rows) other other := by
  obtain ⟨answer, reached, moved, ruling, alike⟩ := move_apply usable id parent
  rw [moved]
  refine ⟨?_, ?_, ?_⟩
  · intro other
    constructor
    · rintro rfl
      exact ruling
    · intro again
      exact ((again.leaves usable).eq_of_apply moved).1
  · rintro fault after ⟨⟩
    exact alike
  · rintro after ⟨⟩
    cases ruling with
    | made held _ different apart _ =>
        have fixed := not_looped_moved different apart
        obtain ⟨row, found⟩ := Table.exists_find? held
        have replaced := Database.replaced_withParent found (some parent)
        exact ⟨row, _, found, replaced, alike, fixed, fun other => looped_of_moved fixed⟩

theorem move_decides_tangled :
    tangled.database.resourceTable = .ok tangle ∧
    Ruling none tangle 2 3 (.error (.cycle 2 3)) ∧
    ∃ after kept, (move 3 5).apply tangled = (.ok (), after) ∧
      after.database = { tangled.database with resources := some kept } ∧
      kept.find? 3 = some ⟨3, "c", some 5⟩ ∧ kept.find? 1 = some ⟨1, "a", some 2⟩ ∧
      ¬ TransGen (Under kept.rows) 3 3 ∧
      (TransGen (Under kept.rows) 1 1 → TransGen (Under tangle.rows) 1 1) := by
  have usable : tangled.database.resourceTable = .ok tangle := rfl
  refine ⟨usable, ?_, ?_⟩
  · have refused : ((move 2 3).apply tangled).1 = .error (.cycle 2 3) := by decide +kernel
    exact ((move_decides usable 2 3).1 _).1 refused
  · have answered : ((move 3 5).apply tangled).1 = .ok () := by decide +kernel
    have moved : (move 3 5).apply tangled = (.ok (), ((move 3 5).apply tangled).2) := by
      rw [← answered]
    obtain ⟨row, kept, found, replaced, alike, fixed, loops⟩ := (move_decides usable 3 5).2.2 _ moved
    obtain rfl : (⟨3, "c", some 2⟩ : Resource) = row := Option.some.inj found
    exact ⟨_, kept, moved, alike.database, replaced.written, replaced.elsewhere 1 (by decide), fixed,
      loops 1⟩

end Forest

end Formulary
