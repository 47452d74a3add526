import Formulary.Proofs.Forest
import Formulary.Proofs.Rooted
import Mathlib.Data.Fintype.Order
import Mathlib.Data.List.TakeWhile
import Mathlib.Order.WellFounded

/-!
Ancestors of resources in a forest, and how they change: a resource that is created stands below
its parent and below all that its parent stands below, and a resource that is moved takes with it
whatever stands below it.
-/

namespace Formulary

open Relation (TransGen)

structure Table.IsForest (table : Table Resource) : Prop where
  acyclic : ∀ id, ¬ TransGen (Under table.rows) id id
  attached : ∀ row ∈ table.rows, ∀ parent, row.parent = some parent → table.contains parent = true

theorem Rooted.of_isForest {table : Table Resource} (forest : table.IsForest) :
    ∀ row ∈ table.rows, Rooted table.rows row.id := by
  -- Among finitely many rows, from each of which no way leads back, every way up ends.
  let Above (parent child : { row // row ∈ table.rows }) : Prop :=
    TransGen (Under table.rows) child.1.id parent.1.id
  have : Finite { row // row ∈ table.rows } := table.rows.finite_toSet
  have : IsTrans _ Above := ⟨fun _ _ _ left right => right.trans left⟩
  have : Std.Irrefl Above := ⟨fun row loop => forest.acyclic row.1.id loop⟩
  have climbs : WellFounded Above := Finite.wellFounded_of_trans_of_irrefl Above
  intro row member
  induction hrow : (⟨row, member⟩ : { row // row ∈ table.rows }) using climbs.induction
    generalizing row with
  | _ child ih =>
      subst hrow
      cases under : row.parent with
      | none => exact .root member under
      | some parent =>
          obtain ⟨above, inside, same⟩ :=
            Table.contains_iff.1 (forest.attached row member parent under)
          have same : above.id = parent := same
          subst same
          have link : Under table.rows row.id above.id := ⟨row, member, rfl, under⟩
          exact .child member under (ih ⟨above, inside⟩ (.single link) above inside rfl)

/-- The ancestors of a resource in a forest, from the root to the parent. -/
inductive Ancestry (rows : List Resource) : Int → List Int → Prop
  | root {row : Resource} (member : row ∈ rows) (top : row.parent = none) : Ancestry rows row.id []
  | child {row : Resource} {parent : Int} {above : List Int} (member : row ∈ rows)
      (under : row.parent = some parent) (rest : Ancestry rows parent above) :
      Ancestry rows row.id (above ++ [parent])

theorem Rooted.exists_ancestry {rows : List Resource} {id : Int} (rooted : Rooted rows id) :
    ∃ above, Ancestry rows id above := by
  induction rooted with
  | root member top => exact ⟨[], .root member top⟩
  | child member under _ ih =>
      obtain ⟨above, rest⟩ := ih
      exact ⟨_, .child member under rest⟩

namespace Ancestry

variable {table : Table Resource} {rows : List Resource} {id : Int} {above : List Int}

theorem rooted (ancestry : Ancestry rows id above) : Rooted rows id := by
  induction ancestry with
  | root member top => exact .root member top
  | child member under _ ih => exact .child member under ih

theorem mem_iff (ancestry : Ancestry table.rows id above) {other : Int} :
    other ∈ above ↔ TransGen (Under table.rows) id other := by
  induction ancestry with
  | root member top =>
      constructor
      · simp
      · intro way
        obtain ⟨next, ⟨row, inside, same, under⟩, _⟩ := Relation.TransGen.head'_iff.1 way
        cases Table.eq_of_id_eq inside member same
        simp [top] at under
  | @child row parent above member under rest ih =>
      have link : Under table.rows row.id parent := ⟨row, member, rfl, under⟩
      rw [List.mem_append, List.mem_singleton, ih]
      constructor
      · rintro (further | rfl)
        · exact .head link further
        · exact .single link
      · intro way
        obtain ⟨next, ⟨found, inside, same, otherUnder⟩, further⟩ :=
          Relation.TransGen.head'_iff.1 way
        cases Table.eq_of_id_eq inside member same
        rw [under] at otherUnder
        cases otherUnder
        rcases Relation.reflTransGen_iff_eq_or_transGen.1 further with rfl | further
        · exact .inr rfl
        · exact .inl further

theorem not_mem (ancestry : Ancestry table.rows id above) : id ∉ above :=
  fun inside => ancestry.rooted.not_own_ancestor (ancestry.mem_iff.1 inside)

theorem nodup (ancestry : Ancestry table.rows id above) : above.Nodup := by
  induction ancestry with
  | root _ _ => exact .nil
  | child _ _ rest ih =>
      refine List.nodup_append.2 ⟨ih, List.nodup_singleton _, ?_⟩
      rintro first inside last same rfl
      rw [List.mem_singleton.1 same] at inside
      exact rest.not_mem inside

theorem walk_eq {row : Resource} (ancestry : Ancestry table.rows row.id above)
    (member : row ∈ table.rows) {visited : List Int} (unseen : ∀ other ∈ visited, other ∉ above) :
    Lineage.walk table.rows visited row.parent = ⟨above, none⟩ := by
  have alone := ancestry.nodup
  generalize here : row.id = id at ancestry
  induction ancestry generalizing row visited with
  | root otherMember top =>
      cases Table.eq_of_id_eq member otherMember here
      rw [top]
      unfold Lineage.walk
      rfl
  | @child found parent above otherMember under rest ih =>
      cases Table.eq_of_id_eq member otherMember here
      obtain ⟨node, inside, same⟩ := rest.rooted.exists_row
      have present : table.rows.find? (·.id = parent) = some node :=
        Table.find?_eq_some_iff.2 ⟨inside, same⟩
      have fresh : parent ∉ visited := fun seen => unseen parent seen (by simp)
      obtain ⟨aloneAbove, _, _⟩ := List.nodup_append.1 alone
      have further : Lineage.walk table.rows (parent :: visited) node.parent = ⟨above, none⟩ := by
        refine ih inside ?_ aloneAbove same
        intro other seen
        rcases List.mem_cons.1 seen with rfl | seen
        · exact rest.not_mem
        · exact fun met => unseen other seen (List.mem_append_left _ met)
      rw [under]
      unfold Lineage.walk
      rw [dif_neg fresh]
      split
      · rename_i absent
        rw [present] at absent
        cases absent
      · rename_i other again
        rw [present] at again
        cases again
        rw [further]

theorem lineage_eq {store : Store} (usable : store.database.resourceTable = .ok table)
    (ancestry : Ancestry table.rows id above) :
    ((Forest.lineage id).apply store).1 = .ok above := by
  obtain ⟨row, member, rfl⟩ := ancestry.rooted.exists_row
  have walked : Lineage.of table.rows row.id row.parent = ⟨above, none⟩ := by
    refine ancestry.walk_eq member ?_
    intro other seen
    rw [List.mem_singleton.1 seen]
    exact ancestry.not_mem
  rw [Forest.lineage_of_mem usable member, walked]

theorem mono {more : List Resource} (kept : ∀ row ∈ rows, row ∈ more)
    (ancestry : Ancestry rows id above) : Ancestry more id above := by
  induction ancestry with
  | root member top => exact .root (kept _ member) top
  | child member under _ ih => exact .child (kept _ member) under ih

section Moved

open Database (withParent)

variable {moved parent : Int} {ids : List Int}

theorem outside_moved (outside : ¬ TransGen (Under table.rows) id moved) (different : id ≠ moved)
    (ancestry : Ancestry table.rows id above) :
    Ancestry (withParent table moved (some parent)).rows id above := by
  induction ancestry with
  | root member top => exact .root (Rooted.mem_moved member different) top
  | @child row next above member under rest ih =>
      have link : Under table.rows row.id next := ⟨row, member, rfl, under⟩
      refine .child (Rooted.mem_moved member different) under (ih ?_ ?_)
      · exact fun further => outside (.head link further)
      · rintro rfl
        exact outside (.single link)

theorem moved_itself {row : Resource} (member : row ∈ table.rows)
    (target : Ancestry (withParent table row.id (some parent)).rows parent ids) :
    Ancestry (withParent table row.id (some parent)).rows row.id (ids ++ [parent]) := by
  have placed :
      { row with parent := some parent } ∈ (withParent table row.id (some parent)).rows := by
    refine Table.mem_modify.2 ⟨row, member, ?_⟩
    rw [id_resource, if_pos rfl]
  have here := Ancestry.child placed rfl target
  exact here

theorem below_moved (below : TransGen (Under table.rows) id moved)
    (ancestry : Ancestry table.rows id above)
    (target : Ancestry (withParent table moved (some parent)).rows moved ids) :
    Ancestry (withParent table moved (some parent)).rows id
      (ids ++ above.dropWhile (· ≠ moved)) := by
  induction ancestry with
  | root member top =>
      have inside := (Ancestry.root member top).mem_iff.2 below
      simp at inside
  | @child row next above member under rest ih =>
      have whole := Ancestry.child member under rest
      have different : row.id ≠ moved := by
        rintro rfl
        exact whole.rooted.not_own_ancestor below
      have kept : row ∈ (withParent table moved (some parent)).rows :=
        Rooted.mem_moved member different
      rcases List.mem_append.1 (whole.mem_iff.2 below) with further | last
      · have shortened : (above ++ [next]).dropWhile (· ≠ moved) =
            above.dropWhile (· ≠ moved) ++ [next] := by
          have reached : above.dropWhile (· ≠ moved) ≠ [] := by
            rw [ne_eq, List.dropWhile_eq_nil_iff]
            exact fun passed => absurd (passed moved further) (by simp)
          rw [List.dropWhile_append, if_neg (by rwa [List.isEmpty_iff])]
        rw [shortened, ← List.append_assoc]
        exact .child kept under (ih (rest.mem_iff.1 further))
      · cases List.mem_singleton.1 last
        have passed : ∀ other ∈ above, other ≠ moved := by
          rintro other inside rfl
          exact rest.not_mem inside
        have shortened : (above ++ [moved]).dropWhile (· ≠ moved) = [moved] := by
          rw [List.dropWhile_append_of_pos (by simpa using passed)]
          simp
        rw [shortened]
        exact .child kept under target

end Moved

end Ancestry

namespace Forest

variable {store after : Store} {table changed : Table Resource}

theorem table_eq (present : store.database.resources = some table)
    (usable : store.database.resourceTable = .ok changed) : table = changed := by
  obtain ⟨_, found, _⟩ := Database.resourceTable_eq_ok_iff.1 usable
  rw [present] at found
  exact Option.some.inj found

theorem table_after_edit (usable : store.database.resourceTable = .ok table)
    (columns : changed.columns = table.columns)
    (same : after.database = { store.database with resources := some changed }) :
    after.database.resourceTable = .ok changed := by
  obtain ⟨version, _, named⟩ := Database.resourceTable_eq_ok_iff.1 usable
  rw [same, Database.resourceTable_eq_ok_iff, columns]
  exact ⟨version, rfl, named⟩

theorem lineage_congr (forest : table.IsForest)
    (usable : store.database.resourceTable = .ok table)
    (usableAfter : after.database.resourceTable = .ok changed) {id : Int}
    (found : changed.contains id = table.contains id)
    (kept : ∀ above, Ancestry table.rows id above → Ancestry changed.rows id above) :
    ((lineage id).apply after).1 = ((lineage id).apply store).1 := by
  cases held : table.contains id with
  | false =>
      rw [held] at found
      rw [lineage_of_missing usable (Table.find?_eq_none_of_not_contains held),
        lineage_of_missing usableAfter (Table.find?_eq_none_of_not_contains found)]
  | true =>
      obtain ⟨row, member, rfl⟩ := Table.contains_iff.1 held
      obtain ⟨above, ancestry⟩ := (Rooted.of_isForest forest row member).exists_ancestry
      rw [id_resource, ancestry.lineage_eq usable]
      exact (kept above ancestry).lineage_eq usableAfter

theorem lineage_after_create (present : store.database.resources = some table)
    (forest : table.IsForest) {name : String} {parent : Option Int} {id : Int}
    (created : (create name parent).apply store = (.ok id, after)) :
    (parent = none → ((lineage id).apply after).1 = .ok []) ∧
    (∀ above, parent = some above → ∃ ids, ((lineage above).apply store).1 = .ok ids ∧
      ((lineage id).apply after).1 = .ok (ids ++ [above])) ∧
    ∀ other, other ≠ id → ((lineage other).apply after).1 = ((lineage other).apply store).1 := by
  obtain ⟨_, given, usable, fresh, attached, same⟩ := create_eq_ok created
  obtain rfl := table_eq present usable
  have usableAfter := table_after_edit usable (Table.columns_put _ _) same
  have here : (⟨id, given, parent⟩ : Resource) ∈ (table.put ⟨id, given, parent⟩).rows :=
    (Table.mem_put_fresh fresh).2 (.inl rfl)
  have kept : ∀ row ∈ table.rows, row ∈ (table.put ⟨id, given, parent⟩).rows :=
    fun row inside => (Table.mem_put_fresh fresh).2 (.inr inside)
  refine ⟨?_, ?_, ?_⟩
  · rintro rfl
    have ancestry := Ancestry.root here rfl
    exact ancestry.lineage_eq usableAfter
  · rintro above rfl
    obtain ⟨row, member, rfl⟩ := Table.contains_iff.1 (attached above rfl)
    obtain ⟨ids, ancestry⟩ := (Rooted.of_isForest forest row member).exists_ancestry
    have placed := Ancestry.child here rfl (ancestry.mono kept)
    exact ⟨ids, ancestry.lineage_eq usable, placed.lineage_eq usableAfter⟩
  · intro other different
    refine lineage_congr forest usable usableAfter ?_ fun above ancestry => ancestry.mono kept
    simp [Ne.symm different]

theorem lineage_after_move (present : store.database.resources = some table)
    (forest : table.IsForest) {id parent : Int}
    (moved : (move id parent).apply store = (.ok (), after)) :
    ∃ ids, ((lineage parent).apply store).1 = .ok ids ∧
      ((lineage id).apply after).1 = .ok (ids ++ [parent]) ∧
      (∀ other, TransGen (Under table.rows) other id →
        ∃ old, ((lineage other).apply store).1 = .ok old ∧ id ∈ old ∧
          ((lineage other).apply after).1 = .ok (ids ++ [parent] ++ old.dropWhile (· ≠ id))) ∧
      ∀ other, other ≠ id → ¬ TransGen (Under table.rows) other id →
        ((lineage other).apply after).1 = ((lineage other).apply store).1 := by
  have rooted := Rooted.of_isForest forest
  obtain ⟨_, above, database, usable, found, different, outside, written, alike⟩ :=
    move_eq_ok moved
  obtain rfl := table_eq present usable
  obtain ⟨_, same, held, _, rfl⟩ := Database.setParent_eq_ok_iff.1 written
  rw [usable] at same
  cases same
  have usableAfter := table_after_edit usable (Table.columns_modify _ _ _ _) alike.database
  obtain ⟨here, rfl⟩ := Table.find?_eq_some_iff.1 found
  obtain ⟨row, member, rfl⟩ := Table.contains_iff.1 held
  obtain ⟨ids, ancestry⟩ := (rooted above here).exists_ancestry
  have walked := ancestry.lineage_eq usable
  rw [lineage_of_mem usable here, Except.ok.injEq] at walked
  have unrelated : ¬ TransGen (Under table.rows) above.id row.id := by
    rw [← ancestry.mem_iff, ← walked]
    exact outside
  have target : Ancestry (Database.withParent table row.id (some above.id)).rows above.id ids :=
    ancestry.outside_moved unrelated (Ne.symm different)
  have itself := Ancestry.moved_itself member target
  refine ⟨ids, ancestry.lineage_eq usable, itself.lineage_eq usableAfter, ?_, ?_⟩
  · intro other below
    obtain ⟨_, ⟨start, inside, rfl, _⟩, _⟩ := Relation.TransGen.head'_iff.1 below
    obtain ⟨old, ancestryBefore⟩ := (rooted start inside).exists_ancestry
    exact ⟨old, ancestryBefore.lineage_eq usable, ancestryBefore.mem_iff.2 below,
      (ancestryBefore.below_moved below itself).lineage_eq usableAfter⟩
  · intro other apart unrelatedOther
    refine lineage_congr forest usable usableAfter Table.contains_modify ?_
    exact fun above ancestryBefore => ancestryBefore.outside_moved unrelatedOther apart

/-- In a forest, a resource that is created has the lineage of its parent and then the parent, and
nothing else changes its lineage. A resource that is moved has the lineage of its new parent and
then that parent; what stands below it has, behind those, the part of its old lineage from the moved
resource on; and nothing else changes its lineage. -/
theorem lineage_after_edit (present : store.database.resources = some table)
    (forest : table.IsForest) :
    (∀ name parent id after, (create name parent).apply store = (.ok id, after) →
      (parent = none → ((lineage id).apply after).1 = .ok []) ∧
      (∀ above, parent = some above → ∃ ids, ((lineage above).apply store).1 = .ok ids ∧
        ((lineage id).apply after).1 = .ok (ids ++ [above])) ∧
      ∀ other, other ≠ id → ((lineage other).apply after).1 = ((lineage other).apply store).1) ∧
    (∀ id parent after, (move id parent).apply store = (.ok (), after) →
      ∃ ids, ((lineage parent).apply store).1 = .ok ids ∧
        ((lineage id).apply after).1 = .ok (ids ++ [parent]) ∧
        (∀ other, TransGen (Under table.rows) other id →
          ∃ old, ((lineage other).apply store).1 = .ok old ∧ id ∈ old ∧
            ((lineage other).apply after).1 =
              .ok (ids ++ [parent] ++ old.dropWhile (· ≠ id))) ∧
        ∀ other, other ≠ id → ¬ TransGen (Under table.rows) other id →
          ((lineage other).apply after).1 = ((lineage other).apply store).1) := by
  constructor
  · intro name parent id after created
    exact lineage_after_create present forest created
  · intro id parent after moved
    exact lineage_after_move present forest moved

def grove : Table Resource where
  columns := TableName.resources.columns
  rows := [⟨1, "a", none⟩, ⟨2, "b", some 1⟩, ⟨3, "c", some 2⟩, ⟨4, "d", none⟩]
  lastId := 4
  sorted := by decide
  bounded := by decide

def planted : Store :=
  .ofDatabase
    { version := Database.latestVersion
      vars := none
      calculations := none
      dependencies := none
      resources := some grove } none

theorem isForest_grove : grove.IsForest := by
  have first : Rooted grove.rows 1 := @Rooted.root _ ⟨1, "a", none⟩ (by decide) rfl
  have second : Rooted grove.rows 2 := @Rooted.child _ ⟨2, "b", some 1⟩ 1 (by decide) rfl first
  have third : Rooted grove.rows 3 := @Rooted.child _ ⟨3, "c", some 2⟩ 2 (by decide) rfl second
  have fourth : Rooted grove.rows 4 := @Rooted.root _ ⟨4, "d", none⟩ (by decide) rfl
  constructor
  · intro id loop
    obtain ⟨_, ⟨row, member, rfl, _⟩, _⟩ := Relation.TransGen.head'_iff.1 loop
    have rooted : ∀ row ∈ grove.rows, Rooted grove.rows row.id := by
      simpa [grove] using ⟨first, second, third, fourth⟩
    exact (rooted row member).not_own_ancestor loop
  · decide

theorem lineage_after_edit_grove :
    planted.database.resources = some grove ∧ grove.IsForest ∧
    (∃ after, (create "e" (some 3)).apply planted = (.ok 5, after) ∧
      ((lineage 5).apply after).1 = .ok [1, 2, 3] ∧
      ((lineage 3).apply after).1 = ((lineage 3).apply planted).1) ∧
    ∃ after, (move 2 4).apply planted = (.ok (), after) ∧
      ((lineage 2).apply after).1 = .ok [4] ∧
      ((lineage 3).apply after).1 = .ok [4, 2] ∧
      ((lineage 1).apply after).1 = ((lineage 1).apply planted).1 := by
  have present : planted.database.resources = some grove := rfl
  obtain ⟨afterCreate, afterMove⟩ := lineage_after_edit present isForest_grove
  have third : ((lineage 3).apply planted).1 = .ok [1, 2] := by decide +kernel
  have fourth : ((lineage 4).apply planted).1 = .ok [] := by decide +kernel
  refine ⟨present, isForest_grove, ?_, ?_⟩
  · have answered : ((create "e" (some 3)).apply planted).1 = .ok 5 := by decide +kernel
    have created : (create "e" (some 3)).apply planted =
        (.ok 5, ((create "e" (some 3)).apply planted).2) := by rw [← answered]
    obtain ⟨-, underThird, others⟩ := afterCreate _ _ _ _ created
    obtain ⟨ids, above, placed⟩ := underThird 3 rfl
    rw [third] at above
    cases above
    exact ⟨_, created, placed, others 3 (by decide)⟩
  · have answered : ((move 2 4).apply planted).1 = .ok () := by decide +kernel
    have moved : (move 2 4).apply planted = (.ok (), ((move 2 4).apply planted).2) := by
      rw [← answered]
    obtain ⟨ids, above, placed, below, others⟩ := afterMove _ _ _ moved
    rw [fourth] at above
    cases above
    have link : Under grove.rows 3 2 := ⟨⟨3, "c", some 2⟩, by decide, rfl, rfl⟩
    obtain ⟨old, before, _, carried⟩ := below 3 (.single link)
    rw [third] at before
    cases before
    refine ⟨_, moved, placed, carried, others 1 (by decide) ?_⟩
    intro way
    obtain ⟨_, ⟨row, member, same, under⟩, _⟩ := Relation.TransGen.head'_iff.1 way
    have top : ∀ row ∈ grove.rows, row.id = 1 → row.parent = none := by decide
    rw [top row member same] at under
    cases under

end Forest

end Formulary
