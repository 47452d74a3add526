import Formulary.Proofs.Difference
import Formulary.Proofs.Freshness

/-!
A pass processes its calculations as if each were the only one: what becomes of one calculation
depends on its own row and on the variables alone, and touches nothing but its own value and
dependencies. So it comes to the same wherever in the pass it stands, and a second pass finds
everything done.
-/

namespace Formulary.Recalculation

open Operation
open Database (SameAt SameBut)

theorem valueOfText_of_variableTable {database other : Database}
    (same : other.variableTable = database.variableTable) (text : String) :
    valueOfText other text = valueOfText database text := by
  unfold valueOfText
  cases parse text with
  | error fault => rfl
  | ok expression => exact valueOf_of_variableTable same expression

section Alone

variable {store other : Store} {calculations kept : Table Calculation}
  {dependencies index : DependencyTable} {id : Int} {answer : Except Fault Outcome}
  {outcome : Outcome} {database : Database}

theorem Processed.sameBut
    (processed : Processed store calculations dependencies id (.ok outcome) database)
    (usable : store.database.calculationTables = .ok (calculations, dependencies)) :
    SameBut [id] store.database database := by
  cases processed with
  | stored => exact Database.sameBut_stored usable id _ _

theorem Processed.unchanged {fault : Fault}
    (processed : Processed store calculations dependencies id (.error fault) database) :
    database = store.database := by
  cases processed <;> rfl

theorem Processed.elsewhere
    (processed : Processed store calculations dependencies id answer database)
    (usable : store.database.calculationTables = .ok (calculations, dependencies))
    (usableToo : other.database.calculationTables = .ok (kept, index))
    (obstacle : other.obstacle = store.obstacle)
    (vars : other.database.variableTable = store.database.variableTable)
    (same : SameAt id store.database other.database) :
    ∃ left, Processed other kept index id answer left ∧ SameAt id database left := by
  obtain ⟨row, edges⟩ := (Database.sameAt_iff usable usableToo).1 same
  cases processed with
  | missing absent => exact ⟨_, .missing (row.trans absent), same⟩
  | unvalued present refused =>
      rw [← valueOfText_of_variableTable vars] at refused
      exact ⟨_, .unvalued (row.trans present) refused, same⟩
  | blocked present valued unwritable =>
      rw [← valueOfText_of_variableTable vars] at valued
      exact ⟨_, .blocked (row.trans present) valued (obstacle.trans unwritable), same⟩
  | stored present parsed valued writable =>
      rw [← valueOf_of_variableTable vars] at valued
      refine ⟨_, .stored (row.trans present) parsed valued (obstacle.trans writable), ?_⟩
      rw [Database.sameAt_iff (Database.calculationTables_stored usable _ _ _)
        (Database.calculationTables_stored usableToo _ _ _),
        Database.find?_withCalculatedValue, Database.find?_withCalculatedValue, row]
      refine ⟨rfl, ?_⟩
      intro variableId
      rw [DependencyTable.mem_assign, DependencyTable.mem_assign]
      simp

theorem Processed.again
    (processed : Processed store calculations dependencies id (.ok outcome) database)
    (usable : store.database.calculationTables = .ok (calculations, dependencies))
    (usableToo : other.database.calculationTables = .ok (kept, index))
    (obstacle : other.obstacle = store.obstacle)
    (vars : other.database.variableTable = store.database.variableTable)
    (same : SameAt id database other.database) :
    ∃ left, Processed other kept index id (.ok outcome) left ∧ SameAt id other.database left := by
  cases processed with
  | @stored calculation expression value present parsed valued writable =>
      obtain ⟨row, edges⟩ := (Database.sameAt_iff
        (Database.calculationTables_stored usable _ _ _) usableToo).1 same
      rw [Database.find?_withCalculatedValue, present, Option.map_some] at row
      rw [← valueOf_of_variableTable vars] at valued
      have processedToo : Processed other kept index id _ _ :=
        .stored row parsed valued (obstacle.trans writable)
      refine ⟨_, processedToo, ?_⟩
      rw [Database.sameAt_iff usableToo (Database.calculationTables_stored usableToo _ _ _),
        Database.find?_withCalculatedValue, row]
      refine ⟨rfl, ?_⟩
      intro variableId
      rw [edges, DependencyTable.mem_assign, DependencyTable.mem_assign]
      simp

end Alone

/-- Whether all that became of a store is that calculations with the given ids were processed, and
each is as if only it had been. -/
structure Itemwise (ids : List Int) (store after : Store) : Prop where
  steady : store.Steady after
  others : SameBut ids store.database after.database
  each : ∀ id ∈ ids, SameAt id ((process id).apply store).2.database after.database

section Itemwise

variable {store middle after : Store} {ids : List Int}

theorem Itemwise.refl (store : Store) : Itemwise [] store store :=
  ⟨⟨rfl, rfl⟩, .refl _, by simp⟩

theorem Itemwise.alike (itemwise : Itemwise ids store middle) (same : middle.Alike after) :
    Itemwise ids store after := by
  refine ⟨steady_progress.trans itemwise.steady same.steady, ?_, ?_⟩
  · rw [same.database]
    exact itemwise.others
  · rw [same.database]
    exact itemwise.each

variable (usable : ∃ tables, store.database.calculationTables = .ok tables)

include usable

theorem Itemwise.tables (itemwise : Itemwise ids store middle) :
    ∃ tables, middle.database.calculationTables = .ok tables := by
  obtain ⟨⟨calculations, dependencies⟩, present⟩ := usable
  obtain ⟨value, same⟩ := itemwise.others.rows 0
  rw [Database.findCalculation_eq_ok_iff.2 ⟨_, _, present, rfl⟩] at same
  obtain ⟨kept, index, presentAfter, _⟩ := Database.findCalculation_eq_ok_iff.1 same
  exact ⟨_, presentAfter⟩

theorem Itemwise.next (itemwise : Itemwise ids store middle) {id : Int} (fresh : id ∉ ids) :
    (∃ outcome left, ((process id).apply store).1 = .ok outcome ∧
      (process id).apply middle = (.ok outcome, left) ∧ Itemwise (ids ++ [id]) store left) ∨
    ∃ fault left, ((process id).apply store).1 = .error fault ∧
      (process id).apply middle = (.error fault, left) ∧ Itemwise ids store left := by
  obtain ⟨⟨kept, index⟩, usableToo⟩ := itemwise.tables usable
  obtain ⟨⟨calculations, dependencies⟩, present⟩ := usable
  obtain ⟨answer, database, processed⟩ := exists_processed store calculations dependencies id
  obtain ⟨alone, ran, alike⟩ := (processed.leaves present).apply_eq
  have same := itemwise.others.elsewhere id fresh
  obtain ⟨databaseToo, processedToo, sameAfter⟩ := processed.elsewhere present usableToo
    itemwise.steady.obstacle itemwise.others.variableTable same
  obtain ⟨left, ranToo, alikeToo⟩ := (processedToo.leaves usableToo).apply_eq
  cases answer with
  | error fault =>
      refine .inr ⟨fault, left, by rw [ran], ranToo, itemwise.alike ?_⟩
      rw [processedToo.unchanged] at alikeToo
      exact alikeToo
  | ok outcome =>
      have stayed : middle.Steady left := ⟨alikeToo.obstacle, alikeToo.saved⟩
      refine .inl ⟨outcome, left, by rw [ran], ranToo, ?_, ?_, ?_⟩
      · exact steady_progress.trans itemwise.steady stayed
      · rw [alikeToo.database]
        exact itemwise.others.trans (processedToo.sameBut usableToo)
      · intro other inside
        rw [alikeToo.database]
        by_cases here : other = id
        · subst here
          rw [ran, alike.database]
          exact sameAfter
        · have earlier : other ∈ ids := by simpa [here] using inside
          exact (itemwise.each other earlier).trans
            ((processedToo.sameBut usableToo).elsewhere other (by simpa using here))

end Itemwise

def outcome? (store : Store) (candidate : Calculation) : Option Outcome :=
  ((process candidate.id).apply store).1.toOption

def failure? (store : Store) (candidate : Calculation) : Option Failure :=
  match ((process candidate.id).apply store).1 with
  | .ok _ => none
  | .error fault => some ⟨candidate.id, candidate.name, fault.message⟩

theorem outcome?_eq_some_iff {store : Store} {candidate : Calculation} {outcome : Outcome} :
    outcome? store candidate = some outcome ↔
      ((process candidate.id).apply store).1 = .ok outcome := by
  unfold outcome?
  cases ((process candidate.id).apply store).1 <;> simp [Except.toOption]

theorem outcome?_eq_none {store : Store} {candidate : Calculation} {fault : Fault}
    (failed : ((process candidate.id).apply store).1 = .error fault) :
    outcome? store candidate = none := by
  rw [outcome?, failed]
  rfl

theorem failure?_eq_some_iff {store : Store} {candidate : Calculation} {failure : Failure} :
    failure? store candidate = some failure ↔
      ∃ fault, ((process candidate.id).apply store).1 = .error fault ∧
        ⟨candidate.id, candidate.name, fault.message⟩ = failure := by
  unfold failure?
  cases ((process candidate.id).apply store).1 <;> simp

theorem failure?_eq_none {store : Store} {candidate : Calculation} {outcome : Outcome}
    (answered : ((process candidate.id).apply store).1 = .ok outcome) :
    failure? store candidate = none := by
  rw [failure?, answered]

def succeeding (store : Store) (candidates : List Calculation) : List Int :=
  (candidates.filter fun candidate => (outcome? store candidate).isSome).map (·.id)

section Passes

variable {store : Store} (usable : ∃ tables, store.database.calculationTables = .ok tables)

include usable

theorem processAll_itemwise (candidates : List Calculation) {middle : Store} {ids : List Int}
    (itemwise : Itemwise ids store middle) (distinct : candidates.Pairwise (·.id ≠ ·.id))
    (fresh : ∀ candidate ∈ candidates, candidate.id ∉ ids) :
    ∃ after, (processAll candidates).apply middle =
        (.ok (candidates.filterMap (outcome? store), candidates.filterMap (failure? store)), after) ∧
      Itemwise (ids ++ succeeding store candidates) store after := by
  -- What is processed is not among the rest, so that these are still as they were in the beginning.
  induction candidates generalizing middle ids with
  | nil =>
      refine ⟨middle, rfl, ?_⟩
      rw [succeeding, List.filter_nil, List.map_nil, List.append_nil]
      exact itemwise
  | cons candidate rest ih =>
      obtain ⟨apart, distinctRest⟩ := List.pairwise_cons.1 distinct
      have freshRest : ∀ other ∈ rest, other.id ∉ ids :=
        fun other inside => fresh other (List.mem_cons_of_mem _ inside)
      unfold processAll
      rw [apply_bind, apply_attempt]
      rcases itemwise.next usable (fresh candidate List.mem_cons_self) with
        ⟨outcome, left, alone, ran, further⟩ | ⟨fault, left, alone, ran, further⟩
      · have succeeds := outcome?_eq_some_iff.2 alone
        have fails := failure?_eq_none alone
        have freshAfter : ∀ other ∈ rest, other.id ∉ ids ++ [candidate.id] := by
          intro other inside
          rw [List.mem_append, List.mem_singleton, not_or]
          exact ⟨freshRest other inside, (apart other inside).symm⟩
        obtain ⟨after, performed, whole⟩ := ih further distinctRest freshAfter
        refine ⟨after, ?_, ?_⟩
        · rw [ran]
          dsimp only
          rw [apply_bind, performed]
          simp [succeeds, fails]
        · simpa [succeeding, succeeds] using whole
      · have succeeds := outcome?_eq_none alone
        have fails := failure?_eq_some_iff.2 ⟨fault, alone, rfl⟩
        have recorded : left.Alike { left with
            events := .passItemFailed candidate.id fault.message :: left.events } := rfl
        obtain ⟨after, performed, whole⟩ := ih (further.alike recorded) distinctRest freshRest
        refine ⟨after, ?_, ?_⟩
        · rw [ran]
          dsimp only
          rw [apply_bind, apply_record]
          dsimp only
          rw [apply_bind, performed]
          simp [succeeds, fails]
        · simpa [succeeding, succeeds] using whole

theorem recalculate_itemwise {variableId : Int} {candidates : List Calculation}
    (dependents : store.database.dependentsOf variableId = .ok candidates)
    (ascending : candidates.Pairwise (·.id < ·.id)) :
    ∃ after, (recalculate variableId).apply store =
        (.ok ⟨variableId, candidates.filterMap (outcome? store),
          candidates.filterMap (failure? store)⟩, after) ∧
      Itemwise (succeeding store candidates) store after := by
  have started : store.Alike { store with
      events := .passStarted variableId candidates.length :: store.events } := rfl
  obtain ⟨after, performed, whole⟩ := processAll_itemwise usable candidates
    ((Itemwise.refl store).alike started) (ascending.imp (fun below => by omega)) (by simp)
  have finished : after.Alike { after with
      events := .passFinished variableId (candidates.filterMap (outcome? store)).length
        (candidates.filterMap (failure? store)).length :: after.events } := rfl
  refine ⟨_, ?_, whole.alike finished⟩
  unfold recalculate
  rw [apply_bind, apply_query, dependents]
  dsimp only [mapError_ok]
  rw [apply_bind, apply_record]
  dsimp only
  rw [apply_bind, performed]
  rfl

end Passes

theorem mem_succeeding {store : Store} {candidates : List Calculation} {id : Int} :
    id ∈ succeeding store candidates ↔
      ∃ candidate ∈ candidates, candidate.id = id ∧
        ∃ outcome, ((process id).apply store).1 = .ok outcome := by
  unfold succeeding
  rw [List.mem_map]
  constructor
  · rintro ⟨candidate, inside, rfl⟩
    obtain ⟨member, succeeds⟩ := List.mem_filter.1 inside
    obtain ⟨outcome, answered⟩ := Option.isSome_iff_exists.1 succeeds
    exact ⟨candidate, member, rfl, outcome, outcome?_eq_some_iff.1 answered⟩
  · rintro ⟨candidate, member, rfl, outcome, answered⟩
    refine ⟨candidate, List.mem_filter.2 ⟨member, ?_⟩, rfl⟩
    rw [outcome?_eq_some_iff.2 answered]
    rfl

theorem id_of_process {store : Store} {id : Int} {outcome : Outcome}
    (answered : ((process id).apply store).1 = .ok outcome) : outcome.id = some id := by
  obtain ⟨_, calculation, _, _, _, _, found, _, _, _, _, rfl, _⟩ :=
    process_eq_ok (Prod.ext answered rfl)
  obtain ⟨_, _, _, present⟩ := Database.findCalculation_eq_ok_iff.1 found
  exact congrArg some (Table.find?_eq_some_iff.1 present.symm).2

theorem ids_of_updated (store : Store) (candidates : List Calculation) :
    (candidates.filterMap (outcome? store)).map (·.id) = (succeeding store candidates).map some := by
  induction candidates with
  | nil => rfl
  | cons candidate rest ih =>
      unfold succeeding at ih ⊢
      cases answered : outcome? store candidate with
      | some outcome => simp [answered, ih, id_of_process (outcome?_eq_some_iff.1 answered)]
      | none => simp [answered, ih]

theorem ids_of_failed (store : Store) (candidates : List Calculation) :
    (candidates.filterMap (failure? store)).map (·.calculation) =
      (candidates.filter fun candidate => !(outcome? store candidate).isSome).map (·.id) := by
  induction candidates with
  | nil => rfl
  | cons candidate rest ih =>
      cases answered : ((process candidate.id).apply store).1 with
      | ok outcome => simp [outcome?_eq_some_iff.2 answered, failure?_eq_none answered, ih]
      | error fault =>
          simp [outcome?_eq_none answered, failure?_eq_some_iff.2 ⟨fault, answered, rfl⟩, ih]

theorem Itemwise.repeated {store after : Store} {variableId : Int} {candidates : List Calculation}
    (usable : ∃ tables, store.database.calculationTables = .ok tables)
    (dependents : store.database.dependentsOf variableId = .ok candidates)
    (itemwise : Itemwise (succeeding store candidates) store after) :
    ∃ report again, (recalculate variableId).apply after = (.ok report, again) ∧
      after.Alike again := by
  obtain ⟨⟨kept, index⟩, usableAfter⟩ := itemwise.tables usable
  obtain ⟨⟨calculations, dependencies⟩, present⟩ := usable
  obtain ⟨found, foundDependents, ascending, listed⟩ :=
    Database.dependentsOf_listed present variableId
  rw [dependents] at foundDependents
  cases foundDependents
  obtain ⟨later, laterDependents, laterAscending, laterListed⟩ :=
    Database.dependentsOf_listed usableAfter variableId
  obtain ⟨again, performed, second⟩ :=
    recalculate_itemwise ⟨_, usableAfter⟩ laterDependents laterAscending
  -- The second pass goes by the renewed dependencies, and nothing that it processes changes.
  have unmoved (id : Int) (renewed : id ∈ succeeding after later) :
      SameAt id after.database ((process id).apply after).2.database := by
    obtain ⟨candidate, inside, rfl, outcome, answered⟩ := mem_succeeding.1 renewed
    obtain ⟨answer, database, processed⟩ :=
      exists_processed store calculations dependencies candidate.id
    obtain ⟨alone, ran, alike⟩ := (processed.leaves present).apply_eq
    by_cases early : candidate.id ∈ succeeding store candidates
    · obtain ⟨_, _, _, first, succeeded⟩ := mem_succeeding.1 early
      rw [ran] at succeeded
      cases succeeded
      have same := itemwise.each _ early
      rw [ran, alike.database] at same
      obtain ⟨left, processedToo, sameAfter⟩ := processed.again present usableAfter
        itemwise.steady.obstacle itemwise.others.variableTable same
      obtain ⟨_, ranToo, alikeToo⟩ := (processedToo.leaves usableAfter).apply_eq
      rw [ranToo, alikeToo.database]
      exact sameAfter
    · -- It failed in the first pass, and does so again.
      have same := itemwise.others.elsewhere _ early
      obtain ⟨left, processedToo, _⟩ := processed.elsewhere present usableAfter
        itemwise.steady.obstacle itemwise.others.variableTable same
      obtain ⟨_, ranToo, _⟩ := (processedToo.leaves usableAfter).apply_eq
      rw [ranToo] at answered
      cases answered
      obtain ⟨row, edges⟩ := (Database.sameAt_iff present usableAfter).1 same
      obtain ⟨member, depends⟩ := (laterListed candidate).1 inside
      have kept := Table.find?_eq_some_iff.2 ⟨member, rfl⟩
      rw [id_calculation, row] at kept
      have candidateToo : candidate ∈ candidates :=
        (listed candidate).2 ⟨(Table.find?_eq_some_iff.1 kept).1, (edges variableId).1 depends⟩
      exact absurd (mem_succeeding.2 ⟨candidate, candidateToo, rfl, outcome, by rw [ran]⟩) early
  have everywhere (id : Int) : SameAt id after.database again.database := by
    by_cases renewed : id ∈ succeeding after later
    · exact (unmoved id renewed).trans (second.each id renewed)
    · exact second.others.elsewhere id renewed
  refine ⟨_, again, performed, .of_fields ?_ second.steady.obstacle second.steady.saved⟩
  exact second.others.eq_of_sameAt usableAfter everywhere

/-- A pass over a usable store succeeds, and comes to the same as processing each calculation alone:
those that have a value are updated, all others are reported with the message of their failure, both
in ascending order. What is stored differs only in the values and the dependencies of the updated
ones, and these are as processing them alone leaves them; another pass changes nothing. -/
theorem pass_itemwise {store : Store} (intact : (ready.apply store).1 = .ok ()) (variableId : Int) :
    ∃ candidates report after ids,
      store.database.dependentsOf variableId = .ok candidates ∧
      (recalculate variableId).apply store = (.ok report, after) ∧
      report.updated.map (·.id) = ids.map some ∧ ids.Pairwise (· < ·) ∧
      (report.failed.map (·.calculation)).Pairwise (· < ·) ∧
      (candidates.map (·.id)).Nodup ∧
      (ids ++ report.failed.map (·.calculation)).Perm (candidates.map (·.id)) ∧
      (∀ candidate ∈ candidates, ∀ outcome,
        (outcome ∈ report.updated ∧ outcome.id = some candidate.id) ↔
          ((process candidate.id).apply store).1 = .ok outcome) ∧
      (∀ candidate ∈ candidates, ∀ message,
        (∃ failure ∈ report.failed,
          failure.calculation = candidate.id ∧ failure.message = message) ↔
          ∃ fault, ((process candidate.id).apply store).1 = .error fault ∧
            fault.message = message) ∧
      Itemwise ids store after ∧
      ∃ second again, (recalculate variableId).apply after = (.ok second, again) ∧
        after.Alike again := by
  obtain ⟨calculations, dependencies, present⟩ := usable_of_ready intact
  obtain ⟨candidates, dependents, ascending, _⟩ := Database.dependentsOf_listed present variableId
  obtain ⟨after, performed, itemwise⟩ := recalculate_itemwise ⟨_, present⟩ dependents ascending
  refine ⟨candidates, _, after, succeeding store candidates, dependents, performed,
    ids_of_updated store candidates, ?_, ?_, ?_, ?_, ?_, ?_, itemwise,
    itemwise.repeated ⟨_, present⟩ dependents⟩
  · exact List.pairwise_map.2 (ascending.filter _)
  · rw [ids_of_failed]
    exact List.pairwise_map.2 (ascending.filter _)
  · exact List.pairwise_map.2 (ascending.imp fun below => by omega)
  · rw [ids_of_failed, succeeding, ← List.map_append]
    exact (List.filter_append_perm _ _).map _
  · intro candidate member outcome
    rw [List.mem_filterMap]
    constructor
    · rintro ⟨⟨other, _, answered⟩, target⟩
      rw [outcome?_eq_some_iff] at answered
      have same : other.id = candidate.id :=
        Option.some.inj ((id_of_process answered).symm.trans target)
      rwa [same] at answered
    · intro answered
      exact ⟨⟨candidate, member, outcome?_eq_some_iff.2 answered⟩, id_of_process answered⟩
  · intro candidate member message
    constructor
    · rintro ⟨failure, inside, same, told⟩
      obtain ⟨other, _, failed⟩ := List.mem_filterMap.1 inside
      obtain ⟨fault, answered, rfl⟩ := failure?_eq_some_iff.1 failed
      dsimp only at same told
      rw [same] at answered
      exact ⟨fault, answered, told⟩
    · rintro ⟨fault, answered, rfl⟩
      exact ⟨_, List.mem_filterMap.2
        ⟨candidate, member, failure?_eq_some_iff.2 ⟨fault, answered, rfl⟩⟩, rfl, rfl⟩

def uneven : Store :=
  .ofDatabase
    { doubling.database with
      calculations := some (((Table.empty TableName.calculations.columns).put
        ⟨1, "double", "\x7b\"id\":1\x7d * 2", none⟩).put
        ⟨2, "ratio", "1 / (\x7b\"id\":1\x7d - 2)", some 7⟩)
      dependencies := some (((DependencyTable.empty TableName.dependencies.columns).put ⟨1, 1⟩).put
        ⟨2, 1⟩) } none

theorem pass_itemwise_uneven :
    (ready.apply uneven).1 = .ok () ∧
    ∃ report after, (recalculate 1).apply uneven = (.ok report, after) ∧
      report.updated.map (·.id) = [some 1] ∧ report.failed.map (·.calculation) = [2] ∧
      Itemwise [1] uneven after := by
  have intact : (ready.apply uneven).1 = .ok () := rfl
  have computed : ((recalculate 1).apply uneven).1.toOption.map (fun report =>
      (report.updated.map (·.id), report.failed.map (·.calculation))) = some ([some 1], [2]) := by
    decide +kernel
  obtain ⟨_, report, after, ids, _, performed, updated, _, _, _, _, _, _, itemwise, _⟩ :=
    pass_itemwise intact 1
  rw [performed] at computed
  obtain ⟨passed, failed⟩ := Prod.mk.inj (Option.some.inj computed)
  have one : ids = [1] := List.map_injective_iff.2 (Option.some_injective Int)
    (updated.symm.trans passed)
  rw [one] at itemwise
  exact ⟨intact, report, after, performed, passed, failed, itemwise⟩

end Formulary.Recalculation
