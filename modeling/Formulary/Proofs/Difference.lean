import Formulary.Proofs.Schema

/-!
Where two databases differ: what is stored of a calculation is its row and its dependencies, and
databases that have the same tables otherwise are the same if they have that of every calculation.
-/

namespace Formulary.Database

variable {before middle after : Database} {id : Int}

theorem dependenciesOf_eq_ok_iff {calculations : Table Calculation} {dependencies : DependencyTable}
    (usable : before.calculationTables = .ok (calculations, dependencies)) {found : List Int} :
    before.dependenciesOf id = .ok found ↔
      found.Pairwise (· < ·) ∧
        ∀ variableId, variableId ∈ found ↔ ⟨id, variableId⟩ ∈ dependencies.rows := by
  have listed : before.dependenciesOf id =
      .ok ((dependencies.rows.filter (·.calculation = id)).map (·.variableId)) :=
    except_bind_eq_ok.2 ⟨_, usable, rfl⟩
  have ascending :
      ((dependencies.rows.filter (·.calculation = id)).map (·.variableId)).Pairwise (· < ·) := by
    refine List.pairwise_map.2 ((dependencies.sorted.filter _).imp_of_mem ?_)
    intro row other inside later before
    have same := of_decide_eq_true (List.mem_filter.1 inside).2
    have sameToo := of_decide_eq_true (List.mem_filter.1 later).2
    unfold Dependency.Before at before
    omega
  have exact (variableId : Int) :
      variableId ∈ (dependencies.rows.filter (·.calculation = id)).map (·.variableId) ↔
        ⟨id, variableId⟩ ∈ dependencies.rows := by
    rw [List.mem_map]
    constructor
    · rintro ⟨row, inside, rfl⟩
      obtain ⟨member, same⟩ := List.mem_filter.1 inside
      rw [← of_decide_eq_true same]
      exact member
    · intro member
      exact ⟨_, List.mem_filter.2 ⟨member, decide_eq_true rfl⟩, rfl⟩
  rw [listed, Except.ok.injEq]
  constructor
  · rintro rfl
    exact ⟨ascending, exact⟩
  · rintro ⟨ascendingToo, exactToo⟩
    refine List.Pairwise.eq_of_mem_iff ascending ascendingToo ?_
    intro variableId
    rw [exact, exactToo]

structure SameAt (id : Int) (before after : Database) : Prop where
  row : after.findCalculation id = before.findCalculation id
  dependencies : after.dependenciesOf id = before.dependenciesOf id

namespace SameAt

theorem refl (id : Int) (database : Database) : SameAt id database database :=
  ⟨rfl, rfl⟩

theorem trans (left : SameAt id before middle) (right : SameAt id middle after) :
    SameAt id before after :=
  ⟨right.row.trans left.row, right.dependencies.trans left.dependencies⟩

end SameAt

section Tables

variable {calculations kept : Table Calculation} {dependencies index : DependencyTable}

theorem sameAt_iff (usable : before.calculationTables = .ok (calculations, dependencies))
    (usableAfter : after.calculationTables = .ok (kept, index)) :
    SameAt id before after ↔ kept.find? id = calculations.find? id ∧
      ∀ variableId, ⟨id, variableId⟩ ∈ index.rows ↔ ⟨id, variableId⟩ ∈ dependencies.rows := by
  have found := findCalculation_eq_ok_iff.2 ⟨_, _, usable, rfl (a := calculations.find? id)⟩
  have foundAfter := findCalculation_eq_ok_iff.2 ⟨_, _, usableAfter, rfl (a := kept.find? id)⟩
  obtain ⟨ids, listed⟩ : ∃ ids, before.dependenciesOf id = .ok ids :=
    ⟨_, except_bind_eq_ok.2 ⟨_, usable, rfl⟩⟩
  obtain ⟨ascending, exact⟩ := (dependenciesOf_eq_ok_iff usable).1 listed
  constructor
  · rintro ⟨row, same⟩
    rw [found, foundAfter] at row
    rw [listed] at same
    obtain ⟨_, exactAfter⟩ := (dependenciesOf_eq_ok_iff usableAfter).1 same
    refine ⟨Except.ok.inj row, ?_⟩
    intro variableId
    rw [← exact, ← exactAfter]
  · rintro ⟨row, same⟩
    refine ⟨by rw [found, foundAfter, row], ?_⟩
    rw [listed, dependenciesOf_eq_ok_iff usableAfter]
    refine ⟨ascending, ?_⟩
    intro variableId
    rw [exact, same]

theorem SameAt.usable (same : SameAt id before after)
    (usable : before.calculationTables = .ok (calculations, dependencies)) :
    ∃ kept index, after.calculationTables = .ok (kept, index) := by
  have found : before.findCalculation id = .ok (calculations.find? id) :=
    findCalculation_eq_ok_iff.2 ⟨_, _, usable, rfl⟩
  obtain ⟨kept, index, usableAfter, _⟩ := findCalculation_eq_ok_iff.1 (same.row.trans found)
  exact ⟨kept, index, usableAfter⟩

end Tables

structure SameBut (ids : List Int) (before after : Database) : Prop where
  version : after.version = before.version
  vars : after.vars = before.vars
  resources : after.resources = before.resources
  form : after.calculations.map (fun table => (table.columns, table.lastId)) =
    before.calculations.map fun table => (table.columns, table.lastId)
  indexForm : after.dependencies.map (·.columns) = before.dependencies.map (·.columns)
  rows : ∀ id, ∃ value, after.findCalculation id =
    (before.findCalculation id).map (Option.map fun row => { row with value })
  elsewhere : ∀ id, id ∉ ids → SameAt id before after

namespace SameBut

variable {ids more : List Int}

theorem refl (database : Database) : SameBut [] database database := by
  refine ⟨rfl, rfl, rfl, rfl, rfl, ?_, fun id _ => .refl id database⟩
  intro id
  rcases database.findCalculation id with fault | _ | row
  · exact ⟨none, rfl⟩
  · exact ⟨none, rfl⟩
  · exact ⟨row.value, rfl⟩

theorem trans (first : SameBut ids before middle) (second : SameBut more middle after) :
    SameBut (ids ++ more) before after := by
  refine ⟨second.version.trans first.version, second.vars.trans first.vars,
    second.resources.trans first.resources, second.form.trans first.form,
    second.indexForm.trans first.indexForm, ?_, ?_⟩
  · intro id
    obtain ⟨_, early⟩ := first.rows id
    obtain ⟨value, late⟩ := second.rows id
    refine ⟨value, ?_⟩
    rw [late, early]
    rcases before.findCalculation id with fault | _ | row <;> rfl
  · intro id outside
    rw [List.mem_append, not_or] at outside
    exact (first.elsewhere id outside.1).trans (second.elsewhere id outside.2)

theorem variableTable (same : SameBut ids before after) :
    after.variableTable = before.variableTable := by
  unfold Database.variableTable usable requireVersion recordedVersion
  rw [same.version, same.vars]

theorem eq_of_sameAt {calculations : Table Calculation} {dependencies : DependencyTable}
    (same : SameBut ids before after)
    (usable : before.calculationTables = .ok (calculations, dependencies))
    (everywhere : ∀ id, SameAt id before after) : after = before := by
  obtain ⟨kept, index, usableAfter⟩ := (everywhere 0).usable usable
  obtain ⟨_, listed, _, indexed, _⟩ := calculationTables_eq_ok_iff.1 usable
  obtain ⟨_, listedAfter, _, indexedAfter, _⟩ := calculationTables_eq_ok_iff.1 usableAfter
  have form := same.form
  have indexForm := same.indexForm
  rw [listed, listedAfter, Option.map_some, Option.map_some, Option.some.injEq,
    Prod.mk.injEq] at form
  rw [indexed, indexedAfter, Option.map_some, Option.map_some, Option.some.injEq] at indexForm
  have rows : kept = calculations :=
    Table.eq_of_find? form.1 form.2 fun id => ((sameAt_iff usable usableAfter).1 (everywhere id)).1
  have edges : index = dependencies :=
    DependencyTable.eq_of_rows indexForm fun row =>
      ((sameAt_iff usable usableAfter).1 (everywhere row.calculation)).2 row.variableId
  have version := same.version
  have vars := same.vars
  have resources := same.resources
  rw [rows, ← listed] at listedAfter
  rw [edges, ← indexed] at indexedAfter
  cases before
  cases after
  cases version
  cases vars
  cases resources
  cases listedAfter
  cases indexedAfter
  rfl

end SameBut

theorem find?_withCalculatedValue (table : Table Calculation) (id : Int) (stored : Option Float) :
    (withCalculatedValue table id stored).find? id =
      (table.find? id).map fun row => { row with value := stored } :=
  Table.find?_modify_self

section Stored

variable {calculations : Table Calculation} {dependencies : DependencyTable}
  (usable : before.calculationTables = .ok (calculations, dependencies)) (id : Int)
  (stored : Option Float) (references : List Int)

include usable

theorem calculationTables_stored :
    (before.withCalculations (withCalculatedValue calculations id stored)
      (dependencies.assign id references)).calculationTables =
        .ok (withCalculatedValue calculations id stored, dependencies.assign id references) :=
  calculationTables_withCalculations usable rfl
    (DependencyTable.columns_assign dependencies id references)

theorem sameBut_stored :
    SameBut [id] before (before.withCalculations (withCalculatedValue calculations id stored)
      (dependencies.assign id references)) := by
  have usableAfter := calculationTables_stored usable id stored references
  obtain ⟨_, listed, _, indexed, _⟩ := calculationTables_eq_ok_iff.1 usable
  have elsewhere {other : Int} (different : other ≠ id) : SameAt other before
      (before.withCalculations (withCalculatedValue calculations id stored)
        (dependencies.assign id references)) := by
    rw [sameAt_iff usable usableAfter]
    refine ⟨Table.find?_modify_of_ne different, ?_⟩
    intro variableId
    rw [DependencyTable.mem_assign]
    simp [different]
  refine ⟨rfl, rfl, rfl, ?_, ?_, ?_, fun other outside => elsewhere (by simpa using outside)⟩
  · rw [listed]
    rfl
  · rw [indexed]
    exact congrArg some (DependencyTable.columns_assign dependencies id references)
  · intro other
    by_cases same : other = id
    · subst same
      refine ⟨stored, ?_⟩
      have found : before.findCalculation other = .ok (calculations.find? other) :=
        findCalculation_eq_ok_iff.2 ⟨_, _, usable, rfl⟩
      rw [found, findCalculation_eq_ok_iff.2 ⟨_, _, usableAfter, rfl⟩]
      exact congrArg Except.ok (find?_withCalculatedValue calculations other stored)
    · rw [(elsewhere same).row]
      exact (SameBut.refl before).rows other

end Stored

end Formulary.Database
