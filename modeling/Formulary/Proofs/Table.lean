import Formulary.Store.Database
import Mathlib.Data.List.Sort

/-!
Tables by the rows they have: what is found in a table, and which rows there are after a change.
-/

namespace Formulary

@[simp] theorem id_calculation (row : Calculation) : Row.id row = row.id := rfl

@[simp] theorem id_resource (row : Resource) : Row.id row = row.id := rfl

namespace Table

variable {ρ : Type} [Row ρ] {table : Table ρ}

theorem eq_of_sorted {rows : List ρ} (sorted : rows.Pairwise (Row.id · < Row.id ·))
    {row other : ρ} (member : row ∈ rows) (otherMember : other ∈ rows)
    (same : Row.id row = Row.id other) : row = other := by
  induction rows with
  | nil => simp at member
  | cons first rest ih =>
      obtain ⟨below, sortedRest⟩ := List.pairwise_cons.1 sorted
      rcases List.mem_cons.1 member with rfl | inside
      · rcases List.mem_cons.1 otherMember with rfl | otherInside
        · rfl
        · have := below other otherInside
          omega
      · rcases List.mem_cons.1 otherMember with rfl | otherInside
        · have := below row inside
          omega
        · exact ih sortedRest inside otherInside

theorem eq_of_id_eq {row other : ρ} (member : row ∈ table.rows) (otherMember : other ∈ table.rows)
    (same : Row.id row = Row.id other) : row = other :=
  eq_of_sorted table.sorted member otherMember same

theorem find?_eq_some_iff {id : Int} {row : ρ} :
    table.find? id = some row ↔ row ∈ table.rows ∧ Row.id row = id := by
  unfold find?
  constructor
  · intro found
    exact ⟨List.mem_of_find?_eq_some found, by simpa using List.find?_some found⟩
  · rintro ⟨member, same⟩
    cases found : table.rows.find? (Row.id · = id) with
    | none =>
        have absent := List.find?_eq_none.1 found row member
        simp [same] at absent
    | some other =>
        have otherSame : Row.id other = id := by simpa using List.find?_some found
        rw [eq_of_id_eq (List.mem_of_find?_eq_some found) member (by rw [otherSame, same])]

theorem contains_iff {id : Int} :
    table.contains id = true ↔ ∃ row ∈ table.rows, Row.id row = id := by
  simp [contains]

theorem contains_of_mem {row : ρ} (member : row ∈ table.rows) :
    table.contains (Row.id row) = true :=
  contains_iff.2 ⟨row, member, rfl⟩

theorem exists_find? {id : Int} (held : table.contains id = true) :
    ∃ row, table.find? id = some row := by
  obtain ⟨row, member, same⟩ := contains_iff.1 held
  exact ⟨row, find?_eq_some_iff.2 ⟨member, same⟩⟩

theorem find?_eq_none_of_not_contains {id : Int} (missing : table.contains id = false) :
    table.find? id = none := by
  cases found : table.find? id with
  | none => rfl
  | some row =>
      obtain ⟨member, rfl⟩ := find?_eq_some_iff.1 found
      rw [contains_of_mem member] at missing
      cases missing

theorem lt_of_nextId? {id : Int} (next : table.nextId? = some id) {row : ρ}
    (member : row ∈ table.rows) : Row.id row < id := by
  unfold nextId? at next
  have below := table.bounded row member
  split at next
  · simp only [Option.some.injEq] at next
    omega
  · simp at next

theorem not_contains_nextId? {id : Int} (next : table.nextId? = some id) :
    table.contains id = false := by
  cases held : table.contains id with
  | false => rfl
  | true =>
      obtain ⟨row, member, same⟩ := contains_iff.1 held
      have := lt_of_nextId? next member
      omega

theorem lastId_put_next {row : ρ} {id : Int} (next : table.nextId? = some id)
    (same : Row.id row = id) : (table.put row).lastId = table.lastId + 1 := by
  unfold nextId? at next
  split at next
  · cases next
    simp only [put, same]
    omega
  · cases next

theorem nextId?_of_lt (room : table.lastId < greatestId.toNat) :
    table.nextId? = some (table.lastId + 1) :=
  if_pos room

theorem mem_insertRow_fresh {row other : ρ} {rows : List ρ}
    (fresh : ∀ present ∈ rows, Row.id present ≠ Row.id row) :
    other ∈ insertRow row rows ↔ other = row ∨ other ∈ rows := by
  induction rows with
  | nil => simp [insertRow]
  | cons first rest ih =>
      have different := fresh first List.mem_cons_self
      have rest := ih fun present member => fresh present (List.mem_cons_of_mem _ member)
      simp only [insertRow, different.symm, if_false]
      split
      · simp
      · simp only [List.mem_cons, rest]
        exact or_left_comm

theorem mem_put_fresh {row other : ρ} (fresh : table.contains (Row.id row) = false) :
    other ∈ (table.put row).rows ↔ other = row ∨ other ∈ table.rows := by
  apply mem_insertRow_fresh
  intro present member same
  have held := contains_of_mem member
  rw [same, fresh] at held
  exact Bool.false_ne_true held

theorem any_insertRow (row : ρ) (rows : List ρ) (id : Int) :
    (insertRow row rows).any (Row.id · = id) =
      (decide (Row.id row = id) || rows.any (Row.id · = id)) := by
  induction rows with
  | nil => simp [insertRow]
  | cons first rest ih =>
      simp only [insertRow]
      split
      · simp
      · split
        · rename_i same
          simp [same]
        · simp only [List.any_cons, ih]
          exact Bool.or_left_comm _ _ _

@[simp] theorem contains_put (table : Table ρ) (row : ρ) (id : Int) :
    (table.put row).contains id = (decide (Row.id row = id) || table.contains id) :=
  any_insertRow row table.rows id

theorem contains_foldl_put {id : Int} (held : table.contains id = true) (rows : List ρ) :
    (rows.foldl Table.put table).contains id = true := by
  induction rows generalizing table with
  | nil => exact held
  | cons row rest ih =>
      apply ih
      rw [contains_put, held, Bool.or_true]

theorem mem_modify {id : Int} {change : ρ → ρ} {keepsId : ∀ row, Row.id (change row) = Row.id row}
    {row : ρ} :
    row ∈ (table.modify id change keepsId).rows ↔
      ∃ old ∈ table.rows, row = if Row.id old = id then change old else old := by
  simp [modify, eq_comm]

theorem contains_modify {id : Int} {change : ρ → ρ}
    {keepsId : ∀ row, Row.id (change row) = Row.id row} {other : Int} :
    (table.modify id change keepsId).contains other = table.contains other := by
  rw [Bool.eq_iff_iff, contains_iff, contains_iff]
  constructor
  · rintro ⟨row, member, same⟩
    obtain ⟨old, inside, rfl⟩ := mem_modify.1 member
    refine ⟨old, inside, ?_⟩
    rw [← same]
    split
    · exact (keepsId old).symm
    · rfl
  · rintro ⟨old, inside, same⟩
    refine ⟨_, mem_modify.2 ⟨old, inside, rfl⟩, ?_⟩
    rw [← same]
    split
    · exact keepsId old
    · rfl

theorem find?_modify_of_ne {id other : Int} {change : ρ → ρ}
    {keepsId : ∀ row, Row.id (change row) = Row.id row} (different : other ≠ id) :
    (table.modify id change keepsId).find? other = table.find? other := by
  apply Option.ext
  intro row
  rw [find?_eq_some_iff, find?_eq_some_iff, mem_modify]
  constructor
  · rintro ⟨⟨old, inside, rfl⟩, same⟩
    by_cases target : Row.id old = id
    · rw [if_pos target, keepsId] at same
      exact absurd (same.symm.trans target) different
    · rw [if_neg target] at same ⊢
      exact ⟨inside, same⟩
  · rintro ⟨inside, same⟩
    refine ⟨⟨row, inside, ?_⟩, same⟩
    rw [same, if_neg different]

theorem find?_modify_self {id : Int} {change : ρ → ρ}
    {keepsId : ∀ row, Row.id (change row) = Row.id row} :
    (table.modify id change keepsId).find? id = (table.find? id).map change := by
  apply Option.ext
  intro row
  rw [find?_eq_some_iff, mem_modify, Option.map_eq_some_iff]
  constructor
  · rintro ⟨⟨old, inside, rfl⟩, same⟩
    by_cases target : Row.id old = id
    · rw [if_pos target]
      exact ⟨old, find?_eq_some_iff.2 ⟨inside, target⟩, rfl⟩
    · rw [if_neg target] at same
      exact absurd same target
  · rintro ⟨old, found, rfl⟩
    obtain ⟨inside, target⟩ := find?_eq_some_iff.1 found
    exact ⟨⟨old, inside, (if_pos target).symm⟩, (keepsId old).trans target⟩

/-- Whether tables have the same rows but for the given one, which the second table has under its id. -/
structure Replaced (row : ρ) (before after : Table ρ) : Prop where
  columns : after.columns = before.columns
  lastId : after.lastId = before.lastId
  written : after.find? (Row.id row) = some row
  elsewhere : ∀ id, id ≠ Row.id row → after.find? id = before.find? id

theorem replaced_modify {id : Int} {change : ρ → ρ}
    {keepsId : ∀ row, Row.id (change row) = Row.id row} {row : ρ} (found : table.find? id = some row) :
    Replaced (change row) table (table.modify id change keepsId) := by
  obtain ⟨_, rfl⟩ := find?_eq_some_iff.1 found
  refine ⟨rfl, rfl, ?_, fun other different => ?_⟩
  · rw [keepsId, find?_modify_self, found]
    rfl
  · rw [keepsId] at different
    exact find?_modify_of_ne different

/-- Tables are told apart by their forms and by what is found in them. -/
theorem eq_of_find? {table other : Table ρ} (columns : table.columns = other.columns)
    (lastId : table.lastId = other.lastId) (same : ∀ id, table.find? id = other.find? id) :
    table = other := by
  have : Std.Irrefl fun row other : ρ => Row.id row < Row.id other := ⟨fun _ => Int.lt_irrefl _⟩
  have : Std.Antisymm fun row other : ρ => Row.id row < Row.id other :=
    ⟨fun _ _ below above => absurd above (Int.lt_asymm below)⟩
  have rows : table.rows = other.rows := by
    refine List.Pairwise.eq_of_mem_iff table.sorted other.sorted ?_
    intro row
    have found := same (Row.id row)
    constructor
    · intro member
      rw [find?_eq_some_iff.2 ⟨member, rfl⟩] at found
      exact (find?_eq_some_iff.1 found.symm).1
    · intro member
      rw [find?_eq_some_iff.2 ⟨member, rfl⟩] at found
      exact (find?_eq_some_iff.1 found).1
  cases table
  cases other
  cases columns
  cases lastId
  cases rows
  rfl

section

variable {property : ρ → Prop}

theorem forall_put {row : ρ} (all : ∀ other ∈ table.rows, property other) (new : property row) :
    ∀ other ∈ (table.put row).rows, property other := by
  intro other member
  rcases mem_insertRow member with rfl | inside
  · exact new
  · exact all other inside

theorem forall_foldl_put {rows : List ρ} (all : ∀ other ∈ table.rows, property other)
    (new : ∀ row ∈ rows, property row) :
    ∀ other ∈ (rows.foldl Table.put table).rows, property other := by
  induction rows generalizing table with
  | nil => exact all
  | cons row rest ih =>
      refine ih (forall_put all (new row List.mem_cons_self)) fun other later => ?_
      exact new other (List.mem_cons_of_mem _ later)

theorem forall_modify {id : Int} {change : ρ → ρ} {keepsId : ∀ row, Row.id (change row) = Row.id row}
    (all : ∀ other ∈ table.rows, property other) (changed : ∀ row, property row → property (change row)) :
    ∀ other ∈ (table.modify id change keepsId).rows, property other := by
  intro other member
  obtain ⟨old, inside, rfl⟩ := mem_modify.1 member
  split
  · exact changed old (all old inside)
  · exact all old inside

end

@[simp] theorem columns_put (table : Table ρ) (row : ρ) :
    (table.put row).columns = table.columns := rfl

@[simp] theorem columns_modify (table : Table ρ) (id : Int) (change : ρ → ρ)
    (keepsId : ∀ row, Row.id (change row) = Row.id row) :
    (table.modify id change keepsId).columns = table.columns := rfl

@[simp] theorem columns_reset (table : Table ρ) : table.reset.columns = table.columns := rfl

@[simp] theorem columns_foldl_put (rows : List ρ) (table : Table ρ) :
    (rows.foldl Table.put table).columns = table.columns := by
  induction rows generalizing table with
  | nil => rfl
  | cons row rest ih => rw [List.foldl_cons, ih, columns_put]

end Table

namespace DependencyTable

variable {table : DependencyTable} {row : Dependency}

theorem mem_put {added : Dependency} :
    row ∈ (table.put added).rows ↔ row = added ∨ row ∈ table.rows :=
  mem_insertRow

theorem mem_foldl_put {calculation : Int} {vars : List Int} :
    row ∈ (vars.foldl (fun table variableId => table.put ⟨calculation, variableId⟩) table).rows ↔
      (row.calculation = calculation ∧ row.variableId ∈ vars) ∨ row ∈ table.rows := by
  induction vars generalizing table with
  | nil => simp
  | cons variableId rest ih =>
      rw [List.foldl_cons, ih, mem_put, List.mem_cons]
      constructor
      · rintro (⟨same, inside⟩ | rfl | inside)
        · exact .inl ⟨same, .inr inside⟩
        · exact .inl ⟨rfl, .inl rfl⟩
        · exact .inr inside
      · rintro (⟨rfl, rfl | inside⟩ | inside)
        · exact .inr (.inl rfl)
        · exact .inl ⟨rfl, inside⟩
        · exact .inr (.inr inside)

theorem mem_remove {drop : Dependency → Bool} :
    row ∈ (table.remove drop).rows ↔ row ∈ table.rows ∧ drop row = false := by
  simp [remove]

theorem mem_assign {calculation : Int} {vars : List Int} :
    row ∈ (table.assign calculation vars).rows ↔
      (row.calculation = calculation ∧ row.variableId ∈ vars) ∨
        (row.calculation ≠ calculation ∧ row ∈ table.rows) := by
  unfold assign
  rw [mem_foldl_put, mem_remove]
  simp [and_comm]

/-- Whether tables have the same rows but for those of a calculation, for which the second table has
the given variables. -/
structure Assigned (calculation : Int) (vars : List Int) (before after : DependencyTable) : Prop where
  columns : after.columns = before.columns
  rows : ∀ row, row ∈ after.rows ↔
    (row.calculation = calculation ∧ row.variableId ∈ vars) ∨
      (row.calculation ≠ calculation ∧ row ∈ before.rows)

theorem eq_of_rows {table other : DependencyTable} (columns : table.columns = other.columns)
    (same : ∀ row, row ∈ table.rows ↔ row ∈ other.rows) : table = other := by
  have : Std.Irrefl Dependency.Before := ⟨fun _ before => by unfold Dependency.Before at before; omega⟩
  have : Std.Antisymm Dependency.Before :=
    ⟨fun _ _ before after => by unfold Dependency.Before at before after; omega⟩
  have rows := List.Pairwise.eq_of_mem_iff table.sorted other.sorted same
  cases table
  cases other
  cases columns
  cases rows
  rfl

@[simp] theorem columns_foldl_put (calculation : Int) (vars : List Int) (table : DependencyTable) :
    (vars.foldl (fun table variableId => table.put ⟨calculation, variableId⟩) table).columns =
      table.columns := by
  induction vars generalizing table with
  | nil => rfl
  | cons variableId rest ih =>
      rw [List.foldl_cons, ih]
      rfl

@[simp] theorem columns_assign (table : DependencyTable) (calculation : Int) (vars : List Int) :
    (table.assign calculation vars).columns = table.columns := by
  unfold assign
  rw [columns_foldl_put]
  rfl

theorem assigned_assign (calculation : Int) (vars : List Int) (table : DependencyTable) :
    Assigned calculation vars table (table.assign calculation vars) :=
  ⟨columns_assign table calculation vars, fun _ => mem_assign⟩

@[simp] theorem columns_remove (table : DependencyTable) (drop : Dependency → Bool) :
    (table.remove drop).columns = table.columns := rfl

end DependencyTable

namespace Database

variable {id : Int}

theorem replaced_withValue {table : Table StoredVariable} {row : StoredVariable}
    (found : table.find? id = some row) (value : Option Float) :
    Table.Replaced (⟨id, row.name, value⟩ : StoredVariable) table (withValue table id value) := by
  obtain ⟨_, rfl⟩ := Table.find?_eq_some_iff.1 found
  exact @Table.replaced_modify _ _ table row.id (fun row => { row with value }) _ row found

theorem replaced_withCalculatedValue {table : Table Calculation} {row : Calculation}
    (found : table.find? id = some row) (value : Option Float) :
    Table.Replaced (⟨id, row.name, row.expression, value⟩ : Calculation) table
      (withCalculatedValue table id value) := by
  obtain ⟨_, rfl⟩ := Table.find?_eq_some_iff.1 found
  exact @Table.replaced_modify _ _ table row.id (fun row => { row with value }) _ row found

theorem replaced_withParent {table : Table Resource} {row : Resource}
    (found : table.find? id = some row) (parent : Option Int) :
    Table.Replaced (⟨id, row.name, parent⟩ : Resource) table (withParent table id parent) := by
  obtain ⟨_, rfl⟩ := Table.find?_eq_some_iff.1 found
  exact @Table.replaced_modify _ _ table row.id (fun row => { row with parent }) _ row found

end Database

end Formulary
