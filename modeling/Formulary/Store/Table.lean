import Formulary.Record

/-!
Tables of rows. The rows of a table stand in the order of their ids, no two have the same id, and
none has an id above the greatest one that the table ever held.
-/

namespace Formulary

structure Column where
  name : String
  required : Bool
  deriving DecidableEq, Repr

class Row (ρ : Type) where
  id : ρ → Int

structure Table (ρ : Type) [Row ρ] where
  columns : List Column
  rows : List ρ
  /-- The greatest id that the table ever held; zero when it held none above zero. -/
  lastId : Nat
  sorted : rows.Pairwise (Row.id · < Row.id ·)
  bounded : ∀ row ∈ rows, Row.id row ≤ lastId

namespace Table

variable {ρ : Type} [Row ρ]

def empty (columns : List Column) : Table ρ :=
  ⟨columns, [], 0, .nil, by simp⟩

/-- `rows` with `row` at its place; a row with its id is replaced. -/
def insertRow (row : ρ) : List ρ → List ρ
  | [] => [row]
  | other :: rest =>
    if Row.id row < Row.id other then row :: other :: rest
    else if Row.id row = Row.id other then row :: rest
    else other :: insertRow row rest

theorem mem_insertRow {row other : ρ} {rows : List ρ} (member : other ∈ insertRow row rows) :
    other = row ∨ other ∈ rows := by
  induction rows with
  | nil => simpa [insertRow] using member
  | cons first rest ih =>
    simp only [insertRow] at member
    split at member
    · simpa using member
    · split at member
      · rcases List.mem_cons.1 member with same | inside
        · exact .inl same
        · exact .inr (.tail _ inside)
      · rcases List.mem_cons.1 member with same | inside
        · exact .inr (by simp [same])
        · rcases ih inside with same | inside
          · exact .inl same
          · exact .inr (.tail _ inside)

theorem sorted_insertRow (row : ρ) {rows : List ρ}
    (sorted : rows.Pairwise (Row.id · < Row.id ·)) :
    (insertRow row rows).Pairwise (Row.id · < Row.id ·) := by
  induction rows with
  | nil => simp [insertRow]
  | cons first rest ih =>
    obtain ⟨below, sortedRest⟩ := List.pairwise_cons.1 sorted
    simp only [insertRow]
    split
    · rename_i before
      refine List.pairwise_cons.2 ⟨fun other member => ?_, sorted⟩
      rcases List.mem_cons.1 member with rfl | inside
      · exact before
      · exact Int.lt_trans before (below other inside)
    · split
      · rename_i same
        exact List.pairwise_cons.2 ⟨fun other member => same ▸ below other member, sortedRest⟩
      · rename_i notBefore different
        refine List.pairwise_cons.2 ⟨fun other member => ?_, ih sortedRest⟩
        rcases mem_insertRow member with rfl | inside
        · omega
        · exact below other inside

def find? (table : Table ρ) (id : Int) : Option ρ :=
  table.rows.find? (Row.id · = id)

def contains (table : Table ρ) (id : Int) : Bool :=
  table.rows.any (Row.id · = id)

def put (table : Table ρ) (row : ρ) : Table ρ where
  columns := table.columns
  rows := insertRow row table.rows
  lastId := max table.lastId (Row.id row).toNat
  sorted := sorted_insertRow row table.sorted
  bounded := by
    intro other member
    rcases mem_insertRow member with rfl | inside
    · omega
    · have := table.bounded other inside
      omega

/-- The id of the next row, unless all are used up. -/
def nextId? (table : Table ρ) : Option Int :=
  if table.lastId < greatestId.toNat then some (table.lastId + 1) else none

def modify (table : Table ρ) (id : Int) (change : ρ → ρ)
    (keepsId : ∀ row, Row.id (change row) = Row.id row) : Table ρ where
  columns := table.columns
  rows := table.rows.map fun row => if Row.id row = id then change row else row
  lastId := table.lastId
  sorted := by
    refine List.pairwise_map.2 (table.sorted.imp fun below => ?_)
    split <;> split <;> simpa [keepsId] using below
  bounded := by
    intro row member
    obtain ⟨old, inside, rfl⟩ := List.mem_map.1 member
    have := table.bounded old inside
    split <;> simpa [keepsId] using this

/-- The table without the rows that `drop` says; their ids stay used. -/
def remove (table : Table ρ) (drop : ρ → Bool) : Table ρ where
  columns := table.columns
  rows := table.rows.filter (!drop ·)
  lastId := table.lastId
  sorted := table.sorted.filter _
  bounded := fun row member => table.bounded row (List.mem_filter.1 member).1

/-- The table without rows and as if it had never held one. -/
def reset (table : Table ρ) : Table ρ :=
  empty table.columns

def reserve (table : Table ρ) (id : Nat) : Table ρ :=
  { table with
    lastId := max table.lastId id
    bounded := fun row member => by
      have := table.bounded row member
      omega }

def withColumns (table : Table ρ) (columns : List Column) : Table ρ :=
  { table with columns := columns }

end Table

structure Dependency where
  calculation : Int
  variableId : Int
  deriving DecidableEq, Repr

namespace Dependency

def Before (left right : Dependency) : Prop :=
  left.calculation < right.calculation ∨
    left.calculation = right.calculation ∧ left.variableId < right.variableId

instance : DecidableRel Before := fun left right => by
  unfold Before
  infer_instance

end Dependency

/-- The table of dependencies, which stand in order and each once. -/
structure DependencyTable where
  columns : List Column
  rows : List Dependency
  sorted : rows.Pairwise Dependency.Before

namespace DependencyTable

def empty (columns : List Column) : DependencyTable :=
  ⟨columns, [], .nil⟩

def insertRow (row : Dependency) : List Dependency → List Dependency
  | [] => [row]
  | other :: rest =>
    if row.Before other then row :: other :: rest
    else if row = other then other :: rest
    else other :: insertRow row rest

theorem mem_insertRow {row other : Dependency} {rows : List Dependency} :
    other ∈ insertRow row rows ↔ other = row ∨ other ∈ rows := by
  induction rows with
  | nil => simp [insertRow]
  | cons first rest ih =>
    simp only [insertRow]
    split
    · simp
    · split
      · rename_i same
        simp [same]
      · simp only [List.mem_cons, ih]
        grind

theorem sorted_insertRow (row : Dependency) {rows : List Dependency}
    (sorted : rows.Pairwise Dependency.Before) :
    (insertRow row rows).Pairwise Dependency.Before := by
  induction rows with
  | nil => simp [insertRow]
  | cons first rest ih =>
    obtain ⟨below, sortedRest⟩ := List.pairwise_cons.1 sorted
    simp only [insertRow]
    split
    · rename_i before
      refine List.pairwise_cons.2 ⟨fun other member => ?_, sorted⟩
      rcases List.mem_cons.1 member with rfl | inside
      · exact before
      · have := below other inside
        unfold Dependency.Before at *
        omega
    · split
      · exact sorted
      · rename_i notBefore different
        refine List.pairwise_cons.2 ⟨fun other member => ?_, ih sortedRest⟩
        rcases mem_insertRow.1 member with rfl | inside
        · have : ¬(other.calculation = first.calculation ∧
              other.variableId = first.variableId) := fun ⟨left, right⟩ =>
            different (by cases other; cases first; simp_all)
          unfold Dependency.Before at *
          omega
        · exact below other inside

def put (table : DependencyTable) (row : Dependency) : DependencyTable :=
  ⟨table.columns, insertRow row table.rows, sorted_insertRow row table.sorted⟩

def remove (table : DependencyTable) (drop : Dependency → Bool) : DependencyTable :=
  ⟨table.columns, table.rows.filter (!drop ·), table.sorted.filter _⟩

/-- The table in which the dependencies of a calculation are the given ones. -/
def assign (table : DependencyTable) (calculation : Int) (vars : List Int) : DependencyTable :=
  vars.foldl (fun table variableId => table.put ⟨calculation, variableId⟩)
    (table.remove (·.calculation = calculation))

def withColumns (table : DependencyTable) (columns : List Column) : DependencyTable :=
  { table with columns := columns }

end DependencyTable

end Formulary
