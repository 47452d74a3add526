import Formulary.Proofs.History
import Formulary.Proofs.Rooted

/-!
The forest of resources over whole histories: whatever is called on a new store, every resource
keeps a way up to a root and a proper name.
-/

namespace Formulary

namespace Table

structure Forested (table : Table Resource) : Prop where
  rooted : ∀ row ∈ table.rows, Rooted table.rows row.id
  named : ∀ row ∈ table.rows, Text.Trimmed row.name

/-- Whether rows may be put into a table one after the other, parents before their children. -/
def Admits : Table Resource → List Resource → Prop
  | _, [] => True
  | table, row :: rest =>
    Text.Trimmed row.name ∧ table.contains row.id = false ∧
      (∀ parent, row.parent = some parent → table.contains parent = true) ∧
      (table.put row).Admits rest

namespace Forested

variable {table : Table Resource}

theorem put {row : Resource} (forested : table.Forested) (named : Text.Trimmed row.name)
    (fresh : table.contains row.id = false)
    (attached : ∀ parent, row.parent = some parent → table.contains parent = true) :
    (table.put row).Forested := by
  refine ⟨Rooted.put forested.rooted fresh attached, ?_⟩
  intro present member
  rcases (mem_put_fresh fresh).1 member with rfl | inside
  · exact named
  · exact forested.named present inside

theorem foldl_put {rows : List Resource} (forested : table.Forested)
    (admitted : table.Admits rows) : (rows.foldl Table.put table).Forested := by
  induction rows generalizing table with
  | nil => exact forested
  | cons row rest ih =>
      obtain ⟨named, fresh, attached, further⟩ := admitted
      exact ih (forested.put named fresh attached) further

theorem move {above : Resource} {id : Int} (forested : table.Forested)
    (here : above ∈ table.rows) (different : id ≠ above.id)
    (outside : id ∉ (Lineage.of table.rows above.id above.parent).ancestors) :
    (Database.withParent table id (some above.id)).Forested := by
  constructor
  · intro row member
    obtain ⟨old, inside, rfl⟩ := mem_modify.1 member
    have rooted := Rooted.move forested.rooted here different outside (forested.rooted old inside)
    split
    · exact rooted
    · exact rooted
  · intro row member
    obtain ⟨old, inside, rfl⟩ := mem_modify.1 member
    have named := forested.named old inside
    split
    · exact named
    · exact named

theorem not_own_ancestor (forested : table.Forested) (id : Int) :
    ¬ Relation.TransGen (Under table.rows) id id := by
  intro loop
  obtain ⟨_, ⟨row, member, rfl, _⟩, _⟩ := Relation.TransGen.head'_iff.1 loop
  exact (forested.rooted row member).not_own_ancestor loop

theorem parent_exists {row : Resource} {parent : Int} (forested : table.Forested)
    (member : row ∈ table.rows) (under : row.parent = some parent) :
    ∃ above ∈ table.rows, above.id = parent :=
  ((forested.rooted row member).above_of_mem member under).exists_row

end Forested

end Table

theorem Demo.trimmed_names : ∀ resource ∈ Demo.resources, Text.Trimmed resource.name := by
  have same : ∀ resource ∈ Demo.resources,
      Text.trim resource.name = resource.name ∧ resource.name ≠ "" := by decide
  intro resource member
  exact Text.trimmed_of_trim_eq (same resource member).1 (same resource member).2

theorem Demo.admits_newResources (table : Table Resource) :
    table.Admits (Demo.newResources table) := by
  have named := Demo.trimmed_names
  simp only [Demo.resources, List.forall_mem_cons] at named
  obtain ⟨first, second, third, _⟩ := named
  -- Whichever are there already: the parent of each one either is as well or is put before it.
  cases held₁ : table.contains 1 <;> cases held₂ : table.contains 2 <;>
    cases held₃ : table.contains 3 <;>
    simp [Demo.newResources, Demo.resources, Table.Admits, held₁, held₂, held₃, first, second,
      third]

namespace Database

def Forested (database : Database) : Prop :=
  ∃ table, database.resources = some table ∧ table.Forested

variable {before after : Database}

theorem Forested.of_resources (forested : before.Forested)
    (same : after.resources = before.resources) : after.Forested := by
  obtain ⟨table, present, good⟩ := forested
  exact ⟨table, same.trans present, good⟩

theorem forested_edited (forested : before.Forested) (edit : before.Edited after) :
    after.Forested := by
  cases edit with
  | variableCreated written =>
      obtain ⟨_, _, _, _, _, _, _, rfl⟩ := createVariable_eq_ok_iff.1 written
      exact forested.of_resources rfl
  | valueSet written =>
      obtain ⟨_, _, _, _, _, rfl⟩ := setVariableValue_eq_ok_iff.1 written
      exact forested.of_resources rfl
  | calculationCreated _ written =>
      obtain ⟨_, _, _, _, _, _, rfl⟩ := createCalculation_eq_ok_iff.1 written
      exact forested.of_resources rfl
  | expressionReplaced _ written =>
      obtain ⟨_, _, _, _, rfl⟩ := setExpression_eq_ok_iff.1 written
      exact forested.of_resources rfl
  | reindexed _ _ written =>
      obtain ⟨_, _, _, _, rfl⟩ := setDependencies_eq_ok_iff.1 written
      exact forested.of_resources rfl
  | calculated written =>
      obtain ⟨_, _, _, _, rfl⟩ := setCalculatedValue_eq_ok_iff.1 written
      exact forested.of_resources rfl
  | resourceCreated named attached written =>
      obtain ⟨table, id, usable, next, rfl, _, rfl⟩ := createResource_eq_ok_iff.1 written
      obtain ⟨old, present, good⟩ := forested
      obtain ⟨_, found, _⟩ := resourceTable_eq_ok_iff.1 usable
      rw [present] at found
      cases found
      refine ⟨_, rfl, good.put named (Table.not_contains_nextId? next) ?_⟩
      intro parent under
      obtain ⟨_, again, held⟩ := except_bind_eq_ok.1 (attached parent under)
      rw [usable] at again
      cases again
      exact Except.ok.inj held
  | resourceMoved usable found different outside written =>
      obtain ⟨table, again, _, _, rfl⟩ := setParent_eq_ok_iff.1 written
      rw [usable] at again
      cases again
      obtain ⟨old, present, good⟩ := forested
      obtain ⟨_, same, _⟩ := resourceTable_eq_ok_iff.1 usable
      rw [present] at same
      cases same
      obtain ⟨here, rfl⟩ := Table.find?_eq_some_iff.1 found
      exact ⟨_, rfl, good.move here different outside⟩

theorem forested_changed (forested : before.Forested) (changed : before.Changed after) :
    after.Forested := by
  cases changed with
  | edited edit => exact forested_edited forested edit
  | demoLoaded loaded =>
      obtain ⟨_, _, _, _, table, _, _, _, found, rfl⟩ := Demo.load_eq_ok loaded
      obtain ⟨old, present, good⟩ := forested
      rw [present] at found
      cases found
      exact ⟨_, rfl, good.foldl_put (Demo.admits_newResources table)⟩

theorem forested_fresh : Store.fresh.database.Forested := by
  refine ⟨.empty TableName.resources.columns, rfl, ?_, ?_⟩
  · intro row member
    cases member
  · intro row member
    cases member

end Database

/-- Whatever is called on a new store, in transactions or not, every resource leads up to a root,
none is its own ancestor, every parent exists, and every name is proper. -/
theorem Store.forest_after_calls (mode : StoreMode) (calls : List Call) :
    ∃ opened, (Store.opening mode (.database .blank none)).1 = .ok opened ∧
      ∃ table, (opened.after calls).database.resources = some table ∧
        (∀ row ∈ table.rows, Rooted table.rows row.id) ∧
        (∀ id, ¬ Relation.TransGen (Under table.rows) id id) ∧
        (∀ row ∈ table.rows, ∀ parent, row.parent = some parent →
          ∃ above ∈ table.rows, above.id = parent) ∧
        ∀ row ∈ table.rows, Text.Trimmed row.name := by
  refine ⟨fresh, opening_blank mode, ?_⟩
  have holds := holds_after Database.forested_fresh Database.forested_changed calls
  obtain ⟨table, present, forested⟩ := holds.database
  exact ⟨table, present, forested.rooted, forested.not_own_ancestor,
    fun row member parent under => forested.parent_exists member under, forested.named⟩

end Formulary
