import Formulary.Forest.Lineage
import Formulary.Proofs.Table
import Mathlib.Logic.Relation

/-!
Resources from which the way up ends at a root. A resource of this kind is not its own ancestor,
and it stays of this kind when a resource is added under one of them, or moved under one that does
not stand below it, which the lineage of the new parent tells.
-/

namespace Formulary

inductive Rooted (rows : List Resource) : Int → Prop
  | root {row : Resource} (member : row ∈ rows) (top : row.parent = none) : Rooted rows row.id
  | child {row : Resource} {parent : Int} (member : row ∈ rows) (under : row.parent = some parent)
      (above : Rooted rows parent) : Rooted rows row.id

def Under (rows : List Resource) (id parent : Int) : Prop :=
  ∃ row ∈ rows, row.id = id ∧ row.parent = some parent

namespace Rooted

variable {table : Table Resource} {rows : List Resource} {id parent : Int}

theorem exists_row (rooted : Rooted rows id) : ∃ row ∈ rows, row.id = id := by
  cases rooted with
  | root member top => exact ⟨_, member, rfl⟩
  | child member under above => exact ⟨_, member, rfl⟩

theorem above_of_mem {row : Resource} (member : row ∈ table.rows)
    (under : row.parent = some parent) (rooted : Rooted table.rows row.id) :
    Rooted table.rows parent := by
  generalize same : row.id = id at rooted
  cases rooted with
  | root otherMember top =>
      have := Table.eq_of_id_eq member otherMember same
      subst this
      simp [top] at under
  | child otherMember otherUnder above =>
      have := Table.eq_of_id_eq member otherMember same
      subst this
      rw [under] at otherUnder
      cases otherUnder
      exact above

theorem not_own_ancestor (rooted : Rooted table.rows id) :
    ¬ Relation.TransGen (Under table.rows) id id := by
  induction rooted with
  | root member top =>
      intro loop
      obtain ⟨parent, ⟨row, otherMember, same, under⟩, _⟩ := Relation.TransGen.head'_iff.1 loop
      have := Table.eq_of_id_eq otherMember member same
      subst this
      simp [top] at under
  | child member under above ih =>
      intro loop
      obtain ⟨next, ⟨row, otherMember, same, otherUnder⟩, rest⟩ :=
        Relation.TransGen.head'_iff.1 loop
      have := Table.eq_of_id_eq otherMember member same
      subst this
      rw [under] at otherUnder
      cases otherUnder
      exact ih (.tail' rest ⟨row, member, rfl, under⟩)

theorem mono {more : List Resource} (kept : ∀ row ∈ rows, row ∈ more) (rooted : Rooted rows id) :
    Rooted more id := by
  induction rooted with
  | root member top => exact .root (kept _ member) top
  | child member under _ ih => exact .child (kept _ member) under ih

theorem put {row : Resource} (all : ∀ row ∈ table.rows, Rooted table.rows row.id)
    (fresh : table.contains row.id = false)
    (attached : ∀ parent, row.parent = some parent → table.contains parent = true) :
    ∀ present ∈ (table.put row).rows, Rooted (table.put row).rows present.id := by
  intro present member
  have kept : ∀ old ∈ table.rows, old ∈ (table.put row).rows :=
    fun old inside => (Table.mem_put_fresh fresh).2 (.inr inside)
  rcases (Table.mem_put_fresh fresh).1 member with rfl | inside
  · cases top : present.parent with
    | none => exact .root member top
    | some parent =>
        obtain ⟨above, aboveMember, same⟩ := Table.contains_iff.1 (attached parent top)
        have rooted := (all above aboveMember).mono kept
        rw [← id_resource, same] at rooted
        exact .child member top rooted
  · exact (all present inside).mono kept

end Rooted

namespace Lineage

variable {table : Table Resource}

theorem next_met (rows : List Resource) (visited : List Int) (next : Option Int) {id : Int}
    (here : next = some id) : id ∈ visited ∨ id ∈ (walk rows visited next).ancestors := by
  subst here
  unfold walk
  split
  · rename_i seen
    exact .inl seen
  · split
    · exact .inr (by simp)
    · exact .inr (by simp)

theorem parent_met (visited : List Int) (next : Option Int) {row : Resource} {parent : Int}
    (member : row ∈ table.rows) (met : row.id ∈ (walk table.rows visited next).ancestors)
    (under : row.parent = some parent) :
    parent ∈ visited ∨ parent ∈ (walk table.rows visited next).ancestors := by
  fun_induction walk table.rows visited next with
  | case1 => simp at met
  | case2 => simp at met
  | case3 visited current unseen absent =>
      simp only [List.mem_singleton] at met
      have missing := List.find?_eq_none.1 absent row member
      simp [met] at missing
  | case4 visited current unseen node found above ih =>
      rcases List.mem_append.1 met with before | last
      · rcases ih before with seen | inside
        · rcases List.mem_cons.1 seen with rfl | seen
          · exact .inr (by simp)
          · exact .inl seen
        · exact .inr (List.mem_append_left _ inside)
      · have same : node.id = current := by simpa using List.find?_some found
        have := Table.eq_of_id_eq member (List.mem_of_find?_eq_some found)
          ((List.mem_singleton.1 last).trans same.symm)
        subst this
        rcases next_met table.rows (current :: visited) _ under with seen | inside
        · rcases List.mem_cons.1 seen with rfl | seen
          · exact .inr (by simp)
          · exact .inl seen
        · exact .inr (List.mem_append_left _ inside)

theorem closed {above row : Resource} {parent : Int} (here : above ∈ table.rows)
    (member : row ∈ table.rows) (under : row.parent = some parent)
    (met : row.id ∈ above.id :: (Lineage.of table.rows above.id above.parent).ancestors) :
    parent ∈ above.id :: (Lineage.of table.rows above.id above.parent).ancestors := by
  rcases List.mem_cons.1 met with same | inside
  · have := Table.eq_of_id_eq member here same
    subst this
    rcases next_met table.rows [row.id] _ under with seen | inside
    · exact List.mem_cons.2 (.inl (List.mem_singleton.1 seen))
    · exact List.mem_cons.2 (.inr inside)
  · rcases parent_met [above.id] above.parent member inside under with seen | further
    · exact List.mem_cons.2 (.inl (List.mem_singleton.1 seen))
    · exact List.mem_cons.2 (.inr further)

end Lineage

namespace Rooted

open Database (withParent)

variable {table : Table Resource} {above : Resource} {id : Int}

theorem mem_moved {row : Resource} {parent : Int} (member : row ∈ table.rows)
    (other : row.id ≠ id) : row ∈ (withParent table id (some parent)).rows := by
  refine Table.mem_modify.2 ⟨row, member, ?_⟩
  rw [id_resource, if_neg other]

theorem moved_above (here : above ∈ table.rows) (different : id ≠ above.id)
    (outside : id ∉ (Lineage.of table.rows above.id above.parent).ancestors) {current : Int}
    (rooted : Rooted table.rows current)
    (met : current ∈ above.id :: (Lineage.of table.rows above.id above.parent).ancestors) :
    Rooted (withParent table id (some above.id)).rows current := by
  have avoided : ∀ other ∈ above.id :: (Lineage.of table.rows above.id above.parent).ancestors,
      other ≠ id := by
    rintro other inside rfl
    rcases List.mem_cons.1 inside with same | inside
    · exact different same
    · exact outside inside
  induction rooted with
  | root member top => exact .root (mem_moved member (avoided _ met)) top
  | child member under _ ih =>
      have further := Lineage.closed here member under met
      exact .child (mem_moved member (avoided _ met)) under (ih further)

theorem moved_under {row : Resource} {parent : Int} (member : row ∈ table.rows)
    (rooted : Rooted (withParent table row.id (some parent)).rows parent) :
    Rooted (withParent table row.id (some parent)).rows row.id := by
  have placed :
      { row with parent := some parent } ∈ (withParent table row.id (some parent)).rows := by
    refine Table.mem_modify.2 ⟨row, member, ?_⟩
    rw [id_resource, if_pos rfl]
  have rootedHere := Rooted.child placed rfl rooted
  exact rootedHere

theorem move (all : ∀ row ∈ table.rows, Rooted table.rows row.id) (here : above ∈ table.rows)
    (different : id ≠ above.id)
    (outside : id ∉ (Lineage.of table.rows above.id above.parent).ancestors) {current : Int}
    (rooted : Rooted table.rows current) :
    Rooted (withParent table id (some above.id)).rows current := by
  have target := moved_above here different outside (all above here) List.mem_cons_self
  induction rooted with
  | @root row member top =>
      by_cases same : row.id = id
      · subst same
        exact moved_under member target
      · exact .root (mem_moved member same) top
  | @child row parent member under _ ih =>
      by_cases same : row.id = id
      · subst same
        exact moved_under member target
      · exact .child (mem_moved member same) under ih

end Rooted

end Formulary
