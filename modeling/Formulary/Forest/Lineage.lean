import Formulary.Store.Resources

/-!
The lineage of a resource: its ancestors, from the farthest to the parent. The walk up ends at a
root, at an id without a resource, or before an id that it has already met.
-/

namespace Formulary

structure Lineage where
  ancestors : List Int
  revisited : Option Int
  deriving DecidableEq, Repr

namespace Lineage

theorem unvisited_lt {rows : List Resource} {visited : List Int} {current : Int} {node : Resource}
    (found : rows.find? (·.id = current) = some node) (fresh : current ∉ visited) :
    (rows.filter (·.id ∉ current :: visited)).length < (rows.filter (·.id ∉ visited)).length := by
  have member := List.mem_of_find?_eq_some found
  have same : node.id = current := by simpa using List.find?_some found
  have shrinks : rows.filter (·.id ∉ current :: visited) =
      (rows.filter (·.id ∉ visited)).filter (·.id ≠ current) := by
    rw [List.filter_filter]
    congr 1
    funext row
    simp [not_or]
  rw [shrinks]
  apply List.length_filter_lt_length_iff_exists.2
  exact ⟨node, List.mem_filter.2 ⟨member, by simpa [same] using fresh⟩, by simp [same]⟩

/-- The walk that goes on with `next` after it has met the ids of `visited`. -/
def walk (rows : List Resource) (visited : List Int) (next : Option Int) : Lineage :=
  match next with
  | none => ⟨[], none⟩
  | some current =>
    if _ : current ∈ visited then ⟨[], some current⟩
    else
      match _ : rows.find? (·.id = current) with
      | none => ⟨[current], none⟩
      | some node =>
        let above := walk rows (current :: visited) node.parent
        ⟨above.ancestors ++ [current], above.revisited⟩
termination_by (rows.filter (·.id ∉ visited)).length
decreasing_by exact unvisited_lt ‹_› ‹_›

def of (rows : List Resource) (id : Int) (parent : Option Int) : Lineage :=
  walk rows [id] parent

end Lineage

end Formulary
