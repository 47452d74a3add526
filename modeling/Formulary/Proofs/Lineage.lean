import Formulary.Proofs.Ancestry

/-!
Lineages in any table, also in one where resources come round to themselves or have parents that
are missing. A walk up meets no id twice, and stops only where there is nothing new to come to.
-/

namespace Formulary

open Relation (ReflTransGen TransGen)

inductive Halts (rows : List Resource) (met : List Int) (id : Int) : Prop
  | missing (absent : ∀ row ∈ rows, row.id ≠ id)
  | root {row : Resource} (member : row ∈ rows) (here : row.id = id) (top : row.parent = none)
  | looped {row : Resource} {parent : Int} (member : row ∈ rows) (here : row.id = id)
      (under : row.parent = some parent) (again : parent ∈ met)

theorem Halts.mono {rows : List Resource} {met more : List Int} {id : Int}
    (kept : ∀ other ∈ met, other ∈ more) (halts : Halts rows met id) : Halts rows more id := by
  cases halts with
  | missing absent => exact .missing absent
  | root member here top => exact .root member here top
  | looped member here under again => exact .looped member here under (kept _ again)

/-- Whether `ids` are a way up to `next` that meets nothing twice and is as long as can be, if some
ids are met already. -/
structure Climb (rows : List Resource) (met : List Int) (next : Option Int) (ids : List Int) :
    Prop where
  distinct : ids.Nodup
  unmet : ∀ id ∈ ids, id ∉ met
  empty : ids = [] ↔ ∀ id, next = some id → id ∈ met
  last : ids ≠ [] → ids.getLast? = next
  linked : ids.IsChain fun above below => Under rows below above
  halts : ∀ first, ids.head? = some first → Halts rows (met ++ ids) first

namespace Climb

variable {rows : List Resource} {met ids : List Int} {next : Option Int} {id : Int}

theorem nil (nothing : ∀ id, next = some id → id ∈ met) : Climb rows met next [] where
  distinct := .nil
  unmet := nofun
  empty := ⟨fun _ => nothing, fun _ => rfl⟩
  last := (absurd rfl ·)
  linked := .nil
  halts := nofun

theorem single (unmet : id ∉ met) (absent : ∀ row ∈ rows, row.id ≠ id) :
    Climb rows met (some id) [id] where
  distinct := List.nodup_singleton id
  unmet := by simpa using unmet
  empty := by simp [unmet]
  last := fun _ => rfl
  linked := .singleton id
  halts := by
    rintro first ⟨⟩
    exact .missing absent

theorem concat {row : Resource} (member : row ∈ rows) (unmet : row.id ∉ met)
    (above : Climb rows (row.id :: met) row.parent ids) :
    Climb rows met (some row.id) (ids ++ [row.id]) where
  distinct := by
    refine List.nodup_append.2 ⟨above.distinct, List.nodup_singleton _, ?_⟩
    rintro other inside last same rfl
    rw [List.mem_singleton.1 same] at inside
    exact above.unmet _ inside List.mem_cons_self
  unmet := by
    intro other inside
    rcases List.mem_append.1 inside with further | same
    · exact fun seen => above.unmet other further (List.mem_cons_of_mem _ seen)
    · rw [List.mem_singleton.1 same]
      exact unmet
  empty := by simp [unmet]
  last := by simp
  linked := by
    refine List.isChain_append.2 ⟨above.linked, .singleton _, ?_⟩
    rintro parent last _ ⟨⟩
    have risen : ids ≠ [] := by
      rintro rfl
      cases last
    exact ⟨row, member, rfl, (above.last risen).symm.trans last⟩
  halts := by
    intro first top
    have kept : ∀ other ∈ row.id :: met ++ ids, other ∈ met ++ (ids ++ [row.id]) := by
      intro other seen
      simp only [List.cons_append, List.mem_cons, List.mem_append, List.not_mem_nil,
        or_false] at seen ⊢
      tauto
    cases ids with
    | cons highest rest => exact (above.halts first top).mono kept
    | nil =>
        cases top
        cases under : row.parent with
        | none => exact .root member rfl under
        | some parent =>
            -- The walk has not gone on to the parent, so that this was met before.
            have again := above.empty.1 rfl parent under
            exact .looped member rfl under (kept parent (List.mem_append_left _ again))

end Climb

namespace Lineage

variable {table : Table Resource} {rows : List Resource}

theorem climb_walk (rows : List Resource) (met : List Int) (next : Option Int) :
    Climb rows met next (walk rows met next).ancestors := by
  fun_induction walk rows met next with
  | case1 met => exact .nil (by simp)
  | case2 met current seen =>
      refine .nil ?_
      rintro id ⟨⟩
      exact seen
  | case3 met current unseen absent =>
      refine .single unseen ?_
      simpa using List.find?_eq_none.1 absent
  | case4 met current unseen node found above ih =>
      obtain rfl : node.id = current := by simpa using List.find?_some found
      exact .concat (List.mem_of_find?_eq_some found) unseen ih

theorem length_walk_le (rows : List Resource) (met : List Int) (next : Option Int) :
    (walk rows met next).ancestors.length ≤ (rows.filter (·.id ∉ met)).length + 1 := by
  fun_induction walk rows met next with
  | case1 | case2 | case3 => simp
  | case4 met current unseen node found above ih =>
      have fewer := unvisited_lt found unseen
      rw [List.length_append, List.length_singleton]
      exact Nat.succ_le_succ (ih.trans fewer)

theorem length_of_le {row : Resource} (member : row ∈ table.rows) :
    (Lineage.of table.rows row.id row.parent).ancestors.length ≤ table.rows.length := by
  have walked := length_walk_le table.rows [row.id] row.parent
  have found : table.rows.find? (·.id = row.id) = some row :=
    Table.find?_eq_some_iff.2 ⟨member, rfl⟩
  have fewer := unvisited_lt found (List.not_mem_nil (a := row.id))
  have all := List.length_filter_le (fun other : Resource => decide (other.id ∉ [])) table.rows
  unfold Lineage.of
  omega

theorem reached_of_mem_walk {met : List Int} {next : Option Int} {id : Int}
    (inside : id ∈ (walk rows met next).ancestors) :
    ∃ start, next = some start ∧ ReflTransGen (Under rows) start id := by
  fun_induction walk rows met next with
  | case1 | case2 => cases inside
  | case3 met current unseen absent =>
      rw [List.mem_singleton] at inside
      exact ⟨current, rfl, inside ▸ .refl⟩
  | case4 met current unseen node found above ih =>
      obtain rfl : node.id = current := by simpa using List.find?_some found
      refine ⟨node.id, rfl, ?_⟩
      rcases List.mem_append.1 inside with further | here
      · obtain ⟨parent, under, way⟩ := ih further
        exact .head ⟨node, List.mem_of_find?_eq_some found, rfl, under⟩ way
      · rw [List.mem_singleton.1 here]

theorem met_of_reached {row : Resource} (member : row ∈ table.rows) {id : Int}
    (way : ReflTransGen (Under table.rows) row.id id) :
    id ∈ row.id :: (Lineage.of table.rows row.id row.parent).ancestors := by
  induction way with
  | refl => exact List.mem_cons_self
  | tail _ link ih =>
      obtain ⟨middle, inside, rfl, under⟩ := link
      exact closed member inside under ih

theorem mem_of_iff {row : Resource} {start id : Int} (found : table.find? start = some row) :
    id ∈ (Lineage.of table.rows start row.parent).ancestors ↔
      id ≠ start ∧ TransGen (Under table.rows) start id := by
  obtain ⟨member, rfl⟩ := Table.find?_eq_some_iff.1 found
  constructor
  · intro inside
    obtain ⟨parent, under, way⟩ := reached_of_mem_walk inside
    refine ⟨?_, .head' ⟨row, member, rfl, under⟩ way⟩
    simpa using (climb_walk table.rows [row.id] row.parent).unmet id inside
  · rintro ⟨different, way⟩
    have met := met_of_reached member way.to_reflTransGen
    exact (List.mem_cons.1 met).resolve_left different

end Lineage

namespace Forest

variable {store : Store} {table : Table Resource}

/-- In any table, the lineage of a resource is a way up to its parent along parents, meets neither
the resource nor anything else twice, and stops only at a root, at an id without a resource, or
where the next parent was met already. In a forest it is the whole way from a root. -/
theorem lineage_maximal (usable : store.database.resourceTable = .ok table) {row : Resource}
    (member : row ∈ table.rows) :
    ∃ ids, ((lineage row.id).apply store).1 = .ok ids ∧
      ids.length ≤ table.rows.length ∧ ids.Nodup ∧ row.id ∉ ids ∧
      (ids = [] ↔ row.parent = none ∨ row.parent = some row.id) ∧
      (ids ≠ [] → ids.getLast? = row.parent) ∧
      (ids.IsChain fun above below => Under table.rows below above) ∧
      (∀ first, ids.head? = some first → Halts table.rows (row.id :: ids) first) ∧
      (table.IsForest → Ancestry table.rows row.id ids) := by
  have climb := Lineage.climb_walk table.rows [row.id] row.parent
  refine ⟨_, lineage_of_mem usable member, Lineage.length_of_le member, climb.distinct, ?_, ?_,
    climb.last, climb.linked, climb.halts, ?_⟩
  · intro inside
    exact climb.unmet _ inside (List.mem_singleton_self _)
  · refine climb.empty.trans ?_
    cases row.parent <;> simp
  · intro forest
    obtain ⟨above, ancestry⟩ := (Rooted.of_isForest forest row member).exists_ancestry
    have same := (lineage_of_mem usable member).symm.trans (ancestry.lineage_eq usable)
    rw [Except.ok.inj same]
    exact ancestry

def tangle : Table Resource where
  columns := TableName.resources.columns
  rows := [⟨1, "a", some 2⟩, ⟨2, "b", some 1⟩, ⟨3, "c", some 2⟩, ⟨4, "d", some 4⟩, ⟨5, "e", some 9⟩]
  lastId := 5
  sorted := by decide
  bounded := by decide

def tangled : Store :=
  { planted with database := { planted.database with resources := some tangle } }

theorem lineage_maximal_tangled :
    tangled.database.resourceTable = .ok tangle ∧
    (∃ ids, ((lineage 3).apply tangled).1 = .ok ids ∧ ids = [1, 2] ∧
      ∀ first, ids.head? = some first → Halts tangle.rows (3 :: ids) first) ∧
    ∃ ids, ((lineage 3).apply planted).1 = .ok ids ∧ Ancestry grove.rows 3 ids := by
  have usable : tangled.database.resourceTable = .ok tangle := rfl
  refine ⟨usable, ?_, ?_⟩
  · have member : (⟨3, "c", some 2⟩ : Resource) ∈ tangle.rows := by decide
    obtain ⟨ids, walked, _, _, _, _, _, _, halts, _⟩ := lineage_maximal usable member
    have found : ((lineage 3).apply tangled).1 = .ok [1, 2] := by decide +kernel
    exact ⟨ids, walked, Except.ok.inj (walked.symm.trans found), halts⟩
  · have sound : planted.database.resourceTable = .ok grove := rfl
    have member : (⟨3, "c", some 2⟩ : Resource) ∈ grove.rows := by decide
    obtain ⟨ids, walked, _, _, _, _, _, _, _, whole⟩ := lineage_maximal sound member
    exact ⟨ids, walked, whole isForest_grove⟩

end Forest

end Formulary
