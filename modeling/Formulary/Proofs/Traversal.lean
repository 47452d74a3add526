import Formulary.Proofs.Ancestry

/-!
Walks down a forest. Starting at the roots and listing children again and again, a walk comes to
every resource exactly once, along the ids of its lineage.
-/

namespace Formulary

namespace Forest

structure Visit where
  way : List Int
  resource : Resource
  deriving DecidableEq

def descend : Nat → List Int → Option Int → Action (List Visit)
  | 0, _, _ => return []
  | depth + 1, way, parent => do
    let children ← listChildren parent
    let branches ← children.mapM fun child => do
      let further ← descend depth (way ++ [child.id]) (some child.id)
      return ⟨way, child⟩ :: further
    return branches.flatten

def visits (rows : List Resource) : Nat → List Int → Option Int → List Visit
  | 0, _, _ => []
  | depth + 1, way, parent =>
    (rows.filter (·.parent = parent)).flatMap fun child =>
      ⟨way, child⟩ :: visits rows depth (way ++ [child.id]) (some child.id)

end Forest

namespace Ancestry

variable {table : Table Resource} {id : Int} {above : List Int}

theorem unique (ancestry : Ancestry table.rows id above) {other : List Int}
    (again : Ancestry table.rows id other) : above = other := by
  obtain ⟨row, member, rfl⟩ := ancestry.rooted.exists_row
  have walked : Lineage.walk table.rows [] row.parent = ⟨above, none⟩ :=
    ancestry.walk_eq member (by simp)
  rw [again.walk_eq member (by simp)] at walked
  exact (congrArg Lineage.ancestors walked).symm

theorem before (ancestry : Ancestry table.rows id above) {front back : List Int} {middle : Int}
    (split : above = front ++ middle :: back) : Ancestry table.rows middle front := by
  induction ancestry generalizing back with
  | root => simp at split
  | @child row parent above member under rest ih =>
      rcases List.eq_nil_or_concat back with rfl | ⟨shorter, last, rfl⟩
      · obtain ⟨rfl, same⟩ := List.append_inj' split rfl
        cases same
        exact rest
      · rw [List.concat_eq_append, ← List.cons_append, ← List.append_assoc] at split
        exact ih (List.append_inj' split rfl).1

theorem parent_eq_getLast? {row : Resource} (ancestry : Ancestry table.rows row.id above)
    (member : row ∈ table.rows) : row.parent = above.getLast? := by
  generalize here : row.id = id at ancestry
  cases ancestry with
  | root inside top =>
      cases Table.eq_of_id_eq member inside here
      exact top
  | child inside under _ =>
      cases Table.eq_of_id_eq member inside here
      simpa using under

theorem length_lt (ancestry : Ancestry table.rows id above) : above.length < table.rows.length := by
  have distinct : (id :: above).Nodup := List.nodup_cons.2 ⟨ancestry.not_mem, ancestry.nodup⟩
  have present : ∀ other ∈ id :: above, other ∈ table.rows.map (·.id) := by
    intro other inside
    rw [List.mem_map]
    rcases List.mem_cons.1 inside with rfl | inside
    · exact ancestry.rooted.exists_row
    · obtain ⟨front, back, split⟩ := List.append_of_mem inside
      exact (ancestry.before split).rooted.exists_row
  have shorter := (List.subperm_of_subset distinct present).length_le
  rw [List.length_map, List.length_cons] at shorter
  exact shorter

end Ancestry

namespace Forest

open Operation

variable {store : Store} {table : Table Resource}

theorem apply_listChildren {parent : Option Int}
    (usable : store.database.resourceTable = .ok table)
    (present : ∀ id, parent = some id → table.contains id = true) :
    (listChildren parent).apply store =
      (.ok (table.rows.filter (·.parent = parent)), store) := by
  have listed : (query Fault.ofStore (·.listChildren parent)).apply store =
      (.ok (table.rows.filter (·.parent = parent)), store) :=
    query_eq_ok.2 ⟨except_bind_eq_ok.2 ⟨table, usable, rfl⟩, rfl⟩
  cases parent with
  | none => exact listed
  | some id =>
      have held : store.database.resourceExists id = .ok true :=
        except_bind_eq_ok.2 ⟨table, usable, congrArg Except.ok (present id rfl)⟩
      unfold listChildren exists?
      dsimp only
      rw [apply_bind, apply_query, held]
      exact listed

theorem listChildren_of_missing {id : Int} (usable : store.database.resourceTable = .ok table)
    (missing : table.contains id = false) :
    ((listChildren (some id)).apply store).1 = .error (.resourceNotFound id) := by
  have absent : store.database.resourceExists id = .ok false :=
    except_bind_eq_ok.2 ⟨table, usable, congrArg Except.ok missing⟩
  unfold listChildren exists?
  dsimp only
  rw [apply_bind, apply_query, absent]
  rfl

theorem apply_mapM_of_ok {ε α β : Type} {action : α → Operation ε β} {give : α → β}
    {items : List α} (each : ∀ item ∈ items, (action item).apply store = (.ok (give item), store)) :
    (items.mapM action).apply store = (.ok (items.map give), store) := by
  induction items with
  | nil => rfl
  | cons item rest ih =>
      have later := ih fun other inside => each other (List.mem_cons_of_mem _ inside)
      rw [List.mapM_cons, apply_bind, each item List.mem_cons_self]
      dsimp only
      rw [apply_bind, later]
      rfl

theorem apply_descend (usable : store.database.resourceTable = .ok table) (depth : Nat)
    (way : List Int) {parent : Option Int}
    (present : ∀ id, parent = some id → table.contains id = true) :
    (descend depth way parent).apply store =
      (.ok (visits table.rows depth way parent), store) := by
  induction depth generalizing way parent with
  | zero => rfl
  | succ depth ih =>
      unfold descend
      rw [apply_bind, apply_listChildren usable present]
      dsimp only
      rw [apply_bind, apply_mapM_of_ok]
      · rfl
      · intro child listed
        have held : ∀ id, some child.id = some id → table.contains id = true := by
          rintro _ ⟨⟩
          exact Table.contains_of_mem (List.mem_filter.1 listed).1
        rw [apply_bind, ih (way ++ [child.id]) held]
        rfl

def Leads (rows : List Resource) (way : List Int) : Option Int → Prop
  | none => way = []
  | some id => ∃ above, Ancestry rows id above ∧ way = above ++ [id]

theorem Leads.eq_getLast? {rows : List Resource} {way : List Int} {parent : Option Int}
    (leads : Leads rows way parent) : parent = way.getLast? := by
  cases parent with
  | none =>
      cases leads
      rfl
  | some id =>
      obtain ⟨above, _, rfl⟩ := leads
      simp

theorem Leads.ancestry {rows : List Resource} {way : List Int} {child : Resource}
    (leads : Leads rows way child.parent) (member : child ∈ rows) :
    Ancestry rows child.id way := by
  cases under : child.parent with
  | none =>
      rw [under] at leads
      cases leads
      exact .root member under
  | some id =>
      rw [under] at leads
      obtain ⟨above, rest, rfl⟩ := leads
      exact .child member under rest

theorem mem_visits {depth : Nat} {way : List Int} {parent : Option Int}
    (leads : Leads table.rows way parent) {visit : Visit} :
    visit ∈ visits table.rows depth way parent ↔
      visit.resource ∈ table.rows ∧ Ancestry table.rows visit.resource.id visit.way ∧
        way <+: visit.way ∧ visit.way.length < way.length + depth := by
  induction depth generalizing way parent with
  | zero =>
      simp only [visits, List.not_mem_nil, false_iff]
      rintro ⟨_, _, extends_, short⟩
      have := extends_.length_le
      omega
  | succ depth ih =>
      have further {child : Resource} (member : child ∈ table.rows)
          (under : child.parent = parent) :
          Leads table.rows (way ++ [child.id]) (some child.id) :=
        ⟨way, Leads.ancestry (under ▸ leads) member, rfl⟩
      simp only [visits, List.mem_flatMap, List.mem_filter, decide_eq_true_eq, List.mem_cons]
      constructor
      · rintro ⟨child, ⟨member, under⟩, rfl | deeper⟩
        · exact ⟨member, Leads.ancestry (under ▸ leads) member, List.prefix_rfl, by simp⟩
        · obtain ⟨inside, ancestry, extends_, short⟩ := (ih (further member under)).1 deeper
          refine ⟨inside, ancestry, (List.prefix_append _ _).trans extends_, ?_⟩
          rw [List.length_append, List.length_singleton] at short
          omega
      · rintro ⟨member, ancestry, ⟨rest, split⟩, short⟩
        cases rest with
        | nil =>
            rw [List.append_nil] at split
            have under := ancestry.parent_eq_getLast? member
            rw [← split, ← leads.eq_getLast?] at under
            exact ⟨visit.resource, ⟨member, under⟩, .inl (by rw [split])⟩
        | cons next back =>
            have passed := ancestry.before split.symm
            obtain ⟨child, inside, rfl⟩ := passed.rooted.exists_row
            have under := passed.parent_eq_getLast? inside
            rw [← leads.eq_getLast?] at under
            refine ⟨child, ⟨inside, under⟩, .inr ((ih (further inside under)).2 ?_)⟩
            refine ⟨member, ancestry, ⟨back, by simpa using split⟩, ?_⟩
            rw [List.length_append, List.length_singleton]
            omega

theorem prefix_of_mem_visits {rows : List Resource} {depth : Nat} {way : List Int}
    {parent : Option Int} {visit : Visit} (visited : visit ∈ visits rows depth way parent) :
    way <+: visit.way := by
  induction depth generalizing way parent with
  | zero => simp [visits] at visited
  | succ depth ih =>
      simp only [visits, List.mem_flatMap, List.mem_cons] at visited
      obtain ⟨child, _, rfl | deeper⟩ := visited
      · exact List.prefix_rfl
      · exact (List.prefix_append _ _).trans (ih deeper)

theorem nodup_visits (depth : Nat) (way : List Int) (parent : Option Int) :
    (visits table.rows depth way parent).Nodup := by
  induction depth generalizing way parent with
  | zero => exact .nil
  | succ depth ih =>
      have through {child : Resource} {visit : Visit} (visited : visit ∈ ⟨way, child⟩ ::
          visits table.rows depth (way ++ [child.id]) (some child.id)) :
          way ++ [child.id] <+: visit.way ++ [visit.resource.id] := by
        rcases List.mem_cons.1 visited with rfl | deeper
        · exact List.prefix_rfl
        · exact (prefix_of_mem_visits deeper).trans (List.prefix_append _ _)
      refine List.nodup_flatMap.2 ⟨?_, ?_⟩
      · intro child _
        refine List.nodup_cons.2 ⟨?_, ih _ _⟩
        intro again
        have longer := (prefix_of_mem_visits again).length_le
        rw [List.length_append, List.length_singleton] at longer
        exact Nat.not_succ_le_self _ longer
      · refine (table.sorted.filter _).imp ?_
        intro child other below visit visited visitedToo
        have nested := List.prefix_of_prefix_length_le (through visited) (through visitedToo)
          (by simp)
        have same : child.id = other.id := by
          simpa using nested.eq_of_length (by simp)
        exact absurd same (ne_of_lt below)

def Lists (store : Store) (parent : Option Int) (id : Int) : Prop :=
  ∃ children, ((listChildren parent).apply store).1 = .ok children ∧
    ∃ child ∈ children, child.id = id

theorem lists_iff_of_table (usable : store.database.resourceTable = .ok table)
    (forest : table.IsForest) {parent : Option Int} {id : Int} :
    Lists store parent id ↔ ∃ row ∈ table.rows, row.id = id ∧ row.parent = parent := by
  constructor
  · rintro ⟨children, listed, child, inside, rfl⟩
    by_cases present : ∀ above, parent = some above → table.contains above = true
    · rw [apply_listChildren usable present] at listed
      cases listed
      obtain ⟨member, under⟩ := List.mem_filter.1 inside
      exact ⟨child, member, rfl, of_decide_eq_true under⟩
    · push Not at present
      obtain ⟨above, rfl, missing⟩ := present
      rw [listChildren_of_missing usable (Bool.eq_false_iff.2 missing)] at listed
      cases listed
  · rintro ⟨row, member, rfl, rfl⟩
    have listed := apply_listChildren usable (forest.attached row member)
    refine ⟨_, congrArg Prod.fst listed, row, List.mem_filter.2 ⟨member, ?_⟩, rfl⟩
    exact decide_eq_true rfl

theorem lists_iff_lineage (usable : store.database.resourceTable = .ok table)
    (forest : table.IsForest) {parent : Option Int} {id : Int} :
    Lists store parent id ↔
      ∃ ids, ((lineage id).apply store).1 = .ok ids ∧ ids.getLast? = parent := by
  rw [lists_iff_of_table usable forest]
  constructor
  · rintro ⟨row, member, rfl, under⟩
    obtain ⟨above, ancestry⟩ := (Rooted.of_isForest forest row member).exists_ancestry
    exact ⟨above, ancestry.lineage_eq usable, (ancestry.parent_eq_getLast? member).symm.trans under⟩
  · rintro ⟨ids, walked, last⟩
    cases held : table.contains id with
    | false =>
        rw [lineage_of_missing usable (Table.find?_eq_none_of_not_contains held)] at walked
        cases walked
    | true =>
        obtain ⟨row, member, rfl⟩ := Table.contains_iff.1 held
        obtain ⟨above, ancestry⟩ := (Rooted.of_isForest forest row member).exists_ancestry
        rw [id_resource, ancestry.lineage_eq usable] at walked
        cases walked
        exact ⟨row, member, rfl, (ancestry.parent_eq_getLast? member).trans last⟩

theorem perm_visits (forest : table.IsForest) {depth : Nat} (deep : table.rows.length ≤ depth) :
    ((visits table.rows depth [] none).map Visit.resource).Perm table.rows := by
  have found {visit : Visit} := @mem_visits table depth [] none rfl visit
  have apart : ((visits table.rows depth [] none).map Visit.resource).Nodup := by
    refine (List.nodup_map_iff_inj_on (nodup_visits depth [] none)).2 ?_
    intro visit visited other visitedToo same
    obtain ⟨_, ancestry, _⟩ := found.1 visited
    obtain ⟨_, again, _⟩ := found.1 visitedToo
    rw [← same] at again
    cases visit
    cases other
    cases same
    cases ancestry.unique again
    rfl
  have distinct : table.rows.Nodup := table.sorted.imp fun below same => by
    rw [same] at below
    exact lt_irrefl _ below
  refine (List.perm_ext_iff_of_nodup apart distinct).2 ?_
  intro row
  rw [List.mem_map]
  constructor
  · rintro ⟨visit, visited, rfl⟩
    exact (found.1 visited).1
  · intro member
    obtain ⟨above, ancestry⟩ := (Rooted.of_isForest forest row member).exists_ancestry
    refine ⟨⟨above, row⟩, found.2 ⟨member, ancestry, List.nil_prefix, ?_⟩, rfl⟩
    have short := ancestry.length_lt
    simp only [List.length_nil]
    omega

/-- In a forest, a resource is listed among the children of the last one in its lineage and nowhere
else, and among the roots if its lineage is empty. A walk down from the roots comes to every
resource exactly once, along its lineage, as soon as it may go as deep as there are resources. -/
theorem children_match_lineages (usable : store.database.resourceTable = .ok table)
    (forest : table.IsForest) :
    (∀ id parent, Lists store (some parent) id ↔
      ∃ ids, ((lineage id).apply store).1 = .ok ids ∧ ids.getLast? = some parent) ∧
    (∀ id, Lists store none id ↔ ((lineage id).apply store).1 = .ok []) ∧
    ∀ depth, table.rows.length ≤ depth →
      ∃ visited, (descend depth [] none).apply store = (.ok visited, store) ∧
        (visited.map Visit.resource).Perm table.rows ∧
        ∀ visit ∈ visited, ((lineage visit.resource.id).apply store).1 = .ok visit.way := by
  refine ⟨fun id parent => lists_iff_lineage usable forest, ?_, ?_⟩
  · intro id
    rw [lists_iff_lineage usable forest]
    simp only [List.getLast?_eq_none_iff]
    constructor
    · rintro ⟨ids, walked, rfl⟩
      exact walked
    · intro walked
      exact ⟨[], walked, rfl⟩
  · intro depth deep
    refine ⟨_, apply_descend usable depth [] nofun, perm_visits forest deep, ?_⟩
    intro visit visited
    obtain ⟨_, ancestry, _⟩ := (@mem_visits table depth [] none rfl visit).1 visited
    exact ancestry.lineage_eq usable

theorem children_match_lineages_grove :
    planted.database.resourceTable = .ok grove ∧ grove.IsForest ∧ Lists planted (some 2) 3 ∧
      ¬ Lists planted none 3 ∧
      ∃ visited, (descend 4 [] none).apply planted = (.ok visited, planted) ∧
        (visited.map Visit.resource).Perm grove.rows ∧
        ∀ visit ∈ visited, ((lineage visit.resource.id).apply planted).1 = .ok visit.way := by
  have usable : planted.database.resourceTable = .ok grove := rfl
  obtain ⟨below, roots, walks⟩ := children_match_lineages usable isForest_grove
  have third : ((lineage 3).apply planted).1 = .ok [1, 2] := by decide +kernel
  refine ⟨usable, isForest_grove, (below 3 2).2 ⟨[1, 2], third, rfl⟩, ?_, walks 4 (by decide)⟩
  rw [roots, third]
  decide

end Forest

end Formulary
