import Formulary.Proofs.Migration
import Formulary.Store.Maintenance

/-!
Stores with a history. It makes no difference whether a store is brought to the latest version
before rows are put into it, or afterwards, or in parts: the tables that rows were put into are
kept, and what is new in a version depends on no row.
-/

namespace Formulary

inductive Insertion
  | vars (id : Int) (name : String) (value : Float)
  | calculations (row : Calculation)
  | dependencies (guarded : Bool) (row : Dependency)
  | resources (guarded : Bool) (row : Resource)

namespace Insertion

def table : Insertion → TableName
  | vars _ _ _ => .vars
  | calculations _ => .calculations
  | dependencies _ _ => .dependencies
  | resources _ _ => .resources

def edit : Insertion → Maintenance.Edit
  | vars id name value => Maintenance.addVariable id name value
  | calculations row => fun database => do
    let (count, longer) ← Maintenance.addCalculation row.id row.name row.expression database
    return (count, { longer with
      calculations := longer.calculations.map fun table =>
        Database.withCalculatedValue table row.id (row.value.bind Database.cell) })
  | dependencies guarded row => Maintenance.addDependency guarded row.calculation row.variableId
  | resources guarded row => Maintenance.addResource guarded row.id row.name row.parent

end Insertion

namespace Database

def taking? (database : Database) (row : Insertion) : Option Database :=
  (row.edit database).toOption.map (·.2)

def insert (database : Database) (row : Insertion) : Database :=
  (database.taking? row).getD database

def fill (database : Database) (rows : List Insertion) : Database :=
  rows.foldl insert database

def owns (database : Database) (calculation : Int) : Bool :=
  database.calculations.any (·.contains calculation)

theorem exists_longer_vars (id : Int) (name : String) (value : Float)
    (table : Table StoredVariable) :
    ∃ result : Option (Table StoredVariable), ∀ database : Database, database.vars = some table →
      database.taking? (.vars id name value) =
        result.map fun longer => { database with vars := some longer } := by
  refine ⟨({ blank with vars := some table }.taking? (.vars id name value)).bind (·.vars),
    fun database present => ?_⟩
  unfold taking? Insertion.edit Maintenance.addVariable
  simp only [present]
  cases fillable .vars ["id", "name", "value"] Table.columns (some table) with
  | error fault => rfl
  | ok found =>
      dsimp only [bind, Except.bind]
      by_cases missing : ((cell value).isNone && found.columns.any fun column =>
          sameName column.name "value" && column.required) = true
      · simp only [missing]
        rfl
      · simp only [missing]
        cases Maintenance.requireFree .vars found id <;> rfl

theorem exists_longer_calculations (row : Calculation) (table : Table Calculation) :
    ∃ result : Option (Table Calculation), ∀ database : Database,
      database.calculations = some table → database.taking? (.calculations row) =
        result.map fun longer => { database with calculations := some longer } := by
  refine ⟨({ blank with calculations := some table }.taking? (.calculations row)).bind
    (·.calculations), fun database present => ?_⟩
  unfold taking? Insertion.edit Maintenance.addCalculation
  simp only [present]
  cases fillable .calculations ["id", "name", "expression"] Table.columns (some table) with
  | error fault => rfl
  | ok found =>
      dsimp only [bind, Except.bind]
      cases Maintenance.requireFree .calculations found row.id <;> rfl

theorem exists_longer_resources (guarded : Bool) (row : Resource) (table : Table Resource) :
    ∃ result : Option (Table Resource), ∀ database : Database,
      database.resources = some table → database.taking? (.resources guarded row) =
        result.map fun longer => { database with resources := some longer } := by
  refine ⟨({ blank with resources := some table }.taking? (.resources guarded row)).bind
    (·.resources), fun database present => ?_⟩
  unfold taking? Insertion.edit Maintenance.addResource
  simp only [present]
  cases fillable .resources ["id", "name", "parentId"] Table.columns (some table) with
  | error fault => rfl
  | ok found =>
      dsimp only [bind, Except.bind]
      cases Maintenance.requireFree .resources found row.id with
      | error fault => rfl
      | ok free =>
          dsimp only
          cases Maintenance.parentAllowed guarded (found.put ⟨row.id, row.name, row.parent⟩)
            row.parent <;> rfl

theorem exists_longer_dependencies (guarded : Bool) (row : Dependency) (table : DependencyTable)
    (owned : Bool) :
    ∃ result : Option DependencyTable, ∀ database : Database,
      database.dependencies = some table → database.owns row.calculation = owned →
        database.taking? (.dependencies guarded row) =
          result.map fun longer => { database with dependencies := some longer } := by
  refine ⟨({ blank with dependencies := some table }.taking?
    (.dependencies (guarded && !owned) row)).bind (·.dependencies), fun database present owns => ?_⟩
  subst owns
  unfold taking? Insertion.edit Maintenance.addDependency Maintenance.requireParents Database.owns
  simp only [present]
  cases fillable .dependencies ["calculation_id", "variable_id"] DependencyTable.columns
      (some table) with
  | error fault => rfl
  | ok found =>
      dsimp only [bind, Except.bind]
      by_cases taken : (⟨row.calculation, row.variableId⟩ : Dependency) ∈ found.rows <;>
        simp only [taken]
      all_goals
        cases guarded with
        | false => rfl
        | true =>
            cases database.calculations with
            | none => rfl
            | some calculations =>
                cases owned : calculations.contains row.calculation <;>
                  simp only [Option.any_some, owned] <;> rfl

theorem insert_of_taking {database : Database} {row : Insertion} {name : TableName}
    {table : name.Content} {result : Option name.Content}
    (present : database.table? name = some table)
    (made : database.taking? row = result.map (database.withTable name)) :
    database.insert row = database.withTable name (result.getD table) := by
  unfold insert
  rw [made]
  cases result with
  | none => exact (withTable_self present).symm
  | some longer => rfl

theorem exists_longer (row : Insertion) (table : row.table.Content) (owners : Int → Bool) :
    ∃ longer, ∀ database : Database, database.table? row.table = some table →
      (∀ id, database.owns id = owners id) →
        database.insert row = database.withTable row.table longer := by
  cases row with
  | vars id name value =>
      obtain ⟨result, makes⟩ := exists_longer_vars id name value table
      exact ⟨_, fun database present _ => insert_of_taking present (makes database present)⟩
  | calculations row =>
      obtain ⟨result, makes⟩ := exists_longer_calculations row table
      exact ⟨_, fun database present _ => insert_of_taking present (makes database present)⟩
  | dependencies guarded row =>
      obtain ⟨result, makes⟩ := exists_longer_dependencies guarded row table (owners row.calculation)
      exact ⟨_, fun database present owns =>
        insert_of_taking present (makes database present (owns row.calculation))⟩
  | resources guarded row =>
      obtain ⟨result, makes⟩ := exists_longer_resources guarded row table
      exact ⟨_, fun database present _ => insert_of_taking present (makes database present)⟩

variable {database : Database}

theorem apply_withTable (migration : Migration) (database : Database) (name : TableName)
    (table : name.Content) :
    migration.apply (database.withTable name table) =
      (migration.apply database).withTable name table := by
  have version : (migration.apply (database.withTable name table)).version =
      ((migration.apply database).withTable name table).version := by
    rw [version_withTable]
    rfl
  refine eq_of_tables version fun other => ?_
  rw [table?_apply, table?_withTable, table?_withTable]
  by_cases same : other = name
  · subst same
    simp
  · simp [Function.update_of_ne same, table?_apply]

theorem owns_apply (migration : Migration) (database : Database) (id : Int) :
    (migration.apply database).owns id = database.owns id := by
  have made := table?_apply migration database .calculations
  change (migration.apply database).calculations =
    if _ then some (database.calculations.getD _) else database.calculations at made
  unfold owns
  rw [made]
  cases database.calculations with
  | none => split <;> rfl
  | some calculations => split <;> rfl

theorem table?_isSome_applyAll {name : TableName} (migrations : List Migration)
    (present : (database.table? name).isSome) :
    ((database.applyAll migrations).table? name).isSome := by
  rw [table?_applyAll]
  split
  · rfl
  · exact present

theorem insert_apply (migration : Migration) {row : Insertion}
    (present : (database.table? row.table).isSome) :
    (migration.apply database).insert row = migration.apply (database.insert row) := by
  obtain ⟨table, held⟩ := Option.isSome_iff_exists.1 present
  have kept : (migration.apply database).table? row.table = some table := by
    rw [table?_apply, held]
    simp
  obtain ⟨longer, makes⟩ := exists_longer row table database.owns
  rw [makes database held fun _ => rfl,
    makes (migration.apply database) kept (owns_apply migration database), apply_withTable]

theorem insert_of_present {row : Insertion} (present : (database.table? row.table).isSome) :
    ∃ longer, database.insert row = database.withTable row.table longer := by
  obtain ⟨table, held⟩ := Option.isSome_iff_exists.1 present
  obtain ⟨longer, makes⟩ := exists_longer row table database.owns
  exact ⟨longer, makes database held fun _ => rfl⟩

theorem table?_isSome_insert {row : Insertion} (present : (database.table? row.table).isSome)
    {name : TableName} (held : (database.table? name).isSome) :
    ((database.insert row).table? name).isSome := by
  obtain ⟨longer, same⟩ := insert_of_present present
  rw [same, table?_withTable]
  by_cases equal : name = row.table
  · subst equal
    simp
  · rwa [Function.update_of_ne equal]

theorem insert_applyAll (migrations : List Migration) {row : Insertion}
    (present : (database.table? row.table).isSome) :
    (database.applyAll migrations).insert row = (database.insert row).applyAll migrations := by
  induction migrations generalizing database with
  | nil => rfl
  | cons migration rest ih =>
      have kept : ((migration.apply database).table? row.table).isSome :=
        table?_isSome_applyAll [migration] present
      change ((migration.apply database).applyAll rest).insert row =
        (migration.apply (database.insert row)).applyAll rest
      rw [ih kept, insert_apply migration present]

def HasPlaces (database : Database) (rows : List Insertion) : Prop :=
  ∀ row ∈ rows, (database.table? row.table).isSome

theorem HasPlaces.rest {row : Insertion} {rows : List Insertion}
    (places : database.HasPlaces (row :: rows)) : (database.insert row).HasPlaces rows :=
  fun other later => table?_isSome_insert (places row List.mem_cons_self)
    (places other (List.mem_cons_of_mem _ later))

theorem fill_applyAll (migrations : List Migration) {rows : List Insertion}
    (places : database.HasPlaces rows) :
    (database.applyAll migrations).fill rows = (database.fill rows).applyAll migrations := by
  induction rows generalizing database with
  | nil => rfl
  | cons row rest ih =>
      change ((database.applyAll migrations).insert row).fill rest =
        ((database.insert row).fill rest).applyAll migrations
      rw [insert_applyAll migrations (places row List.mem_cons_self), ih places.rest]

theorem version_fill {rows : List Insertion} (places : database.HasPlaces rows) :
    (database.fill rows).version = database.version := by
  induction rows generalizing database with
  | nil => rfl
  | cons row rest ih =>
      obtain ⟨longer, same⟩ := insert_of_present (places row List.mem_cons_self)
      have first : (database.insert row).version = database.version := by
        rw [same, version_withTable]
      exact (ih places.rest).trans first

theorem fill_upTo (version : Nat) {rows : List Insertion} (places : database.HasPlaces rows) :
    (database.fill rows).upTo version = (database.upTo version).fill rows := by
  unfold upTo
  rw [version_fill places, fill_applyAll _ places]

structure Stage where
  version : Nat
  rows : List Insertion

def undergo (database : Database) (stage : Stage) : Database :=
  (database.upTo stage.version).fill stage.rows

/-- Whether rows are only put into tables that are there by then, at versions that are supported. -/
def Supports : Database → List Stage → Prop
  | _, [] => True
  | database, stage :: rest =>
    stage.version ≤ latestVersion ∧ (database.upTo stage.version).HasPlaces stage.rows ∧
      (database.undergo stage).Supports rest

/-- A database with a history that is brought to the latest version is what it would be had it been
brought there at first. -/
theorem upTo_of_history {stages : List Stage} (supported : database.Supports stages) :
    (stages.foldl undergo database).upTo latestVersion =
      (database.upTo latestVersion).fill (stages.flatMap (·.rows)) := by
  induction stages generalizing database with
  | nil => rfl
  | cons stage rest ih =>
      obtain ⟨older, places, further⟩ := supported
      calc
        (rest.foldl undergo (database.undergo stage)).upTo latestVersion =
            ((database.undergo stage).upTo latestVersion).fill (rest.flatMap (·.rows)) := ih further
        _ = (((database.upTo stage.version).upTo latestVersion).fill stage.rows).fill
              (rest.flatMap (·.rows)) := by rw [undergo, fill_upTo latestVersion places]
        _ = ((database.upTo latestVersion).fill stage.rows).fill (rest.flatMap (·.rows)) := by
              rw [upTo_upTo database older]
        _ = (database.upTo latestVersion).fill ((stage :: rest).flatMap (·.rows)) := by
              rw [List.flatMap_cons, fill, fill, fill, List.foldl_append]

theorem known_undergo {stage : Stage} (known : database.Known)
    (older : stage.version ≤ latestVersion)
    (places : (database.upTo stage.version).HasPlaces stage.rows) :
    (database.undergo stage).Known := by
  obtain ⟨natural, supported⟩ := known
  obtain ⟨atLeast, atMost, _⟩ := version_upTo database stage.version
  unfold Known undergo
  rw [version_fill places]
  omega

theorem known_history {stages : List Stage} (known : database.Known)
    (supported : database.Supports stages) : (stages.foldl undergo database).Known := by
  induction stages generalizing database with
  | nil => exact known
  | cons stage rest ih =>
      obtain ⟨older, places, further⟩ := supported
      exact ih (known_undergo known older places) further

theorem supports_first (unrecorded : database.version = 0) {rows : List Insertion}
    (first : ∀ row ∈ rows, row.table ∈ Migration.initial.tables) :
    database.Supports [⟨1, rows⟩] := by
  refine ⟨(by decide : 1 ≤ latestVersion), fun row given => ?_, trivial⟩
  have due : Migration.initial ∈ Migration.between database.version 1 :=
    Migration.mem_between.2 ⟨by simp [Migration.all], by rw [unrecorded]; decide, Nat.le_refl 1⟩
  rw [upTo, table?_applyAll, if_pos ⟨_, due, first row given⟩]
  rfl

end Database

namespace Store

/-- Migrations are applied as a whole: they fail and leave the store as it is, always so if what is
recorded is no version or one that is not known, or they lead to the latest version, keep every
table that was there and create those that were missing. Then they change nothing any more, and
what is at the latest version is opened as it is. A store that was brought to versions on the way,
with rows put in there, ends as one that was brought to the latest version at first and was given
these rows then. -/
theorem migrate_as_a_whole (store : Store) :
    (∀ fault after, migrate.apply store = (.error fault, after) → after = store) ∧
    (store.database.version < 0 ∨ Database.latestVersion < store.database.version →
      ∃ fault, migrate.apply store = (.error fault, store)) ∧
    (0 ≤ store.database.version → store.database.version ≤ Database.latestVersion →
      store.obstacle = none → store.saved = none →
        ∃ after, migrate.apply store = (.ok Database.latestVersion, after)) ∧
    (∀ version after, migrate.apply store = (.ok version, after) →
      version = Database.latestVersion ∧ { store with database := after.database }.Alike after ∧
        store.database.Upgraded after.database ∧
        migrate.apply after = (.ok Database.latestVersion, after)) ∧
    (∀ mode content obstacle, (opening mode (.database content obstacle)).1 =
      match migrate.apply (.ofDatabase content obstacle) with
      | (.ok _, after) => .ok (.ofDatabase after.database obstacle)
      | (.error fault, _) => .error fault) ∧
    (∀ mode (content : Database) obstacle, content.version = Database.latestVersion →
      (opening mode (.database content obstacle)).1 = .ok (.ofDatabase content obstacle)) ∧
    ∀ database : Database, database.Known → ∀ stages, database.Supports stages →
      ∃ after direct,
        migrate.apply (.ofDatabase (stages.foldl Database.undergo database) none) =
          (.ok Database.latestVersion, after) ∧
        migrate.apply (.ofDatabase database none) = (.ok Database.latestVersion, direct) ∧
        after.database = direct.database.fill (stages.flatMap (·.rows)) := by
  refine ⟨fun fault after failed => ?_, fun beyond => ?_, fun natural supported writable idle => ?_,
    fun version after ran => ?_, opening_eq_migrate, fun mode content obstacle latest => ?_,
    fun database known stages supported => ?_⟩
  · rcases migrate_cases store with ⟨_, refused⟩ | ⟨_, _, done, _⟩
    · rw [refused] at failed
      cases failed
      rfl
    · rw [done] at failed
      cases failed
  · have unknown : ¬ store.database.Known := fun known => by
      obtain ⟨_, _⟩ := known
      omega
    obtain ⟨fault, refused⟩ := Database.pending_of_unknown unknown
    exact ⟨fault, migrate_of_refused refused⟩
  · obtain ⟨after, ran, _⟩ := migrate_of_free ⟨natural, supported⟩ ⟨writable, idle⟩
    exact ⟨after, ran⟩
  · rcases migrate_cases store with ⟨_, refused⟩ | ⟨known, _, done, alike⟩
    · rw [refused] at ran
      cases ran
    · rw [done] at ran
      cases ran
      have same : after.database = store.database.upTo Database.latestVersion := alike.database
      have upgraded := Database.upgraded known
      rw [← same] at alike upgraded
      exact ⟨rfl, alike, upgraded, migrate_of_latest upgraded.version⟩
  · rw [opening_eq_migrate, migrate_of_latest (by exact latest)]
    rfl
  · obtain ⟨after, ran, alike⟩ := @migrate_of_free (.ofDatabase _ none)
      (Database.known_history known supported) ⟨rfl, rfl⟩
    obtain ⟨direct, ranDirect, alikeDirect⟩ := @migrate_of_free (.ofDatabase database none) known
      ⟨rfl, rfl⟩
    refine ⟨after, direct, ran, ranDirect, ?_⟩
    rw [alike.database, alikeDirect.database]
    exact Database.upTo_of_history supported

def unfinished : Database :=
  { Database.blank with
    version := 1
    vars := some ⟨TableName.vars.columns, [⟨3, "kept", some 1.5⟩], 5, by decide, by decide⟩ }

theorem migrate_as_a_whole_unfinished :
    (∃ after, migrate.apply (.ofDatabase unfinished none) = (.ok 2, after) ∧
      after.database.vars = unfinished.vars ∧ after.database.dependencies.isSome) ∧
    (∃ fault, migrate.apply (.ofDatabase { unfinished with version := 3 } none) =
      (.error fault, .ofDatabase { unfinished with version := 3 } none)) ∧
    ∀ rows : List Insertion, (∀ row ∈ rows, row.table ∈ Migration.initial.tables) →
      ∃ after direct,
        migrate.apply (.ofDatabase ((Database.blank.upTo 1).fill rows) none) = (.ok 2, after) ∧
        migrate.apply (.ofDatabase .blank none) = (.ok 2, direct) ∧
        after.database = direct.database.fill rows := by
  refine ⟨?_, ?_, fun rows first => ?_⟩
  · obtain ⟨_, _, succeeds, upgrades, _⟩ := migrate_as_a_whole (.ofDatabase unfinished none)
    obtain ⟨after, ran⟩ := succeeds (by decide) (by decide) rfl rfl
    obtain ⟨_, _, upgraded, _⟩ := upgrades _ _ ran
    exact ⟨after, ran, upgraded.kept .vars _ rfl,
      upgraded.present Migration.dependencyIndex (by simp [Migration.all]) (by decide)
        .dependencies (by decide)⟩
  · exact (migrate_as_a_whole (.ofDatabase { unfinished with version := 3 } none)).2.1
      (.inr (by decide))
  · obtain ⟨after, direct, ran, ranDirect, same⟩ :=
      (migrate_as_a_whole (.ofDatabase .blank none)).2.2.2.2.2.2 .blank ⟨by decide, by decide⟩ [⟨1, rows⟩]
        (Database.supports_first rfl first)
    rw [List.flatMap_cons, List.flatMap_nil, List.append_nil] at same
    exact ⟨after, direct, ran, ranDirect, same⟩

end Store

end Formulary
