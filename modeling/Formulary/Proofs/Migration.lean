import Formulary.Proofs.Transaction
import Formulary.Store.Opening
import Mathlib.Logic.Function.Basic

/-!
Migrations of a store. A store is brought to the latest version as a whole or left as it is: the
tables of the versions above the recorded one are there afterwards, and every table that was there
is what it was. What is at the latest version already stays as it is, also when it is opened again.
-/

namespace Formulary

def TableName.Content : TableName → Type
  | .vars => Table StoredVariable
  | .calculations => Table Calculation
  | .dependencies => DependencyTable
  | .resources => Table Resource

def TableName.created : (name : TableName) → name.Content
  | .vars => (.empty TableName.vars.columns : Table StoredVariable)
  | .calculations => (.empty TableName.calculations.columns : Table Calculation)
  | .dependencies => DependencyTable.empty TableName.dependencies.columns
  | .resources => (.empty TableName.resources.columns : Table Resource)

namespace Database

def table? (database : Database) : (name : TableName) → Option name.Content
  | .vars => database.vars
  | .calculations => database.calculations
  | .dependencies => database.dependencies
  | .resources => database.resources

def withTable (database : Database) : (name : TableName) → name.Content → Database
  | .vars, table => { database with vars := some table }
  | .calculations, table => { database with calculations := some table }
  | .dependencies, table => { database with dependencies := some table }
  | .resources, table => { database with resources := some table }

variable {database other : Database}

theorem eq_of_tables (version : database.version = other.version)
    (tables : ∀ name, database.table? name = other.table? name) : database = other := by
  obtain ⟨_, _, _, _, _⟩ := database
  obtain ⟨_, _, _, _, _⟩ := other
  have vars := tables .vars
  have calculations := tables .calculations
  have dependencies := tables .dependencies
  have resources := tables .resources
  cases version
  cases vars
  cases calculations
  cases dependencies
  cases resources
  rfl

theorem table?_withTable (database : Database) (name : TableName) (table : name.Content) :
    (database.withTable name table).table? = Function.update database.table? name (some table) := by
  funext other
  cases name <;> cases other <;> rfl

@[simp] theorem version_withTable (database : Database) (name : TableName) (table : name.Content) :
    (database.withTable name table).version = database.version := by
  cases name <;> rfl

theorem withTable_self {name : TableName} {table : name.Content}
    (present : database.table? name = some table) : database.withTable name table = database := by
  refine eq_of_tables (version_withTable _ _ _) fun other => ?_
  rw [table?_withTable, ← present, Function.update_eq_self]

theorem table?_ensure (database : Database) (made name : TableName) :
    (database.ensure made).table? name =
      if name = made then some ((database.table? name).getD name.created)
      else database.table? name := by
  cases made <;> cases name <;> rfl

theorem table?_create (database : Database) (names : List TableName) (name : TableName) :
    (names.foldl ensure database).table? name =
      if name ∈ names then some ((database.table? name).getD name.created)
      else database.table? name := by
  induction names generalizing database with
  | nil => rfl
  | cons made rest ih =>
      rw [List.foldl_cons, ih, table?_ensure]
      by_cases here : name = made <;> by_cases later : name ∈ rest <;> simp [here, later]

theorem table?_apply (migration : Migration) (database : Database) (name : TableName) :
    (migration.apply database).table? name =
      if name ∈ migration.tables then some ((database.table? name).getD name.created)
      else database.table? name := by
  have same : (migration.apply database).table? name = (migration.create database).table? name := by
    cases name <;> rfl
  rw [same, Migration.create, table?_create]

theorem applyAll_append (database : Database) (first later : List Migration) :
    database.applyAll (first ++ later) = (database.applyAll first).applyAll later :=
  List.foldl_append

theorem table?_applyAll (database : Database) (migrations : List Migration) (name : TableName) :
    (database.applyAll migrations).table? name =
      if ∃ migration ∈ migrations, name ∈ migration.tables then
        some ((database.table? name).getD name.created)
      else database.table? name := by
  induction migrations generalizing database with
  | nil => simp [applyAll]
  | cons migration rest ih =>
      have next : database.applyAll (migration :: rest) =
          (migration.apply database).applyAll rest := rfl
      rw [next, ih, table?_apply]
      by_cases here : name ∈ migration.tables <;>
        by_cases later : ∃ other ∈ rest, name ∈ other.tables <;> simp [here, later]

theorem version_applyAll {migrations : List Migration}
    (sorted : migrations.Pairwise (·.version < ·.version)) :
    migrations = [] ∧ database.applyAll migrations = database ∨
      ∃ last ∈ migrations, (database.applyAll migrations).version = last.version ∧
        ∀ migration ∈ migrations, migration.version ≤ last.version := by
  rcases List.eq_nil_or_concat migrations with rfl | ⟨earlier, last, rfl⟩
  · exact .inl ⟨rfl, rfl⟩
  · refine .inr ⟨last, by simp, ?_, fun migration listed => ?_⟩
    · rw [List.concat_eq_append, applyAll_append]
      rfl
    · rw [List.concat_eq_append] at sorted listed
      rcases List.mem_append.1 listed with before | final
      · exact Nat.le_of_lt ((List.pairwise_append.1 sorted).2.2 migration before last (by simp))
      · cases List.mem_singleton.1 final
        exact Nat.le_refl _

end Database

def Migration.between (found : Int) (version : Nat) : List Migration :=
  all.filter fun migration => found < migration.version ∧ migration.version ≤ version

def Database.upTo (database : Database) (version : Nat) : Database :=
  database.applyAll (Migration.between database.version version)

namespace Migration

theorem sorted_all : all.Pairwise (·.version < ·.version) := by
  decide

theorem mem_between {found : Int} {version : Nat} {migration : Migration} :
    migration ∈ between found version ↔
      migration ∈ all ∧ found < migration.version ∧ migration.version ≤ version := by
  simp [between]

theorem between_of_reached {found : Int} {version : Nat} (reached : version ≤ found) :
    between found version = [] := by
  refine List.filter_eq_nil_iff.2 fun migration _ => ?_
  rw [decide_eq_true_iff]
  omega

theorem filter_split {migrations : List Migration}
    (sorted : migrations.Pairwise (·.version < ·.version)) (chosen : Migration → Bool)
    (version : Nat) :
    migrations.filter chosen =
      (migrations.filter fun migration => chosen migration && migration.version ≤ version) ++
        migrations.filter fun migration => chosen migration && version < migration.version := by
  induction migrations with
  | nil => rfl
  | cons migration rest ih =>
      obtain ⟨above, sorted⟩ := List.pairwise_cons.1 sorted
      by_cases low : migration.version ≤ version
      · simp only [List.filter_cons, ih sorted, low, Nat.not_lt.2 low]
        cases chosen migration <;> simp
      · have none_low : (rest.filter fun other => chosen other && other.version ≤ version) = [] := by
          refine List.filter_eq_nil_iff.2 fun other later => ?_
          have := above other later
          simp only [Bool.and_eq_true, decide_eq_true_eq]
          omega
        simp only [List.filter_cons, ih sorted, low, none_low, Nat.lt_of_not_le low]
        cases chosen migration <;> simp

end Migration

namespace Database

variable {database : Database}

theorem version_upTo (database : Database) (version : Nat) :
    database.version ≤ (database.upTo version).version ∧
      (database.upTo version).version ≤ max database.version version ∧
      ∀ migration ∈ Migration.all, migration.version ≤ version →
        (migration.version : Int) ≤ (database.upTo version).version := by
  have sorted := Migration.sorted_all.filter fun migration =>
    database.version < migration.version ∧ migration.version ≤ version
  have chosen {migration : Migration} (listed : migration ∈ Migration.all)
      (above : database.version < migration.version) (low : migration.version ≤ version) :
      migration ∈ Migration.between database.version version :=
    Migration.mem_between.2 ⟨listed, above, low⟩
  rcases @version_applyAll database _ sorted with ⟨nothing, same⟩ | ⟨last, listed, reached, greatest⟩
  · have same : database.upTo version = database := same
    rw [same]
    refine ⟨Int.le_refl _, Int.le_max_left _ _, fun migration listed low => ?_⟩
    by_contra above
    have pending := chosen listed (by omega) low
    have nothing : Migration.between database.version version = [] := nothing
    rw [nothing] at pending
    cases pending
  · have reached : (database.upTo version).version = last.version := reached
    obtain ⟨_, above, low⟩ := Migration.mem_between.1 listed
    rw [reached]
    refine ⟨by omega, by omega, fun migration known within => ?_⟩
    by_cases pending : database.version < migration.version
    · exact Int.ofNat_le.2 (greatest migration (chosen known pending within))
    · omega

/-- A database that is brought to a version on the way is brought as far as one that is not. -/
theorem upTo_upTo (database : Database) {first last : Nat} (ordered : first ≤ last) :
    (database.upTo first).upTo last = database.upTo last := by
  obtain ⟨atLeast, atMost, known⟩ := version_upTo database first
  have split : Migration.between database.version last =
      Migration.between database.version first ++
        Migration.between (database.upTo first).version last := by
    unfold Migration.between
    rw [Migration.filter_split Migration.sorted_all _ first]
    congr 1
    · refine List.filter_congr fun migration _ => ?_
      simp only [← Bool.decide_and]
      exact decide_eq_decide.2 (by omega)
    · refine List.filter_congr fun migration listed => ?_
      have := known migration listed
      simp only [← Bool.decide_and]
      exact decide_eq_decide.2 (by omega)
  have further : (database.upTo first).upTo last =
      (database.applyAll (Migration.between database.version first)).applyAll
        (Migration.between (database.upTo first).version last) := rfl
  rw [further, ← applyAll_append, ← split]
  rfl

end Database
namespace Database

variable {database : Database}

def Known (database : Database) : Prop :=
  0 ≤ database.version ∧ database.version ≤ latestVersion

theorem pending_of_known (known : database.Known) :
    database.pendingMigrations = .ok (Migration.between database.version latestVersion) := by
  obtain ⟨natural, supported⟩ := known
  have low : ∀ migration ∈ Migration.all, migration.version ≤ latestVersion := by decide
  unfold pendingMigrations recordedVersion
  rw [if_neg (Int.not_lt.2 natural)]
  dsimp only
  rw [if_neg (by omega), Except.ok.injEq]
  refine List.filter_congr fun migration listed => ?_
  have := low migration listed
  exact decide_eq_decide.2 (by omega)

theorem pending_of_unknown (unknown : ¬ database.Known) :
    ∃ fault, database.pendingMigrations = .error fault := by
  unfold Known at unknown
  unfold pendingMigrations recordedVersion
  by_cases natural : database.version < 0
  · exact ⟨_, by rw [if_pos natural]⟩
  · refine ⟨.unsupportedVersion database.version.toNat latestVersion, ?_⟩
    rw [if_neg natural]
    dsimp only
    rw [if_pos (by omega)]

theorem version_upTo_latest (known : database.Known) :
    (database.upTo latestVersion).version = latestVersion := by
  obtain ⟨_, supported⟩ := known
  obtain ⟨_, atMost, reached⟩ := version_upTo database latestVersion
  have last := reached Migration.dependencyIndex (by simp [Migration.all]) (by decide)
  have same : Migration.dependencyIndex.version = latestVersion := rfl
  omega

theorem upTo_of_nothing {version : Nat}
    (nothing : Migration.between database.version version = []) :
    database.upTo version = database := by
  unfold upTo
  rw [nothing]
  rfl

end Database

namespace Store

variable {store after : Store}

theorem update_sure (writable : store.obstacle = none) (write : Database → Database) :
    (Operation.update (id : DatabaseFault → DatabaseFault) fun database =>
        .ok (write database)).apply store =
      (.ok (), { store with database := write store.database }) :=
  Operation.update_eq_ok.2 ⟨writable, _, rfl, rfl⟩

theorem apply_createTables (writable : store.obstacle = none) (names : List TableName) :
    (createTables names).apply store =
      (.ok (), { store with database := names.foldl Database.ensure store.database }) := by
  induction names generalizing store with
  | nil => rfl
  | cons name rest ih =>
      unfold createTables
      rw [Operation.apply_bind, update_sure writable]
      exact ih writable

theorem apply_applyMigrations (writable : store.obstacle = none) (migrations : List Migration) :
    ∃ after, (applyMigrations migrations).apply store = (.ok (), after) ∧
      { store with database := store.database.applyAll migrations }.Alike after := by
  induction migrations generalizing store with
  | nil => exact ⟨store, rfl, rfl⟩
  | cons migration rest ih =>
      have recorded := @update_sure
        { store with database := migration.tables.foldl Database.ensure store.database } writable
        fun database => { database with version := migration.version }
      unfold applyMigrations
      rw [Operation.apply_bind, apply_createTables writable]
      dsimp only
      rw [Operation.apply_bind, recorded]
      dsimp only
      rw [Operation.apply_bind, Operation.apply_record]
      obtain ⟨after, ran, alike⟩ := @ih { store with
        database := migration.apply store.database
        events := .migrated migration.version migration.name :: store.events } writable
      exact ⟨after, ran, alike⟩

theorem applyMigrations_blocked {reason : StorageFault} (blocked : store.obstacle = some reason)
    (migration : Migration) (rest : List Migration) :
    (applyMigrations (migration :: rest)).apply store = (.error (.storage reason), store) := by
  have refused (write : Database → Except DatabaseFault Database) :
      (Operation.update id write).apply store = (.error (.storage reason), store) := by
    unfold Operation.update
    rw [Operation.apply_change, blocked]
    rfl
  unfold applyMigrations
  rw [Operation.apply_bind]
  cases migration.tables with
  | nil =>
      unfold createTables
      rw [Operation.apply_pure]
      dsimp only
      rw [Operation.apply_bind, refused]
  | cons name names =>
      unfold createTables
      rw [Operation.apply_bind, refused]

def Free (store : Store) : Prop :=
  store.obstacle = none ∧ store.saved = none

theorem runMigrations_free (free : store.Free) (pending : List Migration) :
    ∃ after, (runMigrations pending).apply store = (.ok (), after) ∧
      { store with database := store.database.applyAll pending }.Alike after := by
  obtain ⟨writable, idle⟩ := free
  cases pending with
  | nil => exact ⟨store, rfl, rfl⟩
  | cons migration rest =>
      obtain ⟨middle, ran, alike⟩ := @apply_applyMigrations
        { store with saved := some store.database } writable (migration :: rest)
      unfold runMigrations
      rw [Operation.apply_transaction idle, ran]
      dsimp only
      rw [alike.saved]
      exact ⟨_, rfl, .of_fields alike.database alike.obstacle idle.symm⟩

theorem runMigrations_of_open {kept : Database} (opened : store.saved = some kept)
    {pending : List Migration} (due : pending ≠ []) :
    (runMigrations pending).apply store = (.error (.storage .nestedTransaction), store) := by
  obtain ⟨migration, rest, rfl⟩ := List.exists_cons_of_ne_nil due
  unfold runMigrations Operation.transaction
  rw [Operation.apply_bind, Operation.apply_begin, opened]
  rfl

theorem runMigrations_of_obstacle {reason : StorageFault} (idle : store.saved = none)
    (blocked : store.obstacle = some reason) {pending : List Migration} (due : pending ≠ []) :
    (runMigrations pending).apply store = (.error (.storage reason), store) := by
  obtain ⟨migration, rest, rfl⟩ := List.exists_cons_of_ne_nil due
  unfold runMigrations
  rw [Operation.apply_transaction idle, applyMigrations_blocked (by exact blocked)]
  simp [rollBack, ← idle]

theorem migrate_of_refused {fault : DatabaseFault}
    (refused : store.database.pendingMigrations = .error fault) :
    migrate.apply store = (.error fault, store) := by
  unfold migrate
  rw [Operation.apply_bind, Operation.apply_query, refused]
  rfl

theorem migrate_of_known (known : store.database.Known) :
    migrate.apply store =
      match (runMigrations (Migration.between store.database.version Database.latestVersion)).apply
        store with
      | (.ok (), after) => (after.database.recordedVersion.mapError .storage, after)
      | (.error fault, after) => (.error fault, after) := by
  unfold migrate
  rw [Operation.apply_bind, Operation.apply_query, Database.pending_of_known known]
  dsimp only [mapError_ok]
  rw [Operation.apply_bind]
  rcases (runMigrations (Migration.between store.database.version Database.latestVersion)).apply
    store with ⟨fault | done, after⟩
  · rfl
  · dsimp only
    rw [Operation.apply_bind, Operation.apply_get]
    dsimp only
    cases after.database.recordedVersion <;> rfl

theorem migrate_of_free (known : store.database.Known) (free : store.Free) :
    ∃ after, migrate.apply store = (.ok Database.latestVersion, after) ∧
      { store with database := store.database.upTo Database.latestVersion }.Alike after := by
  obtain ⟨after, ran, alike⟩ := runMigrations_free free
    (Migration.between store.database.version Database.latestVersion)
  have version : after.database.version = Database.latestVersion := by
    rw [alike.database]
    exact Database.version_upTo_latest known
  refine ⟨after, ?_, alike⟩
  rw [migrate_of_known known, ran]
  dsimp only
  rw [Database.recordedVersion, version]
  rfl

theorem migrate_of_latest (latest : store.database.version = Database.latestVersion) :
    migrate.apply store = (.ok Database.latestVersion, store) := by
  have known : store.database.Known := ⟨by omega, by omega⟩
  have nothing := Migration.between_of_reached (Int.le_of_eq latest.symm)
  rw [migrate_of_known known, nothing]
  unfold runMigrations
  rw [Operation.apply_pure]
  dsimp only
  rw [Database.recordedVersion, latest]
  rfl

theorem migrate_cases (store : Store) :
    (∃ fault, migrate.apply store = (.error fault, store)) ∨
      store.database.Known ∧ ∃ after, migrate.apply store = (.ok Database.latestVersion, after) ∧
        { store with database := store.database.upTo Database.latestVersion }.Alike after := by
  by_cases known : store.database.Known
  · by_cases free : store.Free
    · exact .inr ⟨known, migrate_of_free known free⟩
    · by_cases nothing : Migration.between store.database.version Database.latestVersion = []
      · have same := Database.upTo_of_nothing nothing
        have latest := Database.version_upTo_latest known
        rw [same] at latest
        refine .inr ⟨known, store, migrate_of_latest latest, ?_⟩
        rw [same]
        exact .refl store
      · cases opened : store.saved with
        | some kept =>
            exact .inl ⟨_, by rw [migrate_of_known known, runMigrations_of_open opened nothing]⟩
        | none =>
            obtain ⟨reason, blocked⟩ := Option.ne_none_iff_exists'.1 fun writable =>
              free ⟨writable, opened⟩
            refine .inl ⟨.storage reason, ?_⟩
            rw [migrate_of_known known, runMigrations_of_obstacle opened blocked nothing]
  · obtain ⟨fault, refused⟩ := Database.pending_of_unknown known
    exact .inl ⟨fault, migrate_of_refused refused⟩

theorem opening_eq_migrate (mode : StoreMode) (content : Database)
    (obstacle : Option StorageFault) :
    (opening mode (.database content obstacle)).1 =
      match migrate.apply (.ofDatabase content obstacle) with
      | (.ok _, after) => .ok (.ofDatabase after.database obstacle)
      | (.error fault, _) => .error fault := by
  by_cases known : content.Known
  · have migrated : content.migrate = .ok (Migration.between content.version Database.latestVersion,
        content.upTo Database.latestVersion) := by
      unfold Database.migrate
      rw [Database.pending_of_known known]
      rfl
    unfold opening
    dsimp only
    rw [migrated]
    cases due : Migration.between content.version Database.latestVersion with
    | nil =>
        have same := Database.upTo_of_nothing due
        have latest := Database.version_upTo_latest known
        rw [same] at latest ⊢
        rw [migrate_of_latest (by exact latest)]
        rfl
    | cons migration rest =>
        cases obstacle with
        | none =>
            obtain ⟨after, ran, alike⟩ := @migrate_of_free (.ofDatabase content none) known ⟨rfl, rfl⟩
            rw [ran]
            dsimp only
            rw [alike.database]
            rfl
        | some reason =>
            have blocked := @runMigrations_of_obstacle (.ofDatabase content (some reason)) _ rfl rfl
              _ (List.cons_ne_nil migration rest)
            have recorded : (ofDatabase content (some reason)).database.version = content.version :=
              rfl
            rw [migrate_of_known (by exact known), recorded, due, blocked]
  · obtain ⟨fault, refused⟩ := Database.pending_of_unknown known
    rw [migrate_of_refused (by exact refused)]
    unfold opening Database.migrate
    dsimp only
    rw [refused]
    rfl

end Store

/-- Whether a database is another one at the latest version: the tables of the versions above what
was recorded are there, those that were there are what they were, and the others are new. -/
structure Database.Upgraded (before after : Database) : Prop where
  version : after.version = latestVersion
  present : ∀ migration ∈ Migration.all, before.version < migration.version →
    ∀ name ∈ migration.tables, (after.table? name).isSome
  kept : ∀ name table, before.table? name = some table → after.table? name = some table
  created : ∀ name table, before.table? name = none → after.table? name = some table →
    table = name.created

theorem Database.upgraded {database : Database} (known : database.Known) :
    database.Upgraded (database.upTo latestVersion) := by
  refine ⟨version_upTo_latest known, fun migration listed above name made => ?_,
    fun name table held => ?_, fun name table missing held => ?_⟩
  · have low : ∀ migration ∈ Migration.all, migration.version ≤ latestVersion := by decide
    have due := Migration.mem_between.2 ⟨listed, above, low migration listed⟩
    rw [upTo, table?_applyAll, if_pos ⟨migration, due, made⟩]
    rfl
  · rw [upTo, table?_applyAll, held]
    split <;> rfl
  · rw [upTo, table?_applyAll, missing] at held
    split at held
    · cases held
      rfl
    · cases held

end Formulary
