import Formulary.Proofs.Pass
import Formulary.Proofs.Statements

/-!
What is recorded, of the levels that are shown: a pass records its beginning, the calculations that
fail with their messages, and its end, and a rebuilt index the calculations that do not parse. Which
ones these are is settled before the first of them is processed.
-/

namespace Formulary

namespace Log.Event

def isShown (event : Event) : Bool :=
  Level.info.urgency ≤ event.level.urgency

end Log.Event

def Store.Shows (before after : Store) (shown : List Log.Event) : Prop :=
  ∃ recorded, after.log = before.log ++ recorded ∧ recorded.filter (·.isShown) = shown

def Operation.shown {ε α : Type} (operation : Operation ε α) (store : Store) : List Log.Event :=
  ((operation.apply store).2.log.drop store.log.length).filter (·.isShown)

namespace Store.Shows

variable {first second third : Store} {shown more : List Log.Event}

theorem of_events (same : second.events = first.events) : Shows first second [] := by
  refine ⟨[], ?_, rfl⟩
  rw [log, same, List.append_nil]
  rfl

theorem trans (left : Shows first second shown) (right : Shows second third more) :
    Shows first third (shown ++ more) := by
  obtain ⟨early, logged, rfl⟩ := left
  obtain ⟨late, loggedLater, rfl⟩ := right
  refine ⟨early ++ late, ?_, List.filter_append early late⟩
  rw [loggedLater, logged, List.append_assoc]

theorem record (store : Store) (event : Log.Event) :
    Shows store { store with events := event :: store.events } ([event].filter (·.isShown)) :=
  ⟨[event], List.reverse_cons, rfl⟩

theorem shown_eq {ε α : Type} {operation : Operation ε α} {store : Store}
    (shows : Shows store (operation.apply store).2 shown) : operation.shown store = shown := by
  obtain ⟨recorded, logged, rfl⟩ := shows
  rw [Operation.shown, logged, List.drop_left]

end Store.Shows

namespace Operation

open Store (Shows)

variable {ε φ α β : Type}

def Quiet (operation : Operation ε α) : Prop :=
  ∀ store, Shows store (operation.apply store).2 []

theorem quiet_pure (value : α) : Quiet (pure value : Operation ε α) :=
  fun _ => .of_events rfl

theorem quiet_throw (fault : ε) : Quiet (throw fault : Operation ε α) :=
  fun _ => .of_events rfl

theorem quiet_liftM (result : Except ε α) : Quiet (liftM result : Operation ε α) := by
  intro store
  rw [apply_liftM]
  exact .of_events rfl

theorem quiet_query (fault : φ → ε) (read : Database → Except φ α) : Quiet (query fault read) := by
  intro store
  rw [apply_query]
  exact .of_events rfl

theorem quiet_record {event : Log.Event} (hidden : event.isShown = false) :
    Quiet (record event : Operation ε Unit) := by
  intro store
  have shows := Shows.record store event
  rwa [List.filter_cons_of_neg (by simp [hidden]), List.filter_nil] at shows

theorem quiet_change [FromStorage φ] (fault : φ → ε)
    (write : Database → Except φ (α × Database)) : Quiet (change fault write) := by
  intro store
  rw [apply_change]
  split
  · exact .of_events rfl
  · split
    · exact .of_events rfl
    · split <;> exact .of_events rfl

theorem quiet_bind {operation : Operation ε α} {next : α → Operation ε β} (first : Quiet operation)
    (rest : ∀ value, Quiet (next value)) : Quiet (operation >>= next) := by
  intro store
  have early := first store
  rw [apply_bind]
  rcases ran : operation.apply store with ⟨fault | value, middle⟩ <;> rw [ran] at early
  · exact early
  · exact early.trans (rest value middle)

end Operation

namespace Recalculation

open Operation Store

theorem quiet_getCalculation (id : Int) : Quiet (getCalculation id) := by
  refine quiet_bind (quiet_query _ _) fun found => ?_
  cases found with
  | none => exact quiet_throw _
  | some calculation => exact quiet_pure _

theorem quiet_evaluate (expression : Expression) : Quiet (evaluate expression) := by
  refine quiet_bind (quiet_query _ _) fun value => ?_
  exact quiet_bind (quiet_record rfl) fun _ => quiet_pure _

theorem quiet_process (id : Int) : Quiet (process id) := by
  refine quiet_bind (quiet_getCalculation id) fun calculation => ?_
  refine quiet_bind (quiet_liftM _) fun expression => ?_
  refine quiet_bind (quiet_evaluate expression) fun value => ?_
  refine quiet_bind (quiet_change _ _) fun _ => ?_
  refine quiet_bind (quiet_change _ _) fun _ => ?_
  exact quiet_bind (quiet_record rfl) fun _ => quiet_pure _

theorem quiet_setVariable (id : Int) (value : Float) : Quiet (setVariable id value) := by
  unfold setVariable
  cases value.isFinite with
  | true =>
      refine quiet_bind (quiet_change _ _) fun _ => ?_
      refine quiet_bind (quiet_query _ _) fun found => ?_
      cases found with
      | none => exact quiet_throw _
      | some changed => exact quiet_pure _
  | false => exact quiet_throw _

theorem quiet_replaceExpression (id : Int) (expression : String) :
    Quiet (replaceExpression id expression) := by
  refine quiet_bind (quiet_liftM _) fun parsed => ?_
  exact quiet_bind (quiet_change _ _) fun _ => quiet_getCalculation id

def draftRecords {α : Type} (database : Database) (draft : Draft) (answer : Except Fault α) :
    List Log.Event :=
  match answer, draft.id with
  | .ok _, some id =>
    match database.findCalculation id with
    | .ok none => [.valueDropped id]
    | _ => []
  | _, _ => []

theorem draftRecords_of_found {α : Type} {database : Database} {draft : Draft}
    (kept : ∀ id, draft.id = some id → database.findCalculation id ≠ .ok none)
    (answer : Except Fault α) : draftRecords database draft answer = [] := by
  unfold draftRecords
  split
  · rename_i id target
    split
    · rename_i missing
      exact absurd missing (kept id target)
    · rfl
  · rfl

theorem shows_processDraft (draft : Draft) (store : Store) :
    Shows store ((processDraft draft).apply store).2
      (draftRecords store.database draft ((processDraft draft).apply store).1) := by
  unfold processDraft
  rw [apply_bind, apply_liftM]
  cases parse draft.expression with
  | error fault => exact .of_events rfl
  | ok expression =>
      dsimp only
      have evaluated := quiet_evaluate expression store
      have alike := evaluate_alike expression store
      rw [apply_bind]
      rcases ran : (evaluate expression).apply store with ⟨fault | value, middle⟩ <;>
        rw [ran] at evaluated alike
      · exact evaluated
      · dsimp only
        cases target : draft.id with
        | none =>
            rw [draftRecords_of_found (by simp [target])]
            exact evaluated
        | some id =>
            dsimp only
            have read : middle.database.findCalculation id = store.database.findCalculation id := by
              rw [alike.database]
            rw [apply_bind, apply_query, read]
            cases found : store.database.findCalculation id with
            | error fault => exact evaluated
            | ok held =>
                cases held with
                | none =>
                    have recorded := evaluated.trans (.record middle (.valueDropped id))
                    have dropped (outcome : Outcome) : draftRecords store.database draft
                        (.ok outcome) = [.valueDropped id] := by
                      simp only [draftRecords, target, found]
                    change Shows store _ (draftRecords store.database draft (.ok _))
                    rw [dropped]
                    exact recorded
                | some calculation =>
                    rw [draftRecords_of_found (by simp [target, found])]
                    have stored : Quiet (do
                        update Fault.ofStore (·.setCalculatedValue id value)
                        record (.valueStored id)
                        return ⟨some id, draft.name, draft.expression, value⟩ :
                          Action Outcome) :=
                      quiet_bind (quiet_change _ _) fun _ =>
                        quiet_bind (quiet_record rfl) fun _ => quiet_pure _
                    exact evaluated.trans (stored middle)

def createRecords {α : Type} (answer : Except Fault α) : List Log.Event :=
  match answer with
  | .ok _ => []
  | .error fault => if endsTransaction fault then [.savepointLost "create_calculation"] else []

theorem endsTransaction_ofStore (fault : StoreFault) :
    endsTransaction (Fault.ofStore fault) = endsTransaction fault := by
  cases fault with
  | notFound entity id => cases entity <;> rfl
  | _ => rfl

theorem shows_create (name text : String) (store : Store) :
    Shows store ((create name text).apply store).2
      (createRecords ((create name text).apply store).1) := by
  unfold create
  rw [apply_bind, apply_liftM]
  cases normal : normalizeName name with
  | error fault =>
      have lasting : endsTransaction fault = false := by
        rw [normalizeName_eq_error normal]
        rfl
      simp only [createRecords, lasting]
      exact .of_events rfl
  | ok given =>
      dsimp only
      rw [apply_bind, apply_liftM]
      cases read : parse text with
      | error fault =>
          have lasting : endsTransaction fault = false := by
            obtain ⟨reason, _, rfl⟩ := mapError_eq_error.1 read
            rfl
          simp only [createRecords, lasting]
          exact .of_events rfl
      | ok expression =>
          have written := quiet_change (id : StoreFault → StoreFault)
            (·.createCalculation given text expression.references) store
          dsimp only
          rw [apply_lift, apply_insert]
          rcases ran : (Operation.change (id : StoreFault → StoreFault)
            (·.createCalculation given text expression.references)).apply store with
              ⟨fault | created, middle⟩ <;> rw [ran] at written
          · simp only [mapError_error, createRecords, endsTransaction_ofStore]
            cases endsTransaction fault with
            | true =>
                exact written.trans (.record middle (.savepointLost "create_calculation"))
            | false => exact written
          · exact written

def verdict (store : Store) (id : Int) : Except Fault Unit :=
  ((process id).apply store).1.map fun _ => ()

theorem verdict_eq {store : Store} {calculations : Table Calculation}
    {dependencies : DependencyTable}
    (usable : store.database.calculationTables = .ok (calculations, dependencies)) (id : Int) :
    verdict store id =
      match calculations.find? id with
      | none => .error (.calculationNotFound id)
      | some calculation => do
        let expression ← parse calculation.expression
        let _ ← valueOf store.database expression
        match store.obstacle with
        | some reason => .error (.store (.ofStorage reason))
        | none => return () := by
  obtain ⟨answer, database, processed⟩ := exists_processed store calculations dependencies id
  obtain ⟨_, ran, _⟩ := (processed.leaves usable).apply_eq
  rw [verdict, ran]
  cases processed with
  | missing absent =>
      rw [absent]
      rfl
  | unvalued present refused =>
      rw [present]
      dsimp only
      rw [← valueOfText_bind, refused]
      rfl
  | blocked present valued unwritable =>
      rw [present]
      dsimp only
      rw [← valueOfText_bind, valued, unwritable]
      rfl
  | stored present parsed valued writable =>
      rw [present]
      dsimp only
      rw [← valueOfText_bind, valueOfText_eq_ok.2 ⟨_, parsed, valued⟩, writable]
      rfl

theorem verdict_congr {before after : Store} {calculations kept : Table Calculation}
    {dependencies index : DependencyTable} {id : Int} (obstacle : after.obstacle = before.obstacle)
    (vars : after.database.variableTable = before.database.variableTable)
    (usable : before.database.calculationTables = .ok (calculations, dependencies))
    (usableAfter : after.database.calculationTables = .ok (kept, index))
    (same : (kept.find? id).map (·.expression) = (calculations.find? id).map (·.expression)) :
    verdict after id = verdict before id := by
  rw [verdict_eq usable, verdict_eq usableAfter, obstacle]
  cases present : calculations.find? id with
  | none =>
      rw [present] at same
      rw [Option.map_eq_none_iff.1 same]
  | some calculation =>
      rw [present] at same
      obtain ⟨row, found, sameText⟩ := Option.map_eq_some_iff.1 same
      simp only [found, sameText, valueOf_of_variableTable vars]

structure KeepsVerdicts (before after : Store) : Prop where
  usable : ∃ tables, after.database.calculationTables = .ok tables
  verdict : ∀ id, verdict after id = verdict before id

theorem KeepsVerdicts.trans {first second third : Store} (left : KeepsVerdicts first second)
    (right : KeepsVerdicts second third) : KeepsVerdicts first third :=
  ⟨right.usable, fun id => (right.verdict id).trans (left.verdict id)⟩

theorem KeepsVerdicts.of_alike {before after : Store} (alike : before.Alike after)
    (usable : ∃ tables, before.database.calculationTables = .ok tables) :
    KeepsVerdicts before after := by
  obtain ⟨⟨calculations, dependencies⟩, present⟩ := usable
  have presentAfter : after.database.calculationTables = .ok (calculations, dependencies) := by
    rw [alike.database, present]
  refine ⟨⟨_, presentAfter⟩, ?_⟩
  intro id
  exact verdict_congr alike.obstacle (by rw [alike.database]) present presentAfter rfl

theorem KeepsVerdicts.of_refreshes {ids : List Int} {before after : Store}
    (refreshes : Refreshes ids before after)
    (usable : ∃ tables, before.database.calculationTables = .ok tables) :
    KeepsVerdicts before after := by
  obtain ⟨⟨calculations, dependencies⟩, present⟩ := usable
  obtain ⟨kept, index, presentAfter, rows, _⟩ := refreshes.rows present
  refine ⟨⟨_, presentAfter⟩, ?_⟩
  intro id
  refine verdict_congr refreshes.obstacle refreshes.vars present presentAfter ?_
  have same (row : Calculation) : (if row.id ∈ ids then refreshed before.database row else row).id =
      row.id ∧ (if row.id ∈ ids then refreshed before.database row else row).expression =
        row.expression := by
    split <;> simp
  simp only [Table.find?, rows, List.find?_map, Function.comp_def, id_calculation, same,
    Option.map_map]

theorem keepsVerdicts_process {store : Store}
    (usable : ∃ tables, store.database.calculationTables = .ok tables) (id : Int) :
    KeepsVerdicts store ((process id).apply store).2 := by
  by_cases writable : store.obstacle = none
  · exact .of_refreshes (process_refreshes writable id) usable
  · exact .of_alike (within_blocked_process id store writable) usable

def complaint {α : Type} (result : Except Fault α) : Option String :=
  match result with
  | .ok _ => none
  | .error fault => some fault.message

abbrev Finding : Type := Int × Option String

def Finding.record? (event : Int → String → Log.Event) (finding : Finding) : Option Log.Event :=
  finding.2.map (event finding.1)

def passRecords (variableId : Int) (findings : List Finding) : List Log.Event :=
  .passStarted variableId findings.length ::
    findings.filterMap (Finding.record? .passItemFailed) ++
      [.passFinished variableId (findings.countP (·.2.isNone)) (findings.countP (·.2.isSome))]

def findings (store : Store) (candidates : List Calculation) : List Finding :=
  candidates.map fun candidate => (candidate.id, complaint (verdict store candidate.id))

theorem findings_cons (store : Store) (candidate : Calculation) (rest : List Calculation) :
    findings store (candidate :: rest) =
      (candidate.id, complaint (verdict store candidate.id)) :: findings store rest := rfl

theorem shows_processAll {start : Store} (candidates : List Calculation) {store : Store}
    (kept : KeepsVerdicts start store) :
    ∃ updated failed after, (processAll candidates).apply store = (.ok (updated, failed), after) ∧
      Shows store after
        ((findings start candidates).filterMap (Finding.record? .passItemFailed)) ∧
      updated.length = (findings start candidates).countP (·.2.isNone) ∧
      failed.length = (findings start candidates).countP (·.2.isSome) := by
  induction candidates generalizing store with
  | nil => exact ⟨[], [], store, rfl, .of_events rfl, rfl, rfl⟩
  | cons candidate rest ih =>
      have processed := quiet_process candidate.id store
      have further := kept.trans (keepsVerdicts_process kept.usable candidate.id)
      have known := kept.verdict candidate.id
      unfold verdict at known
      unfold processAll
      rw [apply_bind, apply_attempt]
      rcases ran : (process candidate.id).apply store with ⟨fault | outcome, middle⟩ <;>
        rw [ran] at processed further known
      · have found : complaint (verdict start candidate.id) = some fault.message := by
          rw [verdict, ← known]
          rfl
        have recorded : KeepsVerdicts start { middle with
            events := .passItemFailed candidate.id fault.message :: middle.events } :=
          further.trans (.of_alike rfl further.usable)
        obtain ⟨updated, failed, after, performed, shows, passed, refused⟩ := ih recorded
        refine ⟨updated, ⟨candidate.id, candidate.name, fault.message⟩ :: failed, after, ?_, ?_,
          ?_, ?_⟩
        · dsimp only
          rw [apply_bind, apply_record]
          dsimp only
          rw [apply_bind, performed]
          rfl
        · have item := processed.trans (.record middle (.passItemFailed candidate.id fault.message))
          rw [findings_cons, found]
          exact item.trans shows
        · simpa [findings_cons, found] using passed
        · simpa [findings_cons, found] using refused
      · have found : complaint (verdict start candidate.id) = none := by
          rw [verdict, ← known]
          rfl
        obtain ⟨updated, failed, after, performed, shows, passed, refused⟩ := ih further
        refine ⟨outcome :: updated, failed, after, ?_, ?_, ?_, ?_⟩
        · dsimp only
          rw [apply_bind, performed]
          rfl
        · rw [findings_cons, found]
          exact processed.trans shows
        · simpa [findings_cons, found] using passed
        · simpa [findings_cons, found] using refused

theorem shows_recalculate {store : Store} {variableId : Int} {candidates : List Calculation}
    (dependents : store.database.dependentsOf variableId = .ok candidates) :
    Shows store ((recalculate variableId).apply store).2
      (passRecords variableId (findings store candidates)) := by
  have usable : ∃ tables, store.database.calculationTables = .ok tables := by
    obtain ⟨tables, usable, _⟩ := except_bind_eq_ok.1 dependents
    exact ⟨tables, usable⟩
  have started := Shows.record store (.passStarted variableId candidates.length)
  have kept : KeepsVerdicts store { store with
      events := .passStarted variableId candidates.length :: store.events } := .of_alike rfl usable
  obtain ⟨updated, failed, after, performed, shows, passed, refused⟩ :=
    shows_processAll candidates kept
  have finished := Shows.record after (.passFinished variableId updated.length failed.length)
  unfold recalculate
  rw [apply_bind, apply_query, dependents]
  dsimp only [mapError_ok]
  rw [apply_bind, apply_record]
  dsimp only
  rw [apply_bind, performed, passRecords, findings, List.length_map, ← findings, ← passed,
    ← refused]
  exact started.trans (shows.trans finished)

def readings (listed : List Calculation) : List Finding :=
  listed.map fun calculation => (calculation.id, complaint (parse calculation.expression))

theorem readings_cons (calculation : Calculation) (rest : List Calculation) :
    readings (calculation :: rest) =
      (calculation.id, complaint (parse calculation.expression)) :: readings rest := rfl

def indexRecords (writable : Bool) (readings : List Finding) : List Log.Event :=
  if writable || readings.all (·.2.isSome) then
    readings.filterMap (Finding.record? .indexItemSkipped) ++
      [.indexRebuilt (readings.countP (·.2.isNone)) (readings.countP (·.2.isSome))]
  else (readings.takeWhile (·.2.isSome)).filterMap (Finding.record? .indexItemSkipped)

theorem setDependencies_of_found {database : Database} {id : Int} {calculation : Calculation}
    (found : database.findCalculation id = .ok (some calculation)) (references : List Int) :
    ∃ indexed, database.setDependencies id references = .ok indexed := by
  obtain ⟨calculations, dependencies, usable, present⟩ :=
    Database.findCalculation_eq_ok_iff.1 found
  obtain ⟨member, rfl⟩ := Table.find?_eq_some_iff.1 present.symm
  exact ⟨_, Database.setDependencies_eq_ok_iff.2
    ⟨calculations, dependencies, usable, Table.contains_of_mem member, rfl⟩⟩

theorem shows_reindex {listed : List Calculation} (store : Store)
    (allowed : ∀ calculation ∈ listed, complaint (parse calculation.expression) = none →
      store.obstacle = none)
    (present : ∀ calculation ∈ listed,
      store.database.findCalculation calculation.id = .ok (some calculation)) :
    ∃ report after, (reindex listed).apply store = (.ok report, after) ∧
      Shows store after ((readings listed).filterMap (Finding.record? .indexItemSkipped)) ∧
      report.rebuilt = (readings listed).countP (·.2.isNone) ∧
      report.skipped.length = (readings listed).countP (·.2.isSome) := by
  induction listed generalizing store with
  | nil => exact ⟨⟨0, []⟩, store, rfl, .of_events rfl, rfl, rfl⟩
  | cons calculation rest ih =>
      have allowedLater : ∀ other ∈ rest, complaint (parse other.expression) = none →
          store.obstacle = none :=
        fun other inside => allowed other (List.mem_cons_of_mem _ inside)
      have presentLater : ∀ other ∈ rest,
          store.database.findCalculation other.id = .ok (some other) :=
        fun other inside => present other (List.mem_cons_of_mem _ inside)
      unfold reindex
      cases parsed : Expression.parse calculation.expression with
      | error fault =>
          have found : complaint (parse calculation.expression) = some fault.message := by
            rw [parse, parsed]
            rfl
          have item := Shows.record store (.indexItemSkipped calculation.id fault.message)
          obtain ⟨report, after, performed, shows, rebuilt, skipped⟩ := ih { store with
            events := .indexItemSkipped calculation.id fault.message :: store.events }
            allowedLater presentLater
          refine ⟨{ report with skipped := calculation.id :: report.skipped }, after, ?_, ?_, ?_, ?_⟩
          · dsimp only
            rw [apply_bind, apply_record]
            dsimp only
            rw [apply_bind, performed]
            rfl
          · rw [readings_cons, found]
            exact item.trans shows
          · simpa [readings_cons, found] using rebuilt
          · simpa [readings_cons, found] using skipped
      | ok expression =>
          have found : complaint (parse calculation.expression) = none := by
            rw [parse, parsed]
            rfl
          have writable := allowed calculation List.mem_cons_self found
          obtain ⟨indexed, written⟩ := setDependencies_of_found
            (present calculation List.mem_cons_self) expression.references
          have changed : (update Fault.ofStore
              (·.setDependencies calculation.id expression.references)).apply store =
                (.ok (), { store with database := indexed }) :=
            update_eq_ok.2 ⟨writable, indexed, written, rfl⟩
          obtain ⟨report, after, performed, shows, rebuilt, skipped⟩ := ih
            { store with database := indexed } allowedLater
            fun other inside =>
              findCalculation_after_setDependencies written (presentLater other inside)
          refine ⟨{ report with rebuilt := report.rebuilt + 1 }, after, ?_, ?_, ?_, ?_⟩
          · dsimp only
            rw [apply_bind, changed]
            dsimp only
            rw [apply_bind, performed]
            rfl
          · rw [readings_cons, found]
            exact shows
          · simpa [readings_cons, found] using rebuilt
          · simpa [readings_cons, found] using skipped

theorem shows_reindex_blocked {listed : List Calculation} (store : Store) {reason : StorageFault}
    (blocked : store.obstacle = some reason)
    (parses : ∃ calculation ∈ listed, complaint (parse calculation.expression) = none) :
    ∃ fault after, (reindex listed).apply store = (.error fault, after) ∧
      Shows store after (((readings listed).takeWhile (·.2.isSome)).filterMap
        (Finding.record? .indexItemSkipped)) := by
  induction listed generalizing store with
  | nil => simp at parses
  | cons calculation rest ih =>
      unfold reindex
      cases parsed : Expression.parse calculation.expression with
      | error fault =>
          have found : complaint (parse calculation.expression) = some fault.message := by
            rw [parse, parsed]
            rfl
          have later : ∃ other ∈ rest, complaint (parse other.expression) = none := by
            obtain ⟨other, inside, read⟩ := parses
            rcases List.mem_cons.1 inside with rfl | inside
            · rw [found] at read
              cases read
            · exact ⟨other, inside, read⟩
          have item := Shows.record store (.indexItemSkipped calculation.id fault.message)
          obtain ⟨raised, after, performed, shows⟩ := ih { store with
            events := .indexItemSkipped calculation.id fault.message :: store.events } blocked later
          refine ⟨raised, after, ?_, ?_⟩
          · dsimp only
            rw [apply_bind, apply_record]
            dsimp only
            rw [apply_bind, performed]
          · rw [readings_cons, found]
            exact item.trans shows
      | ok expression =>
          have found : complaint (parse calculation.expression) = none := by
            rw [parse, parsed]
            rfl
          refine ⟨Fault.ofStore (.ofStorage reason), store, ?_, ?_⟩
          · dsimp only
            rw [apply_bind, update, apply_change]
            simp only [blocked]
            rfl
          · rw [readings_cons, found]
            exact .of_events rfl

theorem shows_rebuildIndex {store : Store} {calculations : Table Calculation}
    {dependencies : DependencyTable}
    (usable : store.database.calculationTables = .ok (calculations, dependencies)) :
    Shows store (rebuildIndex.apply store).2
      (indexRecords store.obstacle.isNone (readings calculations.rows)) := by
  have read : store.database.listCalculations = .ok calculations.rows :=
    except_bind_eq_ok.2 ⟨_, usable, rfl⟩
  have completed (allowed : ∀ calculation ∈ calculations.rows,
      complaint (parse calculation.expression) = none → store.obstacle = none)
      (whole : (store.obstacle.isNone || (readings calculations.rows).all (·.2.isSome)) = true) :
      Shows store (rebuildIndex.apply store).2
        (indexRecords store.obstacle.isNone (readings calculations.rows)) := by
    obtain ⟨report, after, performed, shows, rebuilt, skipped⟩ := shows_reindex store allowed
      fun calculation inside => findCalculation_of_listed read inside
    have finished := Shows.record after (.indexRebuilt report.rebuilt report.skipped.length)
    unfold rebuildIndex
    rw [apply_bind, apply_query, read]
    dsimp only [mapError_ok]
    rw [apply_bind, performed, indexRecords, if_pos whole, ← rebuilt, ← skipped]
    exact shows.trans finished
  cases obstacle : store.obstacle with
  | none =>
      rw [obstacle] at completed
      exact completed (fun _ _ _ => rfl) rfl
  | some reason =>
      by_cases parses : ∃ calculation ∈ calculations.rows,
        complaint (parse calculation.expression) = none
      · obtain ⟨fault, after, performed, shows⟩ := shows_reindex_blocked store obstacle parses
        obtain ⟨calculation, inside, parsed⟩ := parses
        have partly : ¬ (readings calculations.rows).all (·.2.isSome) = true := by
          intro all
          have fails := List.all_eq_true.1 all _ (List.mem_map_of_mem inside)
          rw [parsed] at fails
          cases fails
        unfold rebuildIndex
        rw [apply_bind, apply_query, read]
        dsimp only [mapError_ok]
        rw [apply_bind, performed, indexRecords, if_neg (by simpa using partly)]
        exact shows
      · rw [obstacle] at completed
        refine completed (fun calculation inside read => absurd ⟨calculation, inside, read⟩ parses) ?_
        rw [Option.isNone_some, Bool.false_or, List.all_eq_true]
        intro reading inside
        obtain ⟨calculation, member, rfl⟩ := List.mem_map.1 inside
        cases read : complaint (parse calculation.expression) with
        | none => exact absurd ⟨calculation, member, read⟩ parses
        | some message => rfl

end Recalculation

end Formulary
