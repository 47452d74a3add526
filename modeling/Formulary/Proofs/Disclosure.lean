import Formulary.Proofs.Records

/-!
What records disclose. Between stores that differ in nothing but the texts of expressions and the
values, with the same outcome for each calculation, the records of an operation differ at most in the
messages of faults. Those show what the fault is about, be it a piece of an expression.
-/

namespace Formulary

def ArithmeticFault.bare : ArithmeticFault → ArithmeticFault
  | unexpectedCharacter _ offset => unexpectedCharacter ' ' offset
  | invalidNumber _ offset => invalidNumber [] offset
  | unexpectedToken found => unexpectedToken ⟨.finish, ⟨found.span.start, 0⟩⟩
  | notFinite _ offset => notFinite .add offset
  | fault => fault

def ExpressionFault.bare : ExpressionFault → ExpressionFault
  | malformedReference _ span _ => malformedReference [] span .missingId
  | unknownVariable id => unknownVariable id
  | arithmetic fault => arithmetic fault.bare

def Recalculation.Fault.bare : Recalculation.Fault → Recalculation.Fault
  | expression fault => expression fault.bare
  | valueNotFinite _ => valueNotFinite 0
  | fault => fault

def Log.Event.mapMessage (change : String → String) : Log.Event → Log.Event
  | passItemFailed calculation message => passItemFailed calculation (change message)
  | indexItemSkipped calculation message => indexItemSkipped calculation (change message)
  | event => event

def Log.Event.bare (event : Log.Event) : Log.Event :=
  event.mapMessage fun _ => ""

theorem Log.Event.mapMessage_id (event : Log.Event) : event.mapMessage id = event := by
  cases event <;> rfl

namespace Database

structure Outline where
  version : Int
  vars : Option (List Column × Nat × List (Int × String))
  calculations : Option (List Column × Nat × List (Int × String))
  dependencies : Option DependencyTable
  resources : Option (Table Resource)

def outline (database : Database) : Outline where
  version := database.version
  vars := database.vars.map fun table =>
    (table.columns, table.lastId, table.rows.map fun row => (row.id, row.name))
  calculations := database.calculations.map fun table =>
    (table.columns, table.lastId, table.rows.map fun row => (row.id, row.name))
  dependencies := database.dependencies
  resources := database.resources

structure SameRows (calculations others : Table Calculation) : Prop where
  lastId : calculations.lastId = others.lastId
  ids : calculations.rows.map (·.id) = others.rows.map (·.id)

theorem calculationTables_of_outline {left right : Database} (same : left.outline = right.outline) :
    (∃ reason, left.calculationTables = .error reason ∧ right.calculationTables = .error reason) ∨
      ∃ calculations others dependencies, left.calculationTables = .ok (calculations, dependencies) ∧
        right.calculationTables = .ok (others, dependencies) ∧ SameRows calculations others := by
  have version : left.requireVersion = right.requireVersion := by
    unfold requireVersion recordedVersion
    rw [show left.version = right.version from congrArg Outline.version same]
  have dependencies : left.dependencies = right.dependencies := congrArg Outline.dependencies same
  have calculations := congrArg Outline.calculations same
  simp only [outline] at calculations
  unfold calculationTables usable
  rw [version, dependencies]
  cases right.requireVersion with
  | error reason => exact .inl ⟨reason, rfl, rfl⟩
  | ok _ =>
      cases here : left.calculations with
      | none =>
          rw [here] at calculations
          rw [Option.map_eq_none_iff.1 calculations.symm]
          exact .inl ⟨_, rfl, rfl⟩
      | some table =>
          rw [here] at calculations
          obtain ⟨other, there, equal⟩ := Option.map_eq_some_iff.1 calculations.symm
          simp only [Prod.mk.injEq] at equal
          obtain ⟨columns, lastId, rows⟩ := equal
          have ids : table.rows.map (·.id) = other.rows.map (·.id) := by
            have firsts := congrArg (List.map Prod.fst) rows
            simpa [List.map_map, Function.comp_def] using firsts.symm
          rw [there]
          simp only [bind, Except.bind, columns]
          cases requireColumns .calculations table.columns with
          | error reason => exact .inl ⟨reason, rfl, rfl⟩
          | ok _ =>
              cases right.dependencies with
              | none => exact .inl ⟨_, rfl, rfl⟩
              | some index =>
                  dsimp only
                  cases requireColumns .dependencies index.columns with
                  | error reason => exact .inl ⟨reason, rfl, rfl⟩
                  | ok _ => exact .inr ⟨table, other, index, rfl, rfl, lastId.symm, ids⟩

end Database

theorem map_congr_of_keys {α β κ γ : Type} {key : α → κ} {otherKey : β → κ} {value : α → γ}
    {otherValue : β → γ} {list : List α} {others : List β}
    (keys : list.map key = others.map otherKey)
    (values : ∀ x ∈ list, ∀ y ∈ others, key x = otherKey y → value x = otherValue y) :
    list.map value = others.map otherValue := by
  induction list generalizing others with
  | nil =>
      cases others with
      | nil => rfl
      | cons y rest => cases keys
  | cons x rest ih =>
      cases others with
      | nil => cases keys
      | cons y others =>
          obtain ⟨first, later⟩ := List.cons.inj keys
          rw [List.map_cons, List.map_cons, values x List.mem_cons_self y List.mem_cons_self first]
          rw [ih later fun x inside y among same =>
            values x (List.mem_cons_of_mem _ inside) y (List.mem_cons_of_mem _ among) same]

namespace Recalculation

open Operation Store

def Finding.mapMessage (change : String → String) (finding : Finding) : Finding :=
  (finding.1, finding.2.map change)

section

variable (change : String → String) (findings : List Finding)

theorem filterMap_mapMessage (event : Int → String → Log.Event)
    (changed : ∀ id message, (event id message).mapMessage change = event id (change message)) :
    (findings.filterMap (Finding.record? event)).map (·.mapMessage change) =
      (findings.map (Finding.mapMessage change)).filterMap (Finding.record? event) := by
  rw [List.map_filterMap, List.filterMap_map]
  congr 1
  funext finding
  simp only [Finding.record?, Finding.mapMessage, Function.comp_apply, Option.map_map]
  congr 1
  funext message
  exact changed finding.1 message

theorem passRecords_mapMessage (variableId : Int) :
    (passRecords variableId findings).map (·.mapMessage change) =
      passRecords variableId (findings.map (Finding.mapMessage change)) := by
  have items := filterMap_mapMessage change findings .passItemFailed fun _ _ => rfl
  simp only [passRecords, List.map_cons, List.map_append, items, List.length_map, List.countP_map]
  simp [Finding.mapMessage, Function.comp_def, Log.Event.mapMessage]

theorem indexRecords_mapMessage (writable : Bool) :
    (indexRecords writable findings).map (·.mapMessage change) =
      indexRecords writable (findings.map (Finding.mapMessage change)) := by
  have items (findings : List Finding) :=
    filterMap_mapMessage change findings .indexItemSkipped fun _ _ => rfl
  have all : (findings.map (Finding.mapMessage change)).all (·.2.isSome) =
      findings.all (·.2.isSome) := by
    simp [Finding.mapMessage, Function.comp_def]
  unfold indexRecords
  rw [all]
  split
  · rw [List.map_append, items, List.countP_map, List.countP_map]
    simp [Finding.mapMessage, Function.comp_def, Log.Event.mapMessage]
  · rw [items, List.takeWhile_map]
    simp [Finding.mapMessage, Function.comp_def]

end

def Agree {α β γ : Type} (view : Fault → γ) (left : Except Fault α) (right : Except Fault β) : Prop :=
  (left.map fun _ => ()).mapError view = (right.map fun _ => ()).mapError view

/-- Whether in two stores the calculations have the same outcomes in a view of faults, when their
expressions are read and when they are processed, also the one that a task brings along. -/
structure SameOutcomes {γ : Type} (view : Fault → γ) (task : Task) (left right : Store) : Prop where
  read : ∀ id calculation other, left.database.findCalculation id = .ok (some calculation) →
    right.database.findCalculation id = .ok (some other) →
      Agree view (parse calculation.expression) (parse other.expression)
  processed : ∀ id, Agree view ((process id).apply left).1 ((process id).apply right).1
  drafted : ∀ draft, task = .processDraft draft →
    Agree view ((processDraft draft).apply left).1 ((processDraft draft).apply right).1

structure SameOutline (left right : Store) : Prop where
  database : left.database.outline = right.database.outline
  obstacle : left.obstacle = right.obstacle

def Hides {γ : Type} (change : String → String) (view : Fault → γ) : Prop :=
  ∀ fault other, view fault = view other → change fault.message = change other.message

section Runs

variable {γ : Type} {view : Fault → γ} {change : String → String} {left right : Store}

theorem Agree.complaint_eq {α β : Type} {result : Except Fault α} {other : Except Fault β}
    (agree : Agree view result other) (hides : Hides change view) :
    (complaint result).map change = (complaint other).map change := by
  unfold Agree at agree
  cases result with
  | ok _ =>
      cases other with
      | ok _ => rfl
      | error _ => cases agree
  | error fault =>
      cases other with
      | ok _ => cases agree
      | error reason =>
          exact congrArg some (hides fault reason (Except.error.inj agree))

theorem SameRows.isSome_find? {calculations others : Table Calculation}
    (rows : Database.SameRows calculations others) (id : Int) :
    (calculations.find? id).isSome = (others.find? id).isSome := by
  have found (table : Table Calculation) :
      (table.find? id).isSome = ((table.rows.map (·.id)).find? (· = id)).isSome := by
    rw [List.find?_map, Option.isSome_map]
    rfl
  rw [found, found, rows.ids]

theorem draftRecords_congr {α β : Type} {draft : Draft} {result : Except Fault α}
    {other : Except Fault β} (same : SameOutline left right) (agree : Agree view result other) :
    draftRecords left.database draft result = draftRecords right.database draft other := by
  unfold Agree at agree
  cases result with
  | error _ =>
      cases other with
      | error _ => rfl
      | ok _ => cases agree
  | ok _ =>
      cases other with
      | error _ => cases agree
      | ok _ =>
          unfold draftRecords
          cases draft.id with
          | none => rfl
          | some id =>
              unfold Database.findCalculation
              dsimp only
              rcases Database.calculationTables_of_outline same.database with
                ⟨reason, refused, refusedToo⟩ |
                ⟨calculations, others, dependencies, usable, usableToo, rows⟩
              · rw [refused, refusedToo]
              · have found := SameRows.isSome_find? rows id
                rw [usable, usableToo]
                simp only [bind, Except.bind, except_pure]
                cases here : calculations.find? id <;> cases there : others.find? id <;>
                  simp [here, there] at found ⊢

theorem createRecords_congr (same : SameOutline left right) (name text : String) :
    createRecords ((create name text).apply left).1 =
      createRecords ((create name text).apply right).1 := by
  unfold create
  simp only [apply_bind, apply_liftM]
  cases normalizeName name with
  | error fault => rfl
  | ok given =>
      cases parse text with
      | error fault => rfl
      | ok expression =>
          dsimp only
          simp only [apply_lift, apply_insert, apply_change, same.obstacle,
            Database.createCalculation]
          cases right.obstacle with
          | some reason => rfl
          | none =>
              rcases Database.calculationTables_of_outline same.database with
                ⟨reason, refused, refusedToo⟩ |
                ⟨calculations, others, dependencies, usable, usableToo, rows⟩
              · rw [refused, refusedToo]
                rfl
              · have next : calculations.nextId? = others.nextId? := by
                  unfold Table.nextId?
                  rw [rows.lastId]
                rw [usable, usableToo]
                simp only [bind, Except.bind, next]
                cases others.nextId? <;> rfl

theorem findings_congr (hides : Hides change view)
    (agree : ∀ id, Agree view ((process id).apply left).1 ((process id).apply right).1)
    {candidates others : List Calculation} (ids : candidates.map (·.id) = others.map (·.id)) :
    (findings left candidates).map (Finding.mapMessage change) =
      (findings right others).map (Finding.mapMessage change) := by
  unfold findings verdict
  rw [List.map_map, List.map_map]
  refine map_congr_of_keys ids ?_
  intro calculation _ other _ same
  have complaints (store : Store) (id : Int) :
      complaint (((process id).apply store).1.map fun _ => ()) =
        complaint ((process id).apply store).1 := by
    cases ((process id).apply store).1 <;> rfl
  simp only [Function.comp_apply, Finding.mapMessage, complaints]
  rw [same, (agree other.id).complaint_eq hides]

theorem shown_recalculate_congr (same : SameOutline left right) (hides : Hides change view)
    (agree : ∀ id, Agree view ((process id).apply left).1 ((process id).apply right).1)
    (variableId : Int) :
    ((recalculate variableId).shown left).map (·.mapMessage change) =
      ((recalculate variableId).shown right).map (·.mapMessage change) := by
  rcases Database.calculationTables_of_outline same.database with
    ⟨reason, refused, refusedToo⟩ | ⟨calculations, others, dependencies, usable, usableToo, rows⟩
  · have nothing {store : Store} (refused : store.database.calculationTables = .error reason) :
        (recalculate variableId).shown store = [] := by
      refine Shows.shown_eq (.of_events ?_)
      unfold recalculate Database.dependentsOf
      rw [apply_bind, apply_query, refused]
      rfl
    rw [nothing refused, nothing refusedToo]
  · have dependents {store : Store} {table : Table Calculation}
        (usable : store.database.calculationTables = .ok (table, dependencies)) :
        store.database.dependentsOf variableId =
          .ok (table.rows.filter fun row => ⟨row.id, variableId⟩ ∈ dependencies.rows) :=
      except_bind_eq_ok.2 ⟨_, usable, rfl⟩
    have ids (table : Table Calculation) :
        (table.rows.filter fun row => ⟨row.id, variableId⟩ ∈ dependencies.rows).map (·.id) =
          (table.rows.map (·.id)).filter fun id => ⟨id, variableId⟩ ∈ dependencies.rows := by
      rw [List.filter_map]
      rfl
    rw [(shows_recalculate (dependents usable)).shown_eq,
      (shows_recalculate (dependents usableToo)).shown_eq, passRecords_mapMessage,
      passRecords_mapMessage, findings_congr hides agree]
    rw [ids, ids, rows.ids]

theorem shown_rebuildIndex_congr (same : SameOutline left right) (hides : Hides change view)
    (agree : ∀ id calculation other,
      left.database.findCalculation id = .ok (some calculation) →
        right.database.findCalculation id = .ok (some other) →
          Agree view (parse calculation.expression) (parse other.expression)) :
    (rebuildIndex.shown left).map (·.mapMessage change) =
      (rebuildIndex.shown right).map (·.mapMessage change) := by
  rcases Database.calculationTables_of_outline same.database with
    ⟨reason, refused, refusedToo⟩ | ⟨calculations, others, dependencies, usable, usableToo, rows⟩
  · have nothing {store : Store} (refused : store.database.calculationTables = .error reason) :
        rebuildIndex.shown store = [] := by
      refine Shows.shown_eq (.of_events ?_)
      unfold rebuildIndex Database.listCalculations
      rw [apply_bind, apply_query, refused]
      rfl
    rw [nothing refused, nothing refusedToo]
  · have found {store : Store} {table : Table Calculation} {row : Calculation}
        (usable : store.database.calculationTables = .ok (table, dependencies))
        (member : row ∈ table.rows) : store.database.findCalculation row.id = .ok (some row) :=
      findCalculation_of_listed (except_bind_eq_ok.2 ⟨_, usable, rfl⟩) member
    rw [(shows_rebuildIndex usable).shown_eq, (shows_rebuildIndex usableToo).shown_eq,
      indexRecords_mapMessage, indexRecords_mapMessage, same.obstacle]
    congr 1
    unfold readings
    rw [List.map_map, List.map_map]
    refine map_congr_of_keys rows.ids ?_
    intro calculation member other memberToo sameId
    have here := found usable member
    rw [sameId] at here
    have read := agree other.id calculation other here (found usableToo memberToo)
    simp only [Function.comp_apply, Finding.mapMessage, sameId, read.complaint_eq hides]

theorem shown_congr (same : SameOutline left right) (hides : Hides change view) {task : Task}
    (outcomes : SameOutcomes view task left right) :
    (task.action.shown left).map (·.mapMessage change) =
      (task.action.shown right).map (·.mapMessage change) := by
  have silent {α : Type} {operation : Action α} (quiet : Quiet operation) :
      (operation.shown left).map (·.mapMessage change) =
        (operation.shown right).map (·.mapMessage change) := by
    rw [(quiet left).shown_eq, (quiet right).shown_eq]
  cases task with
  | process id => exact silent (quiet_process id)
  | processDraft draft =>
      change ((processDraft draft).shown left).map _ = ((processDraft draft).shown right).map _
      rw [(shows_processDraft draft left).shown_eq, (shows_processDraft draft right).shown_eq,
        draftRecords_congr same (outcomes.drafted draft rfl)]
  | recalculate variableId => exact shown_recalculate_congr same hides outcomes.processed variableId
  | outcomes variableId =>
      have updated (store : Store) :
          (Task.outcomes variableId).action.shown store = (recalculate variableId).shown store := by
        have same : ((Task.outcomes variableId).action.apply store).2 =
          ((recalculate variableId).apply store).2 := after_bind_pure (fun _ _ => rfl) store
        exact congrArg (fun reached : Store =>
          (reached.log.drop store.log.length).filter (·.isShown)) same
      rw [updated, updated]
      exact shown_recalculate_congr same hides outcomes.processed variableId
  | create name text =>
      change ((create name text).shown left).map _ = ((create name text).shown right).map _
      rw [(shows_create name text left).shown_eq, (shows_create name text right).shown_eq,
        createRecords_congr same]
  | replaceExpression id text => exact silent (quiet_replaceExpression id text)
  | getCalculation id => exact silent (quiet_getCalculation id)
  | rebuildIndex => exact shown_rebuildIndex_congr same hides outcomes.read
  | setVariable id value => exact silent (quiet_setVariable id value)

end Runs

/-- Between stores that are the same but for texts and values, with the same outcomes up to what the
texts say, the records of a task that are shown differ at most in the messages of faults; and not
even there, if the faults have the same messages. -/
theorem records_apart_from_messages {task : Task} {left right : Store}
    (same : SameOutline left right) :
    (SameOutcomes Fault.bare task left right →
      (task.action.shown left).map Log.Event.bare = (task.action.shown right).map Log.Event.bare) ∧
    (SameOutcomes Fault.message task left right →
      task.action.shown left = task.action.shown right) := by
  refine ⟨fun outcomes => ?_, fun outcomes => ?_⟩
  · exact shown_congr same (fun _ _ _ => rfl) outcomes
  · have alike : (task.action.shown left).map (·.mapMessage id) =
        (task.action.shown right).map (·.mapMessage id) :=
      shown_congr same (fun _ _ messages => messages) outcomes
    simpa [Log.Event.mapMessage_id] using alike

def spelled (text : String) : Store :=
  .ofDatabase
    { version := Database.latestVersion
      vars := some ((Table.empty TableName.vars.columns).put ⟨1, "x", some 2⟩)
      calculations := some ((Table.empty TableName.calculations.columns).put
        ⟨1, "total", text, none⟩)
      dependencies := some ((DependencyTable.empty TableName.dependencies.columns).put ⟨1, 1⟩)
      resources := some (.empty TableName.resources.columns) } none

theorem parse_of_stray {text : String} {c : Char} {fault : ArithmeticFault}
    (single : text.toList = [c]) (solid : Text.isBlank c = false)
    (stray : Lexeme.scan 0 c [] = (.stray fault, 0)) :
    Expression.parse text = .error (.arithmetic fault) := by
  unfold Expression.parse Token.ofText
  rw [single, Token.scanFrom, solid, stray]
  simp [Token.scanFrom, Except.map]

theorem tables_spelled (text : String) :
    ∃ calculations dependencies,
      (spelled text).database.calculationTables = .ok (calculations, dependencies) ∧
        ∀ id, calculations.find? id = if id = 1 then some ⟨1, "total", text, none⟩ else none := by
  refine ⟨_, _, rfl, ?_⟩
  intro id
  by_cases same : id = 1
  · subst same
    rfl
  · rw [if_neg same]
    exact List.find?_eq_none.2 (by simp [Table.put, Table.empty, Table.insertRow, Ne.symm same])

theorem sameOutcomes_spelled {γ : Type} {view : Fault → γ} {task : Task} {text other : String}
    {fault reason : Fault} (fails : parse text = .error fault) (failsToo : parse other = .error reason)
    (same : view fault = view reason) (stored : ∀ draft, task ≠ .processDraft draft) :
    SameOutcomes view task (spelled text) (spelled other) := by
  obtain ⟨calculations, _, usable, here⟩ := tables_spelled text
  obtain ⟨others, _, usableToo, there⟩ := tables_spelled other
  refine ⟨?_, ?_, fun draft drafted => absurd drafted (stored draft)⟩
  · intro id calculation row found foundToo
    obtain ⟨_, _, again, present⟩ := Database.findCalculation_eq_ok_iff.1 found
    obtain ⟨_, _, againToo, presentToo⟩ := Database.findCalculation_eq_ok_iff.1 foundToo
    rw [usable] at again
    rw [usableToo] at againToo
    cases again
    cases againToo
    rw [here] at present
    rw [there] at presentToo
    by_cases first : id = 1
    · rw [if_pos first] at present presentToo
      cases present
      cases presentToo
      rw [fails, failsToo]
      exact congrArg Except.error same
    · rw [if_neg first] at present
      cases present
  · intro id
    change (verdict _ id).mapError view = (verdict _ id).mapError view
    rw [verdict_eq usable, verdict_eq usableToo, here, there]
    by_cases first : id = 1
    · simp only [first, if_true, fails, failsToo]
      exact congrArg Except.error same
    · simp only [first, if_false]

theorem records_apart_from_messages_unfinished :
    SameOutline (spelled "+") (spelled "(") ∧
    SameOutcomes Fault.message (.recalculate 1) (spelled "+") (spelled "(") ∧
    (Task.recalculate 1).action.shown (spelled "+") =
      (Task.recalculate 1).action.shown (spelled "(") := by
  have outline : SameOutline (spelled "+") (spelled "(") := ⟨rfl, rfl⟩
  have message {text : String} (fails : complaint (parse text) =
      some "expression ended where an operand was expected") :
      ∃ fault, parse text = .error fault ∧
        fault.message = "expression ended where an operand was expected" := by
    cases read : parse text with
    | ok expression => simp [read, complaint] at fails
    | error fault =>
        rw [read] at fails
        exact ⟨fault, rfl, Option.some.inj fails⟩
  obtain ⟨fault, fails, here⟩ := @message "+" (by decide +kernel)
  obtain ⟨reason, failsToo, there⟩ := @message "(" (by decide +kernel)
  have outcomes : SameOutcomes Fault.message (.recalculate 1) (spelled "+") (spelled "(") :=
    sameOutcomes_spelled fails failsToo (here.trans there.symm) nofun
  exact ⟨outline, outcomes, (records_apart_from_messages outline).2 outcomes⟩

/-- The message of a fault tells two expressions apart that fail in the same way, at the same
place. -/
theorem records_apart_from_messages_stray :
    SameOutline (spelled "$") (spelled "#") ∧
    SameOutcomes Fault.bare (.recalculate 1) (spelled "$") (spelled "#") ∧
    (Task.recalculate 1).action.shown (spelled "$") =
      [.passStarted 1 1, .passItemFailed 1 "unexpected character `$` at offset 0",
        .passFinished 1 0 1] ∧
    (Task.recalculate 1).action.shown (spelled "#") =
      [.passStarted 1 1, .passItemFailed 1 "unexpected character `#` at offset 0",
        .passFinished 1 0 1] := by
  have fails {text : String} {c : Char} {fault : ArithmeticFault} (single : text.toList = [c])
      (solid : Text.isBlank c = false) (stray : Lexeme.scan 0 c [] = (.stray fault, 0)) :
      parse text = .error (.expression (.arithmetic fault)) := by
    rw [parse, parse_of_stray single solid stray]
    rfl
  refine ⟨⟨rfl, rfl⟩, ?_, by decide +kernel, by decide +kernel⟩
  refine sameOutcomes_spelled (@fails "$" '$' _ rfl rfl rfl) (@fails "#" '#' _ rfl rfl rfl) rfl ?_
  intro draft impossible
  cases impossible

end Recalculation

end Formulary
