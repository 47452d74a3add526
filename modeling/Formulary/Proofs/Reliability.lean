import Formulary.Proofs.Reader
import Formulary.Proofs.Services

/-!
Reliability: whatever is asked of a new store, by requests and by calls of the services, no answer
blames the store as long as its tables are not full, and numbers are answered wherever values are due.
-/

namespace Formulary

open Operation
open FaultOrigin (internal)

namespace Json

inductive Member : Json → String → Json → Prop
  | here {fields : List (String × Json)} {key : String} {value : Json}
      (listed : (key, value) ∈ fields) : Member (.object fields) key value
  | field {fields : List (String × Json)} {other key : String} {inner value : Json}
      (listed : (other, inner) ∈ fields) (within : Member inner key value) :
      Member (.object fields) key value
  | item {items : List Json} {key : String} {inner value : Json} (listed : inner ∈ items)
      (within : Member inner key value) : Member (.array items) key value

def IsNumber : Json → Prop
  | .number (.integer _) => True
  | .number (.real value) => value.isFinite = true
  | _ => False

def Numeric (json : Json) : Prop :=
  ∀ key value, json.Member key value → key = "value" ∨ key = "calculatedValue" → value.IsNumber

theorem isNumber_finite {value : Float} (solid : value.isFinite = true) : (finite value).IsNumber := by
  unfold finite
  rw [if_pos solid]
  exact solid

theorem numeric_text (text : String) : (Json.text text).Numeric :=
  nofun

theorem numeric_integer (value : Int) : (integer value).Numeric :=
  nofun

theorem numeric_finite (value : Float) : (finite value).Numeric := by
  unfold finite
  split <;> nofun

theorem numeric_ofOption {α : Type} {write : α → Json} (each : ∀ value, (write value).Numeric)
    (value : Option α) : (ofOption write value).Numeric := by
  cases value with
  | none => nofun
  | some given => exact each given

theorem numeric_array {items : List Json} (each : ∀ item ∈ items, item.Numeric) :
    (array items).Numeric := by
  intro key value member due
  cases member with
  | item listed within => exact each _ listed key value within due

theorem numeric_ofFields {fields : List (String × Json)}
    (each : ∀ pair ∈ fields, pair.2.Numeric ∧
      (pair.1 = "value" ∨ pair.1 = "calculatedValue" → pair.2.IsNumber)) :
    (ofFields fields).Numeric := by
  intro key value member due
  cases member with
  | here inside => exact (each _ (mem_of_ofFields rfl inside)).2 due
  | field inside within => exact (each _ (mem_of_ofFields rfl inside)).1 key value within due

end Json

open Json

theorem Resource.numeric_toJson (resource : Resource) : resource.toJson.Numeric := by
  refine numeric_ofFields ?_
  simp [numeric_integer, numeric_text, numeric_ofOption numeric_integer]

theorem Variable.numeric_toJson {row : Variable} (solid : row.value.isFinite = true) :
    row.toJson.Numeric := by
  refine numeric_ofFields ?_
  simp [numeric_integer, numeric_text, numeric_finite, isNumber_finite solid]

theorem Outcome.numeric_toJson {outcome : Outcome} (solid : outcome.value.isFinite = true) :
    outcome.toJson.Numeric := by
  refine numeric_ofFields ?_
  cases outcome.id <;> simp [numeric_integer, numeric_text, numeric_finite, isNumber_finite solid]

variable {kept : Option Database} {used : Tally} {store : Store}

namespace Task

def Regular : Task → Prop
  | table (.createVariable _ value) => value.isFinite = true
  | table .seed => True
  | table _ => False
  | recalculation _ => True
  | forest _ => True

instance : (task : Task) → FaultOrigin task.Fault
  | table _ => inferInstanceAs (FaultOrigin StoreFault)
  | recalculation _ => inferInstanceAs (FaultOrigin Recalculation.Fault)
  | forest _ => inferInstanceAs (FaultOrigin Forest.Fault)

def created : (task : Task) → task.Value → Tally
  | table (.createVariable _ _), _ => .one .vars
  | table .seed, added => Demo.created added
  | recalculation (.create _ _), _ => .one .calculations
  | forest (.create _ _), _ => .one .resources
  | _, _ => fun _ => 0

theorem behaves_operation {task : Task} (regular : task.Regular) (healthy : store.Healthy used kept)
    (room : ∀ name, used name < greatestId.toNat) :
    Behaves kept used (fun value => used.add (task.created value)) (fun _ => True)
      (task.operation.apply store) := by
  cases task with
  | table task =>
      cases task with
      | createVariable name value => exact behaves_createVariable healthy (room _) name regular
      | seed => exact Demo.behaves_seed healthy
      | _ => exact absurd regular not_false
  | recalculation task =>
      refine behaves_bind (Recalculation.keeps_ready store healthy) fun _ middle _ _ healthy => ?_
      cases task with
      | create name text => exact Recalculation.behaves_create healthy (room _) name text
      | process id => exact (Recalculation.keeps_process id).silent middle healthy
      | processDraft draft => exact (Recalculation.keeps_processDraft draft).silent middle healthy
      | recalculate id => exact (Recalculation.keeps_recalculate id).silent middle healthy
      | outcomes id =>
          exact keeps_bind (Recalculation.keeps_recalculate id) (fun _ _ => keeps_pure trivial)
            middle healthy
      | replaceExpression id text => exact Recalculation.keeps_replaceExpression id text middle healthy
      | getCalculation id => exact Recalculation.keeps_getCalculation id middle healthy
      | rebuildIndex => exact Recalculation.keeps_rebuildIndex middle healthy
      | setVariable id value => exact (Recalculation.keeps_setVariable id value).silent middle healthy
  | forest task =>
      refine behaves_bind (Forest.keeps_ready store healthy) fun _ middle _ _ healthy => ?_
      cases task with
      | create name parent => exact Forest.behaves_create healthy (room _) name parent
      | getResource id => exact Forest.keeps_getResource id middle healthy
      | listChildren parent => exact Forest.keeps_listChildren parent middle healthy
      | lineage id => exact Forest.keeps_lineage id middle healthy
      | move id parent => exact Forest.keeps_move id parent middle healthy

end Task

namespace Api

instance : FaultOrigin Fault where
  internal
    | .notEncoded _ => True
    | .forest fault => internal fault
    | .recalculation fault => internal fault
    | _ => False

theorem keeps_decodeBody {α : Type} (decode : Json.Decoder α) (body : Option Json) :
    Keeps kept used (fun _ => True) (liftM (decodeBody decode body) : Action α) := by
  refine keeps_liftM (fun _ _ => trivial) fun fault refused => ?_
  cases body with
  | none =>
      cases refused
      exact not_false
  | some body =>
      obtain ⟨mismatch, _, rfl⟩ := mapError_eq_error.1 refused
      exact not_false

section

variable {α : Type} {gives : α → Prop} {later : α → Tally}

theorem behaves_onForest {action : Forest.Action α} (healthy : store.Healthy used none)
    (inner : ∀ saved before, before.Healthy used (some saved) →
      Behaves (some saved) used later gives (action.apply before)) :
    Behaves none used later gives ((onForest action).apply store) := by
  refine behaves_lift (fun _ plain => plain) (behaves_transaction healthy ?_)
  intro saved before begun
  refine behaves_bind (Forest.keeps_ready before begun) fun _ middle _ _ healthy => ?_
  exact inner saved middle healthy

theorem behaves_onCalculations {action : Recalculation.Action α} (healthy : store.Healthy used none)
    (inner : ∀ saved before, before.Healthy used (some saved) →
      Behaves (some saved) used later gives (action.apply before)) :
    Behaves none used later gives ((onCalculations action).apply store) := by
  refine behaves_lift (fun _ plain => plain) (behaves_transaction healthy ?_)
  intro saved before begun
  refine behaves_bind (Recalculation.keeps_ready before begun) fun _ middle _ _ healthy => ?_
  exact inner saved middle healthy

theorem keeps_onForest {action : Forest.Action α}
    (inner : ∀ saved, Keeps (some saved) used gives action) :
    Keeps none used gives (onForest action) :=
  fun _ healthy => behaves_onForest healthy inner

theorem keeps_onCalculations {action : Recalculation.Action α}
    (inner : ∀ saved, Keeps (some saved) used gives action) :
    Keeps none used gives (onCalculations action) :=
  fun _ healthy => behaves_onCalculations healthy inner

end

def Route.created : Route → Tally
  | .createResource => .one .resources
  | _ => fun _ => 0

theorem numeric_failureToJson (failure : Recalculation.Failure) : (failureToJson failure).Numeric := by
  refine numeric_ofFields ?_
  simp [numeric_integer, numeric_text]

theorem numeric_outcomes {outcomes : List Outcome}
    (finite : ∀ outcome ∈ outcomes, outcome.value.isFinite = true) :
    (Json.array (outcomes.map Outcome.toJson)).Numeric := by
  refine numeric_array fun item listed => ?_
  obtain ⟨outcome, inside, rfl⟩ := List.mem_map.1 listed
  exact Outcome.numeric_toJson (finite outcome inside)

theorem behaves_perform (route : Route) (body : Option Json) (healthy : store.Healthy used none)
    (room : ∀ name, used name < greatestId.toNat) :
    Behaves none used (fun _ => used.add route.created) Json.Numeric
      ((perform route body).apply store) := by
  cases route with
  | welcome =>
      refine keeps_pure ?_ store healthy
      exact numeric_ofFields (by simp [numeric_text])
  | createResource =>
      refine behaves_bind (keeps_decodeBody _ body store healthy) fun new middle _ _ healthy => ?_
      have created := behaves_onForest healthy fun saved before begun =>
        Forest.behaves_create begun (room _) new.name new.parent
      refine behaves_bind_pure created fun id _ => numeric_ofFields ?_
      simp [numeric_integer]
  | lineage id =>
      have walked : Keeps none used (fun _ => True) (onForest (Forest.lineage id)) :=
        keeps_onForest fun _ => Forest.keeps_lineage id
      refine behaves_bind_pure (walked store healthy) fun ancestors _ => numeric_ofFields ?_
      simp [numeric_array, numeric_integer]
  | children id =>
      have listed : Keeps none used (fun _ => True) (onForest (Forest.listChildren (some id))) :=
        keeps_onForest fun _ => Forest.keeps_listChildren (some id)
      refine behaves_bind_pure (listed store healthy) fun children _ => numeric_ofFields ?_
      simp [numeric_array, Resource.numeric_toJson]
  | move id =>
      refine behaves_bind (keeps_decodeBody _ body store healthy) fun new middle _ _ healthy => ?_
      have moved : Keeps none used (fun _ => True) (onForest (Forest.move id new.parent)) :=
        keeps_onForest fun _ => Forest.keeps_move id new.parent
      refine behaves_bind_pure (moved middle healthy) fun _ _ => numeric_ofFields ?_
      simp [numeric_text]
  | processCalculation id =>
      have processed := keeps_onCalculations fun saved =>
        @Recalculation.keeps_process (some saved) used id
      exact behaves_bind_pure (processed store healthy) fun _ solid => Outcome.numeric_toJson solid
  | recalculate id =>
      have passed := keeps_onCalculations fun saved =>
        @Recalculation.keeps_recalculate (some saved) used id
      exact behaves_bind_pure (passed store healthy) fun _ solid => numeric_outcomes solid
  | updateVariable =>
      refine behaves_bind (keeps_decodeBody _ body store healthy) fun new middle _ _ healthy => ?_
      have updated := keeps_onCalculations fun saved =>
        @Recalculation.keeps_setVariable (some saved) used new.id new.value
      refine behaves_bind (updated middle healthy) fun changed last _ solid healthy => ?_
      have passed := keeps_onCalculations fun saved =>
        @Recalculation.keeps_recalculate (some saved) used changed.id
      refine behaves_bind_pure (passed last healthy) fun report finite => numeric_ofFields ?_
      simp [numeric_array, numeric_failureToJson, Variable.numeric_toJson solid,
        numeric_outcomes finite]
  | evaluate =>
      refine behaves_bind (keeps_decodeBody _ body store healthy) fun draft middle _ _ healthy => ?_
      have processed := keeps_onCalculations fun saved =>
        @Recalculation.keeps_processDraft (some saved) used draft
      exact behaves_bind_pure (processed middle healthy) fun _ solid => Outcome.numeric_toJson solid

theorem plain_of_find {method : Method} {path : String} {fault : Fault}
    (refused : Route.find method path = .error fault) : ¬ internal fault := by
  have plain {route : Int → Route} {text : String} (refused : Route.withId route text = .error fault) :
      ¬ internal fault := by
    unfold Route.withId at refused
    split at refused <;> cases refused
    exact not_false
  unfold Route.find at refused
  dsimp only at refused
  repeat' split at refused
  all_goals first | exact plain refused | (cases refused; done) | (cases refused; exact not_false)

theorem behaves_answer (request : Request) (healthy : store.Healthy used none)
    (room : ∀ name, used name < greatestId.toNat) :
    Behaves none used (fun answered => used.add answered.1.created) (fun answered => answered.2.Numeric)
      ((answer request).apply store) := by
  have routed : Keeps none used (fun _ => True)
      (liftM (Route.find request.method request.path) : Action Route) :=
    keeps_liftM (fun _ _ => trivial) fun _ refused => plain_of_find refused
  unfold answer
  refine behaves_bind (routed store healthy) fun route middle _ _ healthy => ?_
  have performed := behaves_perform route request.body healthy room
  rw [apply_bind]
  rcases ran : (perform route request.body).apply middle with ⟨fault | body, after⟩ <;>
    rw [ran] at performed
  · cases performed with
    | error plain healthy => exact .error plain healthy
  · cases performed with
    | ok given healthy => exact .ok given healthy

theorem code_of_plain {fault : Fault} (plain : ¬ internal fault) :
    fault.code ≠ "storage_error" ∧ fault.code ≠ "serialization_error" := by
  unfold Fault.code
  cases fault with
  | notEncoded message => exact absurd trivial plain
  | forest fault =>
      cases fault with
      | store fault => exact absurd trivial plain
      | _ => simp [Fault.statusAndCode, Fault.forestCode]
  | recalculation fault =>
      cases fault with
      | store fault => exact absurd trivial plain
      | expression fault => cases fault <;> simp [Fault.statusAndCode, Fault.recalculationCode]
      | _ => simp [Fault.statusAndCode, Fault.recalculationCode]
  | _ => simp [Fault.statusAndCode]

theorem le_status (fault : Fault) : 400 ≤ fault.status := by
  unfold Fault.status
  cases fault with
  | forest fault => cases fault <;> simp [Fault.statusAndCode, Fault.forestCode]
  | recalculation fault =>
      cases fault with
      | expression fault => cases fault <;> simp [Fault.statusAndCode, Fault.recalculationCode]
      | _ => simp [Fault.statusAndCode, Fault.recalculationCode]
  | _ => simp [Fault.statusAndCode]

end Api

namespace Response

def errorCode? (response : Response) : Option String :=
  ((response.body.field? "error").bind (·.field? "code")).bind Json.text?

/-- Whether a response either succeeds, with numbers wherever values are due, or fails, but neither
over the store nor over its own encoding. -/
def Proper (response : Response) : Prop :=
  (response.isSuccess = true → response.body.Numeric) ∧
    (response.isSuccess = false → response.errorCode? ≠ some "storage_error" ∧
      response.errorCode? ≠ some "serialization_error")

theorem proper_success {body : Json} (numeric : body.Numeric) : (success body).Proper := by
  refine ⟨fun _ => numeric, fun refused => ?_⟩
  simp [success, isSuccess] at refused

theorem errorCode?_failure (fault : Api.Fault) : (failure fault).errorCode? = some fault.code := by
  rfl

theorem proper_failure {fault : Api.Fault} (plain : ¬ internal fault) : (failure fault).Proper := by
  have refused : (failure fault).isSuccess = false := by
    have high : ¬ fault.status < 300 := by
      have := Api.le_status fault
      omega
    simp [isSuccess, failure, high]
  obtain ⟨apart, encoded⟩ := Api.code_of_plain plain
  refine ⟨fun succeeds => absurd (refused.symm.trans succeeds) Bool.false_ne_true, fun _ => ?_⟩
  rw [errorCode?_failure]
  exact ⟨fun same => apart (Option.some.inj same), fun same => encoded (Option.some.inj same)⟩

end Response

inductive Use
  | request (sent : Request)
  | task (task : Task) (regular : task.Regular)

namespace Use

def perform : Use → Store → Store
  | request sent, store => (Api.handle sent store).2
  | task errand _, store => (errand.operation.apply store).2

def created : Use → Store → Tally
  | request sent, store =>
    match ((Api.answer sent).apply store).1 with
    | .ok (route, _) => route.created
    | .error _ => fun _ => 0
  | task errand _, store =>
    match (errand.operation.apply store).1 with
    | .ok value => errand.created value
    | .error _ => fun _ => 0

def Proper : Use → Store → Prop
  | request sent, store => (Api.handle sent store).1.Proper
  | task errand _, store =>
    ∀ fault, (errand.operation.apply store).1 = .error fault → ¬ internal fault

theorem proper_of_healthy (use : Use) (healthy : store.Healthy used none)
    (room : ∀ name, used name < greatestId.toNat) :
    use.Proper store ∧ (use.perform store).Healthy (used.add (use.created store)) none := by
  cases use with
  | request sent =>
      have behaves := Api.behaves_answer sent healthy room
      dsimp only [Proper, perform, created, Api.handle]
      rcases ran : (Api.answer sent).apply store with ⟨fault | ⟨route, body⟩, after⟩ <;>
        rw [ran] at behaves
      · cases behaves with
        | error plain healthy =>
            exact ⟨Response.proper_failure plain, healthy.of_alike rfl⟩
      · cases behaves with
        | ok numeric healthy =>
            exact ⟨Response.proper_success numeric, healthy.of_alike rfl⟩
  | task errand regular =>
      have behaves := errand.behaves_operation regular healthy room
      dsimp only [Proper, perform, created]
      rcases ran : errand.operation.apply store with ⟨fault | value, after⟩ <;> rw [ran] at behaves
      · cases behaves with
        | error plain healthy =>
            refine ⟨?_, healthy⟩
            rintro _ ⟨⟩
            exact plain
      · cases behaves with
        | ok _ healthy => exact ⟨nofun, healthy⟩

end Use

namespace Store

def served (store : Store) (uses : List Use) : Store :=
  uses.foldl (fun store use => use.perform store) store

def created (store : Store) : List Use → Tally
  | [] => fun _ => 0
  | use :: rest => (use.created store).add ((use.perform store).created rest)

theorem created_append (first rest : List Use) (name : TableName) :
    store.created (first ++ rest) name =
      store.created first name + (store.served first).created rest name := by
  induction first generalizing store with
  | nil => exact (Nat.zero_add _).symm
  | cons use first ih =>
      change use.created store name + (use.perform store).created (first ++ rest) name =
        use.created store name + (use.perform store).created first name +
          ((use.perform store).served first).created rest name
      rw [ih, Nat.add_assoc]

theorem healthy_served {uses : List Use} (healthy : store.Healthy used none)
    (room : ∀ name, used name + store.created uses name < greatestId.toNat) :
    (store.served uses).Healthy (used.add (store.created uses)) none := by
  induction uses generalizing store used with
  | nil => exact healthy
  | cons use rest ih =>
      have roomHere (name : TableName) : used name < greatestId.toNat :=
        (Nat.le_add_right _ _).trans_lt (room name)
      have later := (use.proper_of_healthy healthy roomHere).2
      have same : (used.add (use.created store)).add ((use.perform store).created rest) =
          used.add (store.created (use :: rest)) := by
        funext name
        exact Nat.add_assoc _ _ _
      rw [← same]
      refine ih later fun name => ?_
      exact (Nat.add_assoc _ _ _).trans_lt (room name)

theorem healthy_fresh : fresh.Healthy (fun _ => 0) none :=
  ⟨rfl, rfl, ⟨_, rfl, Nat.le_refl 0, nofun⟩, ⟨_, _, rfl, Nat.le_refl 0, nofun⟩,
    _, rfl, Nat.le_refl 0⟩

end Store

namespace Database

def Finite (database : Database) : Prop :=
  (∀ table, database.vars = some table → ∀ row ∈ table.rows, row.Filled) ∧
    ∀ table, database.calculations = some table → ∀ row ∈ table.rows, row.Finite

theorem Healthy.finite {database : Database} (healthy : database.Healthy used) : database.Finite := by
  obtain ⟨vars, usable, _, filled⟩ := healthy.vars
  obtain ⟨calculations, _, usableToo, _, finite⟩ := healthy.calculations
  obtain ⟨_, present, _⟩ := variableTable_eq_ok_iff.1 usable
  obtain ⟨_, presentToo, _⟩ := calculationTables_eq_ok_iff.1 usableToo
  refine ⟨fun table same => ?_, fun table same => ?_⟩
  · rw [present] at same
    cases same
    exact filled
  · rw [presentToo] at same
    cases same
    exact finite

end Database

/-- From a store that was opened anew, and as long as fewer rows were created in each table than there
are ids: every value that is stored is finite, and no answer blames the store, be it to a request or
to a call of the services, nor is a value missing in it where one is due. -/
theorem Store.proper_served {mode : StoreMode} {store : Store}
    (opened : (opening mode (.database .blank none)).1 = .ok store) {uses : List Use}
    (room : ∀ name, store.created uses name < greatestId.toNat) :
    (∀ past later, uses = past ++ later → (store.served past).database.Finite) ∧
    ∀ past use later, uses = past ++ use :: later → use.Proper (store.served past) := by
  rw [opening_blank] at opened
  cases opened
  have healthy (past later : List Use) (split : uses = past ++ later) :
      (fresh.served past).Healthy (fresh.created past) none ∧
        ∀ name, fresh.created past name < greatestId.toNat := by
    have roomThen (name : TableName) : fresh.created past name < greatestId.toNat := by
      have := room name
      rw [split, created_append] at this
      omega
    have served := healthy_served healthy_fresh fun name =>
      (Nat.zero_add _).trans_lt (roomThen name)
    refine ⟨?_, roomThen⟩
    have same : Tally.add (fun _ => 0) (fresh.created past) = fresh.created past := by
      funext name
      exact Nat.zero_add _
    rwa [same] at served
  refine ⟨fun past later split => (healthy past later split).1.database.finite, ?_⟩
  intro past use later split
  obtain ⟨sound, roomThen⟩ := healthy past (use :: later) split
  exact (use.proper_of_healthy sound roomThen).1

def visit : List Use :=
  [.task (.table (.createVariable "rate" 2)) (by decide +kernel : (2 : Float).isFinite = true),
    .task (.recalculation (.create "double" "\x7bid: 1\x7d * 2")) trivial,
    .request ⟨.get, "/expressions/1", none⟩]

theorem Store.proper_served_visit :
    (opening .memory (.database .blank none)).1 = .ok fresh ∧
    (∀ name, fresh.created visit name < greatestId.toNat) ∧
    (fresh.served visit).database.Finite ∧
    (Use.request ⟨.get, "/expressions/1", none⟩).Proper (fresh.served (visit.take 2)) := by
  have room : ∀ name, fresh.created visit name < greatestId.toNat := by
    intro name
    cases name <;> decide +kernel
  obtain ⟨finite, proper⟩ := proper_served (opening_blank .memory) room
  exact ⟨opening_blank .memory, room, finite visit [] (List.append_nil _).symm,
    proper (visit.take 2) _ [] rfl⟩

end Formulary
