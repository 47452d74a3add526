import Formulary.Log.Logging
import Formulary.Proofs.Routing
import Formulary.Proofs.Spelling

/-!
Logging over the life of a process. The first request that is accepted settles it; before and after,
a request that is refused settles nothing.
-/

namespace Formulary.Log

namespace Level

def spellings : Level → List String
  | warn => ["warn", "warning"]
  | level => [level.name]

def Named (text : String) (level : Level) : Prop :=
  ∃ core spelling, Text.Surrounds text.toList core ∧ spelling ∈ level.spellings ∧
    core.map Char.toLower = spelling.toList

variable {text : String} {level : Level}

theorem ofText_eq_ok_iff_normalize : ofText text = .ok level ↔ normalize text ∈ level.spellings := by
  unfold ofText
  split
  all_goals cases level <;> simp_all [spellings, name]

theorem ofText_eq_ok_iff : ofText text = .ok level ↔ Named text level := by
  have lower : (normalize text).toList = (Text.stripEnds Text.isBlank text.toList).map Char.toLower := by
    simp [normalize, Text.trim]
  rw [ofText_eq_ok_iff_normalize]
  constructor
  · intro spelled
    exact ⟨_, _, Text.surrounds_stripEnds _, spelled, lower.symm⟩
  · rintro ⟨core, spelling, surrounds, spelled, same⟩
    obtain rfl := Text.surrounds_iff.1 surrounds
    have read : normalize text = spelling := String.toList_injective (lower.trans same)
    rwa [read]

end Level

namespace Target

/-- Whether two targets are the same; directories are if their paths have the same components, however
these are spelled. -/
inductive Same : Target → Target → Prop
  | directory {left right : String} (respelled : Disk.Respelled left.toList right.toList) :
      Same (directory left) (directory right)
  | stderr : Same stderr stderr

inductive Ready (disk : Disk) : Target → Prop
  | directory {path : String} (created : (disk.createDirectory path).1 = .ok ()) :
      Ready disk (directory path)
  | stderr : Ready disk stderr

variable {left right target : Target} {disk : Disk}

theorem same_directory_iff {left right : String} :
    Same (directory left) (directory right) ↔ Disk.components left = Disk.components right := by
  rw [Disk.components_eq_iff]
  exact ⟨fun | .directory respelled => respelled, .directory⟩

theorem same_iff : left.same right = true ↔ Same left right := by
  cases left with
  | stderr =>
      cases right with
      | stderr => exact ⟨fun _ => .stderr, fun _ => rfl⟩
      | directory path => exact ⟨nofun, nofun⟩
  | directory path =>
      cases right with
      | stderr => exact ⟨nofun, nofun⟩
      | directory other => rw [same_directory_iff, same, decide_eq_true_iff]

theorem prepare_eq_ok_iff : (Logging.prepare target disk).1 = .ok () ↔ Ready disk target := by
  cases target with
  | stderr => exact ⟨fun _ => .stderr, fun _ => rfl⟩
  | directory path =>
      unfold Logging.prepare
      dsimp only
      split
      · rename_i larger created
        exact ⟨fun _ => .directory (by rw [created]), fun _ => rfl⟩
      · rename_i reason larger refused
        refine ⟨nofun, fun ready => ?_⟩
        cases ready with
        | directory created => simp [refused] at created

end Target

theorem Logging.agree_eq_ok_iff {active : Active} {level : Level} {target : Target} :
    agree active level target = .ok () ↔ Target.Same active.target target ∧ active.level = level := by
  rw [← Target.same_iff]
  unfold agree
  by_cases same : active.target.same target = true
  · by_cases level_eq : active.level = level <;> simp [same, level_eq]
  · simp [same]

namespace Logging

def Accepts (logging : Logging) (levelText : String) (target : Target) : Prop :=
  (logging.activate levelText target).1 = .ok ()

variable {logging : Logging} {levelText : String} {target active : Target} {level : Level}

theorem accepts_of_idle (idle : logging.status = none) :
    logging.Accepts levelText target ↔
      (∃ level, Level.Named levelText level) ∧ Target.Ready logging.disk target := by
  have none_active : logging.active = none := Option.map_eq_none_iff.1 idle
  simp only [← Level.ofText_eq_ok_iff, ← Target.prepare_eq_ok_iff]
  unfold Accepts activate
  cases Level.ofText levelText with
  | error text => simp
  | ok level =>
      rw [none_active]
      dsimp only
      split <;> simp_all

theorem accepts_of_status (settled : logging.status = some (level, active)) :
    logging.Accepts levelText target ↔
      Level.Named levelText level ∧ Target.Same active target := by
  obtain ⟨current, found, same⟩ := Option.map_eq_some_iff.1 settled
  obtain ⟨rfl, rfl⟩ := Prod.mk.inj same
  rw [← Level.ofText_eq_ok_iff]
  unfold Accepts activate
  cases Level.ofText levelText with
  | error text => simp
  | ok wanted =>
      rw [found]
      dsimp only
      rw [agree_eq_ok_iff, and_comm, Except.ok.injEq, eq_comm]

theorem active_of_refused (refused : ¬logging.Accepts levelText target) :
    (logging.activate levelText target).2.active = logging.active := by
  revert refused
  unfold Accepts activate
  split
  · simp
  · split
    · simp
    · split <;> simp

theorem status_of_refused (refused : ¬logging.Accepts levelText target) :
    (logging.activate levelText target).2.status = logging.status := by
  unfold status
  rw [active_of_refused refused]

@[simp] theorem status_record (event : Event) : (logging.record event).status = logging.status := by
  unfold record
  split
  · rfl
  · rename_i current found
    split
    · simp [status, found]
    · rfl

@[simp] theorem status_recordCrash (payload : Option String) :
    (logging.recordCrash payload).status = logging.status :=
  status_record _

theorem status_of_accepted (idle : logging.status = none) (accepted : logging.Accepts levelText target)
    (named : Level.Named levelText level) :
    (logging.activate levelText target).2.status = some (level, target) := by
  have none_active : logging.active = none := Option.map_eq_none_iff.1 idle
  revert accepted
  unfold Accepts activate
  rw [Level.ofText_eq_ok_iff.2 named, none_active]
  dsimp only
  split
  · simp
  · intro _
    rw [status_record, status_record]
    rfl

theorem activate_of_status {settled : Level × Target} (known : logging.status = some settled) :
    (logging.activate levelText target).2 = logging := by
  obtain ⟨current, found, _⟩ := Option.map_eq_some_iff.1 known
  unfold activate
  rw [found]
  split <;> rfl

end Logging

inductive Happening
  | asked (levelText : String) (target : Target)
  | recorded (event : Event)
  | crashed (payload : Option String)
  | disturbed (disk : Disk)

namespace Logging

def after (logging : Logging) : Happening → Logging
  | .asked levelText target => (logging.activate levelText target).2
  | .recorded event => logging.record event
  | .crashed payload => logging.recordCrash payload
  | .disturbed disk => { logging with disk }

def run (logging : Logging) (history : List Happening) : Logging :=
  history.foldl after logging

def Grants (logging : Logging) : Happening → Prop
  | .asked levelText target => logging.Accepts levelText target
  | _ => False

def RefusesAll (logging : Logging) (history : List Happening) : Prop :=
  ∀ before happening later, history = before ++ happening :: later →
    ¬(logging.run before).Grants happening

def SettlesFor (logging : Logging) (history : List Happening) (level : Level) (target : Target) :
    Prop :=
  ∃ before levelText later, history = before ++ .asked levelText target :: later ∧
    logging.RefusesAll before ∧ (logging.run before).Accepts levelText target ∧
    Level.Named levelText level

variable {logging : Logging} {level : Level} {target : Target} {settled : Level × Target}
  {happening : Happening} {history : List Happening}

theorem run_append (first second : List Happening) :
    logging.run (first ++ second) = (logging.run first).run second :=
  List.foldl_append

theorem status_after_of_refused (refused : ¬logging.Grants happening) :
    (logging.after happening).status = logging.status := by
  cases happening with
  | asked levelText target => exact status_of_refused refused
  | recorded event => exact status_record event
  | crashed payload => exact status_recordCrash payload
  | disturbed disk => rfl

theorem status_after (known : logging.status = some settled) (happening : Happening) :
    (logging.after happening).status = some settled := by
  cases happening with
  | asked levelText target => rw [after, activate_of_status known, known]
  | _ => rw [status_after_of_refused id, known]

theorem status_run (known : logging.status = some settled) (history : List Happening) :
    (logging.run history).status = some settled := by
  induction history generalizing logging with
  | nil => exact known
  | cons happening later ih => exact ih (status_after known happening)

theorem RefusesAll.front {later : List Happening} (refuses : logging.RefusesAll (history ++ later)) :
    logging.RefusesAll history := by
  intro before happening between split
  exact refuses before happening (between ++ later) (by simp [split])

theorem RefusesAll.snoc (refuses : logging.RefusesAll history)
    (refused : ¬(logging.run history).Grants happening) :
    logging.RefusesAll (history ++ [happening]) := by
  intro before other later split
  rcases List.eq_nil_or_concat later with rfl | ⟨later, last, rfl⟩
  · obtain ⟨rfl, same⟩ := List.append_inj' split rfl
    obtain rfl : happening = other := by simpa using same
    exact refused
  · rw [List.concat_eq_append, ← List.cons_append, ← List.append_assoc] at split
    exact refuses before other later (List.append_inj' split rfl).1

theorem status_of_refusesAll (idle : logging.status = none) (refuses : logging.RefusesAll history) :
    (logging.run history).status = none := by
  induction history using List.reverseRecOn with
  | nil => exact idle
  | append_singleton earlier last ih =>
      have last_refused : ¬(logging.run earlier).Grants last := refuses earlier last [] rfl
      rw [run_append]
      exact (status_after_of_refused last_refused).trans (ih refuses.front)

theorem SettlesFor.status_eq (idle : logging.status = none)
    (settles : logging.SettlesFor history level target) :
    (logging.run history).status = some (level, target) := by
  obtain ⟨before, levelText, later, rfl, refuses, accepted, named⟩ := settles
  rw [run_append]
  exact status_run (status_of_accepted (status_of_refusesAll idle refuses) accepted named) later

theorem refusesAll_or_settlesFor (idle : logging.status = none) (history : List Happening) :
    logging.RefusesAll history ∨ ∃ level target, logging.SettlesFor history level target := by
  induction history using List.reverseRecOn with
  | nil => exact .inl fun before _ _ split => by simp at split
  | append_singleton earlier last ih =>
      rcases ih with refuses | ⟨level, target, before, levelText, later, rfl, rest⟩
      · by_cases granted : (logging.run earlier).Grants last
        · right
          cases last with
          | asked levelText target =>
              have still := status_of_refusesAll idle refuses
              obtain ⟨⟨level, named⟩, _⟩ := (accepts_of_idle still).1 granted
              exact ⟨level, target, earlier, levelText, [], rfl, refuses, granted, named⟩
          | _ => exact granted.elim
        · exact .inl (refuses.snoc granted)
      · exact .inr ⟨level, target, before, levelText, later ++ [last], by simp, rest⟩

end Logging

open Logging in
/-- Logging is configured at most once: there is no status before the first request that is accepted,
and from then on it is what that request asked for. Those later requests are accepted that ask for the
same, and no others. A request that is refused leaves the status as it is. -/
theorem configured_once (disk : Disk) (history : List Happening) :
    let idle : Logging := ⟨none, disk⟩
    let logging := idle.run history
    (logging.status = none ↔ idle.RefusesAll history) ∧
    (∀ level target, logging.status = some (level, target) ↔ idle.SettlesFor history level target) ∧
    ∀ levelText target,
      (logging.status = none → (logging.Accepts levelText target ↔
        (∃ level, Level.Named levelText level) ∧ Target.Ready logging.disk target)) ∧
      (∀ level active, logging.status = some (level, active) →
        (logging.Accepts levelText target ↔
          Level.Named levelText level ∧ Target.Same active target)) ∧
      (¬logging.Accepts levelText target →
        (logging.activate levelText target).2.status = logging.status) := by
  intro idle logging
  have start : idle.status = none := rfl
  refine ⟨⟨fun none_yet => ?_, status_of_refusesAll start⟩, fun level target => ⟨fun known => ?_, ?_⟩, ?_⟩
  · rcases refusesAll_or_settlesFor start history with refuses | ⟨level, target, settles⟩
    · exact refuses
    · cases none_yet.symm.trans (settles.status_eq start)
  · rcases refusesAll_or_settlesFor start history with refuses | ⟨level', target', settles⟩
    · cases (status_of_refusesAll start refuses).symm.trans known
    · cases (settles.status_eq start).symm.trans known
      exact settles
  · exact SettlesFor.status_eq start
  · intro levelText target
    exact ⟨accepts_of_idle, fun level active => accepts_of_status, status_of_refused⟩

theorem configured_once_blocked :
    let disk : Disk := ⟨.directory [("blocked", .other)], []⟩
    let history : List Happening := [.asked "loud" .stderr, .asked "info" (.directory "/blocked/logs"),
      .crashed none, .asked " WARNING " (.directory "/logs/new"), .asked "warn" .stderr]
    let logging := Logging.run ⟨none, disk⟩ history
    Logging.SettlesFor ⟨none, disk⟩ history .warn (.directory "/logs/new") ∧
      logging.Accepts "Warn" (.directory "//logs/./new/") ∧
      ¬logging.Accepts "warn" (.directory "/logs/newer") := by
  intro disk history logging
  have status : logging.status = some (.warn, .directory "/logs/new") := by decide +kernel
  obtain ⟨_, settled, requests⟩ := configured_once disk history
  have named : Level.Named "Warn" .warn := by
    rw [← Level.ofText_eq_ok_iff]
    decide +kernel
  refine ⟨(settled _ _).1 status, ?_, ?_⟩
  · exact ((requests _ _).2.1 _ _ status).2 ⟨named, Target.same_directory_iff.2 (by decide +kernel)⟩
  · intro accepted
    have same := (((requests _ _).2.1 _ _ status).1 accepted).2
    rw [Target.same_directory_iff] at same
    revert same
    decide +kernel

end Formulary.Log
