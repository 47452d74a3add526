import Formulary.Log.Level

/-!
What the log records. A record names the event, the part of the program it belongs to, how it went,
and ids and counts; a field that is only known when the record is written, such as a duration, is
shown as `_`.
-/

namespace Formulary.Log

inductive Event
  | expressionEvaluated (references : Nat)
  | savepointLost (savepoint : String)
  | valueStored (calculation : Int)
  | valueDropped (calculation : Int)
  | passStarted (variableId : Int) (candidates : Nat)
  | passItemFailed (calculation : Int) (message : String)
  | passFinished (variableId : Int) (updated failed : Nat)
  | indexItemSkipped (calculation : Int) (message : String)
  | indexRebuilt (rebuilt skipped : Nat)
  | lineageLooped (resource revisited : Int)
  | resourceOrphaned (parent : Int)
  | resourceCreated (resource : Int) (hasParent : Bool)
  | moveLooped (resource parent : Int)
  | resourceMoved (resource parent : Int)
  | demoSeeded (vars calculations resources : Nat)
  | storeOpening (mode : String)
  | storeUnreachable (mode message : String)
  | storeUnusable (mode message : String)
  | storeOpened (mode : String)
  | storeClosed (mode : String)
  | migrated (version : Nat) (name : String)
  | requestAnswered (method route : String)
  | requestRefused (method path : String) (status : Nat) (code : String)
  | indexRebuiltOnDemand (rebuilt skipped : Nat)
  | started
  | loggingActive (level target : String)
  | crashed (payload : String)
  deriving DecidableEq, Repr

namespace Event

def level : Event → Level
  | expressionEvaluated _ | valueStored _ => .debug
  | savepointLost _ | valueDropped _ | passItemFailed _ _ | indexItemSkipped _ _ | lineageLooped _ _
  | resourceOrphaned _ | moveLooped _ _ | requestRefused _ _ _ _ => .warn
  | storeUnreachable _ _ | storeUnusable _ _ | crashed _ => .error
  | passStarted _ _ | passFinished _ _ _ | indexRebuilt _ _ | resourceCreated _ _
  | resourceMoved _ _ | demoSeeded _ _ _ | storeOpening _ | storeOpened _ | storeClosed _
  | migrated _ _ | requestAnswered _ _ | indexRebuiltOnDemand _ _ | started
  | loggingActive _ _ => .info

def message : Event → String
  | expressionEvaluated references =>
    s!"event=calc_eval module=expr status=ok references={references}"
  | savepointLost savepoint =>
    s!"event=savepoint_rollback module=repo status=error savepoint={savepoint} " ++
      s!"error=no such savepoint: {savepoint}"
  | valueStored calculation => s!"event=calc_persist module=service status=ok id={calculation}"
  | valueDropped calculation =>
    s!"event=calc_persist module=service status=skipped id={calculation} reason=not_found"
  | passStarted variableId candidates =>
    "event=recalc_pass module=service status=start pass_id=_ " ++
      s!"variable_id={variableId} candidates={candidates}"
  | passItemFailed calculation message =>
    "event=recalc_item module=service status=error pass_id=_ " ++
      s!"calculation_id={calculation} error={message}"
  | passFinished variableId updated failed =>
    "event=recalc_pass module=service status=ok pass_id=_ " ++
      s!"variable_id={variableId} updated={updated} failed={failed}"
  | indexItemSkipped calculation message =>
    "event=dependency_rebuild module=service status=skipped " ++
      s!"calculation_id={calculation} error={message}"
  | indexRebuilt rebuilt skipped =>
    s!"event=dependency_rebuild module=service status=ok rebuilt={rebuilt} skipped={skipped}"
  | lineageLooped resource revisited =>
    s!"event=lineage_walk module=service status=error id={resource} revisited={revisited}"
  | resourceOrphaned parent =>
    "event=resource_create module=service status=error " ++
      s!"parent_id={parent} reason=dangling_parent"
  | resourceCreated resource hasParent =>
    s!"event=resource_create module=service status=ok id={resource} has_parent={hasParent}"
  | moveLooped resource parent =>
    "event=resource_reparent module=service status=error " ++
      s!"id={resource} parent_id={parent} reason=cycle"
  | resourceMoved resource parent =>
    s!"event=resource_reparent module=service status=ok id={resource} parent_id={parent}"
  | demoSeeded vars calculations resources =>
    s!"event=seed_demo module=seed status=ok variables={vars} " ++
      s!"calculations={calculations} resources_inserted={resources}"
  | storeOpening mode => s!"event=db_open module=db status=start mode={mode}"
  | storeUnreachable mode message =>
    s!"event=db_open module=db status=error mode={mode} duration_ms=_ " ++
      s!"error_code=db_open_failed error={message}"
  | storeUnusable mode message =>
    s!"event=db_open module=db status=error mode={mode} duration_ms=_ " ++
      s!"error_code=db_bootstrap_failed error={message}"
  | storeOpened mode => s!"event=db_open module=db status=ok mode={mode} duration_ms=_"
  | storeClosed mode => s!"event=store_close module=db status=ok mode={mode}"
  | migrated version name => s!"event=migrate module=db status=ok version={version} name={name}"
  | requestAnswered method route =>
    s!"event=api_request module=api status=ok method={method} route={route} " ++
      "status_code=200 duration_ms=_"
  | requestRefused method path status code =>
    s!"event=api_request module=api status=error method={method} path={path} " ++
      s!"status_code={status} error_code={code} duration_ms=_"
  | indexRebuiltOnDemand rebuilt skipped =>
    s!"event=cli_rebuild_index module=cli status=ok rebuilt={rebuilt} skipped={skipped}"
  | started =>
    "event=app_start module=core status=ok platform=linux build_mode=debug version=0.1.0"
  | loggingActive level target =>
    s!"event=logging_init module=core status=ok level={level} target={target}"
  | crashed payload =>
    s!"event=panic_captured module=core status=error location=_ payload={payload}"

def line (event : Event) : String :=
  event.level.label ++ " " ++ event.message

end Event

end Formulary.Log
