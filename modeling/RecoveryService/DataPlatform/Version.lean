import RecoveryService.DataPlatform.Graph

/-! # Versions and runs of a workflow

The records of the tables `data_platform_workflow_versions` and `data_platform_workflow_runs`
as the services read and write them, and the state of a run.  Ids are natural numbers, and the
instants of the application clock are seconds counted from some midnight. -/

namespace RecoveryService.DataPlatform

inductive Channel where
  | dev
  | prod
deriving DecidableEq

inductive VersionStatus where
  | draft
  | submitted
  | online
  | offline
deriving DecidableEq

inductive ScheduleType where
  | daily
  | weekly
  | monthly
  | interval

/-- When a schedule is due. -/
structure ScheduleRule where
  scheduleType : ScheduleType := .daily
  runTime : String := "02:00"
  dayOfMonth : Option ℤ := none
  dayOfWeek : Option ℤ := none
  intervalMinutes : Option ℤ := none

/-- A row of `data_platform_workflow_versions`. -/
structure WorkflowVersion where
  id : ℕ
  workflowId : ℕ
  versionNo : ℕ
  channel : Channel
  status : VersionStatus
  nodes : List NodeSpec
  edges : List EdgeSpec
  businessMetadata : Json := .obj []
  releaseSnapshot : Option ReleaseSnapshot
  executionContentHash : String := ""
  scheduleEnabled : Bool
  rule : ScheduleRule := {}
  lastRunAt : Option ℕ := none
  nextRunAt : Option ℕ := none
  offlineAt : Option ℕ := none

/-- `release.get("nodes") or version.nodes or []`. -/
def WorkflowVersion.releaseNodes (version : WorkflowVersion) : List NodeSpec :=
  match version.releaseSnapshot with
  | some release => if release.nodes = [] then version.nodes else release.nodes
  | none => version.nodes

/-- `release.get("edges") or version.edges or []`. -/
def WorkflowVersion.releaseEdges (version : WorkflowVersion) : List EdgeSpec :=
  match version.releaseSnapshot with
  | some release => if release.edges = [] then version.edges else release.edges
  | none => version.edges

/-- What started a run. -/
inductive TriggerType where
  | manual
  | schedule
  | dataChange
  | triggerTest
  | other (name : String)
deriving DecidableEq

inductive RunStatus where
  | queued
  | running
  | succeeded
  | failed
  | partial_
  | cancelled
deriving DecidableEq

/-- A run that has not ended. -/
def RunStatus.active : RunStatus → Bool
  | queued => true
  | running => true
  | _ => false

/-! ### Component bindings -/

/-- `_COMPONENT_TASK_TYPES`. -/
def NodeType.isComponentTask : NodeType → Bool
  | dorisSql => true
  | dataSync => true
  | changeTrigger => true
  | _ => false

/-- `_validate_component_task_bindings`: a component node refers to a stored task, or carries a
configuration that `_normalize_component_task_config` accepts (`complete`). -/
def validateComponentTaskBindings (complete : NodeSpec → Bool) (nodes : List NodeSpec) : Except String Unit :=
  let unbound := nodes.filter (fun node => node.nodeType.isComponentTask ∧
    ¬ (node.config.get "task_definition_id").truthy ∧ ¬ complete node)
  Checks.raiseIf (unbound ≠ [])
    ("以下离线节点尚未选择已保存任务：" ++
      ", ".intercalate (unbound.map (fun node => Text.orElse node.name node.key)) ++ "。")

end RecoveryService.DataPlatform
