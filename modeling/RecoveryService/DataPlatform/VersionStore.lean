import RecoveryService.ChangeTrigger.Synchronize
import RecoveryService.Lib.Runs

/-! # The store of workflows and versions

The operations of `services/data_platform.py` on the workflows, their versions and the rows of
their change triggers, one request after the other; a request that raises leaves the store as
it was.

Freezing the component nodes (`_freeze_component_task_nodes`) and building the snapshot of a
trigger task (`_build_standalone_trigger_snapshot`) read the tables of the component tasks; what
they return comes with the request.  The hash of a release and the time of the next slot are
parameters. -/

namespace RecoveryService.DataPlatform

open Checks Text ChangeTrigger

/-! ### Records -/

inductive WorkflowStatus where
  | active
  | archived
  | system
deriving DecidableEq

/-- A row of `data_platform_workflows`. -/
structure Workflow where
  id : ℕ
  name : String
  description : Option String := none
  folderId : Option ℕ := none
  status : WorkflowStatus
  businessMetadata : Json := .obj []

/-- A row of `data_platform_nodes`, with the entries of its configuration that publishing
reads. -/
structure TriggerTask where
  id : ℕ
  name : String
  active : Bool := true
  nodeType : NodeType := .changeTrigger
  probeIntervalMinutes : Option ℤ := none
  systemWorkflowId : Option ℕ := none
  publishedVersionId : Option ℕ := none

structure Store (V : Type) where
  workflows : List Workflow
  folders : List ℕ := []
  tasks : List TriggerTask := []
  versions : List WorkflowVersion := []
  triggers : List (TriggerRow V) := []
  nextId : ℕ

/-- The permissions of the caller. -/
structure Actor where
  design : Bool
  publish : Bool

/-- The body of a request that creates a version. -/
structure VersionBody where
  channel : Channel := .dev
  nodes : List NodeSpec := []
  edges : List EdgeSpec := []
  businessMetadata : Option Json := none
  scheduleEnabled : Bool := false
  rule : ScheduleRule := {}

/-- The body of a request that updates a version; `none` leaves a field alone. -/
structure VersionUpdates where
  nodes : Option (List NodeSpec) := none
  edges : Option (List EdgeSpec) := none
  businessMetadata : Option Json := none
  scheduleEnabled : Option Bool := none
  scheduleType : Option ScheduleType := none
  runTime : Option String := none
  dayOfMonth : Option ℤ := none
  dayOfWeek : Option ℤ := none
  intervalMinutes : Option ℤ := none

/-- The body of a request that updates a workflow; the folder may be cleared. -/
structure WorkflowUpdates where
  name : Option String := none
  description : Option (Option String) := none
  folderId : Option (Option ℕ) := none
  status : Option WorkflowStatus := none
  businessMetadata : Option Json := none

/-- `_freeze_component_task_nodes` at the time of a request. -/
abbrev Freeze := List NodeSpec → Except String (List NodeSpec)

section store

variable {V : Type} (s : Store V)

def Store.findWorkflow (id : ℕ) : Option Workflow := s.workflows.find? (fun w => w.id = id)

def Store.findVersion (id : ℕ) : Option WorkflowVersion := s.versions.find? (fun v => v.id = id)

def Store.findTask (id : ℕ) : Option TriggerTask := s.tasks.find? (fun t => t.id = id)

def Store.setVersion (id : ℕ) (version : WorkflowVersion) : Store V :=
  { s with versions := s.versions.map (fun v => if v.id = id then version else v) }

def nextVersionNo (versions : List WorkflowVersion) (workflowId : ℕ) (channel : Channel) : ℕ :=
  ((versions.filter (fun v => v.workflowId = workflowId ∧ v.channel = channel)).map
    WorkflowVersion.versionNo).foldl max 0 + 1

/-- `retire_change_triggers` for the versions with `replaced`. -/
def retireChangeTriggers (replaced : ℕ → Bool) (rows : List (TriggerRow V)) : List (TriggerRow V) :=
  rows.map (fun row => if replaced row.versionId then row.retire else row)

def ScheduleType.text : ScheduleType → String
  | .daily => "daily"
  | .weekly => "weekly"
  | .monthly => "monthly"
  | .interval => "interval"

/-- `{**_version_schedule_payload(version), "business_metadata": ...}`. -/
def ScheduleRule.payload (rule : ScheduleRule) (businessMetadata : Json) : SchedulePayload :=
  { scheduleType := rule.scheduleType.text
    runTime := rule.runTime
    dayOfMonth := rule.dayOfMonth
    dayOfWeek := rule.dayOfWeek
    intervalMinutes := rule.intervalMinutes
    businessMetadata := businessMetadata }

/-- Some design field is to be updated. -/
def VersionUpdates.design (updates : VersionUpdates) : Bool :=
  updates.nodes.isSome || updates.edges.isSome || updates.businessMetadata.isSome

/-- Some schedule field is to be updated. -/
def VersionUpdates.schedule (updates : VersionUpdates) : Bool :=
  updates.scheduleEnabled.isSome || updates.scheduleType.isSome || updates.runTime.isSome ||
    updates.dayOfMonth.isSome || updates.dayOfWeek.isSome || updates.intervalMinutes.isSome

/-- `setattr` for the schedule fields. -/
def WorkflowVersion.reschedule (version : WorkflowVersion) (updates : VersionUpdates) : WorkflowVersion :=
  { version with
    scheduleEnabled := updates.scheduleEnabled.getD version.scheduleEnabled
    rule :=
      { scheduleType := updates.scheduleType.getD version.rule.scheduleType
        runTime := updates.runTime.getD version.rule.runTime
        dayOfMonth := updates.dayOfMonth <|> version.rule.dayOfMonth
        dayOfWeek := updates.dayOfWeek <|> version.rule.dayOfWeek
        intervalMinutes := updates.intervalMinutes <|> version.rule.intervalMinutes } }

/-- What publishing another version writes into an online one. -/
def WorkflowVersion.takeOffline (version : WorkflowVersion) (now : ℕ) : WorkflowVersion :=
  { version with
    status := .offline
    scheduleEnabled := false
    nextRunAt := none
    offlineAt := some now }

/-- What archiving the workflow writes into a version. -/
def WorkflowVersion.archive (version : WorkflowVersion) (now : ℕ) : WorkflowVersion :=
  { version with
    status := if version.status = .online then .offline else version.status
    offlineAt := if version.status = .online then some now else version.offlineAt
    scheduleEnabled := false
    nextRunAt := none }

end store

/-! ### Operations -/

section operations

variable {V : Type} (complete : NodeSpec → Bool) (contentHash : ReleaseSnapshot → String)
  (nextScheduleTime : ScheduleRule → ℕ → Except String ℕ)
  (normalizeTriggerConfig : List NodeSpec → Json → Except String (TriggerConfig V))

/-- `_next_schedule_time(version, now) if version.schedule_enabled else None`. -/
def WorkflowVersion.nextSlot (version : WorkflowVersion) (now : ℕ) : Except String (Option ℕ) :=
  if version.scheduleEnabled then do
    let next ← nextScheduleTime version.rule now
    return some next
  else .ok none

/-- An online version gets another slot when it is updated. -/
def WorkflowVersion.updatedSlot (version : WorkflowVersion) (now : ℕ) : Except String (Option ℕ) :=
  if version.status = .online then version.nextSlot nextScheduleTime now else .ok version.nextRunAt

/-- The nodes of an updated version. -/
def VersionUpdates.updatedNodes (updates : VersionUpdates) (version : WorkflowVersion)
    (freeze : Freeze) : Except String (List NodeSpec) :=
  match updates.nodes with
  | some items => do
      let nodes ← normalizeNodes items
      freeze nodes
  | none => .ok version.nodes

def Store.createVersion (s : Store V) (workflowId : ℕ) (body : VersionBody) (freeze : Freeze) :
    Except String (Store V) :=
  match s.findWorkflow workflowId with
  | none => .error "Workflow does not exist."
  | some workflow => do
      let items ← normalizeNodes body.nodes
      let nodes ← freeze items
      let edges := normalizeEdges body.edges
      let metadata := body.businessMetadata.getD workflow.businessMetadata
      let release ← buildReleaseSnapshot nodes edges (body.rule.payload metadata)
      let version : WorkflowVersion :=
        { id := s.nextId
          workflowId := workflowId
          versionNo := nextVersionNo s.versions workflowId body.channel
          channel := body.channel
          status := if body.channel = .dev then .draft else .submitted
          nodes := nodes
          edges := edges
          businessMetadata := metadata
          releaseSnapshot := some release
          executionContentHash := contentHash release
          scheduleEnabled := body.scheduleEnabled
          rule := { body.rule with runTime := orElse body.rule.runTime "02:00" } }
      return { s with versions := s.versions ++ [version], nextId := s.nextId + 1 }

def Store.updateVersion (s : Store V) (now : ℕ) (actor : Actor) (id : ℕ) (updates : VersionUpdates)
    (freeze : Freeze) : Except String (Store V) :=
  match s.findVersion id with
  | none => .error "Workflow version does not exist."
  | some version => do
      raiseIf (updates.design ∧ ¬ actor.design) "Permission required: dataPlatform:design"
      raiseIf (updates.schedule ∧ ¬ (actor.design ∨ actor.publish))
        "Permission required: dataPlatform:publish"
      raiseIf (version.status = .online ∧ updates.design)
        "上线版本允许修改调度规则，但流程节点和连线必须从开发版重新提交。"
      let version := version.reschedule updates
      let nextRunAt ← version.updatedSlot nextScheduleTime now
      let nodes ← updates.updatedNodes version freeze
      let edges := (updates.edges.map normalizeEdges).getD version.edges
      let metadata := updates.businessMetadata.getD version.businessMetadata
      let release ← buildReleaseSnapshot nodes edges (version.rule.payload metadata)
      return s.setVersion id { version with
        nextRunAt := nextRunAt
        nodes := nodes
        edges := edges
        businessMetadata := metadata
        releaseSnapshot := some release
        executionContentHash := contentHash release }

def Store.submitVersion (s : Store V) (id : ℕ) (freeze : Freeze) : Except String (Store V) :=
  match s.findVersion id with
  | none => .error "Workflow version does not exist."
  | some source => do
      let nodes ← freeze source.nodes
      validateComponentTaskBindings complete nodes
      let release ← buildReleaseSnapshot nodes source.edges (source.rule.payload source.businessMetadata)
      let hash := contentHash release
      let version : WorkflowVersion :=
        { id := s.nextId
          workflowId := source.workflowId
          versionNo := nextVersionNo s.versions source.workflowId .prod
          channel := .prod
          status := .submitted
          nodes := nodes
          edges := source.edges
          businessMetadata := source.businessMetadata
          releaseSnapshot := some release
          executionContentHash := hash
          scheduleEnabled := source.scheduleEnabled
          rule := source.rule }
      -- a prod version with the same content is returned as it is
      if s.versions.any (fun v => v.workflowId = source.workflowId ∧ v.channel = .prod ∧
          v.executionContentHash = hash) then return s
      else return { s with versions := s.versions ++ [version], nextId := s.nextId + 1 }

def Store.publishVersion (s : Store V) (now : ℕ) (id : ℕ) : Except String (Store V) :=
  match s.findVersion id with
  | none => .error "Workflow version does not exist."
  | some version => do
      raiseIf (version.channel ≠ .prod) "Only submitted prod versions can be published."
      raiseIf (version.nodes = []) "A workflow needs at least one node before publish."
      validateComponentTaskBindings complete version.nodes
      let online := fun v : WorkflowVersion =>
        v.workflowId = version.workflowId ∧ v.status = .online ∧ v.id ≠ version.id
      let nextRunAt ← version.nextSlot nextScheduleTime now
      let version := { version with status := .online, offlineAt := none, nextRunAt := nextRunAt }
      let replaced := fun versionId => s.versions.any (fun v => v.id = versionId ∧ online v)
      let triggers ← synchronizeChangeTriggers normalizeTriggerConfig now version s.nextId
        (retireChangeTriggers replaced s.triggers)
      return { s with
        versions := s.versions.map (fun v =>
          if v.id = id then version else if online v then v.takeOffline now else v)
        triggers := triggers
        nextId := s.nextId + triggers.length }

def Store.offlineVersion (s : Store V) (now : ℕ) (id : ℕ) : Except String (Store V) :=
  match s.findVersion id with
  | none => .error "Workflow version does not exist."
  | some version =>
      .ok { s.setVersion id (version.takeOffline now) with
        triggers := retireChangeTriggers (fun versionId => versionId = id) s.triggers }

def Store.updateWorkflow (s : Store V) (id : ℕ) (updates : WorkflowUpdates) : Except String (Store V) :=
  match s.findWorkflow id with
  | none => .error "Workflow does not exist."
  | some workflow => do
      let name := (updates.name.map strip).getD workflow.name
      raiseIf (updates.name.any (fun name => strip name = "")) "Workflow name is required."
      let description := match updates.description with
        | some text => (text.map strip).filter (fun text => text ≠ "")
        | none => workflow.description
      let folderId := updates.folderId.getD workflow.folderId
      raiseIf (updates.folderId.any (fun folder => folder.any (· ∉ s.folders)))
        "Target folder does not exist."
      return { s with
        workflows := s.workflows.map (fun w =>
          if w.id = id then
            { w with
              name := name
              description := description
              folderId := folderId
              status := updates.status.getD workflow.status
              businessMetadata := updates.businessMetadata.getD workflow.businessMetadata }
          else w) }

def Store.archiveWorkflow (s : Store V) (now : ℕ) (id : ℕ) : Except String (Store V) :=
  match s.findWorkflow id with
  | none => .error "Workflow does not exist."
  | some _ =>
      let archived := fun versionId => s.versions.any (fun v => v.id = versionId ∧ v.workflowId = id)
      .ok { s with
        workflows := s.workflows.map (fun w => if w.id = id then { w with status := .archived } else w)
        versions := s.versions.map (fun v => if v.workflowId = id then v.archive now else v)
        triggers := retireChangeTriggers archived s.triggers }

/-- `_ensure_trigger_system_workflow`: the store and the id of the system workflow. -/
def Store.ensureTriggerSystemWorkflow (s : Store V) (task : TriggerTask) : Store V × ℕ :=
  let name := "[触发器] " ++ task.name
  match task.systemWorkflowId.bind s.findWorkflow with
  | some workflow =>
      ({ s with
        workflows := s.workflows.map (fun w => if w.id = workflow.id then { w with name := name } else w) },
        workflow.id)
  | none =>
      ({ s with
        workflows := s.workflows ++ [{
          id := s.nextId
          name := name
          description := some s!"数据变化触发器 {task.id} 的系统执行流程"
          status := .system }]
        nextId := s.nextId + 1 }, s.nextId)

/-- The row of the monitor gets the switch of the version it replaces. -/
def deployMonitor (row : TriggerRow V) (now : ℕ) (enabled : Bool) : TriggerRow V :=
  { row with
    enabled := enabled
    state := if enabled then .active else .paused
    nextProbeAt := if enabled then some now else none
    message := if enabled then "触发器新版本已发布并继续运行。" else "触发器已发布，等待启用。" }

/-- The version published before is taken offline with its triggers. -/
def Store.withdraw (s : Store V) (now : ℕ) (published : Option ℕ) : Store V :=
  { s with
    versions := s.versions.map (fun v =>
      if published = some v.id then { v with status := .offline, offlineAt := some now } else v)
    triggers := retireChangeTriggers (fun versionId => published = some versionId) s.triggers }

def Store.publishChangeTriggerTask (s : Store V) (now : ℕ) (id : ℕ)
    (snapshot : Except String ReleaseSnapshot) : Except String (Store V) :=
  match s.findTask id with
  | none => .error "数据变化触发器任务不存在。"
  | some task => do
      raiseIf (¬ task.active ∨ task.nodeType ≠ .changeTrigger) "数据变化触发器任务不存在。"
      let release ← snapshot
      let (s, workflowId) := s.ensureTriggerSystemWorkflow task
      let enabled := s.triggers.any (fun row => task.publishedVersionId = some row.versionId ∧ row.enabled)
      let s := s.withdraw now task.publishedVersionId
      let version : WorkflowVersion :=
        { id := s.nextId
          workflowId := workflowId
          versionNo := nextVersionNo s.versions workflowId .prod
          channel := .prod
          status := .online
          nodes := release.nodes
          edges := release.edges
          releaseSnapshot := some release
          executionContentHash := contentHash release
          scheduleEnabled := false
          rule :=
            { scheduleType := .interval
              intervalMinutes := some (max 1 (ChangeTrigger.intOr task.probeIntervalMinutes 5)) } }
      let triggers ← synchronizeChangeTriggers normalizeTriggerConfig now version (s.nextId + 1) s.triggers
      let monitor := fun row : TriggerRow V => row.versionId = version.id ∧ row.nodeKey = "monitor"
      raiseIf ((triggers.filter monitor).length ≠ 1) "No row was found when one was required"
      return { s with
        versions := s.versions ++ [version]
        triggers := triggers.map (fun row => if monitor row then deployMonitor row now enabled else row)
        tasks := s.tasks.map (fun t =>
          if t.id = id then
            { t with systemWorkflowId := some workflowId, publishedVersionId := some version.id }
          else t)
        nextId := s.nextId + 1 + triggers.length }

/-! ### Requests -/

inductive Request where
  | createVersion (workflowId : ℕ) (body : VersionBody) (freeze : Freeze)
  | updateVersion (now : ℕ) (actor : Actor) (id : ℕ) (updates : VersionUpdates) (freeze : Freeze)
  | submitVersion (id : ℕ) (freeze : Freeze)
  | publishVersion (now : ℕ) (id : ℕ)
  | offlineVersion (now : ℕ) (id : ℕ)
  | updateWorkflow (id : ℕ) (updates : WorkflowUpdates)
  | archiveWorkflow (now : ℕ) (id : ℕ)
  | publishChangeTriggerTask (now : ℕ) (id : ℕ) (snapshot : Except String ReleaseSnapshot)

/-- The store after a request. -/
def serve (s : Store V) : Request → Except String (Store V)
  | .createVersion workflowId body freeze => s.createVersion contentHash workflowId body freeze
  | .updateVersion now actor id updates freeze =>
      s.updateVersion contentHash nextScheduleTime now actor id updates freeze
  | .submitVersion id freeze => s.submitVersion complete contentHash id freeze
  | .publishVersion now id =>
      s.publishVersion complete nextScheduleTime normalizeTriggerConfig now id
  | .offlineVersion now id => s.offlineVersion now id
  | .updateWorkflow id updates => s.updateWorkflow id updates
  | .archiveWorkflow now id => s.archiveWorkflow now id
  | .publishChangeTriggerTask now id snapshot =>
      s.publishChangeTriggerTask contentHash normalizeTriggerConfig now id snapshot

def requestStep (s : Store V) (request : Request) : Option (Store V) :=
  (serve complete contentHash nextScheduleTime normalizeTriggerConfig s request).toOption

end operations

end RecoveryService.DataPlatform
