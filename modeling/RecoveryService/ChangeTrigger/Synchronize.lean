import RecoveryService.ChangeTrigger.Row

/-! # The rows of a version follow its trigger nodes

`synchronize_change_triggers` gives every trigger node of a version its row and retires the rows
whose node is gone.  A row that exists keeps its values; it is enabled again only when it was
retired (`TriggerRow.synchronize`).

`_normalize_trigger_config` takes what it misses from the other nodes of the version; it is a
parameter here, since nothing below depends on the configuration it returns. -/

namespace RecoveryService.ChangeTrigger

open DataPlatform Checks Text

variable {V : Type}

/-- `_is_standalone_trigger_reference`. -/
def isStandaloneTriggerReference (node : NodeSpec) : Bool :=
  let config := node.config
  let snapshotConfig := (config.get "task_definition_snapshot").get "config"
  if (config.get "standalone_deployment_monitor").truthy then false
  else
    (config.get "standalone_trigger").truthy ||
      (config.get "published_workflow_version_id").truthy ||
      (snapshotConfig.get "standalone_trigger").truthy ||
      (snapshotConfig.get "published_workflow_version_id").truthy

/-- The trigger nodes of a version that get a row. -/
def triggerNodes (version : WorkflowVersion) : List NodeSpec :=
  version.releaseNodes.filter (fun node =>
    node.nodeType = .changeTrigger ∧ ¬ isStandaloneTriggerReference node ∧ strip node.key ≠ "")

/-- `str(node.get("name") or key)[:128]`. -/
def triggerName (node : NodeSpec) : String := ((orElse node.name (strip node.key)).take 128).copy

/-- The row of a trigger node that has none yet. -/
def newTriggerRow (now : ℕ) (version : WorkflowVersion) (id : ℕ) (node : NodeSpec)
    (config : TriggerConfig V) : TriggerRow V :=
  { id := id
    workflowId := version.workflowId
    versionId := version.id
    nodeKey := strip node.key
    nodeName := triggerName node
    enabled := true
    state := .active
    config := config
    nextProbeAt := some now
    message := "等待首次数据变化探测。" }

@[simp] theorem newTriggerRow_versionId (now : ℕ) (version : WorkflowVersion) (id : ℕ)
    (node : NodeSpec) (config : TriggerConfig V) :
    (newTriggerRow now version id node config).versionId = version.id := rfl

@[simp] theorem newTriggerRow_workflowId (now : ℕ) (version : WorkflowVersion) (id : ℕ)
    (node : NodeSpec) (config : TriggerConfig V) :
    (newTriggerRow now version id node config).workflowId = version.workflowId := rfl

/-- The row of a trigger node that has one. -/
def TriggerRow.synchronize (row : TriggerRow V) (now : ℕ) (node : NodeSpec)
    (config : TriggerConfig V) : TriggerRow V :=
  let enabled := if row.state = .retired then true else row.enabled
  { row with
    nodeName := triggerName node
    config := config
    enabled := enabled
    state := if row.state = .retired then .active else row.state
    nextProbeAt := if enabled then some (row.nextProbeAt.getD now) else none }

/-- A row whose node is gone. -/
def TriggerRow.removeNode (row : TriggerRow V) : TriggerRow V :=
  { row.retire with message := "触发节点已从当前发布内容移除。" }

section synchronize

variable (normalizeTriggerConfig : List NodeSpec → Json → Except String (TriggerConfig V))

/-- The trigger nodes with their keys and configurations. -/
def configuredNodes (version : WorkflowVersion) : Except String (List (String × NodeSpec × TriggerConfig V)) :=
  (triggerNodes version).mapM (fun node => do
    let config ← normalizeTriggerConfig version.releaseNodes node.config
    return (strip node.key, node, config))

/-- What becomes of a row of the version. -/
def synchronizeRow (now : ℕ) (configured : List (String × NodeSpec × TriggerConfig V))
    (row : TriggerRow V) : TriggerRow V :=
  match configured.lookup row.nodeKey with
  | some (node, config) => row.synchronize now node config
  | none => row.removeNode

/-- The nodes without a row get the ids from `nextId` on. -/
def synchronizeChangeTriggers (now : ℕ) (version : WorkflowVersion) (nextId : ℕ)
    (rows : List (TriggerRow V)) : Except String (List (TriggerRow V)) := do
  let configured ← configuredNodes normalizeTriggerConfig version
  raiseIf (¬ (configured.map Prod.fst).Nodup)
    "UNIQUE constraint failed: uq_data_platform_change_trigger"
  let kept := rows.map (fun row =>
    if row.versionId = version.id then synchronizeRow now configured row else row)
  let missing := configured.filter (fun item =>
    ¬ ∃ row ∈ rows, row.versionId = version.id ∧ row.nodeKey = item.1)
  return kept ++ missing.mapIdx (fun i item =>
    newTriggerRow now version (nextId + i) item.2.1 item.2.2)

@[simp] theorem synchronizeRow_id (now : ℕ)
    (configured : List (String × NodeSpec × TriggerConfig V)) (row : TriggerRow V) :
    (synchronizeRow now configured row).id = row.id := by
  unfold synchronizeRow
  split
  · unfold TriggerRow.synchronize
    rfl
  · rfl

@[simp] theorem synchronizeRow_pendingRunId (now : ℕ)
    (configured : List (String × NodeSpec × TriggerConfig V)) (row : TriggerRow V) :
    (synchronizeRow now configured row).pendingRunId = row.pendingRunId := by
  unfold synchronizeRow
  split
  · unfold TriggerRow.synchronize
    rfl
  · rfl

@[simp] theorem synchronizeRow_versionId (now : ℕ)
    (configured : List (String × NodeSpec × TriggerConfig V)) (row : TriggerRow V) :
    (synchronizeRow now configured row).versionId = row.versionId := by
  unfold synchronizeRow
  split
  · unfold TriggerRow.synchronize
    rfl
  · rfl

@[simp] theorem synchronizeRow_workflowId (now : ℕ)
    (configured : List (String × NodeSpec × TriggerConfig V)) (row : TriggerRow V) :
    (synchronizeRow now configured row).workflowId = row.workflowId := by
  unfold synchronizeRow
  split
  · unfold TriggerRow.synchronize
    rfl
  · rfl

/-- What synchronisation makes of a single row. -/
theorem synchronize_single {now : ℕ} {version : WorkflowVersion} {nextId : ℕ}
    {row : TriggerRow V} {rows : List (TriggerRow V)}
    (h : synchronizeChangeTriggers normalizeTriggerConfig now version nextId [row] = .ok rows) :
    ∃ configured, configuredNodes normalizeTriggerConfig version = .ok configured ∧
      rows.find? (fun r => r.id = row.id) =
        some (if row.versionId = version.id then synchronizeRow now configured row else row) := by
  unfold synchronizeChangeTriggers at h
  obtain ⟨configured, hc, h⟩ := bind_eq_ok.mp h
  obtain ⟨_, _, h⟩ := bind_eq_ok.mp h
  cases h
  refine ⟨configured, hc, ?_⟩
  rw [List.map_cons, List.map_nil, List.cons_append, List.find?_cons_of_pos]
  split_ifs <;> simp

end synchronize

end RecoveryService.ChangeTrigger
