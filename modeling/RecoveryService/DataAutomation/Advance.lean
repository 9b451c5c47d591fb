import RecoveryService.DataAutomation.Batch

/-! # The operations on a batch

`_advance_one` looks at the row of the stage a batch is in and moves it on; `advance_batches` turns
an exception into the state `failed` and remembers the state the batch was in, or the stage that was
remembered before.  What the stage had assigned by then is committed with it: an `Outcome` carries
the flow as it stands.  The requests (`resume_batch`, `submit_…`, `activate_…`) roll back when they
raise. -/

namespace RecoveryService.DataAutomation

open Checks Runs

/-- The flow as a function leaves it, and what it returns or raises. -/
structure Outcome where
  flow : Flow
  result : Except String Bool

namespace Flow

/-! ### Assignments -/

def setState (w : Flow) (state : BatchState) : Flow := { w with batch := { w.batch with state := state } }

def setResume (w : Flow) (stage : Option BatchState) : Flow :=
  { w with batch := { w.batch with resumeFromStage := stage } }

def setContext (w : Flow) (context : BatchContext) : Flow :=
  { w with batch := { w.batch with context := context } }

/-- The end of a stage with a stage to resume from. -/
def halt (w : Flow) (state stage : BatchState) : Flow := (w.setState state).setResume (some stage)

/-- `batch.restored_target`, and the state after it. -/
def restored (w : Flow) (schema : String) : Flow :=
  { w with batch := { w.batch with restoredTarget := some schema, state := .restored } }

/-- `batch.raw_target`, and the state after it. -/
def rawReady (w : Flow) (assetIds : List ℕ) : Flow :=
  { w with batch := { w.batch with rawTarget := assetIds, state := .rawReady } }

/-- `batch.standard_target`. -/
def standardTargets (w : Flow) (assetIds : List ℕ) : Flow :=
  { w with batch := { w.batch with standardTarget := assetIds } }

/-- The end of a standardisation whose encryption is not decided. -/
def blockUnencrypted (w : Flow) : Flow :=
  { w.halt .blocked .standardReady with blockedUnencrypted := true }

/-- An encryption plan. -/
def plan (w : Flow) (standardAssetId : ℕ) : Flow :=
  (w.setContext { w.batch.context with encryptionStandardAssetId := some standardAssetId }).setState
    .encryptionReady

/-- `context["secured_asset_ids"]`. -/
def secured (w : Flow) (assetIds : List ℕ) : Flow :=
  w.setContext { w.batch.context with securedAssetIds := some assetIds }

/-- `_mark_batch_completed`. -/
def markCompleted (w : Flow) : Flow := w.setState .completed

/-- `_queue_restore`. -/
def queueRestore (w : Flow) : Flow :=
  { w with
    restoreTasks := w.restoreTasks ++ [{}]
    batch :=
      { w.batch with
        restoreTaskId := some w.restoreTasks.length
        state := .restoreQueued
        resumeFromStage := none } }

/-- A new component run. -/
def queueSync (w : Flow) : Flow :=
  { w with
    syncRuns := w.syncRuns ++ [.queued]
    batch := { w.batch with syncRunId := some w.syncRuns.length, state := .syncQueued } }

/-- A new workflow run. -/
def queueRun (w : Flow) (run : StandardRun) : Flow :=
  { w with
    standardRuns := w.standardRuns ++ [run]
    batch := { w.batch with standardRunId := some w.standardRuns.length, state := .standardizeQueued } }

/-- A new SM4 job. -/
def queueJob (w : Flow) : Flow :=
  { w with
    sm4Jobs := w.sm4Jobs ++ [.queued]
    batch := { w.batch with encryptionBatchId := some w.sm4Jobs.length, state := .encrypting } }

/-! ### The state and the remembered stage after an assignment -/

@[simp] theorem setState_state (w : Flow) (s : BatchState) : (w.setState s).batch.state = s := rfl

@[simp] theorem setState_resume (w : Flow) (s : BatchState) :
    (w.setState s).batch.resumeFromStage = w.batch.resumeFromStage := rfl

@[simp] theorem setResume_state (w : Flow) (s : Option BatchState) : (w.setResume s).batch.state = w.batch.state := rfl

@[simp] theorem setResume_resume (w : Flow) (s : Option BatchState) :
    (w.setResume s).batch.resumeFromStage = s := rfl

@[simp] theorem halt_state (w : Flow) (s t : BatchState) : (w.halt s t).batch.state = s := rfl

@[simp] theorem halt_resume (w : Flow) (s t : BatchState) : (w.halt s t).batch.resumeFromStage = some t := rfl

@[simp] theorem restored_state (w : Flow) (schema : String) : (w.restored schema).batch.state = .restored := rfl

@[simp] theorem rawReady_state (w : Flow) (ids : List ℕ) : (w.rawReady ids).batch.state = .rawReady := rfl

@[simp] theorem blockUnencrypted_state (w : Flow) : (w.blockUnencrypted).batch.state = .blocked := rfl

@[simp] theorem plan_state (w : Flow) (id : ℕ) : (w.plan id).batch.state = .encryptionReady := rfl

@[simp] theorem markCompleted_state (w : Flow) : (w.markCompleted).batch.state = .completed := rfl

@[simp] theorem queueRestore_state (w : Flow) : (w.queueRestore).batch.state = .restoreQueued := rfl

@[simp] theorem queueRestore_resume (w : Flow) : (w.queueRestore).batch.resumeFromStage = none := rfl

@[simp] theorem queueSync_state (w : Flow) : (w.queueSync).batch.state = .syncQueued := rfl

@[simp] theorem queueSync_resume (w : Flow) :
    (w.queueSync).batch.resumeFromStage = w.batch.resumeFromStage := rfl

@[simp] theorem queueRun_state (w : Flow) (run : StandardRun) : (w.queueRun run).batch.state = .standardizeQueued := rfl

@[simp] theorem queueRun_resume (w : Flow) (run : StandardRun) :
    (w.queueRun run).batch.resumeFromStage = w.batch.resumeFromStage := rfl

@[simp] theorem queueJob_state (w : Flow) : (w.queueJob).batch.state = .encrypting := rfl

@[simp] theorem queueJob_resume (w : Flow) : (w.queueJob).batch.resumeFromStage = w.batch.resumeFromStage := rfl

/-! ### Stages -/

variable (casefold : String → String) (securityContractHash : CoverageContract → String → ℕ → String)
  (env : Surroundings)

def done (w : Flow) (advanced : Bool) : Outcome := { flow := w, result := .ok advanced }

def raises (w : Flow) (text : String) : Outcome := { flow := w, result := .error text }

/-- A call that raises before it has assigned anything. -/
def orRaises (w : Flow) (next : Except String Flow) : Outcome :=
  match next with
  | .ok w' => w'.done true
  | .error text => w.raises text

/-- The latest dispatch row waits for a dispatcher. -/
def undispatched : Bool := env.dispatchStatus = some .pending ∨ env.dispatchStatus = some .dispatching

/-- `trigger_context`. -/
def triggerContext (w : Flow) (pipeline : Pipeline) : Except String TriggerContext :=
  let context : TriggerContext :=
    { pipelineId := pipeline.id, batchId := w.batch.id, restoredTarget := w.batch.restoredTarget
      rawTarget := w.batch.rawTarget }
  if w.batch.isProtected then do
    let _ ← validateProtectedBatch casefold securityContractHash env.catalog pipeline w.batch
    .ok
      { context with
        securityAccessMode := some "protected_etl"
        securityOrchestration := w.batch.context.securityOrchestration }
  else .ok context

/-- `prepare_workflow_run`; `env.workflowRun` is what it raises for other reasons. -/
def prepareWorkflowRun (w : Flow) (run : StandardRun) : Except String Flow := do
  env.workflowRun
  raiseIf (∃ r ∈ w.standardRuns, r.versionId = run.versionId ∧ (r.status = .queued ∨ r.status = .running))
    "This workflow version already has an active run. Please wait for it to finish before submitting again."
  return w.queueRun run

/-- `_queue_standardization`. -/
def queueStandardization (w : Flow) (pipeline : Pipeline) (triggerType : String) : Except String Flow :=
  match pipeline.standardWorkflowVersionId with
  | none => .error "业务流尚未绑定 DWD 标准化工作流版本。"
  | some versionId => do
      let context ← w.triggerContext casefold securityContractHash env pipeline
      w.prepareWorkflowRun env { versionId := versionId, triggerType := triggerType, triggerContext := context }

/-- `_advance_one` with a recovery task. -/
def advanceRestore (w : Flow) (pipeline : Pipeline) : Outcome :=
  match w.batch.restoreTaskId.bind (w.restoreTasks[·]?) with
  | none => w.raises "关联恢复任务不存在。"
  | some task =>
      if task.state = .created ∧ undispatched env then (w.setState .restoreQueued).done false
      else if task.state ∈ [.created, .policyRunning, .importing, .correcting, .validating, .stopping] then
        (w.setState .restoring).done false
      else if task.state ∉ [.succeeded, .succeededWithWarnings] then
        (w.halt .failed .restoreQueued).done true
      else
        match task.schema with
        | none => (w.halt .blocked .assetRegistered).done true
        | some schema =>
            if pipeline.dataSyncNodeId.isSome then
              (w.restored schema).orRaises (env.componentRun.map fun _ => (w.restored schema).queueSync)
            else ((w.restored schema).setState .rawReady).done true

/-- After the synchronisation: a protected batch is encrypted, another one standardised. -/
def afterSync (w : Flow) (pipeline : Pipeline) : Outcome :=
  if w.batch.isProtected then
    w.orRaises
      ((validateProtectedBatch casefold securityContractHash env.catalog pipeline w.batch).map w.plan)
  else if pipeline.standardWorkflowVersionId.isSome then
    w.orRaises (w.queueStandardization casefold securityContractHash env pipeline "data_automation")
  else w.done true

/-- `_advance_one` with a component run. -/
def advanceSync (w : Flow) (pipeline : Pipeline) : Outcome :=
  match w.batch.syncRunId.bind (w.syncRuns[·]?) with
  | none => w.raises "关联数据同步运行不存在。"
  | some status =>
      if status = .queued ∧ undispatched env then (w.setState .syncQueued).done false
      else if status ∈ [.queued, .running] then (w.setState .syncing).done false
      else if status ∉ [.succeeded, .success] then (w.halt .failed .syncQueued).done true
      else
        match env.syncAssets with
        | .error text => w.raises text
        | .ok assetIds => (w.rawReady assetIds).afterSync casefold securityContractHash env pipeline

/-- After the standardisation of a batch that is not protected: plan its encryption. -/
def planEncryption (w : Flow) (pipeline : Pipeline) (assetIds : List ℕ) : Outcome :=
  if pipeline.sm4TaskDefinitionId.isSome ∧ pipeline.config.autoEncryptionEnabled then
    match assetIds.filter (reversePlan env.catalog) with
    | [] => w.done true
    | [assetId] =>
        if pipeline.config.securityAccessEnabled then
          match buildSecurityAccessPlan casefold env.catalog (some pipeline) assetId with
          | .error text => w.raises text
          | .ok accessPlan =>
              if accessPlan.ready then (w.plan assetId).done true
              else w.blockUnencrypted.done true
        else (w.plan assetId).done true
    | _ :: _ :: _ => w.blockUnencrypted.done true
  else w.done true

/-- After the standardisation: a protected batch is completed, another one may be encrypted. -/
def afterStandardize (w : Flow) (pipeline : Pipeline) (assetIds : List ℕ) : Outcome :=
  if w.batch.isProtected then w.markCompleted.done true
  else w.planEncryption casefold env pipeline assetIds

/-- `_advance_one` with a workflow run. -/
def advanceStandardize (w : Flow) (pipeline : Pipeline) : Outcome :=
  match w.batch.standardRunId.bind (w.standardRuns[·]?) with
  | none => w.raises "关联标准化运行不存在。"
  | some run =>
      if run.status = .queued ∧ undispatched env then (w.setState .standardizeQueued).done false
      else if run.status ∈ [.queued, .running] then (w.setState .standardizing).done false
      else if run.status ≠ .succeeded then (w.halt .failed .standardizeQueued).done true
      else
        match env.standardAssets with
        | .error text => w.raises text
        | .ok assetIds =>
            match env.classification with
            | .error text => (w.standardTargets assetIds).raises text
            | .ok () =>
                ((w.standardTargets assetIds).setState .standardReady).afterStandardize casefold env
                  pipeline assetIds

/-- The checks of `_submit_security_encryption` before the job. -/
def checkEncryptionTarget (w : Flow) (pipeline : Pipeline) : Except String ℕ :=
  match w.batch.context.encryptionStandardAssetId with
  | none => .error "加密计划缺少标准资产。"
  | some assetId =>
      if w.batch.isProtected then do
        let standardId ← validateProtectedBatch casefold securityContractHash env.catalog pipeline w.batch
        raiseIf (standardId ≠ assetId) "批次加密目标与冻结安全编排快照不一致。"
        return assetId
      else .ok assetId

/-- `_submit_security_encryption`. -/
def submitSecurityEncryption (w : Flow) (pipeline : Pipeline) : Except String Flow := do
  let assetId ← w.checkEncryptionTarget casefold securityContractHash env pipeline
  let _ ← automationEncryptionTables casefold env.catalog pipeline assetId
  env.sm4Task
  return w.queueJob

/-- `_complete_security_encryption` once the secured assets are recorded. -/
def afterEncryption (w : Flow) (pipeline : Pipeline) : Outcome :=
  if w.batch.isProtected then
    (w.setState .securityAccessActive).orRaises
      ((w.setState .securityAccessActive).queueStandardization casefold securityContractHash env
        pipeline "data_automation_protected")
  else w.markCompleted.done true

/-- `_activate_security_access_for_batch`, where security access is enabled. -/
def activateViews (pipeline : Pipeline) : Except String Unit :=
  if pipeline.config.securityAccessEnabled then env.accessViews else .ok ()

/-- `_complete_security_encryption`. -/
def completeSecurityEncryption (w : Flow) (pipeline : Pipeline) : Outcome :=
  match w.batch.encryptionBatchId.bind (w.sm4Jobs[·]?) with
  | none => w.raises "关联 SM4 加密批次不存在。"
  | some job =>
      if job ∈ [.queued, .reserved, .running] then w.done false
      else if job.hasSucceeded = false then
        (w.halt .failed (if w.batch.isProtected then .encryptionReady else .standardReady)).done true
      else
        match activateViews env pipeline with
        | .error text => (w.secured env.securedAssets).raises text
        | .ok () =>
            (w.secured env.securedAssets).afterEncryption casefold securityContractHash env pipeline

/-- `_advance_one`. -/
def advanceOne (w : Flow) : Outcome :=
  match env.pipeline with
  | none => w.raises "流水线定义已不存在。"
  | some pipeline =>
      if w.batch.restoreTaskId.isSome ∧ w.batch.state ∈ [.restoreQueued, .restoring] then
        w.advanceRestore env pipeline
      else if w.batch.syncRunId.isSome ∧ w.batch.state ∈ [.syncQueued, .syncing] then
        w.advanceSync casefold securityContractHash env pipeline
      else if w.batch.standardRunId.isSome ∧ w.batch.state ∈ [.standardizeQueued, .standardizing] then
        w.advanceStandardize casefold env pipeline
      else if w.batch.state = .encryptionReady then
        w.orRaises (w.submitSecurityEncryption casefold securityContractHash env pipeline)
      else if w.batch.encryptionBatchId.isSome ∧ w.batch.state = .encrypting then
        w.completeSecurityEncryption casefold securityContractHash env pipeline
      else if w.batch.state = .standardReady then w.markCompleted.done true
      else w.done false

/-- The `except` branch of `advance_batches`. -/
def failStage (w : Flow) : Flow :=
  w.halt .failed (w.batch.resumeFromStage.getD w.batch.state)

@[simp] theorem failStage_state (w : Flow) : w.failStage.batch.state = .failed := rfl

@[simp] theorem failStage_resume (w : Flow) : w.failStage.batch.resumeFromStage =
    some (w.batch.resumeFromStage.getD w.batch.state) := rfl

/-- `advance_batches` on a batch it has selected. -/
def advance (w : Flow) : Flow :=
  let outcome := w.advanceOne casefold securityContractHash env
  match outcome.result with
  | .ok _ => outcome.flow
  | .error _ => outcome.flow.failStage

/-! ### Requests -/

/-- `scan_pipeline` on the group of files of the batch; `stable` is whether they have been there
for long enough. -/
def scanBatch (w : Flow) (dispatch stable : Bool) : Except String Flow :=
  match env.pipeline with
  | none => .error "数据自动化流水线不存在。"
  | some pipeline => do
      raiseIf (env.template = false) "流水线尚未绑定有效的 Oracle 恢复模板任务。"
      if w.batch.state = .stabilizing ∧ stable then
        if dispatch ∧ pipeline.config.autoRestore then .ok w.queueRestore
        else .ok (w.setState .discovered)
      else .ok w

/-- The stage `resume_batch` starts again. -/
def resumeStage (w : Flow) : BatchState := w.batch.resumeFromStage.getD w.batch.state

/-- `resume_batch`. -/
def resumeBatch (w : Flow) : Except String Flow :=
  match env.pipeline with
  | none => .error "流水线或恢复模板不存在。"
  | some pipeline => do
      raiseIf (env.template = false) "流水线或恢复模板不存在。"
      if w.resumeStage ∈ [.restoreQueued, .restoring, .discovered] then .ok w.queueRestore
      else if w.resumeStage ∈ [.syncQueued, .syncing] then do
        raiseIf (pipeline.dataSyncNodeId = none ∨ w.batch.restoredTarget = none)
          "缺少可重试的数据同步组件或恢复目标。"
        env.componentRun
        return w.queueSync.setResume none
      else if w.resumeStage ∈ [.standardizeQueued, .standardizing] then
        match pipeline.standardWorkflowVersionId with
        | none => .error "缺少可重试的标准化工作流版本。"
        | some versionId => do
            let context ← w.triggerContext casefold securityContractHash env pipeline
            let w' ← w.prepareWorkflowRun env
              { versionId := versionId, triggerType := "data_automation_retry", triggerContext := context }
            return w'.setResume none
      else .ok ((w.setState w.resumeStage).setResume none)

/-- `submit_security_orchestration_encryption`. -/
def submitEncryption (w : Flow) (confirm : Bool) : Except String Flow := do
  raiseIf (confirm = false) "提交反向 SM4 加密任务会写入安全对象，必须显式确认。"
  match env.pipeline with
  | none => .error "业务数据批次或流水线不存在。"
  | some pipeline => do
      raiseIf (w.batch.state ≠ .encryptionReady) "当前批次不处于可提交加密状态。"
      raiseIf (pipeline.config.securityAccessEnabled = false)
        "安全访问尚未准备，不能提交明文回退风险的加密任务。"
      w.submitSecurityEncryption casefold securityContractHash env pipeline

/-- `activate_security_orchestration_access`. -/
def activateAccess (w : Flow) (confirm : Bool) : Except String Flow := do
  raiseIf (confirm = false) "激活安全访问会切换 Doris 下游账号的逻辑访问别名，必须显式确认。"
  match env.pipeline with
  | none => .error "业务数据批次或流水线不存在。"
  | some pipeline =>
      let outcome := w.completeSecurityEncryption casefold securityContractHash env pipeline
      outcome.result.map fun _ => outcome.flow

/-- How `match_batch_blueprint` rates its best candidate. -/
inductive BlueprintMatch
  | noCandidate
  | high (autoExecute : Bool)
  | medium
  | low

/-- `match_batch_blueprint`. -/
def matchBlueprint (w : Flow) (level : BlueprintMatch) : Flow :=
  match level with
  | .high true => w.setState .pathMatched
  | .noCandidate | .high false | .medium => w.setState .awaitingConfirmation
  | .low => w.setState .blocked

/-- `confirm_batch_blueprint`. -/
def confirmBlueprint (w : Flow) : Flow := w.setState .pathMatched

/-- `_prepare_security_orchestration_batch` with the batch of the standard asset. -/
def prepareOrchestration (w : Flow) (standardAssetId : ℕ) : Flow :=
  if w.batch.state = .standardReady then w.plan standardAssetId else w

/-- The batch `scan_pipeline` creates. -/
def discover (id : ℕ) (pipeline : Pipeline) : Flow :=
  { batch :=
      { id := id
        context :=
          { flowMode := if (activeSecuritySnapshot pipeline).isSome then .odsProtected else .learning
            securityOrchestration := activeSecuritySnapshot pipeline } } }

/-- The batch `_prepare_security_orchestration_batch` creates from that of the standard asset. -/
def backfill (id : ℕ) (pipeline : Pipeline) (source : Batch) (standardAssetId : ℕ) : Flow :=
  { batch :=
      { id := id
        state := .encryptionReady
        restoredTarget := source.restoredTarget
        rawTarget := source.rawTarget
        standardTarget := [standardAssetId]
        context :=
          { encryptionStandardAssetId := some standardAssetId
            securityOrchestration := pipeline.config.securityOrchestration } } }

end Flow

end RecoveryService.DataAutomation
