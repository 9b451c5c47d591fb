import RecoveryService.DataAutomation.AccessPlan
import RecoveryService.DataAutomation.Dispatch

/-! # Batches and what is started for them

A batch goes from a DMP file through the restore of a database, its synchronisation, the
standardisation and the encryption.  For each of these stages a row is created in another table: a
recovery task, a component run, a workflow run, an SM4 job.  A `Flow` is a batch with all the rows
that were created for it, an id being the position of the row.

The batches here are those of scans and of the security orchestration; a batch of the assistant is
advanced by a module of its own, and `resume_batch` refuses it. -/

namespace RecoveryService.DataAutomation

open Checks

/-! ### Rows -/

/-- The states of a batch, which are also the stages to resume from. -/
inductive BatchState
  | stabilizing | discovered
  | restoreQueued | restoring | restored
  | syncQueued | syncing | rawReady | assetRegistered
  | standardizeQueued | standardizing | standardReady
  | encryptionReady | encrypting | securityAccessActive
  | awaitingConfirmation | pathMatched
  | completed | blocked | failed | partially | cancelled
deriving DecidableEq

/-- `_TERMINAL_BATCH_STATES`. -/
def BatchState.isTerminal : BatchState → Bool
  | completed | blocked | failed | partially | cancelled => true
  | _ => false

inductive FlowMode
  | learning | odsProtected
deriving DecidableEq

/-- `batch.context`; a missing or empty `security_orchestration` is `none`. -/
structure BatchContext where
  flowMode : FlowMode := .learning
  securityOrchestration : Option Snapshot := none
  encryptionStandardAssetId : Option ℕ := none
  securedAssetIds : Option (List ℕ) := none

/-- `DataAutomationBatch`; `restoredTarget` is the schema, the other targets are their `asset_ids`. -/
structure Batch where
  id : ℕ
  state : BatchState := .stabilizing
  resumeFromStage : Option BatchState := none
  restoreTaskId : Option ℕ := none
  syncRunId : Option ℕ := none
  standardRunId : Option ℕ := none
  encryptionBatchId : Option ℕ := none
  restoredTarget : Option String := none
  rawTarget : List ℕ := []
  standardTarget : List ℕ := []
  context : BatchContext := {}

/-- `_batch_is_protected`. -/
def Batch.isProtected (batch : Batch) : Bool :=
  batch.context.flowMode = .odsProtected ∧ batch.context.securityOrchestration.isSome

/-- The states of a recovery task. -/
inductive RestoreState
  | created | discovering | policyRunning | metadataReady | importing | correcting | validating
  | stopping | succeeded | succeededWithWarnings | failed | cancelled | stopped
deriving DecidableEq

def RestoreState.isTerminal : RestoreState → Bool
  | succeeded | succeededWithWarnings | failed | cancelled | stopped => true
  | _ => false

/-- `RecoveryTask`; `schema` is the target schema its metadata names. -/
structure RestoreTask where
  state : RestoreState := .created
  schema : Option String := none

/-- The states of component runs and workflow runs. -/
inductive RunStatus
  | queued | running | succeeded | success | failed | partially | cancelled
deriving DecidableEq

def RunStatus.isTerminal : RunStatus → Bool
  | queued | running => false
  | _ => true

/-- `trigger_context` of a standardisation run; without a `securityAccessMode` it is trusted. -/
structure TriggerContext where
  pipelineId : ℕ
  batchId : ℕ
  restoredTarget : Option String
  rawTarget : List ℕ
  securityAccessMode : Option String := none
  securityOrchestration : Option Snapshot := none

/-- `DataPlatformWorkflowRun`. -/
structure StandardRun where
  versionId : ℕ
  triggerType : String
  triggerContext : TriggerContext
  status : RunStatus := .queued

/-- The states of an SM4 job. -/
inductive Sm4State
  | queued | reserved | running | stopping | succeeded | success | failed | partially | stopped
  | cancelled
deriving DecidableEq

def Sm4State.isTerminal : Sm4State → Bool
  | queued | reserved | running | stopping => false
  | _ => true

/-- The states that count as a success. -/
def Sm4State.hasSucceeded : Sm4State → Bool
  | succeeded | success => true
  | _ => false

/-- A batch and the rows created for it.  `blockedUnencrypted` is set when the standardisation
blocks the batch because of its encryption. -/
structure Flow where
  batch : Batch
  restoreTasks : List RestoreTask := []
  syncRuns : List RunStatus := []
  standardRuns : List StandardRun := []
  sm4Jobs : List Sm4State := []
  blockedUnencrypted : Bool := false

/-- What a transaction reads apart from the flow, and what the functions it calls raise or return.
The catalog is the one after the assets of the stage were recorded. -/
structure Surroundings where
  pipeline : Option Pipeline
  /-- The restore template of the pipeline is there. -/
  template : Bool := true
  catalog : Catalog := {}
  /-- The status of the latest dispatch row of the target. -/
  dispatchStatus : Option DispatchStatus := none
  componentRun : Except String Unit := .ok ()
  workflowRun : Except String Unit := .ok ()
  sm4Task : Except String Unit := .ok ()
  syncAssets : Except String (List ℕ) := .ok []
  standardAssets : Except String (List ℕ) := .ok []
  classification : Except String Unit := .ok ()
  securedAssets : List ℕ := []
  accessViews : Except String Unit := .ok ()

/-! ### The frozen contract -/

variable (casefold : String → String) (securityContractHash : CoverageContract → String → ℕ → String)

/-- The body of the loop over `snapshot["source_assets"]`. -/
def validateSourceAsset (catalog : Catalog) (batchRawIds : List ℕ) (expected : SourceAsset) :
    Except String Unit :=
  match catalog.asset expected.assetId with
  | none => .error "本批次未产生冻结合同要求的 Doris ODS 源资产。"
  | some source => do
      raiseIf (expected.assetId ∉ batchRawIds ∨ casefold source.engine ≠ "doris" ∨ source.layer ≠ "raw")
        "本批次未产生冻结合同要求的 Doris ODS 源资产。"
      raiseIf (source.database ≠ expected.database ∨ source.tableName ≠ expected.tableName ∨
          source.schemaSignature ≠ expected.schemaSignature)
        s!"ODS 资产 {source.database}.{source.tableName} 的 Schema 已漂移，已阻断安全编排。"

/-- `current_hashes`. -/
def currentHashes (catalog : Catalog) (definition : TaskDefinition) (plan : AccessPlan) : List String :=
  (plan.suggestions.filter Suggestion.autoEligible).filterMap fun item =>
    match item.sourceAssetId.bind catalog.asset, item.contract with
    | some source, some contract =>
        some (securityContractHash contract source.schemaSignature definition.revision)
    | _, _ => none

/-- The checks on the rows the snapshot names. -/
def validateFrozenRows (catalog : Catalog) (pipeline : Pipeline) (batch : Batch) (snapshot : Snapshot)
    (definition : TaskDefinition) (standard : DataAsset) : Except String ℕ := do
  raiseIf (definition.revision ≠ snapshot.sm4TaskRevision)
    "SM4 任务修订已偏离批次冻结合同，已阻断安全编排。"
  raiseIf (standard.schemaSignature ≠ snapshot.standardSchemaSignature)
    "DWD 标准资产结构已偏离批次冻结合同，已阻断安全编排。"
  snapshot.sourceAssets.forM (validateSourceAsset casefold catalog batch.rawTarget)
  let plan ← buildSecurityAccessPlan casefold catalog (some pipeline) standard.id
  raiseIf (plan.ready = false ∨ plan.requiredStandardFields ≠ snapshot.requiredStandardFields)
    "字段血缘或敏感字段范围已偏离批次冻结合同，已阻断安全编排。"
  raiseIf (¬ ((∀ h ∈ currentHashes securityContractHash catalog definition plan,
      h ∈ snapshot.fieldContracts.map FieldContract.contractHash) ∧
    ∀ h ∈ snapshot.fieldContracts.map FieldContract.contractHash,
      h ∈ currentHashes securityContractHash catalog definition plan))
    "ODS 字段覆盖合同已漂移，已阻断安全编排。"
  return standard.id

/-- `_validate_protected_batch`. -/
def validateProtectedBatch (catalog : Catalog) (pipeline : Pipeline) (batch : Batch) : Except String ℕ :=
  match batch.context.securityOrchestration with
  | none => .error "批次缺少已启用的 ODS 安全编排快照。"
  | some snapshot => do
      raiseIf (snapshot.mode ≠ "ods_protected" ∨ snapshot.enabled = false)
        "批次缺少已启用的 ODS 安全编排快照。"
      match snapshot.standardAssetId, snapshot.sm4TaskDefinitionId,
          snapshot.standardWorkflowVersionId with
      | some standardAssetId, some definitionId, some workflowVersionId => do
          raiseIf (pipeline.standardWorkflowVersionId ≠ some workflowVersionId ∨
              pipeline.sm4TaskDefinitionId ≠ some definitionId)
            "业务流绑定已偏离批次冻结版本，必须重新核验后才能继续。"
          match catalog.definition definitionId, catalog.asset standardAssetId with
          | some definition, some standard =>
              validateFrozenRows casefold securityContractHash catalog pipeline batch snapshot
                definition standard
          | some definition, none => do
              raiseIf (definition.revision ≠ snapshot.sm4TaskRevision)
                "SM4 任务修订已偏离批次冻结合同，已阻断安全编排。"
              .error "DWD 标准资产结构已偏离批次冻结合同，已阻断安全编排。"
          | none, _ => .error "SM4 任务修订已偏离批次冻结合同，已阻断安全编排。"
      | _, _, _ => .error "ODS 安全编排快照缺少标准资产、SM4 修订或 DWD 工作流版本。"

/-- `_reverse_plan_in_session`. -/
def reversePlan (catalog : Catalog) (standardAssetId : ℕ) : Bool :=
  (catalog.asset standardAssetId).any fun standard =>
    sensitiveFields standard ≠ [] ∧ ∃ e ∈ catalog.edges, e.targetAssetId = standardAssetId ∧
      (∃ field ∈ e.targetField, field ∈ sensitiveFields standard) ∧ e.reviewRequired = false

end RecoveryService.DataAutomation
