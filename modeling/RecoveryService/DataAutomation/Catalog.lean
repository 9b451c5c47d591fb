import RecoveryService.Lib.Checks

/-! # Pipelines, assets, lineage and SM4 tasks

The rows data automation reads.  Ids are numbers; a JSON dictionary is a structure with the keys
the code reads, `none` where it is missing or empty. -/

namespace RecoveryService.DataAutomation

/-- An item of `classification_summary["fields"]`. -/
structure ClassifiedField where
  field : String
  protectionAction : String
  autoApply : Bool
deriving DecidableEq

structure DataAsset where
  id : ℕ
  connectionId : Option ℕ
  engine : String
  database : String
  tableName : String
  layer : String
  schemaSignature : String
  classification : List ClassifiedField := []
  lastBatchId : Option ℕ := none
deriving DecidableEq

structure LineageEdge where
  sourceAssetId : ℕ
  sourceField : Option String
  targetAssetId : ℕ
  targetField : Option String
  transformationType : String
  workflowVersionId : Option ℕ
  reviewRequired : Bool
deriving DecidableEq

/-- A coverage contract of an SM4 task; a missing text is `""`. -/
structure CoverageContract where
  standardDatabase : String
  standardTable : String
  standardField : String
  sourceDatabase : String
  sourceTable : String
  sourceField : String
  accessDatabase : String
  accessTable : String
deriving DecidableEq

/-- A table and its columns, as SM4 tasks and jobs name them. -/
structure TableSpec where
  tableName : String
  columns : List String

structure TaskDefinition where
  id : ℕ
  revision : ℕ
  connectionId : ℕ
  database : String
  tables : List TableSpec
  coverageContracts : List CoverageContract

/-- An item of `snapshot["source_assets"]`. -/
structure SourceAsset where
  assetId : ℕ
  database : String
  tableName : String
  schemaSignature : String
deriving DecidableEq

/-- An item of `snapshot["field_contracts"]`. -/
structure FieldContract where
  standardField : String
  sourceAssetId : ℕ
  sourceField : Option String
  accessDatabase : String
  accessTable : String
  contractHash : String
deriving DecidableEq

/-- `security_orchestration`. -/
structure Snapshot where
  enabled : Bool
  mode : String
  standardAssetId : Option ℕ := none
  standardSchemaSignature : String := ""
  standardWorkflowVersionId : Option ℕ := none
  sm4TaskDefinitionId : Option ℕ := none
  sm4TaskRevision : ℕ := 0
  requiredStandardFields : List String := []
  sourceAssets : List SourceAsset := []
  fieldContracts : List FieldContract := []
  invalidatedReason : Option String := none
deriving DecidableEq

structure PipelineConfig where
  securityAccessEnabled : Bool := false
  autoEncryptionEnabled : Bool := false
  securityOrchestration : Option Snapshot := none
  autoRestore : Bool := true
deriving DecidableEq

/-- A standard table a pipeline writes. -/
structure StandardDefinition where
  connectionId : Option ℕ
  database : String
  tableName : String
deriving DecidableEq

/-- `standard_target`: its tables, and the rest of the dictionary as text. -/
structure StandardTarget where
  definitions : List StandardDefinition := []
  rest : String := ""
deriving DecidableEq

structure Pipeline where
  id : ℕ
  restoreTemplateTaskId : Option ℕ := none
  dataSyncNodeId : Option ℕ := none
  standardWorkflowVersionId : Option ℕ := none
  sm4TaskDefinitionId : Option ℕ := none
  standardTarget : StandardTarget := {}
  config : PipelineConfig := {}
deriving DecidableEq

/-- The tables that data automation only reads here. -/
structure Catalog where
  assets : List DataAsset := []
  edges : List LineageEdge := []
  definitions : List TaskDefinition := []
  /-- The ids of the database connections. -/
  profiles : List ℕ := []

def Catalog.asset (c : Catalog) (id : ℕ) : Option DataAsset := c.assets.find? (fun a => a.id = id)

def Catalog.definition (c : Catalog) (id : ℕ) : Option TaskDefinition :=
  c.definitions.find? (fun d => d.id = id)

/-- `session.get(DorisSm4TaskDefinition, pipeline.sm4_task_definition_id)`. -/
def Catalog.boundDefinition (c : Catalog) (pipeline : Pipeline) : Option TaskDefinition :=
  pipeline.sm4TaskDefinitionId.bind c.definition

/-- `_active_security_snapshot`. -/
def activeSecuritySnapshot (pipeline : Pipeline) : Option Snapshot :=
  match pipeline.config.securityOrchestration with
  | some snapshot =>
      if pipeline.config.securityAccessEnabled ∧ pipeline.config.autoEncryptionEnabled ∧
          snapshot.enabled ∧ snapshot.mode = "ods_protected" then some snapshot
      else none
  | none => none

end RecoveryService.DataAutomation
