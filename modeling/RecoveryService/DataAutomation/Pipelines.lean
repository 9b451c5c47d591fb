import RecoveryService.DataAutomation.AccessPlan
import RecoveryService.Lib.Runs

/-! # Editing a pipeline and freezing its security snapshot

`enable_security_orchestration` freezes the bindings of a pipeline in a snapshot inside its
configuration; `update_pipeline` invalidates an active snapshot when a binding changes.  The same
call may replace the whole configuration, and a call that leaves the bindings alone is not looked
at.  So the active snapshots agree with their bindings throughout a run, and no invalidated one
comes back, exactly when no call brings in an active snapshot of other bindings or an invalidated
one (`snapshots_sound_iff`).

`retired` are the snapshots a call has invalidated, until they are enabled again. -/

namespace RecoveryService.DataAutomation

open Checks Runs

/-- The rows `_validate_pipeline_references` looks for. -/
structure References where
  recoveryTasks : List ℕ := []
  syncNodes : List ℕ := []
  workflowVersions : List ℕ := []
  definitions : List ℕ := []

/-- `_validate_pipeline_references`; a node that is no data sync is not among `syncNodes`. -/
def validatePipelineReferences (refs : References) (row : Pipeline) : Except String Unit := do
  raiseIf (∃ id ∈ row.restoreTemplateTaskId, id ∉ refs.recoveryTasks) "恢复模板任务不存在。"
  raiseIf (∃ id ∈ row.dataSyncNodeId, id ∉ refs.syncNodes) "数据同步组件不存在或类型不正确。"
  raiseIf (∃ id ∈ row.standardWorkflowVersionId, id ∉ refs.workflowVersions) "标准化工作流版本不存在。"
  raiseIf (∃ id ∈ row.sm4TaskDefinitionId, id ∉ refs.definitions) "SM4 任务定义不存在。"

/-- `create_pipeline`; `row` is made of the request. -/
def createPipeline (refs : References) (row : Pipeline) : Except String Pipeline := do
  validatePipelineReferences refs row
  return row

/-- A request of `update_pipeline`; `none` is a key that is missing. -/
structure PipelineUpdate where
  restoreTemplateTaskId : Option (Option ℕ) := none
  dataSyncNodeId : Option (Option ℕ) := none
  standardWorkflowVersionId : Option (Option ℕ) := none
  sm4TaskDefinitionId : Option (Option ℕ) := none
  standardTarget : Option StandardTarget := none
  config : Option PipelineConfig := none

/-- The assignments of `update_pipeline`. -/
def assign (row : Pipeline) (data : PipelineUpdate) : Pipeline :=
  { row with
    restoreTemplateTaskId := data.restoreTemplateTaskId.getD row.restoreTemplateTaskId
    dataSyncNodeId := data.dataSyncNodeId.getD row.dataSyncNodeId
    standardWorkflowVersionId := data.standardWorkflowVersionId.getD row.standardWorkflowVersionId
    sm4TaskDefinitionId := data.sm4TaskDefinitionId.getD row.sm4TaskDefinitionId
    standardTarget := data.standardTarget.getD row.standardTarget
    config := data.config.getD row.config }

/-- `frozen_bindings`. -/
def bindings (row : Pipeline) : Option ℕ × Option ℕ × StandardTarget :=
  (row.standardWorkflowVersionId, row.sm4TaskDefinitionId, row.standardTarget)

/-- The configuration after an invalidation. -/
def invalidated (config : PipelineConfig) : PipelineConfig :=
  { config with
    securityAccessEnabled := false
    autoEncryptionEnabled := false
    securityOrchestration := config.securityOrchestration.map fun snapshot =>
      { snapshot with enabled := false, invalidatedReason := some "业务流冻结引用已修改" } }

/-- `update_pipeline` on the row that was found. -/
def updatePipeline (refs : References) (row : Pipeline) (data : PipelineUpdate) :
    Except String Pipeline := do
  let assigned := assign row data
  let result :=
    if bindings row ≠ bindings assigned ∧ (activeSecuritySnapshot assigned).isSome then
      { assigned with config := invalidated assigned.config }
    else assigned
  validatePipelineReferences refs result
  return result

/-! ### Enabling and preparing -/

variable (casefold : String → String) (securityContractHash : CoverageContract → String → ℕ → String)

/-- The source of an eligible suggestion and its contract, as the snapshot lists them. -/
def snapshotItem (catalog : Catalog) (definition : TaskDefinition) (item : Suggestion) :
    Except String (SourceAsset × FieldContract) :=
  match item.sourceAssetId.bind catalog.asset, item.contract with
  | some source, some contract => do
      raiseIf (casefold source.engine ≠ "doris" ∨ source.layer ≠ "raw")
        "反向加密源资产必须是 Doris ODS 原始层资产。"
      .ok
        ({ assetId := source.id, database := source.database, tableName := source.tableName
           schemaSignature := source.schemaSignature },
         { standardField := item.standardField.getD "", sourceAssetId := source.id
           sourceField := item.sourceField, accessDatabase := contract.accessDatabase
           accessTable := contract.accessTable
           contractHash :=
             securityContractHash contract source.schemaSignature definition.revision })
  | _, _ => .error "反向加密源资产必须是 Doris ODS 原始层资产。"

/-- `_build_security_orchestration_snapshot`. -/
def buildSecurityOrchestrationSnapshot (catalog : Catalog) (pipeline : Pipeline)
    (standard : DataAsset) (definition : TaskDefinition) (plan : AccessPlan) (enabled : Bool) :
    Except String Snapshot := do
  raiseIf (pipeline.standardWorkflowVersionId = none) "安全编排必须绑定已冻结的 DWD 生产工作流版本。"
  let items ← (plan.suggestions.filter Suggestion.autoEligible).mapM
    (snapshotItem casefold securityContractHash catalog definition)
  .ok
    { enabled := enabled
      mode := "ods_protected"
      standardAssetId := some standard.id
      standardSchemaSignature := standard.schemaSignature
      standardWorkflowVersionId := pipeline.standardWorkflowVersionId
      sm4TaskDefinitionId := some definition.id
      sm4TaskRevision := definition.revision
      requiredStandardFields := plan.requiredStandardFields
      sourceAssets := (items.map Prod.fst).dedup
      fieldContracts := items.map Prod.snd }

/-- `_assert_standard_asset_for_pipeline`; `batchAssets` are the standard assets of the latest
batches of the pipeline. -/
def assertStandardAssetForPipeline (batchAssets : List ℕ) (pipeline : Pipeline)
    (asset : DataAsset) : Except String Unit :=
  raiseIf (asset.id ∉ batchAssets ∧
      ¬ ∃ item ∈ pipeline.standardTarget.definitions, asset.database = item.database ∧
        asset.tableName = item.tableName ∧
          (item.connectionId = none ∨ asset.connectionId = item.connectionId))
    "指定标准资产不属于该业务数据流，已阻止跨流启用。"

/-- The tables a request of the security orchestration reads.  `prepared` is what
`_prepare_security_orchestration_batch` raises. -/
structure Setting where
  catalog : Catalog
  batchAssets : List ℕ := []
  prepared : Except String Unit := .ok ()

/-- The checks both requests make, and the snapshot they build. -/
def checkedSnapshot (setting : Setting) (pipeline : Pipeline) (standardAssetId : ℕ)
    (enabled : Bool) : Except String Snapshot :=
  match setting.catalog.asset standardAssetId with
  | some standard => do
      raiseIf (standard.layer ≠ "standard") "流水线或标准资产不存在，无法启用安全编排。"
      assertStandardAssetForPipeline setting.batchAssets pipeline standard
      let plan ← buildSecurityAccessPlan casefold setting.catalog (some pipeline) standard.id
      raiseIf (plan.ready = false) plan.reason
      match setting.catalog.boundDefinition pipeline with
      | some definition =>
          buildSecurityOrchestrationSnapshot casefold securityContractHash setting.catalog pipeline
            standard definition plan enabled
      | none => .error "流水线绑定的 SM4 任务定义不存在。"
  | none => .error "流水线或标准资产不存在，无法启用安全编排。"

/-- Without orchestration so far, a batch is prepared. -/
def activation (setting : Setting) (pipeline : Pipeline) : Except String Unit :=
  if pipeline.config.securityAccessEnabled ∧ pipeline.config.autoEncryptionEnabled then .ok ()
  else setting.prepared

/-- `enable_security_orchestration` on the row that was found. -/
def enableSecurityOrchestration (setting : Setting) (pipeline : Pipeline) (standardAssetId : ℕ)
    (confirm : Bool) : Except String Pipeline := do
  raiseIf (confirm = false) "启用后续批次自动反向加密会写入安全对象，必须显式确认。"
  let snapshot ← checkedSnapshot casefold securityContractHash setting pipeline standardAssetId true
  activation setting pipeline
  .ok
    { pipeline with
      config :=
        { pipeline.config with
          securityAccessEnabled := true
          autoEncryptionEnabled := true
          securityOrchestration := some snapshot } }

/-- `prepare_security_orchestration` on the row that was found. -/
def prepareSecurityOrchestration (setting : Setting) (pipeline : Pipeline) (standardAssetId : ℕ)
    (confirm : Bool) : Except String Pipeline := do
  raiseIf (confirm = false) "生成反向加密任务会创建安全对象，必须显式确认。"
  let snapshot ← checkedSnapshot casefold securityContractHash setting pipeline standardAssetId false
  setting.prepared
  .ok
    { pipeline with
      config :=
        { pipeline.config with
          securityAccessEnabled := true
          securityOrchestration := some snapshot } }

/-! ### The pipelines and the requests -/

/-- A row, and the snapshots that were invalidated. -/
structure PipelineRow where
  pipeline : Pipeline
  retired : List Snapshot := []

abbrev PipelineTable := ℕ → Option PipelineRow

inductive Request
  | create (refs : References) (row : Pipeline)
  | update (refs : References) (id : ℕ) (data : PipelineUpdate)
  | enable (setting : Setting) (id standardAssetId : ℕ) (confirm : Bool)
  | prepare (setting : Setting) (id standardAssetId : ℕ) (confirm : Bool)

/-- The row an update commits; the snapshot it invalidates is retired. -/
def PipelineRow.updated (row : PipelineRow) (data : PipelineUpdate) (result : Pipeline) : PipelineRow :=
  let assigned := assign row.pipeline data
  { pipeline := result
    retired := row.retired ++
      if bindings row.pipeline ≠ bindings assigned then (activeSecuritySnapshot assigned).toList
      else [] }

/-- The row an `enable` commits; its snapshot is no longer retired. -/
def PipelineRow.enabled (row : PipelineRow) (result : Pipeline) : PipelineRow :=
  { pipeline := result
    retired := row.retired.filter (fun s => some s ≠ activeSecuritySnapshot result) }

/-- Commit the row of a request, if it raises nothing. -/
def commit (table : PipelineTable) (id : ℕ) (row : PipelineRow → Except String PipelineRow) : PipelineTable :=
  match table id with
  | none => table
  | some old =>
      match row old with
      | .ok new => Function.update table id (some new)
      | .error _ => table

/-- A request; an id is given once. -/
def pipelineStep (table : PipelineTable) (request : Request) : Option PipelineTable :=
  match request with
  | .create refs row =>
      match table row.id, createPipeline refs row with
      | none, .ok row => some (Function.update table row.id (some { pipeline := row }))
      | none, .error _ => some table
      | some _, _ => none
  | .update refs id data =>
      some (commit table id fun row =>
        (updatePipeline refs row.pipeline data).map (row.updated data))
  | .enable setting id standardAssetId confirm =>
      some (commit table id fun row =>
        (enableSecurityOrchestration casefold securityContractHash setting row.pipeline
          standardAssetId confirm).map row.enabled)
  | .prepare setting id standardAssetId confirm =>
      some (commit table id fun row =>
        (prepareSecurityOrchestration casefold securityContractHash setting row.pipeline
          standardAssetId confirm).map (fun result => { row with pipeline := result }))

/-! ### Sound snapshots -/

/-- The snapshot has the bindings of the pipeline. -/
def NamesBindings (snapshot : Snapshot) (pipeline : Pipeline) : Prop :=
  snapshot.standardWorkflowVersionId = pipeline.standardWorkflowVersionId ∧
    snapshot.sm4TaskDefinitionId = pipeline.sm4TaskDefinitionId

instance (snapshot : Snapshot) (pipeline : Pipeline) : Decidable (NamesBindings snapshot pipeline) := by
  unfold NamesBindings
  infer_instance

/-- An active snapshot has the bindings of its pipeline and was not invalidated. -/
def PipelineRow.Sound (row : PipelineRow) : Prop :=
  ∀ s ∈ activeSecuritySnapshot row.pipeline, NamesBindings s row.pipeline ∧ s ∉ row.retired

instance (row : PipelineRow) : Decidable row.Sound := by
  unfold PipelineRow.Sound
  infer_instance

def SnapshotsSound (table : PipelineTable) : Prop := ∀ id, ∀ row ∈ table id, row.Sound

/-- A call that creates a pipeline, or replaces the configuration without changing a binding,
brings in no active snapshot of other bindings, and no invalidated one. -/
def Permitted (table : PipelineTable) (request : Request) : Prop :=
  match request with
  | .create refs row =>
      createPipeline refs row = .ok row → ∀ s ∈ activeSecuritySnapshot row, NamesBindings s row
  | .update refs id data =>
      ∀ row ∈ table id, data.config ≠ none → bindings row.pipeline = bindings (assign row.pipeline data) →
        updatePipeline refs row.pipeline data = .ok (assign row.pipeline data) →
          ∀ s ∈ activeSecuritySnapshot (assign row.pipeline data),
            NamesBindings s (assign row.pipeline data) ∧ s ∉ row.retired
  | .enable .. | .prepare .. => True

instance (table : PipelineTable) (request : Request) : Decidable (Permitted table request) := by
  unfold Permitted
  split <;> infer_instance

variable {casefold securityContractHash}

theorem activeSecuritySnapshot_eq_some {pipeline : Pipeline} {s : Snapshot} :
    activeSecuritySnapshot pipeline = some s ↔ pipeline.config.securityOrchestration = some s ∧
      pipeline.config.securityAccessEnabled = true ∧ pipeline.config.autoEncryptionEnabled = true ∧
        s.enabled = true ∧ s.mode = "ods_protected" := by
  unfold activeSecuritySnapshot
  cases pipeline.config.securityOrchestration with
  | none => simp
  | some snapshot =>
      dsimp only
      split_ifs with hactive
      · rw [Option.some.injEq]
        constructor
        · rintro rfl
          exact ⟨rfl, hactive⟩
        · exact fun h => h.1
      · constructor
        · intro h
          cases h
        · rintro ⟨heq, hactive'⟩
          rw [Option.some.injEq] at heq
          rw [heq] at hactive
          exact absurd hactive' hactive

theorem activeSecuritySnapshot_invalidated (pipeline : Pipeline) :
    activeSecuritySnapshot { pipeline with config := invalidated pipeline.config } = none := by
  rw [Option.eq_none_iff_forall_ne_some]
  intro s hs
  have haccess := (activeSecuritySnapshot_eq_some.mp hs).2.1
  cases haccess

variable {row : PipelineRow}

theorem sound_of_inactive (h : activeSecuritySnapshot row.pipeline = none) : row.Sound := by
  intro s hs
  rw [h] at hs
  cases hs

variable {table : PipelineTable}

/-- Committing a row is sound when the row is. -/
theorem commit_sound_iff {id : ℕ} {f : PipelineRow → Except String PipelineRow} (h : SnapshotsSound table) :
    SnapshotsSound (commit table id f) ↔
      ∀ old ∈ table id, ∀ new, f old = .ok new → new.Sound := by
  unfold commit
  cases hold : table id with
  | none => simpa using h
  | some old =>
      dsimp only
      cases hnew : f old with
      | error text =>
          refine ⟨fun _ old' hold' new hf => ?_, fun _ => h⟩
          cases hold'
          rw [hnew] at hf
          cases hf
      | ok new =>
          constructor
          · intro hsound old' hold' new' hf
            cases hold'
            rw [hnew] at hf
            cases hf
            exact hsound id new (by simp)
          · intro hsound id' row hrow
            dsimp only at hrow
            by_cases hid : id' = id
            · subst hid
              rw [Function.update_self] at hrow
              cases hrow
              exact hsound old rfl new hnew
            · rw [Function.update_of_ne hid] at hrow
              exact h id' row hrow

variable {refs : References}

/-- What an update commits. -/
theorem updatePipeline_ok {row result : Pipeline} {data : PipelineUpdate}
    (h : updatePipeline refs row data = .ok result) :
    (bindings row ≠ bindings (assign row data) ∧ activeSecuritySnapshot result = none) ∨
      (bindings row = bindings (assign row data) ∧ result = assign row data) := by
  unfold updatePipeline at h
  obtain ⟨_, -, h⟩ := bind_eq_ok.mp h
  cases h
  by_cases hchanged : bindings row = bindings (assign row data)
  · right
    refine ⟨hchanged, if_neg ?_⟩
    exact fun h => h.1 hchanged
  · left
    refine ⟨hchanged, ?_⟩
    split_ifs with hactive
    · exact activeSecuritySnapshot_invalidated _
    · rw [not_and, Bool.not_eq_true, Option.isSome_eq_false_iff, Option.isNone_iff_eq_none] at hactive
      exact hactive hchanged

theorem update_sound_iff {data : PipelineUpdate} (h : row.Sound) :
    (∀ new, (updatePipeline refs row.pipeline data).map (row.updated data) = .ok new → new.Sound) ↔
      (data.config ≠ none → bindings row.pipeline = bindings (assign row.pipeline data) →
        updatePipeline refs row.pipeline data = .ok (assign row.pipeline data) →
          ∀ s ∈ activeSecuritySnapshot (assign row.pipeline data),
            NamesBindings s (assign row.pipeline data) ∧ s ∉ row.retired) := by
  constructor
  · intro hall _ hsame hok
    have hsound := hall _ (by rw [hok]; rfl)
    unfold PipelineRow.Sound PipelineRow.updated at hsound
    dsimp only at hsound
    rw [if_neg (not_not.mpr hsame), List.append_nil] at hsound
    exact hsound
  · intro hpermitted new hnew
    cases hresult : updatePipeline refs row.pipeline data with
    | error text =>
        rw [hresult] at hnew
        cases hnew
    | ok result =>
        rw [hresult] at hnew
        cases hnew
        obtain ⟨-, hinactive⟩ | ⟨hsame, rfl⟩ := updatePipeline_ok hresult
        · exact sound_of_inactive hinactive
        · unfold PipelineRow.Sound PipelineRow.updated
          dsimp only
          rw [if_neg (not_not.mpr hsame), List.append_nil]
          by_cases hconfig : data.config = none
          · -- the active snapshot is the old one, and so are the bindings
            intro s hs
            have hkept : (assign row.pipeline data).config = row.pipeline.config := by
              unfold assign
              rw [hconfig]
              rfl
            have hold : activeSecuritySnapshot row.pipeline = some s := by
              rw [activeSecuritySnapshot_eq_some, ← hkept]
              exact activeSecuritySnapshot_eq_some.mp hs
            unfold bindings at hsame
            rw [Prod.mk.injEq, Prod.mk.injEq] at hsame
            obtain ⟨⟨hversion, hdefinition⟩, hretired⟩ := h s hold
            exact ⟨⟨hversion.trans hsame.1, hdefinition.trans hsame.2.1⟩, hretired⟩
          · exact hpermitted hconfig hsame hresult

variable {standardAssetId : ℕ}
variable {setting : Setting}

/-- A snapshot is built with the bindings of the pipeline. -/
theorem checkedSnapshot_ok {pipeline : Pipeline} {enabled : Bool} {s : Snapshot}
    (h : checkedSnapshot casefold securityContractHash setting pipeline standardAssetId enabled =
      .ok s) : s.enabled = enabled ∧ NamesBindings s pipeline := by
  unfold checkedSnapshot at h
  split at h
  · next standard hstandard =>
      obtain ⟨_, -, h⟩ := bind_eq_ok.mp h
      obtain ⟨_, -, h⟩ := bind_eq_ok.mp h
      obtain ⟨plan, -, h⟩ := bind_eq_ok.mp h
      obtain ⟨_, -, h⟩ := bind_eq_ok.mp h
      split at h
      · next definition hdefinition =>
          unfold buildSecurityOrchestrationSnapshot at h
          obtain ⟨_, -, h⟩ := bind_eq_ok.mp h
          obtain ⟨items, -, h⟩ := bind_eq_ok.mp h
          cases h
          refine ⟨rfl, rfl, ?_⟩
          unfold Catalog.boundDefinition at hdefinition
          obtain ⟨id, hid, hfound⟩ := Option.bind_eq_some_iff.mp hdefinition
          have hname : definition.id = id := by simpa using List.find?_some hfound
          dsimp only
          rw [hid, hname]
      · cases h
  · cases h

theorem enable_sound {new : PipelineRow} {confirm : Bool}
    (h : (enableSecurityOrchestration casefold securityContractHash setting row.pipeline
      standardAssetId confirm).map row.enabled = .ok new) : new.Sound := by
  cases hresult : enableSecurityOrchestration casefold securityContractHash setting row.pipeline
      standardAssetId confirm with
  | error text =>
      rw [hresult] at h
      cases h
  | ok result =>
      rw [hresult] at h
      cases h
      unfold enableSecurityOrchestration at hresult
      obtain ⟨_, -, hresult⟩ := bind_eq_ok.mp hresult
      obtain ⟨snapshot, hsnapshot, hresult⟩ := bind_eq_ok.mp hresult
      obtain ⟨_, -, hresult⟩ := bind_eq_ok.mp hresult
      cases hresult
      intro s hs
      have hactive : activeSecuritySnapshot (row.enabled _).pipeline = some s := hs
      obtain ⟨heq, -⟩ := activeSecuritySnapshot_eq_some.mp hactive
      cases heq
      refine ⟨(checkedSnapshot_ok hsnapshot).2, fun hretired => ?_⟩
      have hne := (List.mem_filter.mp hretired).2
      rw [decide_eq_true_iff] at hne
      exact hne hactive.symm

theorem prepare_sound {new : PipelineRow} {confirm : Bool}
    (h : (prepareSecurityOrchestration casefold securityContractHash setting row.pipeline
      standardAssetId confirm).map (fun result => { row with pipeline := result }) = .ok new) : new.Sound := by
  cases hresult : prepareSecurityOrchestration casefold securityContractHash setting row.pipeline
      standardAssetId confirm with
  | error text =>
      rw [hresult] at h
      cases h
  | ok result =>
      rw [hresult] at h
      cases h
      unfold prepareSecurityOrchestration at hresult
      obtain ⟨_, -, hresult⟩ := bind_eq_ok.mp hresult
      obtain ⟨snapshot, hsnapshot, hresult⟩ := bind_eq_ok.mp hresult
      obtain ⟨_, -, hresult⟩ := bind_eq_ok.mp hresult
      cases hresult
      intro s hs
      obtain ⟨heq, -, -, henabled, -⟩ := activeSecuritySnapshot_eq_some.mp hs
      cases heq
      rw [(checkedSnapshot_ok hsnapshot).1] at henabled
      cases henabled

theorem create_sound_iff {row : Pipeline} (h : SnapshotsSound table) (hfresh : table row.id = none)
    {table' : PipelineTable}
    (hstep : pipelineStep casefold securityContractHash table (.create refs row) = some table') :
    SnapshotsSound table' ↔ Permitted table (.create refs row) := by
  unfold pipelineStep at hstep
  dsimp only at hstep
  rw [hfresh] at hstep
  have hcreate : ∀ row', createPipeline refs row = .ok row' → row' = row := by
    intro row' hok
    obtain ⟨_, -, hok⟩ := bind_eq_ok.mp hok
    cases hok
    rfl
  cases hok : createPipeline refs row with
  | error text =>
      rw [hok] at hstep
      cases hstep
      refine ⟨fun _ hok' => ?_, fun _ => h⟩
      rw [hok] at hok'
      cases hok'
  | ok row' =>
      have hsame := hcreate row' hok
      subst hsame
      rw [hok] at hstep
      cases hstep
      constructor
      · intro hsound _ s hs
        exact (hsound row'.id { pipeline := row' } (by simp) s hs).1
      · intro hpermitted id row hrow
        by_cases hid : id = row'.id
        · subst hid
          rw [Function.update_self] at hrow
          cases hrow
          exact fun s hs => ⟨hpermitted hok s hs, List.not_mem_nil⟩
        · rw [Function.update_of_ne hid] at hrow
          exact h id row hrow

/-- One request keeps the snapshots sound exactly when it is permitted. -/
theorem pipelineStep_sound_iff {table' : PipelineTable} {request : Request} (h : SnapshotsSound table)
    (hstep : pipelineStep casefold securityContractHash table request = some table') :
    SnapshotsSound table' ↔ Permitted table request := by
  cases request with
  | create refs row =>
      cases hfresh : table row.id with
      | none => exact create_sound_iff h hfresh hstep
      | some old =>
          unfold pipelineStep at hstep
          dsimp only at hstep
          rw [hfresh] at hstep
          cases hstep
  | update refs id data =>
      cases hstep
      rw [commit_sound_iff h]
      unfold Permitted
      exact forall₂_congr fun row hrow => update_sound_iff (h id row hrow)
  | enable setting id standardAssetId confirm =>
      cases hstep
      rw [commit_sound_iff h]
      exact ⟨fun _ => trivial, fun _ _ _ _ hnew => enable_sound hnew⟩
  | prepare setting id standardAssetId confirm =>
      cases hstep
      rw [commit_sound_iff h]
      exact ⟨fun _ => trivial, fun _ _ _ _ hnew => prepare_sound hnew⟩

/-- In a run from the empty table every active snapshot has the bindings of its pipeline, and no
invalidated one is active again, exactly when every request is permitted. -/
theorem snapshots_sound_iff {requests : List Request} {table : PipelineTable}
    (h : Run (pipelineStep casefold securityContractHash) Free (fun _ => none) requests table) :
    Throughout (pipelineStep casefold securityContractHash) SnapshotsSound (fun _ => none)
        requests ↔
      Run (pipelineStep casefold securityContractHash) Permitted (fun _ => none) requests table := by
  refine h.throughout_iff (I := fun _ => True) trivial ?_ ?_
  · intro id row hrow
    cases hrow
  · intro s a s' _ hsound hs
    exact ⟨trivial, pipelineStep_sound_iff hsound hs⟩

/-! ### A snapshot that comes back -/

def phoneReferences : References where
  workflowVersions := [3, 4]
  definitions := [5]

/-- What `enable` writes for the phone pipeline. -/
def phoneSnapshot : Snapshot where
  enabled := true
  mode := "ods_protected"
  standardAssetId := some 1
  standardSchemaSignature := "s1"
  standardWorkflowVersionId := some 3
  sm4TaskDefinitionId := some 5
  sm4TaskRevision := 1
  requiredStandardFields := ["phone"]
  sourceAssets :=
    [{ assetId := 2, database := "ods", tableName := "customers", schemaSignature := "s" }]
  fieldContracts :=
    [{ standardField := "phone", sourceAssetId := 2, sourceField := some "phone"
       accessDatabase := "access", accessTable := "customers", contractHash := "h" }]

/-- The pipeline is created, enabled and bound to another workflow version. -/
def reboundRequests : List Request :=
  [.create phoneReferences
      { id := 9, standardWorkflowVersionId := some 3, sm4TaskDefinitionId := some 5 },
    .enable { catalog := phoneCatalog [phoneEdge 2], batchAssets := [1] } 9 1 true,
    .update phoneReferences 9 { standardWorkflowVersionId := some (some 4) }]

/-- Its configuration from before is sent again. -/
def restoredConfig : Request :=
  .update phoneReferences 9
    { config := some
        { securityAccessEnabled := true, autoEncryptionEnabled := true
          securityOrchestration := some phoneSnapshot } }

def phoneStep : PipelineTable → Request → Option PipelineTable :=
  pipelineStep id (fun _ _ _ => "h")

/-- The snapshot is active in the row, has other bindings, and was invalidated. -/
def Revived (row : PipelineRow) : Prop :=
  activeSecuritySnapshot row.pipeline = some phoneSnapshot ∧
    ¬ NamesBindings phoneSnapshot row.pipeline ∧ phoneSnapshot ∈ row.retired

instance (row : PipelineRow) : Decidable (Revived row) := by
  unfold Revived
  infer_instance

theorem snapshot_revived : ∃ table,
    Run phoneStep Free (fun _ => none) (reboundRequests ++ [restoredConfig]) table ∧
      (∃ row ∈ table 9, Revived row) := by
  have h : ∃ table, Run phoneStep Free (fun _ => none) (reboundRequests ++ [restoredConfig]) table ∧
      (table 9).any (fun row => decide (Revived row)) = true := exists_run (by decide +kernel)
  obtain ⟨table, hrun, hrevived⟩ := h
  obtain ⟨row, hrow, hrevived⟩ := (Option.any_eq_true _ _).mp hrevived
  exact ⟨table, hrun, row, hrow, of_decide_eq_true hrevived⟩

theorem rebound_sound : Throughout phoneStep SnapshotsSound (fun _ => none) reboundRequests := by
  have h : ∃ table, Run phoneStep Permitted (fun _ => none) reboundRequests table ∧ True :=
    exists_run (by decide +kernel)
  obtain ⟨table, hrun, -⟩ := h
  exact (snapshots_sound_iff (hrun.mono (fun _ _ _ => trivial))).mpr hrun

end RecoveryService.DataAutomation
