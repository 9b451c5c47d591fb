import RecoveryService.DataAutomation.Catalog

/-! # The security access plan

`_build_security_access_plan_in_session` goes through the lineage edges into the sensitive fields
of a standard asset.  An edge is eligible when five conditions hold of it; the plan is ready when
the fields of the eligible edges are the required ones.  `_prepare_automation_encryption_job`
encrypts the columns of the eligible edges.

Readiness asks for one eligible edge of each field, so a field that is fed by an eligible edge and
by another one leaves a ready plan with a plaintext column (`ready_feeds_iff`). -/

namespace RecoveryService.DataAutomation

open Checks

variable (casefold : String → String)

/-- An item of `plan["suggestions"]`. -/
structure Suggestion where
  standardField : Option String
  sourceAssetId : Option ℕ
  sourceDatabase : Option String
  sourceTable : Option String
  sourceField : Option String
  transformationType : String
  autoEligible : Bool
  contract : Option CoverageContract
  reason : String
deriving DecidableEq

structure AccessPlan where
  standardAssetId : ℕ
  sm4TaskDefinitionId : ℕ
  sm4TaskRevision : ℕ
  requiredStandardFields : List String
  suggestions : List Suggestion
  ready : Bool
  reason : String

/-- `_coverage_contract_matches`. -/
def coverageContractMatches (contract : CoverageContract) (standard source : DataAsset)
    (edge : LineageEdge) : Bool :=
  casefold contract.standardDatabase = casefold standard.database ∧
    casefold contract.standardTable = casefold standard.tableName ∧
    casefold contract.standardField = casefold (edge.targetField.getD "") ∧
    casefold contract.sourceDatabase = casefold source.database ∧
    casefold contract.sourceTable = casefold source.tableName ∧
    casefold contract.sourceField = casefold (edge.sourceField.getD "")

/-- `sensitive`: the fields that are encrypted automatically. -/
def sensitiveFields (standard : DataAsset) : List String :=
  ((standard.classification.filter (fun f => f.protectionAction = "sm4" ∧ f.autoApply)).map
    ClassifiedField.field).dedup

/-- `sensitive or {"__none__"}`. -/
def wantedFields (standard : DataAsset) : List String :=
  if sensitiveFields standard = [] then ["__none__"] else sensitiveFields standard

/-- The rows of the query for the lineage edges. -/
def sensitiveEdges (catalog : Catalog) (standard : DataAsset) : List LineageEdge :=
  catalog.edges.filter (fun e =>
    e.targetAssetId = standard.id ∧ ∃ field ∈ e.targetField, field ∈ wantedFields standard)

/-- `safe`. -/
def safeEdge (versionId : Option ℕ) (source : Option DataAsset) (edge : LineageEdge) : Bool :=
  source.any (fun s => casefold s.engine = "doris" ∧ s.layer = "raw") ∧
    edge.transformationType ∈ ["direct", "rename", "cast"] ∧ edge.reviewRequired = false ∧
    edge.workflowVersionId = versionId

/-- `match`, with the access table filled in. -/
def matchingContract (definition : TaskDefinition) (standard : DataAsset)
    (source : Option DataAsset) (edge : LineageEdge) : Option CoverageContract :=
  source.bind fun s =>
    (definition.coverageContracts.find?
      (fun contract => coverageContractMatches casefold contract standard s edge)).map
        (fun contract =>
          { contract with
            accessTable := if contract.accessTable ≠ "" then contract.accessTable else s.tableName })

/-- `table_spec`. -/
def matchingTable (definition : TaskDefinition) (source : Option DataAsset) (edge : LineageEdge) :
    Option TableSpec :=
  source.bind fun s =>
    definition.tables.find? (fun item =>
      casefold item.tableName = casefold s.tableName ∧
        casefold (edge.sourceField.getD "") ∈ item.columns.map casefold)

/-- The body of the loop over the edges. -/
def suggestionOf (catalog : Catalog) (versionId : Option ℕ) (standard : DataAsset)
    (definition : TaskDefinition) (edge : LineageEdge) : Suggestion :=
  let source := catalog.asset edge.sourceAssetId
  let contract :=
    if safeEdge casefold versionId source edge then
      matchingContract casefold definition standard source edge
    else none
  let eligible := contract.isSome ∧ (matchingTable casefold definition source edge).isSome ∧
    source.any (fun s => s.connectionId = some definition.connectionId ∧
      casefold s.database = casefold definition.database)
  { standardField := edge.targetField
    sourceAssetId := source.map DataAsset.id
    sourceDatabase := source.map DataAsset.database
    sourceTable := source.map DataAsset.tableName
    sourceField := edge.sourceField
    transformationType := edge.transformationType
    autoEligible := decide eligible
    contract := contract
    reason := if eligible then "覆盖合同、生产血缘和 SM4 字段均已冻结"
      else "缺少唯一覆盖合同、生产血缘或 SM4 字段匹配" }

/-- `required`. -/
def requiredFields (standard : DataAsset) : List String :=
  ((sensitiveFields standard).filter (· ≠ "")).mergeSort

/-- `covered`. -/
def coveredFields (suggestions : List Suggestion) : List String :=
  (suggestions.filter Suggestion.autoEligible).map (fun s => s.standardField.getD "")

/-- `bool(required) and set(required) == covered`. -/
def planReady (required covered : List String) : Bool :=
  required ≠ [] ∧ (∀ field ∈ required, field ∈ covered) ∧ ∀ field ∈ covered, field ∈ required

/-- `_build_security_access_plan_in_session`. -/
def buildSecurityAccessPlan (catalog : Catalog) (pipeline : Option Pipeline)
    (standardAssetId : ℕ) : Except String AccessPlan :=
  match pipeline, catalog.asset standardAssetId, pipeline.bind catalog.boundDefinition with
  | some pipeline, some standard, some definition =>
      let suggestions := (sensitiveEdges catalog standard).map
        (suggestionOf casefold catalog pipeline.standardWorkflowVersionId standard definition)
      let required := requiredFields standard
      let ready := planReady required (coveredFields suggestions)
      .ok
        { standardAssetId := standard.id
          sm4TaskDefinitionId := definition.id
          sm4TaskRevision := definition.revision
          requiredStandardFields := required
          suggestions := suggestions
          ready := ready
          reason := if ready then "覆盖合同完整" else "敏感字段未形成完整且唯一的安全访问覆盖合同" }
  | _, _, _ => .error "安全访问计划缺少流水线、标准资产或 SM4 任务定义。"

/-! ### The tables of the encryption job -/

/-- `str(..)` of a text that may be missing. -/
def pyStr (text : Option String) : String := text.getD "None"

/-- `grouped` of a plan: the tables and columns of its eligible suggestions. -/
def groupedColumns (plan : AccessPlan) : List (String × String) :=
  (plan.suggestions.filter Suggestion.autoEligible).map
    (fun s => (pyStr s.sourceTable, pyStr s.sourceField))

/-- `grouped` without security access. -/
def groupedByLineage (catalog : Catalog) (standard : DataAsset) (definition : TaskDefinition) :
    List (String × String) :=
  (sensitiveEdges catalog standard).filterMap fun edge =>
    match catalog.asset edge.sourceAssetId, edge.sourceField with
    | some source, some field =>
        if edge.transformationType ∈ ["direct", "rename", "cast"] ∧ edge.reviewRequired = false ∧
            casefold source.database = casefold definition.database ∧ field ≠ "" then
          some (source.tableName, field)
        else none
    | _, _ => none

/-- `tables`, sorted. -/
def tableSpecs (grouped : List (String × String)) : List TableSpec :=
  (grouped.map Prod.fst).dedup.mergeSort.map fun table =>
    { tableName := table
      columns := ((grouped.filter (fun g => g.1 = table)).map Prod.snd).dedup.mergeSort }

/-- `grouped`. -/
def encryptionGroups (catalog : Catalog) (pipeline : Pipeline) (standard : DataAsset)
    (definition : TaskDefinition) : Except String (List (String × String)) :=
  if pipeline.config.securityAccessEnabled then do
    let plan ← buildSecurityAccessPlan casefold catalog (some pipeline) standard.id
    raiseIf (plan.ready = false) plan.reason
    return groupedColumns plan
  else .ok (groupedByLineage casefold catalog standard definition)

/-- The tables `_prepare_automation_encryption_job` makes an SM4 job of. -/
def automationEncryptionTables (catalog : Catalog) (pipeline : Pipeline) (standardAssetId : ℕ) :
    Except String (List TableSpec) :=
  match catalog.asset standardAssetId, catalog.boundDefinition pipeline with
  | some standard, some definition => do
      raiseIf (definition.connectionId ∉ catalog.profiles)
        "自动加密缺少标准资产、SM4 任务定义或 Doris 连接。"
      let grouped ← encryptionGroups casefold catalog pipeline standard definition
      raiseIf (grouped = []) "没有符合冻结血缘和 SM4 合同的自动加密字段。"
      return tableSpecs grouped
  | _, _ => .error "自动加密缺少标准资产、SM4 任务定义或 Doris 连接。"

/-! ### Edges that feed a field -/

/-- An edge of the current workflow version from a Doris raw asset into the field. -/
def Feeds (catalog : Catalog) (pipeline : Pipeline) (standardAssetId : ℕ) (field : String)
    (edge : LineageEdge) : Prop :=
  edge ∈ catalog.edges ∧ edge.targetAssetId = standardAssetId ∧ edge.targetField = some field ∧
    edge.workflowVersionId = pipeline.standardWorkflowVersionId ∧
    ∃ source, catalog.asset edge.sourceAssetId = some source ∧ casefold source.engine = "doris" ∧
      source.layer = "raw"

/-- The edge is direct and reviewed, has a coverage contract, and its column is one of the task's,
in the database of the task. -/
def Contracted (catalog : Catalog) (definition : TaskDefinition) (standard : DataAsset)
    (edge : LineageEdge) : Prop :=
  edge.transformationType ∈ ["direct", "rename", "cast"] ∧ edge.reviewRequired = false ∧
    ∃ source, catalog.asset edge.sourceAssetId = some source ∧
      (∃ contract ∈ definition.coverageContracts,
        coverageContractMatches casefold contract standard source edge = true) ∧
      (∃ item ∈ definition.tables, casefold item.tableName = casefold source.tableName ∧
        casefold (edge.sourceField.getD "") ∈ item.columns.map casefold) ∧
      source.connectionId = some definition.connectionId ∧
        casefold source.database = casefold definition.database

variable {casefold} {catalog : Catalog} {pipeline : Pipeline} {standardAssetId : ℕ}
  {standard : DataAsset} {definition : TaskDefinition} {plan : AccessPlan}

variable {edge : LineageEdge}

theorem safeEdge_iff {versionId : Option ℕ} :
    safeEdge casefold versionId (catalog.asset edge.sourceAssetId) edge = true ↔
      (∃ source, catalog.asset edge.sourceAssetId = some source ∧ casefold source.engine = "doris" ∧
        source.layer = "raw") ∧
      edge.transformationType ∈ ["direct", "rename", "cast"] ∧ edge.reviewRequired = false ∧
        edge.workflowVersionId = versionId := by
  unfold safeEdge
  rw [decide_eq_true_iff, Option.any_eq_true]
  simp only [decide_eq_true_eq]

/-- The five conditions of an eligible edge. -/
theorem autoEligible_iff : (suggestionOf casefold catalog pipeline.standardWorkflowVersionId standard definition
      edge).autoEligible = true ↔
      (edge.workflowVersionId = pipeline.standardWorkflowVersionId ∧
        ∃ source, catalog.asset edge.sourceAssetId = some source ∧
          casefold source.engine = "doris" ∧ source.layer = "raw") ∧
      Contracted casefold catalog definition standard edge := by
  unfold suggestionOf Contracted
  dsimp only
  rw [decide_eq_true_iff]
  constructor
  · rintro ⟨hcontract, htable, hsource⟩
    by_cases hsafe : safeEdge casefold pipeline.standardWorkflowVersionId
        (catalog.asset edge.sourceAssetId) edge = true
    · rw [if_pos hsafe] at hcontract
      obtain ⟨⟨source, hfound, hengine, hlayer⟩, htype, hreview, hversion⟩ := safeEdge_iff.mp hsafe
      rw [hfound] at hcontract htable hsource
      refine ⟨⟨hversion, source, hfound, hengine, hlayer⟩, htype, hreview, source, hfound, ?_, ?_, ?_⟩
      · unfold matchingContract at hcontract
        rw [Option.bind_some, Option.isSome_map, List.find?_isSome] at hcontract
        exact hcontract
      · unfold matchingTable at htable
        rw [Option.bind_some, List.find?_isSome] at htable
        simpa using htable
      · simpa using hsource
    · rw [if_neg hsafe] at hcontract
      cases hcontract
  · rintro ⟨⟨hversion, source, hfound, hengine, hlayer⟩, htype, hreview, source', hfound',
      hcontract, htable, hconnection⟩
    rw [hfound, Option.some.injEq] at hfound'
    subst hfound'
    have hsafe := safeEdge_iff.mpr ⟨⟨source, hfound, hengine, hlayer⟩, htype, hreview, hversion⟩
    rw [if_pos hsafe, hfound]
    refine ⟨?_, ?_, by simpa using hconnection⟩
    · unfold matchingContract
      rw [Option.bind_some, Option.isSome_map, List.find?_isSome]
      exact hcontract
    · unfold matchingTable
      rw [Option.bind_some, List.find?_isSome]
      simpa using htable

/-- What a plan is made of. -/
theorem buildSecurityAccessPlan_ok
    (h : buildSecurityAccessPlan casefold catalog (some pipeline) standardAssetId = .ok plan) :
    ∃ standard definition, catalog.asset standardAssetId = some standard ∧
      catalog.boundDefinition pipeline = some definition ∧
      plan.requiredStandardFields = requiredFields standard ∧
      plan.suggestions = (sensitiveEdges catalog standard).map
        (suggestionOf casefold catalog pipeline.standardWorkflowVersionId standard definition) ∧
      plan.ready = planReady plan.requiredStandardFields (coveredFields plan.suggestions) := by
  unfold buildSecurityAccessPlan at h
  split at h
  · next standard definition heq hstandard hdefinition =>
      cases heq
      cases h
      exact ⟨standard, definition, hstandard, hdefinition, rfl, rfl, rfl⟩
  · cases h

theorem asset_id (h : catalog.asset standardAssetId = some standard) : standard.id = standardAssetId := by
  have hid := List.find?_some h
  simpa using hid

theorem mem_requiredFields {field : String} :
    field ∈ requiredFields standard ↔ field ∈ sensitiveFields standard ∧ field ≠ "" := by
  unfold requiredFields
  rw [List.mem_mergeSort, List.mem_filter, decide_eq_true_iff]

/-- A feeding edge is gone through when the plan is made. -/
theorem Feeds.mem_sensitiveEdges {field : String}
    (h : Feeds casefold catalog pipeline standardAssetId field edge)
    (hstandard : catalog.asset standardAssetId = some standard) (hfield : field ∈ requiredFields standard) :
    edge ∈ sensitiveEdges catalog standard := by
  obtain ⟨hedge, htarget, htargetField, -⟩ := h
  have hsensitive := (mem_requiredFields.mp hfield).1
  unfold sensitiveEdges
  rw [List.mem_filter, decide_eq_true_iff, asset_id hstandard]
  refine ⟨hedge, htarget, field, htargetField, ?_⟩
  unfold wantedFields
  rw [if_neg (List.ne_nil_of_mem hsensitive)]
  exact hsensitive

/-- A job encrypts the column. -/
def Encrypts (tables : List TableSpec) (table column : String) : Prop :=
  ∃ item ∈ tables, item.tableName = table ∧ column ∈ item.columns

instance (tables : List TableSpec) (table column : String) : Decidable (Encrypts tables table column) := by
  unfold Encrypts
  infer_instance

theorem encrypts_tableSpecs {grouped : List (String × String)} {table column : String} :
    Encrypts (tableSpecs grouped) table column ↔ (table, column) ∈ grouped := by
  unfold Encrypts tableSpecs
  simp only [List.mem_map, List.mem_mergeSort, List.mem_dedup]
  constructor
  · rintro ⟨_, ⟨name, -, rfl⟩, rfl, hcolumn⟩
    simp only [List.mem_mergeSort, List.mem_dedup, List.mem_map, List.mem_filter,
      decide_eq_true_iff] at hcolumn
    obtain ⟨⟨name', column'⟩, ⟨hmem, rfl⟩, rfl⟩ := hcolumn
    exact hmem
  · intro hmem
    refine ⟨_, ⟨table, ⟨_, hmem, rfl⟩, rfl⟩, rfl, ?_⟩
    simp only [List.mem_mergeSort, List.mem_dedup, List.mem_map, List.mem_filter,
      decide_eq_true_iff]
    exact ⟨(table, column), ⟨hmem, rfl⟩, rfl⟩

/-- The suggestion of the edge is eligible, and the job of the plan encrypts its column. -/
def EdgeEncrypted (casefold : String → String) (catalog : Catalog) (pipeline : Pipeline)
    (standard : DataAsset) (definition : TaskDefinition) (plan : AccessPlan) (edge : LineageEdge) : Prop :=
  let suggestion :=
    suggestionOf casefold catalog pipeline.standardWorkflowVersionId standard definition edge
  suggestion ∈ plan.suggestions ∧ suggestion.autoEligible = true ∧
    Encrypts (tableSpecs (groupedColumns plan)) (pyStr suggestion.sourceTable)
      (pyStr suggestion.sourceField)

instance (casefold : String → String) (catalog : Catalog) (pipeline : Pipeline)
    (standard : DataAsset) (definition : TaskDefinition) (plan : AccessPlan) (edge : LineageEdge) :
    Decidable (EdgeEncrypted casefold catalog pipeline standard definition plan edge) := by
  unfold EdgeEncrypted
  infer_instance

/-- In a ready plan every edge that feeds a required field is encrypted, unless one of these fields
is fed by a contracted edge and by another one. -/
theorem ready_feeds_iff (hstandard : catalog.asset standardAssetId = some standard)
    (hdefinition : catalog.boundDefinition pipeline = some definition)
    (hplan : buildSecurityAccessPlan casefold catalog (some pipeline) standardAssetId = .ok plan)
    (hready : plan.ready = true) : (∀ field ∈ plan.requiredStandardFields, ∀ edge,
      Feeds casefold catalog pipeline standardAssetId field edge →
        EdgeEncrypted casefold catalog pipeline standard definition plan edge) ↔
    ∀ field ∈ requiredFields standard, ∀ edge edge',
      Feeds casefold catalog pipeline standardAssetId field edge →
        Feeds casefold catalog pipeline standardAssetId field edge' →
          Contracted casefold catalog definition standard edge →
            Contracted casefold catalog definition standard edge' := by
  obtain ⟨standard', definition', hstandard', hdefinition', hrequired, hsuggestions, hplanReady⟩ :=
    buildSecurityAccessPlan_ok hplan
  rw [hstandard, Option.some.injEq] at hstandard'
  rw [hdefinition, Option.some.injEq] at hdefinition'
  subst hstandard' hdefinition'
  rw [hready] at hplanReady
  unfold planReady at hplanReady
  rw [eq_comm, decide_eq_true_iff] at hplanReady
  obtain ⟨-, hcovered, -⟩ := hplanReady
  rw [hrequired] at hcovered ⊢
  constructor
  · intro h field hfield edge edge' hfeeds hfeeds' _
    exact (autoEligible_iff.mp (h field hfield edge' hfeeds').2.1).2
  · intro h field hfield edge hfeeds
    -- readiness gives the field one eligible edge
    obtain ⟨suggestion, hmem, hname⟩ := List.mem_map.mp (hcovered field hfield)
    obtain ⟨hmem, heligible⟩ := List.mem_filter.mp hmem
    rw [hsuggestions] at hmem
    obtain ⟨witness, hwitness, rfl⟩ := List.mem_map.mp hmem
    obtain ⟨⟨hversion, hraw⟩, hcontracted⟩ := autoEligible_iff.mp heligible
    obtain ⟨hedge, htarget⟩ := List.mem_filter.mp hwitness
    rw [decide_eq_true_iff] at htarget
    obtain ⟨htarget, name, htargetField, -⟩ := htarget
    have hfield' : witness.targetField = some field := by
      have hget : witness.targetField.getD "" = field := hname
      rw [htargetField] at hget ⊢
      rw [← hget]
      rfl
    have hfeedsWitness : Feeds casefold catalog pipeline standardAssetId field witness :=
      ⟨hedge, htarget.trans (asset_id hstandard), hfield', hversion, hraw⟩
    have hthis := h field hfield witness edge hfeedsWitness hfeeds hcontracted
    have heligible' := autoEligible_iff.mpr ⟨hfeeds.2.2.2, hthis⟩
    have hlisted : suggestionOf casefold catalog pipeline.standardWorkflowVersionId standard
        definition edge ∈ plan.suggestions := by
      rw [hsuggestions]
      exact List.mem_map_of_mem (hfeeds.mem_sensitiveEdges hstandard hfield)
    refine ⟨hlisted, heligible', ?_⟩
    rw [encrypts_tableSpecs]
    exact List.mem_map_of_mem (List.mem_filter.mpr ⟨hlisted, heligible'⟩)

/-! ### A field with two sources -/

def personAsset : DataAsset where
  id := 1
  connectionId := some 7
  engine := "doris"
  database := "dwd"
  tableName := "person"
  layer := "standard"
  schemaSignature := "s1"
  classification := [{ field := "phone", protectionAction := "sm4", autoApply := true }]

def rawAsset (id : ℕ) (table : String) : DataAsset where
  id := id
  connectionId := some 7
  engine := "doris"
  database := "ods"
  tableName := table
  layer := "raw"
  schemaSignature := "s"

def phoneEdge (source : ℕ) : LineageEdge where
  sourceAssetId := source
  sourceField := some "phone"
  targetAssetId := 1
  targetField := some "phone"
  transformationType := "direct"
  workflowVersionId := some 3
  reviewRequired := false

/-- The task encrypts `ods.customers.phone` only. -/
def phoneTask : TaskDefinition where
  id := 5
  revision := 1
  connectionId := 7
  database := "ods"
  tables := [{ tableName := "customers", columns := ["phone"] }]
  coverageContracts :=
    [{ standardDatabase := "dwd", standardTable := "person", standardField := "phone"
       sourceDatabase := "ods", sourceTable := "customers", sourceField := "phone"
       accessDatabase := "access", accessTable := "" }]

def phonePipeline : Pipeline where
  id := 9
  standardWorkflowVersionId := some 3
  sm4TaskDefinitionId := some 5
  config := { securityAccessEnabled := true }

/-- The phone of a person comes from the raw tables with these edges. -/
def phoneCatalog (edges : List LineageEdge) : Catalog where
  assets := [personAsset, rawAsset 2 "customers", rawAsset 3 "visitors"]
  edges := edges
  definitions := [phoneTask]
  profiles := [7]

theorem ready_feeds_plaintext : ∃ plan, buildSecurityAccessPlan id (phoneCatalog [phoneEdge 2, phoneEdge 3])
        (some phonePipeline) 1 = .ok plan ∧ plan.ready = true ∧
      "phone" ∈ plan.requiredStandardFields ∧
      Feeds id (phoneCatalog [phoneEdge 2, phoneEdge 3]) phonePipeline 1 "phone" (phoneEdge 3) ∧
      ¬ EdgeEncrypted id (phoneCatalog [phoneEdge 2, phoneEdge 3]) phonePipeline personAsset
        phoneTask plan (phoneEdge 3) ∧
      ¬ Encrypts (tableSpecs (groupedColumns plan)) "visitors" "phone" := by
  refine ⟨_, rfl, by decide +kernel, by decide +kernel, ?_, by decide +kernel, by decide +kernel⟩
  exact ⟨by decide, rfl, rfl, rfl, rawAsset 3 "visitors", by decide, rfl, rfl⟩

theorem ready_feeds_single :
    ∃ plan, buildSecurityAccessPlan id (phoneCatalog [phoneEdge 2]) (some phonePipeline) 1 =
        .ok plan ∧
      ∀ field ∈ plan.requiredStandardFields, ∀ edge,
        Feeds id (phoneCatalog [phoneEdge 2]) phonePipeline 1 field edge →
          EdgeEncrypted id (phoneCatalog [phoneEdge 2]) phonePipeline personAsset phoneTask plan
            edge := by
  refine ⟨_, rfl, (ready_feeds_iff rfl rfl rfl (by decide +kernel)).mpr ?_⟩
  intro field _ edge edge' hfeeds hfeeds' hcontracted
  rw [List.mem_singleton.mp hfeeds'.1]
  rw [List.mem_singleton.mp hfeeds.1] at hcontracted
  exact hcontracted

end RecoveryService.DataAutomation
