import RecoveryService.DataSync.Schedule

/-! # A run of a data-sync task

`prepare` is the first part of `execute_data_sync`: the mappings of the configuration that are
enabled and selected are cleaned and copied.  `executeDataSync` runs the copies and builds the
configuration patch: every mapping of the configuration is looked up among the copies by
`id or source_table`. -/

namespace DataSync

section

variable (py : Python) (fresh : ℕ → String)

/-! ### Normalisation -/

/-- `_normalize_table_mapping`, up to the tables; `id` is the new id of a mapping without one. -/
def normalizeNames (id : String) (item config : Dict) : Except Raised Dict := do
  let mapping := item.set "id" (.str (if (item.get "id").truthy then py.str (item.get "id") else id))
  let mapping := mapping.set "enabled" (.bool (mapping.getOr "enabled" (.bool true)).truthy)
  let wrap (mapping : Dict) (r : Except Raised String) : Except Raised String :=
    r.mapError fun exc => valueError (mappingErrorMessage py mapping exc)
  let sourceSchema ← wrap mapping (cleanIdentifier py
    (orElse (mapping.get "source_schema") (config.get "source_schema")) "源 Schema")
  let mapping := mapping.set "source_schema" (.str sourceSchema)
  let sourceTable ← wrap mapping (cleanExistingIdentifier py (mapping.get "source_table") "源表")
  let mapping := mapping.set "source_table" (.str sourceTable)
  let targetDatabase ← wrap mapping (cleanIdentifier py
    (orElse (mapping.get "target_database") (config.get "target_database")) "目标库")
  let mapping := mapping.set "target_database" (.str targetDatabase)
  let targetTable ← wrap mapping (cleanExistingIdentifier py
    (orElse (mapping.get "target_table") (mapping.get "source_table")) "目标表")
  return mapping.set "target_table" (.str targetTable)

/-- `list(value or [])` of a value that is a list. -/
def listOf (value : Json) : Json := .arr (value.toList.getD [])

/-- `_normalize_table_mapping`. -/
def normalizeTableMapping (id : String) (item config : Dict) : Except Raised Dict := do
  let mapping ← normalizeNames py id item config
  let schemaPolicy ← cleanSchemaPolicy py
    (orElse (mapping.get "schema_policy") (config.get "schema_policy"))
  return (((((mapping.set "schema_policy" (.str schemaPolicy)).set "auto_create"
    (.bool (mapping.getOr "auto_create" (.bool true)).truthy)).set "source_columns"
    (listOf (mapping.get "source_columns"))).set "target_columns"
    (listOf (mapping.get "target_columns"))).set "column_mappings"
    (listOf (orElse (mapping.get "column_mappings") (mapping.get "column_mapping"))))

/-- The mappings in order; the mapping number `k` gets the new id `fresh k`. -/
def normalizeMappings (config : Dict) : List Dict → ℕ → Except Raised (List Dict)
  | [], _ => return []
  | item :: rest, k => do
      let mapping ← normalizeTableMapping py (fresh k) item config
      let mappings ← normalizeMappings config rest (k + 1)
      return mapping :: mappings

/-- The settings `_normalize_config` cleans, in the order of the source. -/
def normalizeSettings (config : Dict) : Except Raised Dict := do
  let clean := config
  if ¬ (clean.get "source_connection_id").truthy then
    .error (valueError "数据同步任务必须选择 Doris 连接。")
  else
    let clean := clean.set "target_connection_id"
      (orElse (clean.get "target_connection_id") (clean.get "source_connection_id"))
    let catalog ← cleanIdentifier py (orElse (clean.get "source_catalog") (.str "internal")) "源 Catalog"
    let schema ← cleanIdentifier py
      (orElse (clean.get "source_schema") (clean.get "source_database")) "源 Schema"
    let database ← cleanIdentifier py (clean.get "target_database") "目标库"
    let writeMode ← cleanWriteMode py (clean.get "write_mode")
    let syncMethod ← cleanSyncMethod py (clean.get "sync_method")
    let schemaPolicy ← cleanSchemaPolicy py (clean.get "schema_policy")
    let batchSize ← cleanBatchSize py (clean.get "batch_size")
    let port ← py.int (orElse (clean.get "stream_load_http_port") (.num 8030))
    let ratio := match clean.get "max_filter_ratio" with
      | .null => "1"
      | value => py.str value
    return (((((((((((clean.set "source_catalog" (.str catalog)).set "source_schema"
      (.str schema)).set "target_database" (.str database)).set "write_mode"
      (.str writeMode)).set "sync_method" (.str syncMethod)).set "schema_policy"
      (.str schemaPolicy)).set "batch_size" (.num batchSize)).set "field_delimiter"
      (.str (decodeDelimiter py (orElse (clean.get "field_delimiter") (.str ","))))).set
      "line_delimiter"
      (.str (decodeDelimiter py (orElse (clean.get "line_delimiter") (.str "\\n"))))).set "strict_mode"
      (.bool (clean.get "strict_mode").truthy)).set "max_filter_ratio" (.str ratio)).set
      "stream_load_http_port" (.num port)

/-- A normalised configuration and its mappings. -/
structure Normalized where
  config : Dict
  mappings : List Dict

/-- `_normalize_config` with the mappings `items` for a task with a mapping list.
`maxTableParallelism` is the setting `data_sync_max_table_parallelism`. -/
def normalizeBatch (maxTableParallelism : ℤ) (config : Dict) (items : List Dict) :
    Except Raised Normalized := do
  let clean ← normalizeSettings py config
  let parallelism ← cleanTableParallelism py maxTableParallelism (clean.get "table_parallelism")
  let clean := (clean.set "continue_on_error"
    (.bool (clean.getOr "continue_on_error" (.bool true)).truthy)).set "table_parallelism"
    (.num parallelism)
  let mappings ← normalizeMappings py fresh clean items 0
  return { config := clean, mappings := mappings }

/-- Whether `_normalize_config` takes the configuration for one with a mapping list. -/
def isBatch (config : Dict) (items : List Dict) : Bool :=
  !items.isEmpty || (config.get "source_catalog").truthy || (config.get "source_schema").truthy

def legacyFields : List (String × String) :=
  [("source_connection_id", "源连接"), ("source_database", "源库"), ("source_table", "源表"),
    ("target_connection_id", "目标连接"), ("target_database", "目标库"), ("target_table", "目标表")]

/-- `_legacy_to_batch_config`: a task with one table becomes a task with one mapping. -/
def legacyToBatchConfig (maxTableParallelism : ℤ) (config : Dict) : Except Raised Normalized := do
  legacyFields.forM fun field =>
    if Text.strip (strOr py (config.get field.1) "") = "" then
      .error (valueError ("数据同步任务缺少：" ++ field.2 ++ "。"))
    else .ok ()
  let writeMode := strOr py (config.get "write_mode") "truncate_insert"
  let item : Dict := [("id", .str (fresh 0)), ("enabled", .bool true),
    ("source_schema", config.get "source_database"), ("source_table", config.get "source_table"),
    ("target_database", config.get "target_database"), ("target_table", config.get "target_table"),
    ("auto_create", .bool true),
    ("column_mappings", orElse (config.get "column_mapping") (.arr []))]
  normalizeBatch py fresh maxTableParallelism
    [("source_connection_id", config.get "source_connection_id"),
      ("target_connection_id", config.get "target_connection_id"),
      ("source_catalog", orElse (config.get "source_catalog") (.str "internal")),
      ("source_schema", config.get "source_database"),
      ("target_database", config.get "target_database"),
      ("write_mode", .str (if writeMode = "full_replace" then "truncate_insert" else writeMode)),
      ("sync_method", orElse (config.get "sync_method") (.str "auto")),
      ("schema_policy", orElse (config.get "schema_policy") (.str "target")),
      ("batch_size", orElse (config.get "batch_size") (.num 1000)),
      ("field_delimiter", orElse (config.get "field_delimiter") (.str ",")),
      ("line_delimiter", orElse (config.get "line_delimiter") (.str "\\n")),
      ("strict_mode", config.getOr "strict_mode" (.bool false)),
      ("max_filter_ratio", config.getOr "max_filter_ratio" (.str "1")),
      ("stream_load_http_port", orElse (config.get "stream_load_http_port") (.num 8030)),
      ("table_parallelism", orElse (config.get "table_parallelism") (.num 1))]
    [item]

/-- `_normalize_config`, and `_legacy_to_batch_config` for a task of the mode `legacy`. -/
def normalizeConfig (maxTableParallelism : ℤ) (config : Dict) (items : List Dict) : Except Raised Normalized :=
  if isBatch config items then normalizeBatch py fresh maxTableParallelism config items
  else legacyToBatchConfig py fresh maxTableParallelism config

/-! ### Selection -/

/-- `str(item.get("id") or item.get("source_table"))`. -/
def mappingKey (item : Dict) : String := py.str (orElse (item.get "id") (item.get "source_table"))

/-- The set `selected`. -/
def selectedTables (config : Dict) : List String :=
  (((config.get "selected_tables").toList.getD []).map py.str).filter fun s => Text.strip s ≠ ""

/-- The filter of the runnable mappings. -/
def isRunnable (selected : List String) (item : Dict) : Bool :=
  (item.getOr "enabled" (.bool true)).truthy &&
    (selected.isEmpty || selected.contains (mappingKey py item) ||
      selected.contains (py.str (item.get "source_table")))

/-- What `execute_data_sync` has read before it runs the tables. -/
structure Prepared where
  config : Dict
  selected : List String
  originals : List Dict
  tableMappings : List Dict

/-- `[dict(item or {}) for item in config.get("table_mappings") or []]`. -/
def rawMappings (config : Dict) : Option (List Dict) := do
  let items ← (config.get "table_mappings").toList
  items.mapM Json.toDict

/-- The first part of `execute_data_sync`. -/
def prepare (maxTableParallelism : ℤ) (engine target : Engine) (config : Dict) :
    Except Raised Prepared := do
  ensureSupportedSourceProfile engine
  ensureDorisProfile target
  match rawMappings config with
  | none => .error { info := { kind := .other, name := "TypeError" } }
  | some raw =>
      let selected := selectedTables py config
      let normalized ← normalizeConfig py fresh maxTableParallelism config
        (raw.filter (isRunnable py selected))
      let catalog ← cleanSourceCatalog py engine (normalized.config.get "source_catalog")
      let clean := (normalized.config.set "source_engine" (.str engine.name)).set "source_catalog"
        (.str catalog)
      let method ← resolveSyncMethod py (clean.get "sync_method") engine
      if engine ≠ .doris ∧ method = "insert_select" then
        .error (valueError
          "源连接不是 Doris 时不能使用 Catalog 联邦查询，请选择 Stream Load 或自动选择。")
      else if normalized.mappings.filter (isRunnable py selected) = [] then
        .error (valueError "数据同步没有可运行的表映射。")
      else
        return { config := clean, selected := selected
                 originals := if raw = [] then normalized.mappings else raw
                 tableMappings := normalized.mappings }

/-! ### The run -/

/-- The mappings of `table_mappings` that are run, in order. -/
def Prepared.runnable (p : Prepared) : List Dict := p.tableMappings.filter (isRunnable py p.selected)

/-- `table_mappings` behind the run: the runnable ones were changed in place; `k` counts them. -/
def finalMappings (selected : List String) (mappings : ℕ → Dict) : List Dict → ℕ → List Dict
  | [], _ => []
  | item :: rest, k =>
      if isRunnable py selected item then mappings k :: finalMappings selected mappings rest (k + 1)
      else item :: finalMappings selected mappings rest k

/-- `by_id.get(key)`: of equal keys the dictionary keeps the last. -/
def byId (mappings : List Dict) (key : String) : Option Dict :=
  mappings.reverse.find? fun item => decide (mappingKey py item = key)

/-- `config_patch["table_mappings"]`. -/
def updatedMappings (originals mappings : List Dict) : List Dict :=
  originals.map fun original => (byId py mappings (mappingKey py original)).getD original

/-- The result of `execute_data_sync`: the report and the configuration patch. -/
structure RunResult where
  report : Report
  tableMappings : List Dict
  lastRunStatus : String
  lastRunMessage : String
  lastSuccessAt : Json

/-- `table_parallelism` of a normalised configuration. -/
def Prepared.parallelism (p : Prepared) : ℕ :=
  match p.config.get "table_parallelism" with
  | .num n => n.toNat
  | _ => 1

/-- The tally of the run when the table number `k` of the runnable ones ends with `outcomes k`. -/
def Prepared.tally (p : Prepared) (syncMethod : String) (completion : Completion)
    (outcomes : ℕ → Outcome) : Tally :=
  runTables py p.config syncMethod outcomes completion p.parallelism (p.runnable py).length
    { mappings := fun k => (p.runnable py).getD k [] }

/-- The rest of `execute_data_sync`, with the outcomes of the tables. -/
def runPrepared (nowText syncMethod : String) (p : Prepared) (completion : Completion)
    (outcomes : ℕ → Outcome) : RunResult :=
  let t := p.tally py syncMethod completion outcomes
  let r := report (p.runnable py).length t
  { report := r
    tableMappings := updatedMappings py p.originals
      (finalMappings py p.selected t.mappings p.tableMappings 0)
    lastRunStatus := r.status
    lastRunMessage := r.message
    lastSuccessAt := if t.failedCount = 0 then .str nowText else p.config.get "last_success_at" }

end

end DataSync
