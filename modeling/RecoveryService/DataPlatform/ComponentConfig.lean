import RecoveryService.DataSync.PatchFaithful

/-! # The configuration of a data-sync component task

`_normalize_component_task_config` for the node type `data_sync`.  It cleans the settings of the task
and leaves the mappings as they are: `execute_data_sync` cleans those. -/

namespace RecoveryService.DataPlatform

open DataSync

variable (py : Python)

/-- The labels of the fields without a text. -/
def missingLabels (config : Dict) (required : List (String × String)) : List String :=
  (required.filter fun field => decide (Text.strip (strOr py (config.get field.1) "") = "")).map
    Prod.snd

def raiseMissing (missing : List String) : Except Raised Unit :=
  if missing = [] then .ok ()
  else .error (valueError ("数据同步任务缺少：" ++ String.intercalate ", " missing ++ "。"))

/-- A text that has to be one of a few. -/
def requireOneOf (text : String) (choices : List String) (message : String) : Except Raised Unit :=
  if text ∈ choices then .ok () else .error (valueError message)

/-- `max(low, min(high, int(value or default)))`. -/
def cutNumber (low high : ℤ) (value : Json) (default : ℤ) : Except Raised ℤ := do
  let n ← py.int (orElse value (.num default))
  return max low (min high n)

def batchRequired : List (String × String) :=
  [("source_connection_id", "源连接"), ("source_catalog", "源 Catalog"), ("source_schema", "源 Schema"),
    ("target_database", "目标库")]

/-- The branch for a task with mappings, a catalog or a schema. -/
def normalizeBatchTask (config : Dict) : Except Raised Dict := do
  let sourceEngine := py.lower (Text.strip (strOr py (config.get "source_engine") "doris"))
  let clean := if sourceEngine = "doris" then
      config.set "target_connection_id"
        (orElse (config.get "target_connection_id") (config.get "source_connection_id"))
    else config
  raiseMissing (missingLabels py clean batchRequired ++
    missingLabels py clean [("target_connection_id", "目标 Doris 连接")])
  let writeMode := strOr py (clean.get "write_mode") "append"
  requireOneOf writeMode ["append", "truncate_insert"] "数据同步写入策略只支持追加或清空后写入。"
  let syncMethod := Text.strip (strOr py (clean.get "sync_method") "auto")
  requireOneOf syncMethod ["auto", "insert_select", "stream_load"]
    "data sync method must be auto, insert_select, or stream_load."
  if sourceEngine ≠ "doris" ∧ syncMethod = "insert_select" then
    .error (valueError
      "MySQL 源连接不能使用 Catalog 联邦查询，请选择 Stream Load 或自动选择。")
  else
    let schemaPolicy := Text.strip (strOr py (clean.get "schema_policy") "target")
    requireOneOf schemaPolicy ["source", "target"]
      "data sync schema policy must be source or target."
    match (clean.get "table_mappings").toList with
    | none => .error { info := { kind := .other, name := "TypeError" } }
    | some [] => .error (valueError "数据同步任务至少需要一条表映射。")
    | some mappings =>
        let batchSize ← cutNumber py 100 50000 (clean.get "batch_size") 1000
        let ratio := match clean.get "max_filter_ratio" with
          | .null => "1"
          | value => py.str value
        let parallelism ← cutNumber py 1 128 (clean.get "table_parallelism") 1
        let port ← py.int (orElse (clean.get "stream_load_http_port") (.num 8030))
        let timeout ← cutNumber py 30 7200 (clean.get "stream_load_timeout_seconds") 300
        return ((((((((((((clean.set "write_mode" (.str writeMode)).set "sync_method"
          (.str syncMethod)).set "schema_policy" (.str schemaPolicy)).set "batch_size"
          (.num batchSize)).set "field_delimiter"
          (.str (strOr py (clean.get "field_delimiter") ","))).set "line_delimiter"
          (.str (strOr py (clean.get "line_delimiter") "\\n"))).set "max_filter_ratio"
          (.str ratio)).set "strict_mode" (.bool (clean.get "strict_mode").truthy)).set
          "continue_on_error" (.bool (clean.getOr "continue_on_error" (.bool true)).truthy)).set
          "table_parallelism" (.num parallelism)).set "stream_load_http_port" (.num port)).set
          "stream_load_timeout_seconds" (.num timeout)).set "table_mappings" (.arr mappings)

def singleRequired : List (String × String) :=
  [("source_connection_id", "源连接"), ("source_database", "源数据库"), ("source_table", "源表"),
    ("target_connection_id", "目标连接"), ("target_database", "目标数据库"),
    ("target_table", "目标表")]

/-- The branch for a task with one table. -/
def normalizeSingleTask (clean : Dict) : Except Raised Dict := do
  raiseMissing (missingLabels py clean singleRequired)
  let writeMode := strOr py (clean.get "write_mode") "full_replace"
  requireOneOf writeMode ["full_replace", "append", "incremental_append", "primary_key_merge"]
    "数据同步写入模式不合法。"
  if writeMode ∈ ["incremental_append", "primary_key_merge"] ∧
      ¬ (clean.get "watermark_column").truthy then
    .error (valueError "增量同步任务必须配置水位字段。")
  else
    let batchSize ← cutNumber py 100 10000 (clean.get "batch_size") 1000
    return (((clean.set "write_mode" (.str writeMode)).set "batch_size" (.num batchSize)).set
      "column_mapping" (listOf (clean.get "column_mapping"))).set "primary_keys"
      (listOf (clean.get "primary_keys"))

/-- `_normalize_component_task_config("data_sync", config)`. -/
def normalizeComponentTaskConfig (config : Dict) : Except Raised Dict :=
  if (config.get "table_mappings").truthy ∨ (config.get "source_catalog").truthy ∨
      (config.get "source_schema").truthy then
    normalizeBatchTask py config
  else normalizeSingleTask py config

end RecoveryService.DataPlatform
