import RecoveryService.DataSync.Values
import RecoveryService.Lib.Programs

/-! # The execution of one table

`executeOneTable` is one attempt of a table on two open connections.  What the connections, Doris
and the event hook answer is an environment: the answers are numbered by the calls made so far, so
that an environment covers every sequence of results and failures.  The state is the mapping
dictionary, which the source mutates in place, and the record of what was asked of the target. -/

namespace DataSync

/-- A request that changes the target. -/
inductive Write where
  | create (sql : String)
  | alter (sql : String)
  | truncate (sql : String)
  | insertSelect (sql : String)
  | streamLoad (batch : ℕ)

/-- What the source query gives: the batches `fetchmany` returns, and what it raises after them. -/
structure Cursor where
  batches : List (List Json)
  broken : Option Raised := none

/-- The answers of everything outside, by the number of the call. -/
structure Env where
  emit : ℕ → Except Raised Unit
  waitReady : ℕ → Except Raised (ℕ × Bool)
  /-- The logs `recover` records, and its result. -/
  recover : ℕ → Except Raised (List Json × Bool)
  connect : ℕ → Except Raised Unit
  close : ℕ → Except Raised Unit
  listTables : ℕ → Except Raised (List Json)
  listColumns : ℕ → Except Raised (List Json)
  switchCatalog : ℕ → Except Raised Unit
  execute : ℕ → Except Raised ℤ
  query : ℕ → Except Raised Cursor
  rowsToCsv : ℕ → Except Raised ℕ
  streamLoad : ℕ → Except Raised Dict

/-- The mapping of a table on its way.  `attempts` counts the attempts; `marks` has the attempts
that called `_mark_write_started`, `writes` the requests sent to the target with their attempt. -/
structure World where
  mapping : Dict
  clock : ℕ := 0
  attempts : ℕ := 0
  marks : List ℕ := []
  writes : List (ℕ × Write) := []

/-- A program on one table. -/
abbrev Table := Program World Raised

open Program

/-! ### Access to the mapping -/

/-- Ask the environment. -/
def ask {α : Type} (answer : ℕ → Except Raised α) : Table α := fun w =>
  (answer w.clock, { w with clock := w.clock + 1 })

/-- `mapping[key] = value`. -/
def setKey (key : String) (value : Json) : Table Unit :=
  update fun w => { w with mapping := w.mapping.set key value }

/-- `mapping.get(key)`. -/
def getKey (key : String) : Table Json := do
  let w ← state
  pure (w.mapping.get key)

def setStage (stage : String) : Table Unit := setKey "_runtime_stage" (.str stage)

def markRuntimeSql (stage sql : String) : Table Unit := do
  setStage stage
  setKey "_runtime_last_sql" (.str sql)

def markWriteStarted (stage sql : String) : Table Unit := do
  markRuntimeSql stage sql
  setKey "_runtime_write_started" (.bool true)
  update fun w => { w with marks := w.attempts :: w.marks }

/-- Send a request that changes the target; it may have been carried out even where an exception
comes back. -/
def sendWrite {α : Type} (request : Write) (answer : ℕ → Except Raised α) : Table α := do
  update fun w => { w with writes := (w.attempts, request) :: w.writes }
  ask answer

section

variable (py : Python) (dorisType : Json → String) (env : Env)

/-! ### Logs -/

/-- `_log`, without the time. -/
def logEntry (level stage message : String) (payload : Dict := []) : Json :=
  .obj [("level", .str level), ("stage", .str stage), ("message", .str message),
    ("payload", .obj payload)]

/-- `runtime_logs.append(log)`: the list lies in the mapping. -/
def appendLog (log : Json) : Table Unit := do
  let logs ← getKey "_runtime_logs"
  setKey "_runtime_logs" (.arr ((logs.toList.getD []) ++ [log]))

/-- `log_sink(log)` and the other events of a table. -/
def emitEvent : Table Unit := ask env.emit

def addLog (log : Json) : Table Unit := do
  appendLog log
  emitEvent env

/-- `_emit_runtime_logs(log_sink, runtime_logs[log_start:])`. -/
def emitRuntimeLogs (logStart : ℕ) : Table Unit := do
  let logs ← getKey "_runtime_logs"
  ((logs.toList.getD []).drop logStart).forM fun _ => emitEvent env

def logCount : Table ℕ := do
  let logs ← getKey "_runtime_logs"
  pure (logs.toList.getD []).length

/-! ### Metadata -/

/-- `_table_exists`. -/
def tableExists (table : String) : Table Bool := do
  let tables ← ask env.listTables
  pure ((tables.map fun item => py.lower (py.str (item.get "name"))).contains (py.lower table))

/-- `_auto_target_column`. -/
def autoTargetColumn (column : Json) : Except Raised Json := do
  let ordinal ← py.int (orElse (column.get "ordinal") (.num 0))
  return .obj [("name", .str (strOr py (column.get "name") "")), ("type", .str (dorisType column)),
    ("ordinal", .num ordinal), ("nullable", .bool true)]

/-- One column of `CREATE TABLE`. -/
def columnDefinition (column : Json) : Except Raised String := do
  let name ← cleanExistingIdentifier py (column.get "name") "字段名"
  return quote name ++ " " ++ dorisType column ++ " NULL"

def createSql (database table firstCol : String) (columns : List String) : String :=
  "CREATE TABLE IF NOT EXISTS " ++ quote database ++ "." ++ quote table ++ " (" ++
    String.intercalate ", " columns ++ ") DUPLICATE KEY(" ++ quote firstCol ++
    ") DISTRIBUTED BY HASH(" ++ quote firstCol ++ ") BUCKETS 10 " ++
    "PROPERTIES (\"replication_num\" = \"1\")"

/-- `_create_target_table`. -/
def createTargetTable (database table : String) (sourceColumns : List Json) : Table String := do
  match sourceColumns with
  | [] => raise (valueError "源表字段为空，无法自动创建目标表。")
  | first :: _ =>
      let columns ← lift (sourceColumns.mapM (columnDefinition py dorisType))
      let firstCol ← lift (cleanExistingIdentifier py (first.get "name") "首字段")
      let sql := createSql database table firstCol columns
      markWriteStarted "create_target_table" sql
      ask env.switchCatalog
      let _ ← sendWrite (.create sql) env.execute
      pure sql

/-- The loop of `_align_target_schema_with_source`; `names` are the keys of `target_by_name`. -/
def alignLoop (database table : String) :
    List Json → List String → List Json → List String → Table (List Json × List String)
  | [], _, targetColumns, added => pure (targetColumns, added)
  | column :: rest, names, targetColumns, added =>
      let sourceName := Text.strip (strOr py (column.get "name") "")
      if sourceName = "" ∨ py.lower sourceName ∈ names then
        alignLoop database table rest names targetColumns added
      else do
        let targetName ← lift (cleanExistingIdentifier py (.str sourceName) "目标字段")
        let type := dorisType column
        let sql := "ALTER TABLE " ++ quote database ++ "." ++ quote table ++ " ADD COLUMN " ++
          quote targetName ++ " " ++ type ++ " NULL"
        appendLog (logEntry "INFO" "schema_align"
          ("目标表缺少源字段 " ++ sourceName ++ "，按源表结构补充 Doris 字段 " ++ targetName ++ "。")
          [("sql", .str sql), ("source_type", column.get "type"), ("target_type", .str type)])
        markWriteStarted "align_target_schema" sql
        ask env.switchCatalog
        let _ ← sendWrite (.alter sql) env.execute
        let newColumn : Json := .obj [("name", .str targetName), ("type", .str type),
          ("ordinal", .num (targetColumns.length + 1)), ("nullable", .bool true),
          ("source_type", orElse (column.get "type") (.str ""))]
        alignLoop database table rest (py.lower targetName :: names)
          (targetColumns ++ [newColumn]) (added ++ [targetName])

/-- `_align_target_schema_with_source`. -/
def alignTargetSchemaWithSource (database table : String) (sourceColumns targetColumns : List Json) :
    Table (List Json × List String) :=
  alignLoop py dorisType env database table sourceColumns
    (targetColumns.map fun item => py.lower (strOr py (item.get "name") "")) targetColumns []

/-- The last item a dictionary comprehension keeps under a key. -/
def lastWith (key : Json → String) (items : List Json) (name : String) : Option Json :=
  items.reverse.find? fun item => decide (key item = name)

/-- One column of `_source_policy_column_mappings`. -/
def sourcePolicyColumn (columnMappings targetColumns : List Json) (source : Json) :
    Except Raised (Option Json) := do
  let sourceName := Text.strip (strOr py (source.get "name") "")
  if sourceName = "" then return none
  else
    let target ← (lastWith (fun item => py.lower (strOr py (item.get "name") "")) targetColumns
      (py.lower sourceName)).elim (autoTargetColumn py dorisType source) .ok
    let existing := (lastWith (fun item => py.lower (strOr py (item.get "target_name") ""))
      (columnMappings.filter fun item =>
        Text.strip (strOr py (item.get "target_name") "") ≠ "") (py.lower sourceName)).getD (.obj [])
    return some (.obj [("target_name", target.get "name"),
      ("target_type", orElse (target.get "type") (.str (dorisType source))),
      ("source_name", orElse (existing.get "source_name") (.str sourceName)),
      ("fixed_value", existing.getOr "fixed_value" (.str "")),
      ("enabled", existing.getOr "enabled" (.bool true))])

/-- `_source_policy_column_mappings`. -/
def sourcePolicyColumnMappings (columnMappings sourceColumns targetColumns : List Json) :
    Except Raised (List Json) := do
  let columns ← sourceColumns.mapM (sourcePolicyColumn py dorisType columnMappings targetColumns)
  return columns.filterMap id

/-- `re.sub("`([^`]*)`", ...)` of an Oracle query: quoted names get double quotes. -/
def oracleQuotes (sql : String) : String := String.ofList (go none sql.toList)
where
  /-- The second argument is the name read since the last opening quote. -/
  go : Option (List Char) → List Char → List Char
    | none, [] => []
    | some name, [] => Char.ofNat 96 :: name.reverse
    | none, c :: rest => if c = Char.ofNat 96 then go (some []) rest else c :: go none rest
    | some name, c :: rest =>
        if c = Char.ofNat 96 then
          (Char.ofNat 34 :: (name.reverse.flatMap fun d =>
            if d = Char.ofNat 34 then [d, d] else [d])) ++ Char.ofNat 34 :: go none rest
        else go (some (c :: name)) rest

/-! ### The select list -/

structure SelectItems where
  items : List String := []
  targets : List String := []
  seen : List String := []
  meaningful : ℕ := 0

/-- One column mapping of `_mapping_select_items`. -/
def selectItem (sourceNames : List String) (acc : SelectItems) (item : Json) :
    Except Raised SelectItems := do
  if ¬ (item.getOr "enabled" (.bool true)).truthy then return acc
  else
    let targetName ← cleanExistingIdentifier py (item.get "target_name") "目标字段"
    if py.lower targetName ∈ acc.seen then
      .error (valueError ("目标字段 " ++ targetName ++ " 被重复映射。"))
    else
      let sourceName := Text.strip (strOr py (item.get "source_name") "")
      let fixedValue := item.get "fixed_value"
      let acc : SelectItems := { acc with
        seen := py.lower targetName :: acc.seen, targets := acc.targets ++ [targetName] }
      if sourceName ≠ "" then
        let _ ← cleanExistingIdentifier py (.str sourceName) "源字段"
        if sourceNames ≠ [] ∧ sourceName ∉ sourceNames then
          .error (valueError ("源字段 " ++ sourceName ++ " 不存在。"))
        else
          return { acc with
            items := acc.items ++ [quote sourceName ++ " AS " ++ quote targetName],
            meaningful := acc.meaningful + 1 }
      else
        match fixedValue with
        | .null => return { acc with items := acc.items ++ ["NULL AS " ++ quote targetName] }
        | .str "" => return { acc with items := acc.items ++ ["NULL AS " ++ quote targetName] }
        | value =>
            return { acc with
              items := acc.items ++ [sqlLiteral py value ++ " AS " ++ quote targetName],
              meaningful := acc.meaningful + 1 }

/-- `_mapping_select_items`: the select list and the target columns. -/
def mappingSelectItems (mapping : Dict) : Except Raised (List String × List String) := do
  let sourceColumns := ((mapping.get "source_columns").toList).getD []
  let columnMappings := ((mapping.get "column_mappings").toList).getD []
  let mappings := if columnMappings.isEmpty then
      sourceColumns.map fun column => .obj [("target_name", column.get "name"),
        ("source_name", column.get "name"), ("enabled", .bool true)]
    else columnMappings
  let acc ← mappings.foldlM (selectItem py (sourceColumns.map fun item => py.str (item.get "name")))
    {}
  if acc.targets ≠ [] ∧ acc.meaningful = 0 then
    let table := Text.strip (strOr py (orElse (mapping.get "source_table") (mapping.get "target_table")) "")
    .error (valueError (Text.orElse table "当前表" ++
      " 没有有效字段映射：启用字段至少需要选择一个源字段或填写固定值。"))
  else return (acc.items, acc.targets)

/-! ### One attempt -/

/-- What `_execute_one_table` reads and cleans first. -/
structure TableArgs where
  sourceCatalog : String
  sourceSchema : String
  sourceTable : String
  targetDatabase : String
  targetTable : String
  writeMode : String
  syncMethod : String
  schemaPolicy : String
  batchSize : ℤ

def tableArgs (engine : Engine) (config mapping : Dict) : Except Raised TableArgs := do
  let sourceCatalog ← cleanSourceCatalog py engine (config.get "source_catalog")
  let sourceSchema ← cleanIdentifier py
    (orElse (mapping.get "source_schema") (config.get "source_schema")) "源 Schema"
  let sourceTable ← cleanExistingIdentifier py (mapping.get "source_table") "源表"
  let targetDatabase ← cleanIdentifier py
    (orElse (mapping.get "target_database") (config.get "target_database")) "目标库"
  let targetTable ← cleanExistingIdentifier py
    (orElse (mapping.get "target_table") (.str sourceTable)) "目标表"
  let writeMode ← cleanWriteMode py (config.get "write_mode")
  let syncMethod ← resolveSyncMethod py (config.get "sync_method") engine
  if engine ≠ .doris ∧ syncMethod = "insert_select" then
    .error (valueError "源连接不是 Doris 时不能使用 Catalog 联邦查询，请选择 Stream Load 或自动选择。")
  else
    let schemaPolicy ← cleanSchemaPolicy py
      (orElse (mapping.get "schema_policy") (config.get "schema_policy"))
    let batchSize ← cleanBatchSize py (config.get "batch_size")
    return { sourceCatalog, sourceSchema, sourceTable, targetDatabase, targetTable, writeMode,
             syncMethod, schemaPolicy, batchSize }

/-- The logs before the first access to the target. -/
def logPrepared (engine : Engine) (config : Dict) (args : TableArgs) : Table Unit := do
  let attempt ← getKey "_runtime_attempt"
  let attempt ← lift (py.int (orElse attempt (.num 1)))
  addLog env (logEntry "INFO" "prepare"
    ("开始同步 " ++ args.sourceCatalog ++ "." ++ args.sourceSchema ++ "." ++ args.sourceTable ++
      " -> internal." ++ args.targetDatabase ++ "." ++ args.targetTable ++ "。")
    [("connection_attempt", .num attempt)])
  addLog env (logEntry "INFO" "sync_method"
    (if args.syncMethod = "insert_select" then "同步方式：Catalog 联邦查询（INSERT SELECT）。"
      else "同步方式：Stream Load。")
    [("sync_method", .str args.syncMethod),
      ("configured_sync_method", orElse (config.get "sync_method") (.str "auto"))])
  onlyIf (engine = .mysql ∨ engine = .oracle)
    (addLog env (logEntry "INFO" "local_source_push"
      ("同步方式：本地 " ++ engine.name.toUpper ++
        " 推送 Stream Load。源库由当前 Worker 读取，Doris 不通过 Catalog 反向访问源库。")
      [("sync_method", .str args.syncMethod), ("source_engine", .str engine.name),
        ("local_push", .bool true)]))

/-- `mapping.get("source_columns") or _list_source_columns(...)`. -/
def knownSourceColumns : Table (List Json) := do
  let columns ← getKey "source_columns"
  if columns.truthy then pure (columns.toList.getD []) else ask env.listColumns

/-- The branch `if not target_exists`. -/
def createMissingTarget (args : TableArgs) : Table Unit := do
  let w ← state
  if ¬ (w.mapping.getOr "auto_create" (.bool true)).truthy then
    raise (valueError ("目标表 " ++ args.targetDatabase ++ "." ++ args.targetTable ++
      " 不存在，且当前映射未允许自动建表。"))
  else do
    setStage "source_metadata"
    let sourceColumns ← knownSourceColumns env
    setStage "create_target_table"
    let sql ← createTargetTable py dorisType env args.targetDatabase args.targetTable sourceColumns
    addLog env (logEntry "INFO" "create_table"
      ("目标表不存在，自动创建 " ++ args.targetDatabase ++ "." ++ args.targetTable ++ "，字段数 " ++
        toString sourceColumns.length ++ "。")
      [("sql", .str sql), ("source_columns", .arr (sourceColumns.map fun item => item.get "name"))])
    setKey "target_exists" (.bool true)
    let columns ← lift (sourceColumns.mapM (autoTargetColumn py dorisType))
    setKey "target_columns" (.arr columns)

/-- The body of `if schema_policy == "source"`; the columns added to the target. -/
def alignSchema (args : TableArgs) : Table (List String) := do
  setStage "source_metadata"
  let sourceColumns ← ask env.listColumns
  setStage "target_metadata"
  let targetColumns ← ask env.listColumns
  let logStart ← logCount
  setStage "align_target_schema"
  let (targetColumns, added) ← alignTargetSchemaWithSource py dorisType env args.targetDatabase
    args.targetTable sourceColumns targetColumns
  emitRuntimeLogs env logStart
  setKey "source_columns" (.arr sourceColumns)
  setKey "target_columns" (.arr targetColumns)
  let w ← state
  let columnMappings ← lift (sourcePolicyColumnMappings py dorisType
    (((w.mapping.get "column_mappings").toList).getD []) sourceColumns targetColumns)
  setKey "column_mappings" (.arr columnMappings)
  pure added

def alignIfSource (args : TableArgs) : Table (List String) :=
  if args.schemaPolicy = "source" then alignSchema py dorisType env args else pure []

/-- The body of `if write_mode == "truncate_insert"`. -/
def truncateTarget (args : TableArgs) : Table Unit := do
  let sql := "TRUNCATE TABLE " ++ quote args.targetDatabase ++ "." ++ quote args.targetTable
  addLog env (logEntry "INFO" "truncate"
    ("执行 TRUNCATE TABLE " ++ args.targetDatabase ++ "." ++ args.targetTable ++ "。")
    [("sql", .str sql)])
  markWriteStarted "truncate" sql
  let _ ← sendWrite (.truncate sql) env.execute
  pure ()

/-- What was written: the batches, the rows Doris counted and its answers. -/
structure Loaded where
  batches : ℕ := 0
  rows : ℤ := 0
  stream : List Dict := []
  insert : Dict := []

/-- `_execute_insert_select_table`. -/
def executeInsertSelectTable (args : TableArgs) (targetColumns selectItems : List String) :
    Table Loaded := do
  let sql := "INSERT INTO " ++ quote args.targetDatabase ++ "." ++ quote args.targetTable ++ " (" ++
    String.intercalate ", " (targetColumns.map quote) ++ ") SELECT " ++
    String.intercalate ", " selectItems ++ " FROM " ++ quote args.sourceCatalog ++ "." ++
    quote args.sourceSchema ++ "." ++ quote args.sourceTable
  appendLog (logEntry "INFO" "insert_select"
    ("执行 Catalog 联邦查询 INSERT SELECT：" ++ args.sourceCatalog ++ "." ++ args.sourceSchema ++
      "." ++ args.sourceTable ++ "。")
    [("sql", .str sql), ("target_columns", .arr (targetColumns.map .str))])
  markWriteStarted "insert_select" sql
  ask env.switchCatalog
  let affected ← sendWrite (.insertSelect sql) env.execute
  let insert : Dict := [("status", .str "submitted"), ("loaded_rows", .num (max 0 affected)),
    ("sql", .str sql)]
  pure { batches := 1, rows := max 0 affected, insert := insert }

/-- `int(stream_result.get("number_loaded_rows") or len(rows))`. -/
def loadedRowsOf (result : Dict) (rows : List Json) : Except Raised ℤ :=
  py.int (orElse (result.get "number_loaded_rows") (.num rows.length))

/-- The batches of the source query. -/
def loadBatches (args : TableArgs) : List (List Json) → Loaded → Table Loaded
  | [], done => pure done
  | [] :: _, done => pure done
  | rows :: rest, done => do
      let index := done.batches + 1
      let size ← ask env.rowsToCsv
      addLog env (logEntry "INFO" "stream_load"
        ("第 " ++ toString index ++ " 批准备 Stream Load，行数 " ++ toString rows.length ++
          "，字节数 " ++ toString size ++ "。"))
      markWriteStarted "stream_load"
        ("STREAM LOAD " ++ args.targetDatabase ++ "." ++ args.targetTable ++ " BATCH " ++
          toString index)
      let result ← sendWrite (.streamLoad index) env.streamLoad
      let n ← lift (loadedRowsOf py result rows)
      addLog env (logEntry "INFO" "stream_load_result"
        ("第 " ++ toString index ++ " 批 Stream Load 返回 " ++ py.str (result.get "status") ++
          "，写入 " ++ py.str (result.get "number_loaded_rows") ++ " 行。") result)
      loadBatches args rest
        { done with batches := index, rows := done.rows + n, stream := done.stream ++ [result] }

/-- The Stream Load part of `_execute_one_table`. -/
def streamTable (args : TableArgs) (engine : Engine) (targetColumns selectItems : List String) :
    Table Loaded := do
  let sql := "SELECT " ++ String.intercalate ", " selectItems ++ " FROM " ++
    quote args.sourceSchema ++ "." ++ quote args.sourceTable
  let sql := if engine = .oracle then oracleQuotes sql else sql
  markRuntimeSql "query_source" sql
  addLog env (logEntry "INFO" "query_source" ("读取源表 SQL：" ++ sql)
    [("batch_size", .num args.batchSize), ("target_columns", .arr (targetColumns.map .str))])
  onlyIf (engine = .doris) (ask env.switchCatalog)
  let cursor ← ask env.query
  let loaded ← loadBatches py env args cursor.batches {}
  match cursor.broken with
  | some exc => raise exc
  | none => pure loaded

/-- The result dictionary of an executed table. -/
def tableResult (args : TableArgs) (mapping : Dict) (added : List String) (loaded : Loaded) : Dict :=
  [("table_id", .str (strOr py (mapping.get "id") "")),
    ("source_catalog", .str args.sourceCatalog),
    ("source_schema", .str args.sourceSchema),
    ("source_table", .str args.sourceTable),
    ("target_database", .str args.targetDatabase),
    ("target_table", .str args.targetTable),
    ("target_exists", .bool true),
    ("write_mode", .str args.writeMode),
    ("sync_method", .str args.syncMethod),
    ("schema_policy", .str args.schemaPolicy),
    ("schema_added_columns", .arr (added.map .str)),
    ("batch_count", .num loaded.batches),
    ("loaded_rows", .num loaded.rows),
    ("stream_load", .arr ((loaded.stream.drop (loaded.stream.length - 3)).map .obj)),
    ("insert_select", if loaded.insert.isEmpty then .null else .obj loaded.insert),
    ("logs", mapping.get "_runtime_logs"),
    ("message", .str (args.sourceSchema ++ "." ++ args.sourceTable ++ " -> " ++
      args.targetDatabase ++ "." ++ args.targetTable ++
      (if args.syncMethod = "insert_select" then " 通过 Catalog 联邦查询写入 " else " 写入 ") ++
      toString loaded.rows ++ " 行。"))]

/-- The message of the log `finish_table`. -/
def finishMessage (args : TableArgs) (loaded : Loaded) : String :=
  if args.syncMethod = "insert_select" then
    args.sourceTable ++ " Catalog 联邦查询完成，写入 " ++ toString loaded.rows ++ " 行。"
  else
    args.sourceTable ++ " 同步完成，写入 " ++ toString loaded.rows ++ " 行，批次 " ++
      toString loaded.batches ++ "。"

/-- Write the rows: by `INSERT SELECT` or by Stream Load. -/
def writeRows (args : TableArgs) (engine : Engine) (targetColumns selectItems : List String) : Table Loaded :=
  if args.syncMethod = "insert_select" then do
    let logStart ← logCount
    setStage "insert_select"
    let loaded ← executeInsertSelectTable env args targetColumns selectItems
    emitRuntimeLogs env logStart
    pure loaded
  else streamTable py env args engine targetColumns selectItems

/-- `_execute_one_table`. -/
def executeOneTable (engine : Engine) (config : Dict) : Table Dict := do
  let logs ← getKey "_runtime_logs"
  setKey "_runtime_logs" (.arr (logs.toList.getD []))
  setStage "prepare"
  setKey "_runtime_write_started" (.bool false)
  setKey "_runtime_last_sql" .null
  let w ← state
  let args ← lift (tableArgs py engine config w.mapping)
  logPrepared py env engine config args
  setStage "target_metadata"
  let targetExists ← tableExists py env args.targetTable
  onlyIf (targetExists = false) (createMissingTarget py dorisType env args)
  let added ← alignIfSource py dorisType env args
  setStage "build_mapping"
  let w ← state
  let (selectItems, targetColumns) ← lift (mappingSelectItems py w.mapping)
  if targetColumns = [] then raise (valueError (args.sourceTable ++ " 没有可写入的字段映射。"))
  else do
    onlyIf (args.writeMode = "truncate_insert") (truncateTarget env args)
    let loaded ← writeRows py env args engine targetColumns selectItems
    addLog env (logEntry "INFO" "finish_table" (finishMessage args loaded))
    let w ← state
    pure (tableResult py args w.mapping added loaded)

end

end DataSync
