import RecoveryService.DataSync.ExecuteTable

/-! # The attempts of a table

`executeMapping` runs a table until an attempt succeeds, fails for a reason that is not a lost
connection, has begun to write, or the attempts are used up.  What the other tables do to the shared
recovery is part of the environment: `wait_ready` and `recover` answer anything.

The invariant of an attempt (`Attempt`) says that requests to the target are sent by an attempt that
has marked them, and that a mark shows in the mapping.  An attempt that is tried again has no mark,
so the requests of a table all come from its last attempt. -/

namespace DataSync

open Program

section

variable (py : Python) (dorisType : Json → String) (env : Env) (engine : Engine) (config : Dict)
  (nowText : String)

/-! ### One attempt -/

/-- `with ExitStack() as stack:`: the connections are closed at every exit. -/
def closing {α : Type} (body : Table α) : Table α := fun w =>
  match env.close (body w).2.clock with
  | .ok () => ((body w).1, { (body w).2 with clock := (body w).2.clock + 1 })
  | .error exc => (.error exc, { (body w).2 with clock := (body w).2.clock + 1 })

/-- The body of the `with`. -/
def connectAndExecute : Table Dict := do
  setStage "connect_source"
  ask env.connect
  setStage "connect_target"
  ask env.connect
  executeOneTable py dorisType env engine config

/-- The body of the `try`. -/
def attemptTable (attempt : ℕ) : Table Dict := do
  let result ← closing env (connectAndExecute py dorisType env engine config)
  let result := ((Dict.set result "status" (.str "succeeded")).set "last_success_at"
    (.str nowText)).set "connection_attempts" (.num attempt)
  setKey "last_success_at" (.str nowText)
  setKey "last_result" (.obj result)
  emitEvent env
  pure result

/-- How an attempt ends: the table is done, is tried again, or has failed for good. -/
inductive AttemptEnd where
  | returned (result : Dict)
  | again
  | failed (exc : Raised) (failureType : String) (stopRemaining : Bool)

/-- The log `connection_interrupted`. -/
def interruptedLog (attempt maxAttempts : ℕ) (exc : Raised) (stage : String) (writeStarted : Bool) : Json :=
  logEntry (if writeStarted then "ERROR" else "WARNING") "connection_interrupted"
    ("第 " ++ toString attempt ++ " 次执行在阶段 " ++ stage ++ " 发生连接中断：" ++
      logText (Text.orElse exc.info.text exc.info.name))
    [("attempt", .num attempt), ("max_attempts", .num maxAttempts), ("stage", .str stage),
      ("exception_type", .str exc.info.name), ("write_started", .bool writeStarted)]

/-- The part of the `except` clause for a lost connection. -/
def recoverAndDecide (attempt maxAttempts : ℕ) (exc : Raised) (stage : String)
    (writeStarted : Bool) : Table AttemptEnd := do
  addLog env (interruptedLog attempt maxAttempts exc stage writeStarted)
  let (logs, recovered) ← ask env.recover
  logs.forM appendLog
  if recovered = false then pure (.failed exc "connection" true)
  else if writeStarted then pure (.failed exc "connection" false)
  else if attempt < maxAttempts then do
    addLog env (logEntry "INFO" "connection_retry"
      ("连接已恢复，使用全新连接重试当前表，第 " ++ toString (attempt + 1) ++ "/" ++
        toString maxAttempts ++ " 次。")
      [("next_attempt", .num (attempt + 1)), ("max_attempts", .num maxAttempts)])
    pure .again
  else pure (.failed exc "connection" false)

/-- The `except` clause. -/
def handleFailure (attempt maxAttempts : ℕ) (failureType : String) (exc : Raised) : Table AttemptEnd :=
  if isRetryableConnectionError py exc = false then pure (.failed exc failureType false)
  else do
    let w ← state
    recoverAndDecide env attempt maxAttempts exc (strOr py (w.mapping.get "_runtime_stage") "unknown")
      (w.mapping.get "_runtime_write_started").truthy

/-- `DataSyncInfrastructureUnavailable`. -/
def infrastructureUnavailable : Raised :=
  { info := { kind := .infrastructureUnavailable, name := "DataSyncInfrastructureUnavailable"
              arg := some (.str "Doris/Catalog 在共享恢复窗口内未恢复，当前表未建立新连接。")
              text := "Doris/Catalog 在共享恢复窗口内未恢复，当前表未建立新连接。" } }

/-- What the attempt sets before it connects. -/
def resetRuntime (attempt : ℕ) : Table Unit := do
  setKey "_runtime_attempt" (.num attempt)
  setStage "connect"
  setKey "_runtime_write_started" (.bool false)
  setKey "_runtime_last_sql" .null

/-- One turn of `for attempt in range(1, max_attempts + 1)`. -/
def tryOnce (attempt maxAttempts : ℕ) (failureType : String) : Table AttemptEnd := do
  update fun w => { w with attempts := attempt }
  let (_, unavailable) ← ask env.waitReady
  if unavailable then pure (.failed infrastructureUnavailable "connection" true)
  else do
    resetRuntime attempt
    Program.attempt (do
        let result ← attemptTable py dorisType env engine config nowText attempt
        pure (.returned result))
      (fun exc => if exc.info.kind = .exit then none
        else some (handleFailure py env attempt maxAttempts failureType exc))

/-- The loop with `remaining` turns left; a failed attempt that is tried again was a lost
connection. -/
def attemptLoop (maxAttempts : ℕ) : ℕ → ℕ → String → Table AttemptEnd
  | 0, _, _ => raise { info := { kind := .other, name := "AssertionError" } }
  | remaining + 1, attempt, failureType => do
      let ended ← tryOnce py dorisType env engine config nowText attempt maxAttempts failureType
      match ended with
      | .again => attemptLoop maxAttempts remaining (attempt + 1) "connection"
      | ended => pure ended

/-! ### The result of a table -/

/-- `_latest_runtime_sql`. -/
def latestRuntimeSql (mapping : Dict) : Json :=
  let current := Text.strip (strOr py (mapping.get "_runtime_last_sql") "")
  if current ≠ "" then .str current
  else
    let texts := (((mapping.get "_runtime_logs").toList).getD []).reverse.map fun log =>
      Text.strip (strOr py ((log.get "payload").get "sql") "")
    match texts.find? fun sql => decide (sql ≠ "") with
    | some sql => .str sql
    | none => .null

/-- `_mapping_error_message`. -/
def mappingErrorMessage (mapping : Dict) (exc : Raised) : String :=
  let lead := if isRetryableConnectionError py exc then "表同步连接异常"
    else if exc.info.kind = .valueError then "表映射配置无效" else "表同步执行失败"
  let sqlState :=
    if (mapping.get "_runtime_write_started").truthy then
      "写入请求已经或可能已经发出，结果未知，已禁止自动重试；请核对目标表和 Doris 查询状态"
    else if (latestRuntimeSql py mapping).truthy then "已生成 SQL，最后 SQL 见该表日志"
    else "尚未生成 SQL"
  let text key := logValue py (mapping.get key)
  lead ++ "：映射ID=" ++ text "id" ++ "，源表=" ++ text "source_schema" ++ "." ++
    text "source_table" ++ "，目标表=" ++ text "target_database" ++ "." ++ text "target_table" ++
    "，阶段=" ++ text "_runtime_stage" ++ "，异常类型=" ++ exc.info.name ++ "，错误码=" ++
    argText py (exceptionCode exc.chain) ++ "，原因：" ++
    logText (Text.orElse exc.info.text exc.info.name) ++ "。" ++ sqlState ++ "。"

/-- The result dictionary of a table that failed. -/
def failedResult (mapping : Dict) (exc : Raised) (failureType : String) (stopRemaining : Bool)
    (attemptsUsed : ℕ) (syncMethod : String) (logs : List Json) : Dict :=
  let text key := Json.str (strOr py (mapping.get key) (strOr py (config.get key) ""))
  [("table_id", .str (strOr py (mapping.get "id") "")),
    ("source_catalog", .str (strOr py (config.get "source_catalog") "")),
    ("source_schema", text "source_schema"),
    ("source_table", .str (strOr py (mapping.get "source_table") "")),
    ("target_database", text "target_database"),
    ("target_table", .str (strOr py (mapping.get "target_table") "")),
    ("sync_method", .str syncMethod),
    ("write_mode", config.get "write_mode"),
    ("schema_policy", orElse (mapping.get "schema_policy") (config.get "schema_policy")),
    ("status", .str "failed"),
    ("message", .str (mappingErrorMessage py mapping exc)),
    ("logs", .arr logs),
    ("failure_type", .str failureType),
    ("connection_attempts", .num attemptsUsed),
    ("write_started", .bool (mapping.get "_runtime_write_started").truthy),
    ("stop_remaining", .bool stopRemaining)]

/-- The part behind the loop for a table that failed. -/
def reportFailure (exc : Raised) (failureType : String) (stopRemaining : Bool) : Table Dict := do
  let w ← state
  let failedLog := logEntry "ERROR" "failed" (mappingErrorMessage py w.mapping exc)
    [("write_started", .bool (w.mapping.get "_runtime_write_started").truthy),
      ("failure_type", .str failureType), ("connection_attempts", .num w.attempts),
      ("sql", latestRuntimeSql py w.mapping)]
  emitEvent env
  let syncMethod ← lift (resolveSyncMethod py (config.get "sync_method") engine)
  let result := failedResult py config w.mapping exc failureType stopRemaining w.attempts syncMethod
    ((((w.mapping.get "_runtime_logs").toList).getD []) ++ [failedLog])
  setKey "last_result" (.obj result)
  emitEvent env
  pure result

/-- `execute_mapping`. -/
def executeMapping : Table Dict := do
  emitEvent env
  setKey "_runtime_logs" (.arr [])
  let maxAttempts ← lift (cleanConnectionRetryAttempts py (config.get "connection_retry_attempts"))
  let ended ← attemptLoop py dorisType env engine config nowText maxAttempts.toNat maxAttempts.toNat
    1 "execution"
  match ended with
  | .returned result => pure result
  | .failed exc failureType stopRemaining =>
      reportFailure py env engine config exc failureType stopRemaining
  | .again => raise { info := { kind := .other, name := "AssertionError" } }

end

end DataSync
