import RecoveryService.DorisEncryption.Rollback
import RecoveryService.Lib.Checks
import RecoveryService.Lib.Text

/-! # The encryption task of one table

`_run_encryption_task` of `services/doris_encryption.py`.  What Doris answers to each of its
statements is an environment; an answer to a query is the truth about the tables.  The texts of the
statements are left out but for the exceptions that making them raises. -/

namespace RecoveryService.DorisEncryption

open Checks Program Tables

/-- A Doris table: its columns, and its rows with a value for each column. -/
structure DorisTable where
  columns : List String
  rows : List (List String)

inductive TaskState where
  | running
  | succeeded
  | failed
deriving DecidableEq

inductive StepState where
  | pending
  | running
  | success
  | failed
deriving DecidableEq

/-- `DorisEncryptionTaskStatus`, as far as the run writes it. -/
structure TaskStatus where
  state : TaskState := .running
  message : String := "加密任务已开始。"
  sourceRows : Option ℕ := none
  targetRows : Option ℕ := none
  steps : List (StepState × String) := List.replicate 5 (.pending, "")

/-- The arguments of `_run_encryption_task`. -/
structure EncryptionRequest where
  database : String
  tableName : String
  outputTable : String
  backupTable : Option String
  encryptedColumns : List String
  tableMode : String

/-- What comes back for the statements of the task. -/
structure EncryptionEnv where
  connect : Option String := none
  loadTableColumns : Option String := none
  tableExists : Option String := none
  countSource : Option String := none
  rename : Reply String := .done
  /-- `SHOW CREATE TABLE` and the rewriting of its text. -/
  createSql : Option String := none
  create : Reply String := .done
  insert : Reply String := .done
  countTarget : Option String := none
  rollback : RollbackEnv := {}

/-- `renamed` and `created` are the flags of the function. -/
structure EncryptionWorld where
  tables : Catalog TableName DorisTable
  renamed : Bool := false
  created : Bool := false
  task : TaskStatus := {}

/-- A part of the task. -/
abbrev Encryption := Program EncryptionWorld String

namespace EncryptionWorld

variable (w : EncryptionWorld)

def setTables (tables : Catalog TableName DorisTable) : EncryptionWorld := { w with tables := tables }

def setTask (f : TaskStatus → TaskStatus) : EncryptionWorld := { w with task := f w.task }

end EncryptionWorld

/-! ### Status -/

/-- `_set_step`. -/
def setStep (index : ℕ) (state : StepState) (message : Option String := none) : Encryption Unit :=
  update fun w => w.setTask fun task =>
    { task with steps := task.steps.modify index (fun step => (state, message.getD step.2)) }

/-- The first running step fails. -/
def failRunning (message : String) : List (StepState × String) → List (StepState × String)
  | [] => []
  | step :: steps =>
      if step.1 = .running then (.failed, message) :: steps else step :: failRunning message steps

/-- `_mark_current_step_failed`. -/
def markCurrentStepFailed (message : String) : Encryption Unit :=
  update fun w => w.setTask fun task => { task with steps := failRunning message task.steps }

/-- `_finish_task`. -/
def finishTask (state : TaskState) (message : String) : Encryption Unit :=
  update fun w => w.setTask fun task => { task with state := state, message := message }

section

variable (encrypt : String → String) (env : EncryptionEnv) (r : EncryptionRequest)

/-! ### Statements -/

def loadTableColumns (failure : Option String) (database table : String) : Encryption (List String) :=
  query failure fun w => .ok ((w.tables (database, table)).elim [] DorisTable.columns)

def tableExists (failure : Option String) (database table : String) : Encryption Bool :=
  query failure fun w => .ok (w.tables (database, table)).isSome

def countRows (failure : Option String) (database table : String) : Encryption ℕ :=
  query failure fun w =>
    match w.tables (database, table) with
    | some t => .ok t.rows.length
    | none => .error s!"Unknown table '{table}'"

/-- A statement on the tables. -/
def execute (reply : Reply String)
    (effect : Catalog TableName DorisTable → Option (Catalog TableName DorisTable)) : Encryption Unit :=
  submit reply "Doris rejected the statement." fun w => (effect w.tables).map w.setTables

/-- `CQ_SM4_ENCRYPT` on the selected columns of a row. -/
def encryptRow (columns encrypted : List String) (row : List String) : List String :=
  List.zipWith (fun column value => if column ∈ encrypted then encrypt value else value) columns row

/-- `INSERT INTO output SELECT ... FROM source`. -/
def insertEncrypted (database output source : String) (c : Catalog TableName DorisTable) :
    Option (Catalog TableName DorisTable) :=
  (c (database, source)).bind fun t =>
    alter c (database, output) fun o =>
      { o with rows := o.rows ++ t.rows.map (encryptRow encrypt t.columns r.encryptedColumns) }

/-- `_build_insert_sql` as it is called here, with five of its six arguments. -/
def buildInsertSql : Except String Unit :=
  .error "_build_insert_sql() missing 1 required positional argument: 'encrypted_columns'"

/-! ### The run -/

def EncryptionRequest.renameOriginal : Bool := r.tableMode = "replace_original"

/-- `backup_table`, where it is set. -/
def EncryptionRequest.backup : Option String := r.backupTable.filter (· ≠ "")

/-- The table that is going to be made must not exist. -/
def checkNames : Encryption Unit :=
  match r.renameOriginal, r.backup with
  | true, some backup => do
      let taken ← tableExists env.tableExists r.database backup
      lift (raiseIf taken s!"备份表 {backup} 已存在，请换一个备份后缀。")
  | true, none => pure ()
  | false, _ => do
      let taken ← tableExists env.tableExists r.database r.outputTable
      lift (raiseIf taken s!"加密目标表 {r.outputTable} 已存在，请换一个加密表后缀。")

/-- The checks before anything is changed: the rows and the columns of the table. -/
def precheck : Encryption (ℕ × List String) := do
  setStep 0 .running
  query env.connect fun _ => .ok ()
  let tableColumns ← loadTableColumns env.loadTableColumns r.database r.tableName
  lift (raiseIf (tableColumns = []) s!"表 {r.tableName} 不存在或没有字段。")
  let unknownColumns := r.encryptedColumns.filter (· ∉ tableColumns)
  lift (raiseIf (unknownColumns ≠ []) s!"字段不存在：{Text.listed unknownColumns}")
  checkNames env r
  let sourceRows ← countRows env.countSource r.database r.tableName
  update fun w => w.setTask fun task => { task with sourceRows := some sourceRows }
  setStep 0 .success (some s!"原表 {sourceRows} 行，待加密 {r.encryptedColumns.length} 个字段。")
  pure (sourceRows, tableColumns)

/-- The original table gets out of the way; the table the rows are read from is returned. -/
def moveOriginal : Encryption String :=
  if r.renameOriginal then
    match r.backup with
    | none => raise "覆盖原表模式缺少备份表名。"
    | some backup => do
        setStep 1 .running
        execute env.rename fun c => Tables.rename c (r.database, r.tableName) (r.database, backup)
        update fun w => { w with renamed := true }
        setStep 1 .success (some s!"原表已重命名为 {backup}。")
        pure backup
  else do
    setStep 1 .running (some s!"原表保持不变，将创建加密表 {r.outputTable}。")
    setStep 1 .success (some s!"原表保持不变，目标加密表为 {r.outputTable}。")
    pure r.tableName

/-- The new table, with the columns of the old one and without rows. -/
def createTable (sourceTable : String) (tableColumns : List String) : Encryption Unit := do
  query env.createSql fun w =>
    if (w.tables (r.database, sourceTable)).isSome then .ok () else .error "无法获取原表 DDL。"
  setStep 2 .running
  execute env.create fun c =>
    Tables.create c (r.database, r.outputTable) { columns := tableColumns, rows := [] }
  update fun w => { w with created := true }
  setStep 2 .success (some "新表已按原 DDL 创建，待加密字段已转为 varchar(2000)。")

/-- The rows of the new table, and the comparison of the row counts. -/
def insertRows (sourceTable : String) (sourceRows : ℕ) : Encryption Unit := do
  lift buildInsertSql
  setStep 3 .running
  execute env.insert (insertEncrypted encrypt r r.database r.outputTable sourceTable)
  setStep 3 .success (some "加密数据已写入新表。")
  let targetRows ← countRows env.countTarget r.database r.outputTable
  update fun w => w.setTask fun task => { task with targetRows := some targetRows }
  lift (raiseIf (sourceRows ≠ targetRows) s!"行数校验失败：原表 {sourceRows} 行，新表 {targetRows} 行。")
  setStep 4 .success (some s!"行数一致：{targetRows} 行。")

/-- The rename is taken back if there was one and the new table was not created. -/
def rollback (w : EncryptionWorld) : Encryption Unit :=
  match r.backup with
  | some backup => 
      onlyIf (w.renamed ∧ ¬ w.created) (update fun w =>
        w.setTables (rolledBack env.rollback r.database r.tableName backup w.tables))
  | none => pure ()

/-- The exception handler of the task. -/
def failTask (error : String) : Encryption Unit := do
  markCurrentStepFailed error
  let w ← state
  rollback env r w
  finishTask .failed s!"表 {r.tableName} 加密失败：{error}"

/-- The `try` of the task. -/
def encryptTable : Encryption Unit := do
  let (sourceRows, tableColumns) ← precheck env r
  let sourceTable ← moveOriginal env r
  createTable env r sourceTable tableColumns
  insertRows encrypt env r sourceTable sourceRows
  if r.renameOriginal then
    let backup := r.backup.getD ""
    finishTask .succeeded s!"表 {r.tableName} 加密完成，原表已备份为 {backup}。"
  else finishTask .succeeded s!"表 {r.tableName} 加密完成，原表保持不变，加密表为 {r.outputTable}。"

/-- `_run_encryption_task`. -/
def runEncryptionTask : Encryption Unit :=
  attempt (encryptTable encrypt env r) fun error => some (failTask env r error)

end

end RecoveryService.DorisEncryption
