import RecoveryService.DorisEncryption.EncryptionTask

/-! # The SM3 mapping job of one table

`run_sm3_mapping_job` of `services/doris_sm3_mapping.py`.  What Doris answers and what the looks at the
cancel request read is an environment; the rows of the application's own database are written without
failures.  Of the texts of the statements only what they do to the tables is kept. -/

namespace RecoveryService.DorisSm3Mapping

open Checks Program Tables DorisEncryption

/-- A Doris table; a row has a value for each column, `none` for NULL. -/
structure MaskTable where
  columns : List String
  rows : List (List (Option String))

inductive JobState where
  | queued
  | running
  | succeeded
  | failed
  | cancelled
deriving DecidableEq

/-- `DorisSm3Job`, as far as the run reads it. -/
structure MappingJob where
  id : String
  database : String
  tableName : String
  tableMode : String
  backupTableName : Option String
  outputTableName : Option String
  hashedColumns : List String
  mappingDatabase : Option String
  mappingTables : List (String × String)
  fieldMappingDatabase : Option String
  fieldMappingTable : Option String

/-- `DorisSm3Job`, as far as the run writes it. -/
structure JobStatus where
  state : JobState := .queued
  message : String := "任务已提交，等待 Worker 执行。"
  error : Option String := none
  sourceRows : Option ℕ := none
  targetRows : Option ℕ := none
  steps : List (StepState × String) := List.replicate 8 (.pending, "")

inductive Sm3Exception where
  /-- `_Sm3Cancelled`. -/
  | cancelled
  | error (message : String)

/-- What comes back for the statements of the job, and what its looks at the cancel request read. -/
structure Sm3Env where
  now : String := ""
  cancelRequested : Bool := false
  profile : Bool := true
  /-- The looks of `_check_cancel`, in their order. -/
  cancel : ℕ → Bool := fun _ => false
  /-- The look of the exception handler. -/
  cancelAfter : Bool := false
  connect : Option String := none
  loadTableColumns : Option String := none
  tableExists : Option String := none
  countSource : Option String := none
  createMappingDatabase : Reply String := .done
  createMapping : String → Reply String := fun _ => .done
  loadMappingColumns : String → Option String := fun _ => none
  /-- `SHOW CREATE TABLE` of a mapping table, and its unique key. -/
  mappingDdl : String → Option String := fun _ => none
  insertMapping : ℕ → Reply String := fun _ => .done
  rename : Reply String := .done
  /-- `SHOW CREATE TABLE` of the original, and the rewriting of its text. -/
  createSql : Option String := none
  create : Reply String := .done
  insert : Reply String := .done
  countTarget : Option String := none
  createRelationDatabase : Reply String := .done
  createRelations : Reply String := .done
  deleteRelations : Reply String := .done
  insertRelations : Reply String := .done
  rollback : RollbackEnv := {}

/-- `renamed` and `created` are the flags of the function. -/
structure Sm3World where
  tables : Catalog TableName MaskTable
  renamed : Bool := false
  created : Bool := false
  status : JobStatus := {}

/-- A part of the job. -/
abbrev Sm3 := Program Sm3World Sm3Exception

namespace Sm3World

variable (w : Sm3World)

def setTables (tables : Catalog TableName MaskTable) : Sm3World := { w with tables := tables }

def setStatus (f : JobStatus → JobStatus) : Sm3World := { w with status := f w.status }

end Sm3World

/-! ### Status -/

/-- `_start_job`. -/
def startJob : Sm3 Unit :=
  update fun w => w.setStatus fun s =>
    { s with state := .running, message := "Worker 已开始执行 SM3 脱敏任务。" }

/-- `_set_step`. -/
def setStep (index : ℕ) (state : StepState) (message : Option String := none) : Sm3 Unit :=
  update fun w => w.setStatus fun s =>
    { s with
      steps := s.steps.modify index (fun step => (state, message.getD step.2))
      message := message.getD s.message }

/-- `_mark_current_step_failed`. -/
def markCurrentStepFailed (message : String) : Sm3 Unit :=
  update fun w => w.setStatus fun s => { s with steps := failRunning message s.steps }

/-- `_finish_job`. -/
def finishJob (state : JobState) (message : String) (error : Option String := none) : Sm3 Unit :=
  update fun w => w.setStatus fun s => { s with state := state, message := message, error := error }

/-! ### Names -/

namespace MappingJob

variable (job : MappingJob)

def replaceOriginal : Bool := job.tableMode = "replace_original"

/-- `job.backup_table_name`, where it is set. -/
def backup : Option String := job.backupTableName.filter (· ≠ "")

/-- `job.output_table_name or job.table_name`. -/
def output : String := (job.outputTableName.filter (· ≠ "")).getD job.tableName

/-- `job.mapping_database or job.database`. -/
def mappingDb : String := (job.mappingDatabase.filter (· ≠ "")).getD job.database

/-- `sorted(set((job.mapping_tables or {}).values()))`. -/
def mappingNames : List String := (job.mappingTables.map Prod.snd).dedup.insertionSort (· ≤ ·)

def relationDb : String := (job.fieldMappingDatabase.filter (· ≠ "")).getD job.mappingDb

def relationTable : String := (job.fieldMappingTable.filter (· ≠ "")).getD "doris_mask_field_mappings"

end MappingJob

/-! ### Jobs as they are created -/

/-- What `create_sm3_mapping_task` makes a job of, in the mode `replace_original`. -/
structure Sm3Request where
  id : String
  database : String
  tableName : String
  outputSuffix : String
  columns : List String
  mappingDatabase : Option String
  mappingTables : List (String × String)
  fieldMappingDatabase : Option String
  fieldMappingTable : Option String

/-- `_suffixed_table_name`. -/
def Sm3Request.backup (r : Sm3Request) : String := r.tableName ++ "_" ++ r.outputSuffix

def Sm3Request.job (r : Sm3Request) : MappingJob where
  id := r.id
  database := r.database
  tableName := r.tableName
  tableMode := "replace_original"
  backupTableName := some r.backup
  outputTableName := some r.tableName
  hashedColumns := r.columns
  mappingDatabase := r.mappingDatabase
  mappingTables := r.mappingTables
  fieldMappingDatabase := r.fieldMappingDatabase
  fieldMappingTable := r.fieldMappingTable

section

variable (sm3 : String → String) (env : Sm3Env) (job : MappingJob)

/-! ### Statements -/

def ask {α : Type} (failure : Option String) (answer : Sm3World → Except String α) : Sm3 α :=
  query (failure.map .error) fun w => (answer w).mapError .error

/-- `_execute_logged_sql`. -/
def execute (reply : Reply String)
    (effect : Catalog TableName MaskTable → Option (Catalog TableName MaskTable)) : Sm3 Unit :=
  submit (reply.map .error) (.error "Doris rejected the statement.") fun w =>
    (effect w.tables).map w.setTables

/-- `_check_cancel`. -/
def checkCancel (look : ℕ) : Sm3 Unit :=
  lift (if env.cancel look then .error .cancelled else .ok ())

def check (condition : Prop) [Decidable condition] (message : String) : Sm3 Unit :=
  lift ((raiseIf condition message).mapError .error)

/-- `_load_table_columns`. -/
def loadTableColumns (failure : Option String) (database table : String) : Sm3 (List String) :=
  ask failure fun w => .ok ((w.tables (database, table)).elim [] MaskTable.columns)

/-- `_table_exists`. -/
def tableExists (failure : Option String) (database table : String) : Sm3 Bool :=
  ask failure fun w => .ok (w.tables (database, table)).isSome

/-- `_count_rows`. -/
def countRows (failure : Option String) (database table : String) : Sm3 ℕ :=
  ask failure fun w =>
    match w.tables (database, table) with
    | some t => .ok t.rows.length
    | none => .error s!"Unknown table '{table}'"

/-- `CREATE TABLE IF NOT EXISTS`. -/
def createMissing (name : TableName) (columns : List String) (c : Catalog TableName MaskTable) :
    Catalog TableName MaskTable :=
  if c name = none then Function.update c name (some { columns := columns, rows := [] }) else c

def mappingColumns : List String := ["original_value", "sm3_value"]

def cell (columns : List String) (row : List (Option String)) (column : String) : Option String :=
  ((columns.zip row).lookup column).join

/-- A row of a table with the unique key `original_value`. -/
def upsert (rows : List (List (Option String))) (value : String) : List (List (Option String)) :=
  if rows.any (fun row => row.head? = some (some value)) then
    rows.map (fun row =>
      if row.head? = some (some value) then [some value, some (sm3 value)] else row)
  else rows ++ [[some value, some (sm3 value)]]

/-- `_build_mapping_insert_sql`: the different values of a column and what SM3 makes of them. -/
def insertValues (source mapping : TableName) (column : String) (c : Catalog TableName MaskTable) :
    Option (Catalog TableName MaskTable) :=
  (c source).bind fun s => alter c mapping fun m =>
    { m with rows := (s.rows.filterMap (cell s.columns · column)).dedup.foldl (upsert sm3) m.rows }

/-- `SM3` on the selected columns of a row. -/
def maskRow (columns hashed : List String) (row : List (Option String)) : List (Option String) :=
  List.zipWith (fun column value => if column ∈ hashed then value.map sm3 else value) columns row

/-- `_build_output_insert_sql`. -/
def insertMaskedRows (source output : TableName) (columns hashed : List String)
    (c : Catalog TableName MaskTable) : Option (Catalog TableName MaskTable) :=
  (c source).bind fun s => alter c output fun o =>
    { o with rows := o.rows ++ s.rows.map (maskRow sm3 columns hashed) }

/-- The columns of the table of the field relations. -/
def relationColumns : List String :=
  ["source_database", "source_table_name", "source_column_name", "algorithm", "masked_database",
    "masked_table_name", "masked_column_name", "mapping_database", "mapping_table_name",
    "mapping_original_column", "mapping_masked_column", "task_id", "updated_at"]

/-- The relation of a column, by the columns of the table. -/
def relation (column : String) : List (String × String) :=
  relationColumns.zip
    [job.database, job.tableName, column, "SM3", job.database, job.output, column, job.mappingDb,
      (job.mappingTables.lookup column).getD "", "original_value", "sm3_value", job.id, env.now]

def ofTable (columns : List String) (row : List (Option String)) : Bool :=
  cell columns row "source_database" = some job.database ∧
    cell columns row "source_table_name" = some job.tableName ∧ cell columns row "algorithm" = some "SM3"

/-- The relations of the table go out of the table of the relations. -/
def deleteRelations (name : TableName) (c : Catalog TableName MaskTable) :
    Option (Catalog TableName MaskTable) :=
  (c name).bind fun t =>
    if ∀ column ∈ ["source_database", "source_table_name", "algorithm"], column ∈ t.columns then
      some (Function.update c name
        (some { t with rows := t.rows.filter fun row => ¬ ofTable job t.columns row }))
    else none

/-- The row of a relation in a table with these columns. -/
def relationRow (columns : List String) (column : String) : List (Option String) :=
  columns.map fun name => (relation env job column).lookup name

def insertRelations (name : TableName) (c : Catalog TableName MaskTable) :
    Option (Catalog TableName MaskTable) :=
  (c name).bind fun t =>
    if job.hashedColumns ≠ [] ∧ ∀ column ∈ relationColumns, column ∈ t.columns then
      some (Function.update c name
        (some { t with rows := t.rows ++ job.hashedColumns.map (relationRow env job t.columns) }))
    else none

/-! ### The run -/

/-- The table that is going to be made must not exist. -/
def checkNames : Sm3 Unit :=
  match job.replaceOriginal, job.backup with
  | true, some backup => do
      let taken ← tableExists env.tableExists job.database backup
      check taken s!"备份表 {backup} 已存在，请换一个后缀。"
  | true, none => pure ()
  | false, _ =>
      match job.outputTableName.filter (· ≠ "") with
      | some output => do
          let taken ← tableExists env.tableExists job.database output
          check taken s!"脱敏目标表 {output} 已存在，请换一个后缀。"
      | none => pure ()

/-- The checks before anything is changed: the rows and the columns of the table. -/
def precheck : Sm3 (ℕ × List String) := do
  checkCancel env 0
  setStep 0 .running
  ask env.connect fun _ => .ok ()
  let tableColumns ← loadTableColumns env.loadTableColumns job.database job.tableName
  check (tableColumns = []) s!"表 {job.tableName} 不存在或没有字段。"
  let unknownColumns := job.hashedColumns.filter (· ∉ tableColumns)
  check (unknownColumns ≠ []) s!"以下字段不存在：{Text.listed unknownColumns}"
  checkNames env job
  let sourceRows ← countRows env.countSource job.database job.tableName
  update fun w => w.setStatus fun s => { s with sourceRows := some sourceRows }
  setStep 0 .success (some s!"原表 {sourceRows} 行，待 SM3 脱敏 {job.hashedColumns.length} 个字段。")
  pure (sourceRows, tableColumns)

/-- `_validate_mapping_table_model`. -/
def validateMapping (name : String) : Sm3 Unit := do
  let columns ← loadTableColumns (env.loadMappingColumns name) job.mappingDb name
  ask (env.mappingDdl name) fun _ => .ok ()
  check (columns ≠ mappingColumns)
    s!"映射表 {name} 结构不符合要求，应只包含 original_value/sm3_value 两列，并使用 original_value 作为 UNIQUE KEY。"

def prepareMappings : Sm3 Unit := do
  checkCancel env 1
  setStep 1 .running
  execute env.createMappingDatabase some
  job.mappingNames.forM fun name =>
    execute (env.createMapping name) fun c => some (createMissing (job.mappingDb, name) mappingColumns c)
  job.mappingNames.forM (validateMapping env job)
  setStep 1 .success (some s!"映射表已准备：{job.mappingDb} 库 {job.mappingNames.length} 张。")

/-- `job.mapping_tables[column]` for each hashed column. -/
def columnMappings : Except Sm3Exception (List (String × String)) :=
  job.hashedColumns.mapM fun column =>
    match job.mappingTables.lookup column with
    | some name => .ok (column, name)
    | none => .error (.error s!"'{column}'")

def insertMappings : Sm3 Unit := do
  checkCancel env 2
  let mappings ← lift (columnMappings job)
  setStep 2 .running
  mappings.zipIdx.forM fun m =>
    execute (env.insertMapping m.2)
      (insertValues sm3 (job.database, job.tableName) (job.mappingDb, m.1.2) m.1.1)
  setStep 2 .success (some "字段原值与 SM3 值已写入映射表。")

/-- Python's text of a name or `None`. -/
def shown (name : Option String) : String := name.getD "None"

/-- The original table gets out of the way; the table the rows are read from is returned. -/
def moveOriginal : Sm3 String := do
  checkCancel env 3
  match job.replaceOriginal, job.backup with
  | true, none => raise (.error "覆盖原表模式缺少备份表名。")
  | true, some backup => do
      setStep 3 .running
      execute env.rename fun c =>
        Tables.rename c (job.database, job.tableName) (job.database, backup)
      update fun w => { w with renamed := true }
      setStep 3 .success (some s!"原表已重命名为 {backup}。")
      pure backup
  | false, _ => do
      setStep 3 .success (some s!"原表保持不变，目标脱敏表为 {shown job.outputTableName}。")
      pure job.tableName

/-- The new table, with the columns of the old one and without rows. -/
def createMasked (sourceTable : String) (tableColumns : List String) : Sm3 Unit := do
  checkCancel env 4
  ask env.createSql fun w =>
    if (w.tables (job.database, sourceTable)).isSome then .ok () else .error "无法获取原表 DDL。"
  setStep 4 .running
  execute env.create fun c =>
    Tables.create c (job.database, job.output) { columns := tableColumns, rows := [] }
  update fun w => { w with created := true }
  setStep 4 .success (some "脱敏表已按原 DDL 创建，SM3 字段已转为 varchar(255)。")

def insertMasked (sourceTable : String) (tableColumns : List String) : Sm3 Unit := do
  checkCancel env 5
  setStep 5 .running
  execute env.insert (insertMaskedRows sm3 (job.database, sourceTable) (job.database, job.output)
    tableColumns job.hashedColumns)
  setStep 5 .success (some "SM3 脱敏数据已写入目标表。")

def compareRows (sourceRows : ℕ) : Sm3 Unit := do
  checkCancel env 6
  let targetRows ← countRows env.countTarget job.database job.output
  update fun w => w.setStatus fun s => { s with targetRows := some targetRows }
  check (sourceRows ≠ targetRows) s!"行数校验失败：原表 {sourceRows} 行，脱敏表 {targetRows} 行。"
  setStep 6 .success (some s!"行数一致：{targetRows} 行。")

/-- `_build_field_mapping_sqls`, carried out. -/
def writeRelations : Sm3 Unit := do
  checkCancel env 7
  setStep 7 .running
  execute env.createRelationDatabase some
  execute env.createRelations fun c =>
    some (createMissing (job.relationDb, job.relationTable) relationColumns c)
  execute env.deleteRelations (deleteRelations job (job.relationDb, job.relationTable))
  execute env.insertRelations (insertRelations env job (job.relationDb, job.relationTable))
  setStep 7 .success
    (some s!"字段关系表已更新：{job.relationDb}.{job.relationTable}，仅保留本表本算法最新关系。")

/-- The steps up to the rename. -/
def prepare : Sm3 (ℕ × List String) := do
  let checked ← precheck env job
  prepareMappings env job
  insertMappings sm3 env job
  pure checked

/-- The steps from the new table on. -/
def replaceTable (sourceTable : String) (sourceRows : ℕ) (tableColumns : List String) : Sm3 Unit := do
  createMasked env job sourceTable tableColumns
  insertMasked sm3 env job sourceTable tableColumns
  compareRows env job sourceRows
  writeRelations env job

/-- The `try` of the job. -/
def maskTable : Sm3 Unit := do
  let checked ← prepare sm3 env job
  let sourceTable ← moveOriginal env job
  replaceTable sm3 env job sourceTable checked.1 checked.2
  let message :=
    if job.replaceOriginal then
      s!"表 {job.tableName} SM3 映射脱敏完成，原表已备份为 {shown job.backupTableName}。"
    else s!"表 {job.tableName} SM3 映射脱敏完成，原表保持不变，脱敏表为 {shown job.outputTableName}。"
  finishJob .succeeded message

/-- The rename is taken back if there was one and the new table was not created. -/
def rollback (w : Sm3World) : Sm3 Unit :=
  match job.backup with
  | some backup =>
      onlyIf (w.renamed ∧ ¬ w.created) (update fun w =>
        w.setTables (rolledBack env.rollback job.database job.tableName backup w.tables))
  | none => pure ()

def failJob (message : String) : Sm3 Unit := do
  markCurrentStepFailed message
  let w ← state
  rollback env job w
  finishJob .failed s!"表 {job.tableName} SM3 映射脱敏失败：{message}" (some message)

/-- The exception handlers of the job. -/
def handle : Sm3Exception → Sm3 Unit
  | .cancelled => finishJob .cancelled "任务已取消。"
  | .error message =>
      if env.cancelAfter then finishJob .cancelled "任务已取消。" else failJob env job message

/-- `run_sm3_mapping_job`. -/
def runSm3MappingJob : Sm3 Unit :=
  if env.cancelRequested then finishJob .cancelled "任务已取消。"
  else if env.profile = false then
    finishJob .failed "Doris 数据连接不存在。" (some "Doris 数据连接不存在。")
  else do
    startJob
    attempt (maskTable sm3 env job) fun e => some (handle env job e)

end

end RecoveryService.DorisSm3Mapping
