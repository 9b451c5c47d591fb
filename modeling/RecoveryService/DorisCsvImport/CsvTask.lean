import RecoveryService.Lib.Text

/-! # CSV tasks

The rows of `services/doris_csv_import.py`: a task, its files with the preview of each, and the requests
that write them.  Times, counters, messages and logs are left out. -/

namespace RecoveryService.DorisCsvImport

/-- The `state` of a task. -/
inductive TaskState where
  | created
  | uploading
  | queued
  | parsing
  | completed
  | failed
  | stopping
  | stopped
  | waitingImport
  | importing
  | imported
  | importFailed
deriving DecidableEq

/-- `_CSV_PARSE_TERMINAL_STATES`. -/
def TaskState.isParseTerminal : TaskState → Bool
  | completed | failed | stopped | imported | importFailed => true
  | created | uploading | queued | parsing | stopping | waitingImport | importing => false

/-- The `state` of a file. -/
inductive FileState where
  | waiting
  | parsing
  | succeeded
  | failed
  | stopped
  | waitingImport
  | importing
  | imported
  | importFailed
deriving DecidableEq

/-- The files `run_csv_import_task_sync` takes. -/
def FileState.isImportable : FileState → Bool
  | succeeded | waitingImport | importFailed => true
  | waiting | parsing | failed | stopped | importing | imported => false

/-- The files `_stop_remaining_csv_import_files` stops. -/
def FileState.isStoppable : FileState → Bool
  | waiting | parsing | succeeded | waitingImport | importing => true
  | failed | stopped | imported | importFailed => false

inductive ImportMode where
  | multipleTables
  | singleTable
deriving DecidableEq

structure Column where
  name : String
  type : String

/-- A `DorisCsvFilePreview`. -/
structure Preview where
  filename : String
  tableName : String
  expectedColumns : ℕ
  columns : List Column

/-- The positions of a row that are loaded, each with its column. -/
abbrev Mapping := List (ℕ × String)

/-- `mapped` of `_prepare_import_content`. -/
def Preview.mapping (preview : Preview) : Mapping :=
  (preview.columns.zipIdx.filter fun column => Text.strip column.1.name ≠ "").map fun column =>
    (column.2, Text.strip column.1.name)

structure CsvTask where
  importMode : ImportMode
  database : String := ""
  importCreateTable : Bool := true
  importOverwrite : Bool := false
  state : TaskState
  stopRequested : Bool := false
  errorMessage : Option String := none

namespace CsvTask

variable (task : CsvTask)

/-- `request_import_csv_task_sync`. -/
def requestImport (createTable overwrite : Bool) (database : Option String) : Except String CsvTask :=
  if task.state ≠ .completed ∧ task.state ≠ .importFailed ∧ task.state ≠ .imported then
    .error "请先完成 CSV 解析后再确认导入。"
  else
    let target := Text.strip (database.getD "")
    .ok { task with
      database := if target = "" then task.database else target
      importCreateTable := createTable
      importOverwrite := overwrite
      errorMessage := none
      state := .waitingImport }

/-- `request_stop_csv_parse_task_sync`. -/
def requestStop : CsvTask :=
  if task.state.isParseTerminal = true then task
  else { task with stopRequested := true, state := .stopping }

/-- `_csv_parse_stop_requested`. -/
def stopSeen : Bool := task.stopRequested || task.state = .stopping

/-- `_fail_csv_parse_task`. -/
def failParse (message : String) : CsvTask :=
  { task with state := .failed, errorMessage := some message }

/-- `_fail_csv_import_task`. -/
def failImport (message : String) : CsvTask :=
  { task with state := .importFailed, errorMessage := some message }

end CsvTask

end RecoveryService.DorisCsvImport
