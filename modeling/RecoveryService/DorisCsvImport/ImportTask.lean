import RecoveryService.Lib.Statements
import RecoveryService.Lib.Runs
import RecoveryService.DorisCsvImport.CsvTask

/-! # The import of a CSV task

`run_csv_import_task_sync` of `services/doris_csv_import.py` from its start to its end, between the
requests of the user.  A table is the list of the Stream Loads that are visible in it (`Batch`); each of
them is carried out as a whole or not at all, and its answer may be lost.  What the files contain, the
texts of the statements and the types of the columns are left out: the environment says which files
cannot be read and for which columns no `CREATE TABLE` can be built. -/

namespace RecoveryService.DorisCsvImport

open Program Tables

/-- A database and a table in it. -/
abbrev TableName := String × String

/-- The rows of one file, as one Stream Load brought them. -/
structure Batch where
  file : ℕ
  mapping : Mapping

/-- Where a file was loaded to, and how. -/
structure Load where
  table : TableName
  mapping : Mapping

structure CsvFile where
  filename : String
  state : FileState
  preview : Option Preview
  /-- The Stream Load that made the file `imported`; no column of the row. -/
  loaded : Option Load := none

/-- A task, its files by `file_index`, and the tables of Doris. -/
structure World where
  task : CsvTask
  fileCount : ℕ
  files : ℕ → CsvFile
  tables : Catalog TableName (List Batch)

namespace World

variable (w : World)

def setFile (i : ℕ) (f : CsvFile → CsvFile) : World :=
  { w with files := Function.update w.files i (f (w.files i)) }

/-- What is visible of a file in a table. -/
def visible (table : TableName) (i : ℕ) : List Batch :=
  ((w.tables table).getD []).filter fun batch => batch.file = i

/-- `importable`. -/
def importable : List ℕ := (List.range w.fileCount).filter fun i => (w.files i).state.isImportable

end World

/-! ### The environment -/

structure ImportEnv where
  /-- The `database` of the connection profile; `none` where the profile is gone. -/
  profile : Option String := some ""
  ensured : Option String := none
  /-- A stop request comes before file `i`. -/
  stops : ℕ → Bool := fun _ => false
  /-- File `i` cannot be read. -/
  unreadable : ℕ → Option String := fun _ => none
  /-- No `CREATE TABLE` for the columns of file `i`. -/
  undefinable : ℕ → Option String := fun _ => none
  dropped : ℕ → Reply String := fun _ => .done
  created : ℕ → Reply String := fun _ => .done
  loaded : ℕ → Reply String := fun _ => .done

/-- The world and the variables of the run. -/
structure ImportRun where
  world : World
  createdTables : List String := []
  baseline : Option Preview := none
  results : List Bool := []

abbrev Import := Program ImportRun String

namespace ImportRun

variable (s : ImportRun)

def onTask (f : CsvTask → CsvTask) : ImportRun :=
  { s with world := { s.world with task := f s.world.task } }

def onTables (c : Catalog TableName (List Batch)) : ImportRun :=
  { s with world := { s.world with tables := c } }

end ImportRun

/-! ### A file -/

/-- The preview a file is imported with: in `single_table` mode the one of the first file decides. -/
def adopted (mode : ImportMode) (baseline : Option Preview) (filename : String) (preview : Preview) :
    Except String Preview :=
  match mode, baseline with
  | .singleTable, some standard =>
      if preview.expectedColumns ≠ standard.expectedColumns then
        .error s!"列数不一致：标准文件 {standard.filename} 为 {standard.expectedColumns} 列，当前文件 {filename} 为 {preview.expectedColumns} 列。"
      else .ok { preview with columns := standard.columns, tableName := standard.tableName }
  | _, _ => .ok preview

/-- `table_key`. -/
def tableKey (mode : ImportMode) (filename : String) (preview : Preview) : String :=
  match mode with
  | .singleTable => preview.tableName
  | .multipleTables => s!"{filename}:{preview.tableName}"

section file

variable (env : ImportEnv) (database : String) (i : ℕ) (preview : Preview)

def table : TableName := (database, preview.tableName)

/-- `DROP TABLE IF EXISTS`. -/
def dropTable : Import Unit :=
  submit (env.dropped i) "" fun s => some (s.onTables (Function.update s.world.tables (table database preview) none))

/-- `CREATE TABLE IF NOT EXISTS`. -/
def createTableIfNotExists : Import Unit :=
  submit (env.created i) "" fun s =>
    if s.world.tables (table database preview) = none then
      some (s.onTables (Function.update s.world.tables (table database preview) (some [])))
    else some s

/-- `_create_table`. -/
def createTable (overwrite : Bool) : Import Unit := do
  onlyIf (preview.columns.all (fun column => Text.strip column.name = "") = true)
    (raise s!"{preview.filename} 没有可导入字段。")
  onlyIf (env.undefinable i ≠ none) (raise ((env.undefinable i).getD ""))
  onlyIf (overwrite = true) (dropTable env database i preview)
  createTableIfNotExists env database i preview

/-- `_prepare_import_content`. -/
def prepareImportContent (filename : String) : Except String Mapping :=
  match env.unreadable i with
  | some e => .error e
  | none =>
      if preview.mapping = [] then .error s!"{filename} 没有可导入的映射字段。" else .ok preview.mapping

/-- `_stream_load`.  An answer other than `Success` is a failure like an exception. -/
def streamLoad (mapping : Mapping) : Import Unit :=
  submit (env.loaded i) "" fun s =>
    (alter s.world.tables (table database preview) (· ++ [⟨i, mapping⟩])).map s.onTables

/-- The rows of the file are in its table. -/
def fileImported (mapping : Mapping) (s : ImportRun) : ImportRun :=
  { s with
    world := s.world.setFile i fun file =>
      { file with state := .imported, loaded := some ⟨table database preview, mapping⟩ }
    results := s.results ++ [true] }

def fileFailed (s : ImportRun) : ImportRun :=
  { s with
    world := s.world.setFile i fun file => { file with state := .importFailed }
    results := s.results ++ [false] }

/-- The part of a turn whose exceptions only fail the file. -/
def loadFile : Import Unit := do
  let s ← state
  let mapping ← lift (prepareImportContent env i preview (s.world.files i).filename)
  let key := tableKey s.world.task.importMode (s.world.files i).filename preview
  onlyIf (s.world.task.importCreateTable = true ∧ key ∉ s.createdTables) do
    createTable env database i preview s.world.task.importOverwrite
    update fun s => { s with createdTables := key :: s.createdTables }
  streamLoad env database i preview mapping
  update (fileImported database i preview mapping)

end file

section run

variable (env : ImportEnv)

/-- The preview of a file; a row without one does not pass the validation. -/
def validated (file : CsvFile) : Except String Preview :=
  match file.preview with
  | some preview => .ok preview
  | none => .error "Field required"

def startFile (i : ℕ) (preview : Preview) (s : ImportRun) : ImportRun :=
  { s with
    world := s.world.setFile i fun file => { file with state := .importing }
    baseline := if s.world.task.importMode = .singleTable then some (s.baseline.getD preview) else s.baseline }

/-- A turn of the loop over `importable`. -/
def importFile (database : String) (i : ℕ) : Import Unit := do
  let s ← state
  let own ← lift (validated (s.world.files i))
  let preview ← lift (adopted s.world.task.importMode s.baseline (s.world.files i).filename own)
  update (startFile i preview)
  attempt (loadFile env database i preview) fun _ => some (update (fileFailed i))

/-- `_stop_remaining_csv_import_files`. -/
def stopRemaining (rest : List ℕ) (s : ImportRun) : ImportRun :=
  { s with world := { s.world with
      task := { s.world.task with state := .stopped }
      files := fun i =>
        if i ∈ rest ∧ (s.world.files i).state.isStoppable = true then
          { s.world.files i with state := .stopped }
        else s.world.files i } }

/-- A stop request, where one comes before file `i`. -/
def stopArrives (i : ℕ) (s : ImportRun) : ImportRun :=
  s.onTask fun task => if env.stops i = true then task.requestStop else task

/-- The loop; `true` where it has gone through all files. -/
def importFiles (database : String) : List ℕ → Import Bool
  | [] => pure true
  | i :: rest => do
      update (stopArrives env i)
      let s ← state
      if s.world.task.stopSeen = true then do
        update (stopRemaining (i :: rest))
        pure false
      else do
        importFile env database i
        importFiles database rest

/-- The state behind the last file. -/
def finishImport (s : ImportRun) : ImportRun :=
  s.onTask fun task => { task with state := if s.results.all id then .imported else .importFailed }

/-- The body of `run_csv_import_task_sync` for the files `importable`. -/
def importTask (database : String) (importable : List ℕ) : Import Unit := do
  update (ImportRun.onTask · fun task => { task with state := .importing })
  let finished ← importFiles env database importable
  onlyIf (finished = true) (update finishImport)

/-- `target_database`. -/
def targetDatabase (task : CsvTask) (default : String) : String :=
  Text.strip (Text.orElse task.database default)

/-- `run_csv_import_task_sync`. -/
def runCsvImportTask : Import Unit :=
  attempt (do
    let s ← state
    if s.world.task.state = .imported ∨ s.world.task.state = .importFailed ∨
        s.world.task.state = .stopped then pure ()
    else if s.world.task.state ≠ .waitingImport ∧ s.world.task.state ≠ .completed then
      raise "请先完成解析，再执行导入。"
    else match env.profile with
      | none => update (ImportRun.onTask · fun task => task.failParse "Doris 数据连接不存在或已被删除。")
      | some default =>
          if targetDatabase s.world.task default = "" then
            update (ImportRun.onTask · fun task => task.failImport "Missing Doris target database.")
          else do
            onlyIf (env.ensured ≠ none) (raise (env.ensured.getD ""))
            if s.world.importable = [] then
              update (ImportRun.onTask · fun task => task.failParse "没有可导入的 CSV 文件。")
            else importTask env (targetDatabase s.world.task default) s.world.importable)
    fun e => some (update (ImportRun.onTask · fun task => task.failImport e))

/-- The world behind a run of the worker. -/
def World.afterImport (w : World) : World := (runCsvImportTask env ⟨w, [], none, []⟩).2.world

end run

/-! ### The task between its requests -/

inductive ImportAction where
  | requestImport (createTable overwrite : Bool) (database : Option String)
  | requestStop
  /-- `update_csv_parse_file_preview_sync`. -/
  | updatePreview (i : ℕ) (preview : Preview)
  | runImport (env : ImportEnv)

/-- A refused request does nothing. -/
def importStep (w : World) : ImportAction → Option World
  | .requestImport create overwrite database =>
      (w.task.requestImport create overwrite database).toOption.map fun task => { w with task := task }
  | .requestStop => some { w with task := w.task.requestStop }
  | .updatePreview i preview =>
      if i < w.fileCount then some (w.setFile i fun file => { file with preview := some preview }) else none
  | .runImport env => some (w.afterImport env)

end RecoveryService.DorisCsvImport
