import RecoveryService.AutoImport.Tool
import RecoveryService.ExportLog.Manifest

/-! # The gates of an assisted import

`orchestrator/professional_pipeline.py`: `_select_export_log` and the parts of `run` that decide by the export
log; `orchestrator/oracle_auto_import_runner.py`: `_check_export_log_binding`, the arguments of the remote tool
and the state it ends in; `tools/oracle_dmp_auto_import.py`: `_export_log_summary` and
`validate_export_log_expectations`.  The steps in between only matter where they raise. -/

namespace RecoveryService.ExportLog

open AutoImport (ProbeResult DumpType)

/-- `DumpArtifact`: a file has a name. -/
structure DumpArtifact where
  filename : Text
  sizeBytes : ℕ
  named : filename ≠ []
deriving DecidableEq

/-- `MAX_EXPORT_LOG_BYTES`. -/
def maxExportLogBytes : ℕ := 20000000

/-- `MatchedExportLog`. -/
structure MatchedExportLog where
  artifact : DumpArtifact
  manifest : Manifest
  binding : Binding

/-- The dictionary `export_log` of the runner. -/
structure ExportLogInput where
  filename : Text
  manifest : Manifest
  bindingState : BindingState
  acceptSourceGaps : Bool

/-- The arguments `--export-log-...` of the remote tool. -/
structure ToolArguments where
  exportLogName : Text
  exportLogStatus : SourceStatus
  exportLogMode : ExportMode
  exportLogSchemas : Text
  exportLogDumpFiles : Text
  exportLogMissingCount : ℕ
deriving DecidableEq

/-- The `status` of the tool's report. -/
inductive ReportStatus where
  | dryRun
  | imported
  | importedWithWarnings
  | stopped
  | failed
deriving DecidableEq

structure ToolResult where
  returncode : ℤ
  status : Option ReportStatus

inductive TaskState where
  | succeeded
  | succeededWithWarnings
  | failed
  | cancelled
deriving DecidableEq

/-- A task of the professional pipeline. -/
structure Task where
  /-- The log files beside the dump files. -/
  logs : List DumpArtifact
  dumpFiles : List DumpArtifact
  executeImport : Bool
  acceptExportLogGaps : Bool
  /-- The steps before the runner, which may raise. -/
  prepared : Except String Unit
  /-- `export_log_binding` is one of the preflight codes to skip. -/
  skipBinding : Bool
  /-- The other checks of the preflight pass. -/
  preflight : Bool
  /-- `task.stop_requested` at the end. -/
  stopRequested : Bool

/-- How a task ends, and whether the remote tool was started, with or without an export log. -/
structure Recovery where
  started : Option (Option ToolArguments)
  state : TaskState

section Gates

variable (lower : Text → Text) (fnmatchcase : Text → Text → Bool) (scan : Text → Scan)
  (readText : DumpArtifact → Option Text)

/-- `[artifact.filename for artifact in dump_files]`. -/
def Task.dumpNames (t : Task) : List Text := t.dumpFiles.map DumpArtifact.filename

/-! ### The pipeline -/

/-- A log of `_select_export_log` with an exact binding. -/
def matchedLog (files : List Text) (artifact : DumpArtifact) : Option MatchedExportLog :=
  if maxExportLogBytes < artifact.sizeBytes then none
  else match readText artifact with
    | none => none
    | some text =>
        let manifest := (scan text).manifest
        let binding := bindExportLog lower fnmatchcase manifest artifact.filename files
        if binding.state = .exact then some ⟨artifact, manifest, binding⟩ else none

/-- `_select_export_log`; the order of the logs only matters for its reports. -/
def selectExportLog (logs : List DumpArtifact) (files : List Text) : Option MatchedExportLog :=
  match logs.filterMap (matchedLog lower fnmatchcase scan readText files) with
  | [log] => some log
  | _ => none

/-- The pipeline's own gate: the gaps of the log are not accepted. -/
def Task.refuses (t : Task) (log : MatchedExportLog) : Prop :=
  log.manifest.hasSourceGaps ∧ t.executeImport = true ∧ t.acceptExportLogGaps = false

instance (t : Task) (log : MatchedExportLog) : Decidable (t.refuses log) := inferInstanceAs (Decidable (_ ∧ _))

/-- The `export_log` that `run` gives the runner. -/
def Task.input (t : Task) (log : MatchedExportLog) : ExportLogInput :=
  ⟨log.artifact.filename, log.manifest, log.binding.state, t.acceptExportLogGaps⟩

/-! ### The runner -/

/-- `{name.lower() for name in names}`. -/
def lowerSet (names : List Text) : Finset Text := (names.map lower).toFinset

/-- `_check_export_log_binding`. -/
def checkExportLogBinding (e : ExportLogInput) (files : List Text) (execute : Bool) : Except String Unit :=
  if e.bindingState ≠ .exact then .error "Oracle 导出日志与当前 DMP 分卷不是唯一精确匹配。"
  else if e.manifest.tool ≠ .expdp then .error "专项导入第一阶段只接受已识别的 expdp 导出日志。"
  else if ¬ e.manifest.sourceStatus.completed then .error "Oracle 导出日志状态不可用于专项导入"
  else if lowerSet lower e.manifest.dumpFiles = ∅ ∨ lowerSet lower files ≠ lowerSet lower e.manifest.dumpFiles then
    .error "导出日志声明的 DMP 分卷与任务实际分卷不一致。"
  else if execute = true ∧ e.manifest.missingObjects ≠ [] ∧ e.acceptSourceGaps = false then
    .error s!"源导出日志记录了 {e.manifest.missingObjects.length} 个缺失对象，尚未授权接受源导出缺口。"
  else .ok ()

/-- The arguments for an export log. -/
def toolArguments (e : ExportLogInput) : ToolArguments where
  exportLogName := e.filename
  exportLogStatus := e.manifest.sourceStatus
  exportLogMode := e.manifest.exportMode
  exportLogSchemas := [','].intercalate e.manifest.schemas
  exportLogDumpFiles := [','].intercalate e.manifest.dumpFiles
  exportLogMissingCount := e.manifest.missingObjects.length

/-- `success` and `state` of the runner, for the result of the tool. -/
def toolSuccess (r : ToolResult) : Bool :=
  r.returncode = 0 && r.status ∈ [some .dryRun, some .imported, some .importedWithWarnings]

def toolState (r : ToolResult) : TaskState :=
  if r.status = some .stopped ∨ r.returncode = 130 then .cancelled
  else if r.status = some .importedWithWarnings then .succeededWithWarnings
  else if toolSuccess r then .succeeded
  else .failed

/-- `result_state` of the pipeline. -/
def resultState (log : Option MatchedExportLog) (r : ToolResult) : TaskState :=
  let state := if toolSuccess r = true ∨ toolState r = .cancelled then toolState r else .failed
  match log with
  | none => state
  | some log => if toolSuccess r = true ∧ log.manifest.hasSourceGaps then .succeededWithWarnings else state

/-- The preflight of the runner, with or without an export log. -/
def Task.preflightPasses (t : Task) (log : Option MatchedExportLog) : Bool :=
  t.preflight && match log with
    | none => true
    | some log => t.skipBinding ||
        (checkExportLogBinding lower (t.input log) t.dumpNames t.executeImport).toBool

/-- `run` of the pipeline behind the gate, for what the tool does with its arguments. -/
def Task.runImport (t : Task) (tool : Option ToolArguments → ToolResult) (log : Option MatchedExportLog) :
    Recovery :=
  match t.prepared with
  | .error _ => ⟨none, .failed⟩
  | .ok _ =>
      if t.preflightPasses lower log = false then ⟨none, .failed⟩
      else
        let arguments := log.map fun log => toolArguments (t.input log)
        ⟨some arguments, resultState log (tool arguments)⟩

/-- The gate of the pipeline, and `run` behind it. -/
def Task.gated (t : Task) (tool : Option ToolArguments → ToolResult) : Option MatchedExportLog → Recovery
  | none => t.runImport lower tool none
  | some log => if t.refuses log then ⟨none, .failed⟩ else t.runImport lower tool (some log)

/-- `run` of the pipeline in the task `run_recovery`. -/
def Task.recover (t : Task) (tool : Option ToolArguments → ToolResult) : Recovery :=
  let r := t.gated lower tool (selectExportLog lower fnmatchcase scan readText t.logs t.dumpNames)
  ⟨r.started, if t.stopRequested then .cancelled else r.state⟩

/-! ### The tool -/

/-- A value the tool's argument parser takes: `_remote_command` leaves an empty one out, and one that begins
with a dash is an option unless the parser says otherwise. -/
def isValue (dashed : Text → Bool) : Text → Bool
  | [] => false
  | '-' :: rest => dashed ('-' :: rest)
  | _ => true

/-- `parse_args` of the tool. -/
def ToolArguments.parses (dashed : Text → Bool) (a : ToolArguments) : Prop :=
  ∀ value ∈ [a.exportLogName, a.exportLogSchemas, a.exportLogDumpFiles], isValue dashed value = true

/-- `[item for item in value.split(",") if item]`. -/
def splitValues (value : Text) : List Text := (value.splitOn ',').filter (· ≠ [])

/-- `_export_log_summary`. -/
structure ExportLogSummary where
  sourceStatus : SourceStatus
  exportMode : ExportMode
  sourceSchemas : List Text
  dumpFiles : List Text

def exportLogSummary (a : ToolArguments) : Option ExportLogSummary :=
  if Text.stripChars Text.isSpace a.exportLogName = [] then none
  else some ⟨a.exportLogStatus, a.exportLogMode, splitValues a.exportLogSchemas, splitValues a.exportLogDumpFiles⟩

/-- `validate_export_log_expectations`. -/
def validateExportLogExpectations (a : ToolArguments) (sourceFiles : List Text) (probe : ProbeResult) :
    Except String Unit :=
  match exportLogSummary a with
  | none => .ok ()
  | some expected =>
      if ¬ expected.sourceStatus.completed then .error "Export log status cannot be used for assisted import"
      else if expected.exportMode = .tables ∧ probe.dumpType ≠ .datapump then
        .error "Export log identifies expdp TABLES export, but the DMP probe did not identify Data Pump."
      else if expected.dumpFiles ≠ [] ∧ lowerSet lower expected.dumpFiles ≠ lowerSet lower sourceFiles then
        .error "Export log DMP file set differs from the files resolved by the import task."
      else if ∃ schema ∈ expected.sourceSchemas, Text.upper schema ∉ probe.schemas.map Text.upper then
        .error "Export log schemas are missing from the authoritative DMP probe"
      else .ok ()

end Gates

end RecoveryService.ExportLog
