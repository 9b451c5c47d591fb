import RecoveryService.AssistantExecution.Advance
import RecoveryService.DataPlatform.ExecuteRun
import RecoveryService.DataPlatform.SnapshotConfig

/-! # What the stages of a confirmed plan execute

The plan of a batch is confirmed with a snapshot: the hash of the restore template and the dump files
with their fingerprint, the configuration of the sync node, the release of the workflow version and the
SM4 task.  Users go on editing the template, the node, the version, the SM4 definition and the bindings
of the pipeline while the batch is executed.

`World` puts beside the batch and its processes (`Sys`) the rows the users edit, what each submitted
child was given, and what the workers have executed of it.  Which stage is submitted when is up to
`Sys`; a child may be executed more than once. -/

namespace RecoveryService.AssistantExecution

open Runs DataSync DataPlatform

/-! ### Rows -/

/-- The columns of a recovery task that `restore_hash` covers. -/
structure Template where
  remoteHost : String
  remotePort : ℕ
  remoteUser : String
  remotePasswordEnc : String
  remoteDirectory : String
  targetConnection : String
  targetAdminUser : String
  targetAdminPasswordEnc : String
  options : Dict

structure DumpFile where
  relativePath : String
  sizeBytes : ℕ
  modifiedEpoch : ℕ

/-- What `run_sm4_task_snapshot` passes on of an SM4 task. -/
structure Sm4Task where
  connectionId : String
  database : String
  tables : Json
  tableStrategy : String
  targetSuffix : Option String

/-- The bindings of a pipeline. -/
structure Bindings where
  restoreTemplate : Option ℕ
  dataSyncNode : Option String
  standardVersion : Option ℕ
  sm4Definition : Option ℕ
  standardTarget : Json

/-- The rows the users edit. -/
structure Live where
  template : ℕ → Option Template
  node : String → Option ComponentNode
  version : ℕ → Option WorkflowVersion
  definition : ℕ → Option Sm4Task
  pipeline : Bindings

/-- `assistant_snapshot`, with the files of the batch; `_load_contract` refuses a release without
nodes. -/
structure PlanSnapshot extends AssistantSnapshot where
  restoreTemplateTaskId : ℕ
  restoreHash : String
  sourceFiles : List DumpFile
  sourceFingerprint : String
  standardWorkflowVersionId : ℕ
  workflowRelease : ReleaseSnapshot
  sm4 : Sm4Task
  nodes_ne : workflowRelease.nodes ≠ []

/-- The batch with its snapshot, the hash functions, and Python's `\\d`. -/
structure Setting where
  py : Python
  restoreHash : Template → String
  sourceFingerprint : List DumpFile → String
  isDecimal : Char → Bool
  maxTableParallelism : ℤ
  batchId : String
  snapshot : PlanSnapshot
  batchId_ne : batchId ≠ ""

/-! ### Edits -/

/-- What a user saves; a version may be taken offline, edited and put online again. -/
inductive Edit
  | template (id : ℕ) (template : Option Template)
  | node (id : String) (node : Option ComponentNode)
  | nodeConfig (id : String) (config : Dict)
  | version (id : ℕ) (version : Option WorkflowVersion)
  | definition (id : ℕ) (definition : Option Sm4Task)
  | pipeline (pipeline : Bindings)

namespace Live

/-- The configuration of a node is changed. -/
def mapConfig (rows : Live) (id : String) (f : Dict → Dict) : Live :=
  { rows with node := fun other => if other = id then
      (rows.node other).map fun node => { node with config := f node.config } else rows.node other }

def save (py : Python) (rows : Live) : Edit → Live
  | .template id template => { rows with template := Function.update rows.template id template }
  | .node id node => { rows with node := Function.update rows.node id node }
  | .nodeConfig id config => rows.mapConfig id fun stored => saveConfig py stored config
  | .version id version => { rows with version := Function.update rows.version id version }
  | .definition id definition =>
      { rows with definition := Function.update rows.definition id definition }
  | .pipeline pipeline => { rows with pipeline := pipeline }

end Live

/-! ### Children -/

/-- `_dump_pattern`: the digits of the volume become `%U`. -/
def dumpPattern (isDecimal : Char → Bool) (names : List String) : String :=
  match names with
  | [] => ""
  | [name] => name
  | name :: _ =>
      let stem := name.toList.take (name.length - 4)
      let digits := stem.reverse.takeWhile isDecimal
      let base := stem.reverse.dropWhile isDecimal
      if 2 ≤ digits.length ∧ digits.length ≤ 4 ∧ base.head?.any (fun c => c = '_' ∨ c = '-') = true then
        String.ofList (base.reverse ++ ['%', 'U'] ++ name.toList.drop (name.length - 4))
      else name

/-- What a submitted child is given: a copy of the template, the files found in its directory and the
name of the dump; the row of the component run; the version of a workflow run, with whether it is still
queued; the SM4 task. -/
inductive Given
  | restore (template : Template) (found : List DumpFile) (dumpfile : String)
  | sync (run : ComponentRunRow)
  | standard (versionId : ℕ) (queued : Bool)
  | encryption (task : Sm4Task)

/-- What a worker has executed. -/
inductive Executed
  | restore (template : Template) (found : List DumpFile) (dumpfile : String)
  | sync (config : Dict)
  | standard (nodes : List NodeSpec) (edges : List EdgeSpec)
  | encryption (task : Sm4Task)

structure World where
  control : Sys
  /-- The rows as they are stored. -/
  live : Live
  /-- The rows as the users have saved them last. -/
  saved : Live
  /-- The template and the files a process has checked. -/
  checked : ℕ → Option (Template × List DumpFile)
  work : ℕ → Option Given
  executed : List Executed

/-- What a worker finds when it synchronises, and how that goes; `edits` has the configurations that
are saved for the node in the meantime. -/
structure SyncInput (py : Python) where
  profile : String → Except Raised (Option Engine)
  restoreOptions : Json → Except Raised (Option Dict)
  fresh : ℕ → String
  recognize : Dict → Except Raised (List Json)
  edits : List Dict
  nowText : String
  lastRunAt : String
  completion : Completion
  tables : ∀ p : Prepared, Except Raised (p.TableRuns py)

namespace Setting

variable (env : Setting)

/-- The rows a run of the batch reads. -/
def rows (profile : String → Except Raised (Option Engine))
    (restoreOptions : Json → Except Raised (Option Dict)) : Rows where
  snapshot _ := .ok (some env.snapshot.toAssistantSnapshot)
  profile := profile
  restoreOptions := restoreOptions

def inputRows (input : SyncInput env.py) : Rows :=
  env.rows input.profile input.restoreOptions

/-- The names of the dump files of the batch. -/
def dumpfile : String := dumpPattern env.isDecimal (env.snapshot.sourceFiles.map DumpFile.relativePath)

/-- `session.get(DataPlatformNode, …)` for the node of the snapshot. -/
def node (rows : Live) : Option ComponentNode := rows.node env.snapshot.dataSyncNodeId

/-- The child a process submits, where nothing raises before it is created. -/
def submitted (w : World) (p : ℕ) (restoredTarget : Json) : Option Given :=
  match (w.control.process p).pc with
  | .claimed .restore => (w.checked p).map fun checked =>
      .restore checked.1 checked.2 env.dumpfile
  | .claimed .sync => (env.node w.live).bind fun node =>
      ((prepareComponentTaskRun env.py (env.rows (fun _ => .ok none) fun _ => .ok none)
        (batchOverrides env.batchId restoredTarget) node).toOption).map .sync
  | .linked _ =>
      (w.live.version env.snapshot.standardWorkflowVersionId).bind fun version =>
        if version.status ≠ .offline then
          some (.standard env.snapshot.standardWorkflowVersionId true)
        else none
  | .claimed .encryption => some (.encryption env.snapshot.sm4)
  | _ => none

/-- What `advance` checks before it claims a stage; `found` is what `_files` returns for the template.
The template that is checked is the one that is submitted. -/
def claimable (w : World) (p : ℕ) (found : List DumpFile) : Option (Option (Template × List DumpFile)) :=
  match (w.control.process p).batch.state with
  | .ready .restore => (w.live.template env.snapshot.restoreTemplateTaskId).bind fun template =>
      if env.restoreHash template = env.snapshot.restoreHash ∧
          env.sourceFingerprint found = env.snapshot.sourceFingerprint then
        some (some (template, found))
      else none
  | .ready .standard =>
      (w.live.version env.snapshot.standardWorkflowVersionId).bind fun version =>
        if version.status = .online then some none else none
  | _ => some none

/-- The release of the snapshot in the place of the version's: `release_for_run`. -/
def release (version : WorkflowVersion) : WorkflowVersion :=
  { version with releaseSnapshot := some env.snapshot.workflowRelease }

/-- The configuration `run_queued_component_task` starts its tables with. -/
def syncedConfig (input : SyncInput env.py) (run : ComponentRunRow) (node : ComponentNode) : Option Dict :=
  if run.status = "queued" ∧ node.active = true ∧ node.nodeType = "data_sync" then
    (plan env.py (env.inputRows input) input.recognize run node).toOption.map Plan.config
  else none

/-- The configuration of the node behind the run. -/
def configBehind (input : SyncInput env.py) (run : ComponentRunRow) (node : ComponentNode) : Dict :=
  (runQueuedComponentTask env.py (env.inputRows input) input.fresh env.maxTableParallelism
    input.recognize run node input.edits input.nowText input.lastRunAt input.completion
    input.tables).config

/-- What `_execute_run` executes of a run that is queued. -/
def standardised (w : World) (id versionId : ℕ) (execute : Execute) : List Executed :=
  match w.live.version versionId with
  | none => []
  | some version =>
      if w.control.row.child .standard = some id ∧
          versionId = env.snapshot.standardWorkflowVersionId then
        match executeNodes (env.release version) { triggerType := .other "assistant" } execute with
        | .ok _ => [.standard (env.release version).releaseNodes (env.release version).releaseEdges]
        | .error _ => []
      else []

inductive Action
  | edit (e : Edit)
  /-- A process claims a stage. -/
  | claim (p : ℕ) (found : List DumpFile)
  /-- A process submits a child. -/
  | submit (p id : ℕ) (outcome : Outcome) (restoredTarget : Json)
  /-- Every other transaction of the batch. -/
  | transact (a : AssistantExecution.Action)
  | runRestore (id : ℕ)
  | runSync (id : ℕ) (input : SyncInput env.py)
  | runStandard (id : ℕ) (execute : Execute)
  | runEncryption (id : ℕ)

/-- The rows after a run, and the configurations saved in the meantime. -/
def sync (w : World) (id : ℕ) (run : ComponentRunRow) (input : SyncInput env.py) : World :=
  let claimed := Function.update w.work id (some (.sync { run with status := "running" }))
  match env.node w.live with
  | none => { w with work := claimed }
  | some node =>
      { w with
        live := w.live.mapConfig env.snapshot.dataSyncNodeId fun _ => env.configBehind input run node
        saved := w.saved.mapConfig env.snapshot.dataSyncNodeId fun stored =>
          input.edits.foldl (saveConfig env.py) stored
        work := claimed
        executed := (env.syncedConfig input run node).toList.map .sync ++ w.executed }

def step (w : World) : env.Action → Option World
  | .edit e => some { w with live := w.live.save env.py e, saved := w.saved.save env.py e }
  | .claim p found => (env.claimable w p found).bind fun checked =>
      (AssistantExecution.step w.control (.claim p)).map fun control =>
        { w with control := control, checked := Function.update w.checked p checked }
  | .submit p id outcome restoredTarget =>
      match env.submitted w p restoredTarget with
      | some work => (AssistantExecution.step w.control (.submit p id outcome)).map fun control =>
          { w with
            control := control
            work := if outcome = .refused then w.work else Function.update w.work id (some work) }
      | none =>
          if outcome = .refused then
            (AssistantExecution.step w.control (.submit p id .refused)).map fun control =>
              { w with control := control }
          else none
  | .transact (.claim _) => none
  | .transact (.submit _ _ _) => none
  | .transact a => (AssistantExecution.step w.control a).map fun control => { w with control := control }
  | .runRestore id =>
      match w.work id with
      | some (.restore template found dumpfile) =>
          some { w with executed := .restore template found dumpfile :: w.executed }
      | _ => none
  | .runSync id input =>
      match w.work id with
      | some (.sync run) => some (env.sync w id run input)
      | _ => none
  | .runStandard id execute =>
      match w.work id with
      | some (.standard versionId true) => some { w with
          work := Function.update w.work id (some (.standard versionId false))
          executed := env.standardised w id versionId execute ++ w.executed }
      | _ => none
  | .runEncryption id =>
      match w.work id with
      | some (.encryption task) => some { w with executed := .encryption task :: w.executed }
      | _ => none

end Setting

/-- The plan was confirmed with these rows. -/
def World.start (rows : Live) : World where
  control := Sys.start
  live := rows
  saved := rows
  checked := fun _ => none
  work := fun _ => none
  executed := []

end RecoveryService.AssistantExecution
