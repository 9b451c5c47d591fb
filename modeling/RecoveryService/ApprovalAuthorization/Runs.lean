import RecoveryService.Lib.Runs

/-! # Runs of the approval authorization

`services/approval_authorization.py`, for one configuration: `_run_full_sync` with `_run_one_apply_flow`, for
scans and full runs, and `_test_step_sync`.  A run takes up one application after the other; which ones, and
in which order, is left open.  What a scan has to do for an application it reads off the success logs, which
are keyed by configuration, application and step only. -/

namespace RecoveryService.ApprovalAuthorization

open Runs

/-- The steps, by their keys. -/
inductive Step where
  | login
  | todoList
  | detail
  | departmentMapping
  | dataList
  | tableSchemaLookup
  | authInfoInsert
  | internalGrant
  | youdataToken
  | apiAdd
  | importPermissions
  | auditStatusUpdate
deriving DecidableEq

/-- The options of a configuration that the runs decide by. -/
structure Config where
  updateAuditStatusAfterSuccess : Bool
  autoWatchSkipStatusUpdated : Bool

/-- What becomes of a step: it fails, it succeeds and its success log is written, or it succeeds and the run
fails or dies before that. -/
inductive Outcome where
  | failed
  | lost
  | done
deriving DecidableEq

/-- The steps of `_run_one_apply_flow`. -/
def applyFlow (update : Bool) : List Step :=
  [.detail, .departmentMapping, .dataList, .tableSchemaLookup, .authInfoInsert, .internalGrant, .youdataToken,
    .apiAdd, .importPermissions] ++ if update then [.auditStatusUpdate] else []

variable {α : Type} [DecidableEq α]

/-- A success log. -/
structure StepLog (α : Type) where
  applyFlowId : Option α
  step : Step
  /-- The run of the log is a step test. -/
  byTest : Bool

/-- A step that was executed, with what the run has done for the application before. -/
structure Executed (α : Type) where
  applyFlowId : Option α
  step : Step
  succeeded : Bool
  byTest : Bool
  autoWatch : Bool
  /-- `update_audit_status_after_success` of the run. -/
  update : Bool
  /-- The steps the run has executed for the application since it took it up. -/
  before : List Step
  /-- The permissions of the application had been imported when the run took it up. -/
  again : Bool

/-- The application a run is at. -/
structure Flow (α : Type) where
  applyFlowId : α
  steps : List Step
  position : ℕ := 0
  again : Bool

structure RunRow (α : Type) where
  autoWatch : Bool
  /-- `config_dict`, as the run has read it when it began. -/
  config : Config
  flow : Option (Flow α) := none
  /-- The worker of the run. -/
  alive : Bool := true
  /-- The state of the row is `running`; that of a dead run stays so. -/
  running : Bool := true

structure State (α : Type) where
  config : Config
  runs : List (RunRow α) := []
  logs : List (StepLog α) := []
  /-- The latest first. -/
  executed : List (Executed α) := []

inductive Action (α : Type) where
  | edit (config : Config)
  /-- The scheduler or `create_auto_watch_run`. -/
  | startScan
  /-- `create_full_run`, whose context may ask for `auto_watch`. -/
  | startFull (autoWatch : Bool)
  | take (run : ℕ) (applyFlowId : α)
  | perform (run : ℕ) (outcome : Outcome)
  | finish (run : ℕ)
  | die (run : ℕ)
  /-- `test_step`, with any context. -/
  | test (step : Step) (applyFlowId : Option α) (outcome : Outcome)

/-! ### What has been done -/

/-- `apply_flow_status_updated` and `apply_flow_import_succeeded`. -/
def State.logged (s : State α) (id : α) (step : Step) : Prop :=
  ∃ l ∈ s.logs, l.applyFlowId = some id ∧ l.step = step

instance (s : State α) (id : α) (step : Step) : Decidable (s.logged id step) :=
  inferInstanceAs (Decidable (∃ l ∈ _, _))

/-- The permissions of an application have been imported. -/
def Imported (executed : List (Executed α)) (id : α) : Prop :=
  ∃ e ∈ executed, e.applyFlowId = some id ∧ e.step = .importPermissions ∧ e.succeeded = true

instance (executed : List (Executed α)) (id : α) : Decidable (Imported executed id) :=
  inferInstanceAs (Decidable (∃ e ∈ _, _))

/-- A run that is no step test has imported the permissions of an application after it had read its detail
and its tables, granted them and added the API resource, in this order. -/
def Authorized (executed : List (Executed α)) (id : α) : Prop :=
  ∃ e ∈ executed, e.applyFlowId = some id ∧ e.step = .importPermissions ∧ e.succeeded = true ∧ e.byTest = false ∧
    [.detail, .dataList, .tableSchemaLookup, .internalGrant, .apiAdd].Sublist e.before

instance (executed : List (Executed α)) (id : α) : Decidable (Authorized executed id) :=
  inferInstanceAs (Decidable (∃ e ∈ _, _))

/-! ### The runs -/

/-- What a run does with an application. -/
def State.flow (s : State α) (row : RunRow α) (id : α) : Option (Flow α) :=
  let again := decide (Imported s.executed id)
  if row.autoWatch = true ∧ row.config.autoWatchSkipStatusUpdated = true ∧ s.logged id .auditStatusUpdate then none
  else if row.autoWatch = true ∧ s.logged id .importPermissions then
    some { applyFlowId := id, steps := [.auditStatusUpdate], again := again }
  else some
    { applyFlowId := id, steps := applyFlow row.config.updateAuditStatusAfterSuccess, again := again }

/-- A new run. -/
def State.start (s : State α) (autoWatch : Bool) : State α :=
  { s with runs := s.runs ++ [{ autoWatch := autoWatch, config := s.config }] }

/-- A run after a step: an exception ends the application. -/
def RunRow.next (row : RunRow α) (f : Flow α) (outcome : Outcome) : RunRow α :=
  { row with flow :=
      if outcome = .done ∧ f.position + 1 < f.steps.length then some { f with position := f.position + 1 } else none }

/-- The record of a step of a run. -/
def RunRow.record (row : RunRow α) (f : Flow α) (step : Step) (outcome : Outcome) : Executed α where
  applyFlowId := some f.applyFlowId
  step := step
  succeeded := decide (outcome ≠ .failed)
  byTest := false
  autoWatch := row.autoWatch
  update := row.config.updateAuditStatusAfterSuccess
  before := f.steps.take f.position
  again := f.again

/-- The record of a step test. -/
def testRecord (step : Step) (id : Option α) (outcome : Outcome) : Executed α where
  applyFlowId := id
  step := step
  succeeded := decide (outcome ≠ .failed)
  byTest := true
  autoWatch := false
  update := false
  before := []
  again := false

/-- The success log of a step, where the run comes to write it. -/
def State.log (s : State α) (id : Option α) (step : Step) (byTest : Bool) (outcome : Outcome) : List (StepLog α) :=
  if outcome = .done then ⟨id, step, byTest⟩ :: s.logs else s.logs

/-- `execute_step` of a run for its application. -/
def State.execute (s : State α) (i : ℕ) (row : RunRow α) (f : Flow α) (step : Step) (outcome : Outcome) : State α :=
  { s with
    runs := s.runs.set i (row.next f outcome)
    logs := s.log (some f.applyFlowId) step false outcome
    executed := row.record f step outcome :: s.executed }

/-- `_test_step_sync`. -/
def State.testStep (s : State α) (step : Step) (id : Option α) (outcome : Outcome) : State α :=
  { s with
    logs := s.log id step true outcome
    executed := testRecord step id outcome :: s.executed }

def State.step (s : State α) : Action α → Option (State α)
  | .edit config => some { s with config := config }
  | .startScan => if s.runs.any (·.running) then none else some (s.start true)
  | .startFull autoWatch => some (s.start autoWatch)
  | .take i id => do
      let row ← s.runs[i]?
      if row.alive = true ∧ row.flow = none then some { s with runs := s.runs.set i { row with flow := s.flow row id } }
      else none
  | .perform i outcome => do
      let row ← s.runs[i]?
      let f ← row.flow
      let step ← f.steps[f.position]?
      if row.alive = true then some (s.execute i row f step outcome) else none
  | .finish i => do
      let row ← s.runs[i]?
      if row.alive = true ∧ row.flow = none then
        some { s with runs := s.runs.set i { row with alive := false, running := false } }
      else none
  | .die i => do
      let row ← s.runs[i]?
      if row.alive = true then some { s with runs := s.runs.set i { row with alive := false, flow := none } } else none
  | .test step id outcome => some (s.testStep step id outcome)

/-- A configuration that was not run yet. -/
def State.fresh (config : Config) : State α := { config := config }

end RecoveryService.ApprovalAuthorization
