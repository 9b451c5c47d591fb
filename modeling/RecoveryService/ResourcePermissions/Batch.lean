import RecoveryService.Lib.Runs

/-! # A batch of resource permissions

One batch with its rows and step logs, any number of executions of `run_permission_batch` on it (a
task is delivered again when its worker dies), and any number of retry requests.  An execution runs its
rows in threads; the threads of one execution may be anywhere, so any parallelism is covered.  What a
transaction reads and what it stores are two steps, except where the row is locked (`FOR UPDATE`) or
where what is stored does not depend on what was read. -/

namespace RecoveryService.ResourcePermissions

inductive BatchState where
  | pending
  | running
  | succeeded
  | failed
  | partial_
deriving DecidableEq

structure Batch where
  state : BatchState := .pending
  successCount : ℕ := 0
  failedCount : ℕ := 0

inductive RowState where
  | pending
  | running
  | succeeded
  | failed
  | conflict
deriving DecidableEq

/-- `row.state in {"failed", "conflict"}`. -/
def RowState.isFailed : RowState → Bool
  | .failed | .conflict => true
  | _ => false

inductive Step where
  | validate
  | lookupResource
  | importPermissions
  | complete
deriving DecidableEq

/-- `_STEPS`. -/
def steps : List Step := [.validate, .lookupResource, .importPermissions, .complete]

inductive LogState where
  | running
  | succeeded
  | skipped
  | failed
  | conflict
deriving DecidableEq

/-- `ResourcePermissionStepLog`. -/
structure StepLog where
  id : ℕ
  row : ℕ
  step : Step
  attempt : ℕ
  state : LogState

/-- The log says that the step of the row is done. -/
def StepLog.isDone (log : StepLog) (row : ℕ) (step : Step) : Bool :=
  log.row == row && log.step == step && (log.state == .succeeded || log.state == .skipped)

/-- A column behind a write of `new` by a transaction that has read `seen`. -/
def column {α : Type} [DecidableEq α] (stored seen new : α) : α := if new = seen then stored else new

def Batch.store (stored seen new : Batch) : Batch where
  state := column stored.state seen.state new.state
  successCount := column stored.successCount seen.successCount new.successCount
  failedCount := column stored.failedCount seen.failedCount new.failedCount

/-! ### The parties -/

/-- Where an execution is in `run_permission_batch`. -/
inductive ExecutionPlace where
  | idle
  | opened (seen : Batch)
  | begun
  | running
  | counted (seen new : Batch)
  | done

/-- Where a thread is in `_run_permission_row`; `left` has the steps that follow. -/
inductive ThreadPlace where
  | ended
  | submitted
  | checking (left : List Step)
  | opening (step : Step) (left : List Step)
  | performing (step : Step) (left : List Step) (log : ℕ)
  | logging (step : Step) (left : List Step) (log : ℕ) (outcome : LogState)
  | failing (state : RowState)
deriving DecidableEq

/-- `imports` has the calls of the import interface: the row, and whether a successful or a skipped
call for the row was logged before. -/
structure System where
  batch : Batch := {}
  rows : ℕ → RowState := fun _ => .pending
  logs : List StepLog := []
  nextLog : ℕ := 0
  executions : ℕ → ExecutionPlace := fun _ => .idle
  threads : ℕ → ℕ → ThreadPlace := fun _ _ => .ended
  retries : ℕ → Option (Batch × List ℕ) := fun _ => none
  imports : List (ℕ × Bool) := []

inductive Action where
  | open_ (e : ℕ)
  | begin_ (e : ℕ)
  | list (e : ℕ)
  | claim (e r : ℕ)
  | threadError (e r : ℕ)
  | check (e r : ℕ)
  | openLog (e r : ℕ)
  | perform (e r : ℕ) (called : Bool) (outcome : LogState)
  | closeLog (e r : ℕ)
  | raise (e r : ℕ)
  | succeed (e r : ℕ)
  | fail (e r : ℕ)
  | count (e : ℕ)
  | summarize (e : ℕ)
  | die (e : ℕ)
  | openRetry (t : ℕ)
  | retry (t : ℕ)

namespace System

variable (s : System)

def setRow (r : ℕ) (state : RowState) : System := { s with rows := Function.update s.rows r state }

def goto (e : ℕ) (place : ExecutionPlace) : System :=
  { s with executions := Function.update s.executions e place }

def setThread (e r : ℕ) (place : ThreadPlace) : System :=
  { s with threads := Function.update s.threads e (Function.update (s.threads e) r place) }

/-- `_permission_step_already_done`. -/
def stepAlreadyDone (r : ℕ) (step : Step) : Bool := s.logs.any fun log => log.isDone r step

/-- The last attempt of a step of a row. -/
def lastAttempt (r : ℕ) (step : Step) : ℕ :=
  ((s.logs.filter fun log => log.row == r && log.step == step).map StepLog.attempt).foldl max 0

end System

/-! ### `_run_permission_row` -/

section

variable (s : System) (e r : ℕ)

/-- The row is locked, and it is run when it is pending. -/
def claim : Option System :=
  match s.threads e r with
  | .submitted =>
      if s.rows r = .pending then some ((s.setRow r .running).setThread e r (.checking steps))
      else some (s.setThread e r .ended)
  | _ => none

/-- The thread raises before it has the row, and the execution marks the row: `工作线程异常`. -/
def threadError : Option System :=
  match s.threads e r with
  | .submitted => some ((s.setRow r .failed).setThread e r .ended)
  | _ => none

def check : Option System :=
  match s.threads e r with
  | .checking (step :: left) =>
      if s.stepAlreadyDone r step then some (s.setThread e r (.checking left))
      else some (s.setThread e r (.opening step left))
  | _ => none

/-- `_execute_permission_step` adds its log. -/
def openLog : Option System :=
  match s.threads e r with
  | .opening step left =>
      let log : StepLog := { id := s.nextLog, row := r, step := step
                             attempt := s.lastAttempt r step + 1, state := .running }
      some { s.setThread e r (.performing step left s.nextLog) with
        logs := s.logs ++ [log]
        nextLog := s.nextLog + 1 }
  | _ => none

/-- `_perform_permission_step`: what the step does decides `outcome`; `called` says that the import
interface was called. -/
def perform (called : Bool) (outcome : LogState) : Option System :=
  match s.threads e r with
  | .performing step left log =>
      some { s.setThread e r (.logging step left log outcome) with
        imports := if step = .importPermissions ∧ called = true then
            (r, s.stepAlreadyDone r .importPermissions) :: s.imports
          else s.imports }
  | _ => none

/-- The state of the row behind a step that raised. -/
def failureState : LogState → RowState
  | .conflict => .conflict
  | _ => .failed

/-- The log gets its state; a step that raised ends the row. -/
def closeLog : Option System :=
  match s.threads e r with
  | .logging _ left log outcome =>
      some { s.setThread e r
          (if outcome = .succeeded ∨ outcome = .skipped then .checking left
            else .failing (failureState outcome)) with
        logs := s.logs.map fun l => if l.id = log then { l with state := outcome } else l }
  | _ => none

/-- A transaction of the thread raises. -/
def raiseError : Option System :=
  match s.threads e r with
  | .checking _ | .opening _ _ | .performing _ _ _ | .logging _ _ _ _ =>
      some (s.setThread e r (.failing .failed))
  | _ => none

def succeed : Option System :=
  match s.threads e r with
  | .checking [] => some ((s.setRow r .succeeded).setThread e r .ended)
  | _ => none

/-- `_mark_permission_row_failed`. -/
def fail : Option System :=
  match s.threads e r with
  | .failing state => some ((s.setRow r state).setThread e r .ended)
  | _ => none

end

/-! ### `run_permission_batch` -/

section

variable (n : ℕ) (s : System) (e : ℕ)

/-- The batch is read. -/
def openBatch : Option System :=
  match s.executions e with
  | .idle => some (s.goto e (.opened s.batch))
  | _ => none

def beginBatch : Option System :=
  match s.executions e with
  | .opened seen =>
      some { s.goto e .begun with batch := s.batch.store seen { seen with state := .running } }
  | _ => none

/-- The pending rows are submitted; the batch has `n` rows. -/
def listRows : Option System :=
  match s.executions e with
  | .begun =>
      some { s.goto e .running with
        threads := Function.update s.threads e fun r =>
          if r < n ∧ s.rows r = .pending then .submitted else .ended }
  | _ => none

/-- `sum(1 for row in rows if ...)`. -/
def countRows (p : RowState → Bool) : ℕ := (List.range n).countP fun r => p (s.rows r)

/-- The summary of the rows. -/
def summary (seen : Batch) : Batch :=
  let successCount := countRows n s fun state => state == .succeeded
  let failedCount := countRows n s RowState.isFailed
  { seen with
    successCount := successCount
    failedCount := failedCount
    state := if failedCount = 0 then .succeeded
      else if successCount = 0 then .failed else .partial_ }

/-- All threads have ended, and the rows are counted. -/
def count : Option System :=
  match s.executions e with
  | .running =>
      if ∀ r < n, s.threads e r = .ended then some (s.goto e (.counted s.batch (summary n s s.batch)))
      else none
  | _ => none

def summarize : Option System :=
  match s.executions e with
  | .counted seen new => some { s.goto e .done with batch := s.batch.store seen new }
  | _ => none

/-- The worker of the execution dies, with its threads. -/
def die : Option System :=
  some { s.goto e .done with threads := Function.update s.threads e fun _ => .ended }

end

/-! ### `prepare_permission_retry` -/

/-- The batch and its failed rows are read. -/
def openRetry (n : ℕ) (s : System) (t : ℕ) : Option System :=
  let rows := (List.range n).filter fun r => (s.rows r).isFailed
  if rows = [] then none
  else some { s with retries := Function.update s.retries t (some (s.batch, rows)) }

def retry (s : System) (t : ℕ) : Option System :=
  match s.retries t with
  | some (seen, rows) =>
      some { s with
        rows := fun r => if r ∈ rows then .pending else s.rows r
        batch := s.batch.store seen { seen with state := .pending, failedCount := 0 }
        retries := Function.update s.retries t none }
  | none => none

def step (n : ℕ) (s : System) : Action → Option System
  | .open_ e => openBatch s e
  | .begin_ e => beginBatch s e
  | .list e => listRows n s e
  | .claim e r => claim s e r
  | .threadError e r => threadError s e r
  | .check e r => check s e r
  | .openLog e r => openLog s e r
  | .perform e r called outcome => perform s e r called outcome
  | .closeLog e r => closeLog s e r
  | .raise e r => raiseError s e r
  | .succeed e r => succeed s e r
  | .fail e r => fail s e r
  | .count e => count n s e
  | .summarize e => summarize s e
  | .die e => die s e
  | .openRetry t => openRetry n s t
  | .retry t => retry s t

end RecoveryService.ResourcePermissions
