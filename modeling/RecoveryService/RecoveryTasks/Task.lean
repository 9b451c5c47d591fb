import RecoveryService.Lib.Runs

/-! # A recovery task, its messages, its workers and the requests on it

One `RecoveryTask` with `run_recovery_task` of `workers/tasks/run_recovery.py`, and `cancel_task`,
`stop_oracle_import_task` and `retry_task` of `api/v1/tasks.py`.  A session that has read the row writes the
columns in which it changes its copy; only the claim of a worker is one conditional update.  A message
carries the `volume_group_index`; it may be delivered again, and a worker may die at any place. -/

namespace RecoveryService.RecoveryTasks

/-- The values that are written to `RecoveryTask.state`. -/
inductive TaskState where
  | created
  | policyRunning
  | stopping
  | succeeded
  | succeededWithWarnings
  | failed
  | cancelled
deriving DecidableEq

/-- The states that `cancel_task` and `stop_oracle_import_task` leave alone, `retryable_states`. -/
def TaskState.isTerminal : TaskState → Bool
  | succeeded | succeededWithWarnings | failed | cancelled => true
  | created | policyRunning | stopping => false

/-- The columns of a `RecoveryTask` that its workers and the requests look at. -/
structure Row where
  state : TaskState := .created
  stopRequested : Bool := false
  /-- `oracle_run_dir`, `oracle_job_name` and `oracle_container` are set. -/
  runtime : Bool := false
deriving DecidableEq

/-- The row behind the commit of a session that has read `seen` and made `new` of it. -/
def Row.commit (row seen new : Row) : Row :=
  { state := if new.state = seen.state then row.state else new.state
    stopRequested := if new.stopRequested = seen.stopRequested then row.stopRequested else new.stopRequested
    runtime := if new.runtime = seen.runtime then row.runtime else new.runtime }

/-- Nobody has written since the session has read. -/
@[simp] theorem Row.commit_self (row new : Row) : row.commit row new = new := by
  cases row
  cases new
  simp only [Row.commit, Row.mk.injEq, ite_eq_right_iff]
  exact ⟨fun h => h.symm, fun h => h.symm, fun h => h.symm⟩

/-- How the pipeline of a worker ends: with `result["state"]`, or by an exception. -/
inductive Outcome where
  | returned (state : TaskState)
  | raised
deriving DecidableEq

/-- The state that the last commit of a worker writes, by its refreshed copy. -/
def finalState (stopRequested : Bool) : Outcome → TaskState
  | .returned state => if stopRequested = true ∨ state = .cancelled then .cancelled else state
  | .raised => if stopRequested = true then .cancelled else .failed

/-- Where a worker is in `run_recovery_task`. -/
inductive WorkerPlace where
  | idle
  /-- It has the message and has not tried the claim. -/
  | taken (index : ℤ)
  /-- It has claimed the task, and its pipeline runs. -/
  | executing (index : ℤ)
  /-- The pipeline is over and the copy refreshed. -/
  | ending (seen : Row) (outcome : Outcome)
  | done
deriving DecidableEq

/-- The worker has claimed the task. -/
def WorkerPlace.isStarted : WorkerPlace → Bool
  | executing _ | ending _ _ => true
  | idle | taken _ | done => false

/-- Where a request is; `seen` is its copy of the row. -/
inductive RequestPlace where
  | idle
  | cancelling (seen : Row)
  | stopping (seen : Row)
  | retrying (seen : Row)
  /-- The row is committed, and `_enqueue_recovery_task` is next. -/
  | sending (index : ℤ)
deriving DecidableEq

structure System where
  row : Row := {}
  /-- `options["embedded_oracle"]`. -/
  embedded : Bool
  /-- The messages that wait for a worker, and all that were sent. -/
  messages : List ℤ := []
  sent : List ℤ := []
  workers : ℕ → WorkerPlace := fun _ => .idle
  requests : ℕ → RequestPlace := fun _ => .idle
  /-- The indices that the pipeline was run with. -/
  executions : List ℤ := []
  /-- The state a worker has ended the task with, since the last retry. -/
  ended : Option TaskState := none
  /-- A cancel request was accepted since the last retry. -/
  cancelAccepted : Bool := false
  /-- A stop request was accepted since the last retry, before the end. -/
  stopAccepted : Bool := false

/-- A task has been created with an index, and its message is to be sent. -/
def created (embedded : Bool) (index : ℤ) : System :=
  { embedded, requests := fun c => if c = 0 then .sending index else .idle }

namespace System

variable (s : System)

def goto (i : ℕ) (place : WorkerPlace) : System :=
  { s with workers := Function.update s.workers i place }

def moveTo (c : ℕ) (place : RequestPlace) : System :=
  { s with requests := Function.update s.requests c place }

end System

/-! ### Messages -/

section messages

variable (s : System)

/-- `_enqueue_recovery_task`; it may raise. -/
def enqueue (c : ℕ) (succeeds : Bool) : Option System :=
  match s.requests c with
  | .sending index =>
      if succeeds = true then
        some { s.moveTo c .idle with messages := index :: s.messages, sent := index :: s.sent }
      else some (s.moveTo c .idle)
  | _ => none

/-- The broker delivers a message once more. -/
def redeliver (index : ℤ) : Option System :=
  if index ∈ s.sent then some { s with messages := index :: s.messages } else none

def deliver (i : ℕ) (index : ℤ) : Option System :=
  if s.workers i = .idle ∧ index ∈ s.messages then
    some { s.goto i (.taken index) with messages := s.messages.erase index }
  else none

end messages

/-! ### The worker -/

section worker

variable (s : System) (i : ℕ)

/-- The conditional update; a worker that has not claimed the task ignores its message. -/
def claim : Option System :=
  match s.workers i with
  | .taken index =>
      if s.row.state = .created then
        some { s.goto i (.executing index) with
          row := { s.row with state := .policyRunning }
          executions := s.executions ++ [index] }
      else some (s.goto i .done)
  | _ => none

/-- `update_oracle_runtime_control`. -/
def registerRuntime : Option System :=
  match s.workers i with
  | .executing _ => some { s with row := { s.row with runtime := true } }
  | _ => none

/-- The pipeline returns or something raises, and the copy is refreshed.  What a pipeline returns
is a terminal state. -/
def refresh (outcome : Outcome) : Option System :=
  match s.workers i, outcome with
  | .executing _, .returned state =>
      if state.isTerminal = true then some (s.goto i (.ending s.row outcome)) else none
  | .executing _, .raised => some (s.goto i (.ending s.row outcome))
  | .ending _ _, .raised => some (s.goto i (.ending s.row outcome))
  | _, _ => none

def finish : Option System :=
  match s.workers i with
  | .ending seen outcome =>
      some { s.goto i .done with
        row := s.row.commit seen { seen with state := finalState seen.stopRequested outcome }
        ended := some (finalState seen.stopRequested outcome) }
  | _ => none

/-- A worker dies; the message it holds may come again. -/
def loseWorker (requeued : Option ℤ) : Option System :=
  if s.workers i ≠ .idle ∧ ∀ index ∈ requeued, index ∈ s.sent then
    some { s.goto i .done with messages := requeued.toList ++ s.messages }
  else none

end worker

/-! ### The requests -/

section requests

variable (s : System) (c : ℕ)

/-- `cancel_task` goes on with a created task. -/
def readCancel : Option System :=
  if s.requests c = .idle ∧ s.row.state = .created then some (s.moveTo c (.cancelling s.row)) else none

/-- `stop_oracle_import_task` cancels a created task and stops a running one that it can control. -/
def readStop : Option System :=
  if s.requests c = .idle ∧ s.row.state.isTerminal = false then
    if s.row.state = .created then some (s.moveTo c (.cancelling s.row))
    else if s.embedded = true ∧ s.row.runtime = true then some (s.moveTo c (.stopping s.row))
    else none
  else none

def readRetry : Option System :=
  if s.requests c = .idle ∧ s.row.state.isTerminal = true then some (s.moveTo c (.retrying s.row)) else none

/-- The commit of a request, by what it has read. -/
def commitRequest : Option System :=
  match s.requests c with
  | .cancelling seen =>
      some { s.moveTo c .idle with
        row := s.row.commit seen { seen with state := .cancelled }
        cancelAccepted := true }
  | .stopping seen =>
      some { s.moveTo c .idle with
        row := s.row.commit seen { seen with state := .stopping, stopRequested := true }
        stopAccepted := s.stopAccepted || s.ended.isNone }
  | .retrying seen =>
      -- `_enqueue_recovery_task(task.id)` leaves `volume_group_index` at its default
      some { s.moveTo c (.sending 0) with
        row := s.row.commit seen {}
        ended := none
        cancelAccepted := false
        stopAccepted := false }
  | _ => none

end requests

/-! ### The system -/

inductive Action where
  | enqueue (c : ℕ) (succeeds : Bool)
  | redeliver (index : ℤ)
  | deliver (i : ℕ) (index : ℤ)
  | claim (i : ℕ)
  | registerRuntime (i : ℕ)
  | refresh (i : ℕ) (outcome : Outcome)
  | finish (i : ℕ)
  | loseWorker (i : ℕ) (requeued : Option ℤ)
  | readCancel (c : ℕ)
  | readStop (c : ℕ)
  | readRetry (c : ℕ)
  | commitRequest (c : ℕ)

def step (s : System) : Action → Option System
  | .enqueue c succeeds => enqueue s c succeeds
  | .redeliver index => redeliver s index
  | .deliver i index => deliver s i index
  | .claim i => claim s i
  | .registerRuntime i => registerRuntime s i
  | .refresh i outcome => refresh s i outcome
  | .finish i => finish s i
  | .loseWorker i requeued => loseWorker s i requeued
  | .readCancel c => readCancel s c
  | .readStop c => readStop s c
  | .readRetry c => readRetry s c
  | .commitRequest c => commitRequest s c

end RecoveryService.RecoveryTasks
