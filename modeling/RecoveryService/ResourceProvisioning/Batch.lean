import RecoveryService.Lib.Runs

/-! # A provisioning batch and its executions

`run_batch`, `_run_row`, `_execute_step`, `_mark_row_failed` and `prepare_retry` of
`services/resource_provisioning.py` on one batch.  Every session is a transaction of its own: an execution
lists the pending rows, its threads read a row before they claim it, and ask for the log of a step before they
perform it.  A message may be delivered again, executions overlap, and a worker may die at any place.  A step
log is here from its end on; one that is left `"running"` is not asked for. -/

namespace RecoveryService.ResourceProvisioning

/-- `ResourceProvisioningBatch.state`. -/
inductive BatchState where
  | pending
  | running
  | succeeded
  | failed
  /-- `"partial"`. -/
  | partly
deriving DecidableEq

/-- `ResourceProvisioningRow.state`. -/
inductive RowState where
  | pending
  | running
  | succeeded
  | failed
  | conflict
deriving DecidableEq

/-- `row.state in {"failed", "conflict"}`. -/
def RowState.isFailed : RowState → Bool
  | failed | conflict => true
  | pending | running | succeeded => false

inductive Step where
  | validate
  | createUser
  | createDatabase
  | grantDatabase
  | registerConnection
  | complete
deriving DecidableEq

/-- `_STEPS`. -/
def steps : List Step :=
  [.validate, .createUser, .createDatabase, .grantDatabase, .registerConnection, .complete]

/-- The steps that act on Doris or on the external interface. -/
def Step.isExternal : Step → Bool
  | createUser | createDatabase | grantDatabase | registerConnection => true
  | validate | complete => false

/-- `ResourceProvisioningStepLog.state` at the end of a step. -/
inductive LogState where
  | succeeded
  | skipped
  | failed
deriving DecidableEq

/-- `state in ("succeeded", "skipped")`. -/
def LogState.isDone : LogState → Bool
  | succeeded | skipped => true
  | failed => false

/-- Where an execution is in `run_batch`. -/
inductive ExecutionPlace where
  | idle
  /-- The batch is running, and the pending rows are listed next. -/
  | begun
  | processing
  /-- The states are counted; `seen` is its copy of the batch. -/
  | counting (seen result : BatchState)
  | ended
deriving DecidableEq

/-- Where the thread of an execution is with a row, in `_run_row`; `rest` are the steps to go. -/
inductive ThreadPlace where
  | away
  | listed
  /-- It has read the row as pending. -/
  | seen
  | checking (rest : List Step)
  | performing (step : Step) (rest : List Step)
  | logging (step : Step) (rest : List Step) (state : LogState)
  /-- An exception was raised, and `_mark_row_failed` is next. -/
  | failing
  | ended
deriving DecidableEq

/-- The thread has claimed the row. -/
def ThreadPlace.holds : ThreadPlace → Bool
  | checking _ | performing _ _ | logging _ _ _ | failing => true
  | away | listed | seen | ended => false

/-- The thread has the row still to claim. -/
def ThreadPlace.waits : ThreadPlace → Bool
  | listed | seen => true
  | away | checking _ | performing _ _ | logging _ _ _ | failing | ended => false

/-- A step that was performed for a row, and whether its log said before that it was done. -/
structure Performed (n : ℕ) where
  row : Fin n
  step : Step
  again : Bool

/-- The copy of `prepare_retry`. -/
structure Retry (n : ℕ) where
  seen : BatchState
  retryRows : List (Fin n)

/-- A batch of `n` rows; behind `create_batch` its message is sent. -/
structure System (n : ℕ) where
  batch : BatchState := .pending
  rows : Fin n → RowState := fun _ => .pending
  logs : Fin n → Step → List LogState := fun _ _ => []
  messages : ℕ := 1
  executions : ℕ → ExecutionPlace := fun _ => .idle
  threads : ℕ → Fin n → ThreadPlace := fun _ _ => .away
  retries : ℕ → Option (Retry n) := fun _ => none
  performed : List (Performed n) := []

variable {n : ℕ}

namespace System

variable (s : System n)

/-- `_step_already_done`. -/
def Logged (r : Fin n) (step : Step) : Prop := ∃ state ∈ s.logs r step, state.isDone = true

instance (r : Fin n) (step : Step) : Decidable (s.Logged r step) :=
  inferInstanceAs (Decidable (∃ state ∈ s.logs r step, state.isDone = true))

/-- The commit of the copy of a batch. -/
def commitBatch (seen new : BatchState) : System n :=
  { s with batch := if new = seen then s.batch else new }

def enter (w : ℕ) (place : ExecutionPlace) : System n :=
  { s with executions := Function.update s.executions w place }

def goto (w : ℕ) (r : Fin n) (place : ThreadPlace) : System n :=
  { s with threads := Function.update s.threads w (Function.update (s.threads w) r place) }

def setRow (r : Fin n) (state : RowState) : System n :=
  { s with rows := Function.update s.rows r state }

end System

/-! ### `run_batch` -/

section execution

variable (s : System n) (w : ℕ)

/-- The message is taken, and the batch is set running. -/
def begin : Option (System n) :=
  if s.executions w = .idle ∧ 0 < s.messages then
    some { s.enter w .begun with batch := .running, messages := s.messages - 1 }
  else none

/-- `row_ids`, each with a thread. -/
def listRows : Option (System n) :=
  if s.executions w = .begun then
    some { s.enter w .processing with
      threads := Function.update s.threads w fun r => if s.rows r = .pending then .listed else .away }
  else none

/-- The counters, and the state that is made of them. -/
def countedState (rows : Fin n → RowState) : BatchState :=
  let successCount := (List.finRange n).countP fun r => decide (rows r = .succeeded)
  let failedCount := (List.finRange n).countP fun r => (rows r).isFailed
  if failedCount = 0 then .succeeded else if successCount = 0 then .failed else .partly

/-- All threads are over, and the rows are read again. -/
def countRows : Option (System n) :=
  if s.executions w = .processing ∧ ∀ r, s.threads w r = .away ∨ s.threads w r = .ended then
    some (s.enter w (.counting s.batch (countedState s.rows)))
  else none

def finish : Option (System n) :=
  match s.executions w with
  | .counting seen result => some ((s.commitBatch seen result).enter w .ended)
  | _ => none

/-- The worker dies or the execution raises; its message may come again. -/
def die (requeued : Bool) : Option (System n) :=
  if s.executions w ≠ .idle then
    some { s.enter w .ended with
      threads := Function.update s.threads w fun _ => .away
      messages := if requeued = true then s.messages + 1 else s.messages }
  else none

end execution

/-! ### `_run_row` -/

section thread

variable (s : System n) (w : ℕ) (r : Fin n)

def readRow : Option (System n) :=
  if s.threads w r = .listed then some (s.goto w r (if s.rows r = .pending then .seen else .ended)) else none

def claimRow : Option (System n) :=
  if s.threads w r = .seen then some ((s.setRow r .running).goto w r (.checking steps)) else none

/-- The thread raises before it has claimed the row, and `run_batch` marks the row. -/
def crash : Option (System n) :=
  if (s.threads w r).waits = true then some ((s.setRow r .failed).goto w r .ended) else none

/-- A step that is done is passed over; the row behind the last one has succeeded. -/
def checkStep : Option (System n) :=
  match s.threads w r with
  | .checking [] => some ((s.setRow r .succeeded).goto w r .ended)
  | .checking (step :: rest) =>
      if s.Logged r step then some (s.goto w r (.checking rest)) else some (s.goto w r (.performing step rest))
  | _ => none

/-- `_perform_step`. -/
def performStep (state : LogState) : Option (System n) :=
  match s.threads w r with
  | .performing step rest =>
      some { s.goto w r (.logging step rest state) with
        performed := s.performed ++ [⟨r, step, decide (s.Logged r step)⟩] }
  | _ => none

/-- The log of a step; behind a failed one the exception goes on. -/
def logStep : Option (System n) :=
  match s.threads w r with
  | .logging step rest state =>
      some { s.goto w r (if state = .failed then .failing else .checking rest) with
        logs := Function.update s.logs r (Function.update (s.logs r) step (s.logs r step ++ [state])) }
  | _ => none

/-- Something raises behind the claim. -/
def raise : Option (System n) :=
  if (s.threads w r).holds = true then some (s.goto w r .failing) else none

def markRowFailed : Option (System n) :=
  if s.threads w r = .failing then some ((s.setRow r .failed).goto w r .ended) else none

end thread

/-! ### `prepare_retry` -/

section retry

variable (s : System n) (c : ℕ)

def retryRows (rows : Fin n → RowState) : List (Fin n) := (List.finRange n).filter fun r => (rows r).isFailed

/-- The rows are read; without a failed one the request is refused. -/
def readRetry : Option (System n) :=
  if s.retries c = none ∧ retryRows s.rows ≠ [] then
    some { s with retries := Function.update s.retries c (some ⟨s.batch, retryRows s.rows⟩) }
  else none

/-- The rows are committed, and a message is sent. -/
def commitRetry : Option (System n) :=
  match s.retries c with
  | some ⟨seen, retryRows⟩ =>
      some { s.commitBatch seen .pending with
        rows := fun r => if r ∈ retryRows then .pending else s.rows r
        retries := Function.update s.retries c none
        messages := s.messages + 1 }
  | none => none

end retry

/-! ### The system -/

inductive Action (n : ℕ) where
  | redeliver
  | begin (w : ℕ)
  | listRows (w : ℕ)
  | countRows (w : ℕ)
  | finish (w : ℕ)
  | die (w : ℕ) (requeued : Bool)
  | readRow (w : ℕ) (r : Fin n)
  | claimRow (w : ℕ) (r : Fin n)
  | crash (w : ℕ) (r : Fin n)
  | checkStep (w : ℕ) (r : Fin n)
  | performStep (w : ℕ) (r : Fin n) (state : LogState)
  | logStep (w : ℕ) (r : Fin n)
  | raise (w : ℕ) (r : Fin n)
  | markRowFailed (w : ℕ) (r : Fin n)
  | readRetry (c : ℕ)
  | commitRetry (c : ℕ)

def step (s : System n) : Action n → Option (System n)
  | .redeliver => some { s with messages := s.messages + 1 }
  | .begin w => begin s w
  | .listRows w => listRows s w
  | .countRows w => countRows s w
  | .finish w => finish s w
  | .die w requeued => die s w requeued
  | .readRow w r => readRow s w r
  | .claimRow w r => claimRow s w r
  | .crash w r => crash s w r
  | .checkStep w r => checkStep s w r
  | .performStep w r state => performStep s w r state
  | .logStep w r => logStep s w r
  | .raise w r => raise s w r
  | .markRowFailed w r => markRowFailed s w r
  | .readRetry c => readRetry s c
  | .commitRetry c => commitRetry s c

end RecoveryService.ResourceProvisioning
