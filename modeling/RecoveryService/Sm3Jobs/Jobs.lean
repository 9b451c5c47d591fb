import RecoveryService.Lib.Runs

/-! # SM3 jobs, their workers and the requests

`create_sm3_mapping_task`, `run_sm3_task_definition_sync` and `run_sm3_task_snapshot_sync`, which look for
an active job of the table and then insert one; `run_sm3_mapping_job`, which a message of the broker starts;
and `cancel_sm3_mapping_task`, all of `services/doris_sm3_mapping.py`.  Each of them reads in one step
and writes in another; a worker writes the columns in which it changes its copy of the job.  A message may be
delivered again, and a worker may die at any place.  What a job does in Doris is left out. -/

namespace RecoveryService.Sm3Jobs

/-- The `state` of a `DorisSm3Job`. -/
inductive JobState where
  | queued
  | running
  | cancelling
  | succeeded
  | failed
  | cancelled
deriving DecidableEq

/-- `_RUNNING_STATES`. -/
def JobState.isRunning : JobState → Bool
  | queued | running | cancelling => true
  | succeeded | failed | cancelled => false

/-- `_TERMINAL_STATES`. -/
def JobState.isTerminal : JobState → Bool
  | succeeded | failed | cancelled => true
  | queued | running | cancelling => false

/-- A request that creates a job for a table, given by connection, database and name. -/
inductive CreatorPlace (K : Type) where
  | idle
  /-- `_find_running_same_table_job` has found none. -/
  | checked (table : K)
  | inserted (j : ℕ)
  | done
deriving DecidableEq

/-- Where a worker is in `run_sm3_mapping_job`; `seen` is the state in its copy of the job. -/
inductive WorkerPlace where
  | idle
  | read (j : ℕ) (seen : JobState) (cancelRequested : Bool)
  | executing (j : ℕ) (seen : JobState)
  /-- It has seen the cancel request. -/
  | ending (j : ℕ) (seen : JobState)
  /-- Something raised, and no cancel request was seen. -/
  | failing (j : ℕ) (seen : JobState)
  | done
deriving DecidableEq

/-- The job that a worker was called for. -/
def WorkerPlace.job? : WorkerPlace → Option ℕ
  | idle | done => none
  | read j _ _ | executing j _ | ending j _ | failing j _ => some j

/-- The job that a worker has started. -/
def WorkerPlace.started? : WorkerPlace → Option ℕ
  | idle | read _ _ _ | done => none
  | executing j _ | ending j _ | failing j _ => some j

structure System (K : Type) where
  count : ℕ := 0
  table : ℕ → Option K := fun _ => none
  state : ℕ → JobState := fun _ => .queued
  cancelRequested : ℕ → Bool := fun _ => false
  /-- The messages that wait for a worker. -/
  messages : ℕ → ℕ := fun _ => 0
  creators : ℕ → CreatorPlace K := fun _ => .idle
  workers : ℕ → WorkerPlace := fun _ => .idle
  cancels : ℕ → Option (ℕ × JobState) := fun _ => none

variable {K : Type}

namespace System

variable (s : System K)

/-- The commit of a state by a session that has read `seen`. -/
def store (j : ℕ) (seen new : JobState) : System K :=
  if new = seen then s else { s with state := Function.update s.state j new }

def goto (i : ℕ) (place : WorkerPlace) : System K :=
  { s with workers := Function.update s.workers i place }

/-- A job of the table is queued, running or cancelling. -/
def Active (table : K) (j : ℕ) : Prop :=
  j < s.count ∧ s.table j = some table ∧ (s.state j).isRunning = true

end System

/-! ### Creation -/

section create

variable [DecidableEq K] (s : System K) (c : ℕ)

/-- `_find_running_same_table_job`. -/
def findRunningSameTableJob (table : K) : Option ℕ :=
  (List.range s.count).find? fun j => decide (s.table j = some table) && (s.state j).isRunning

def checkCreate (table : K) : Option (System K) :=
  if s.creators c = .idle then
    let place := if (findRunningSameTableJob s table).isSome then .done else .checked table
    some { s with creators := Function.update s.creators c place }
  else none

def insertJob : Option (System K) :=
  match s.creators c with
  | .checked table =>
      some { s with
        count := s.count + 1
        table := Function.update s.table s.count (some table)
        state := Function.update s.state s.count .queued
        cancelRequested := Function.update s.cancelRequested s.count false
        creators := Function.update s.creators c (.inserted s.count) }
  | _ => none

/-- `_enqueue_sm3_worker`; it may raise, with the message sent or not. -/
def enqueueWorker (sent : Bool) : Option (System K) :=
  match s.creators c with
  | .inserted j =>
      some { s with
        messages := if sent = true then Function.update s.messages j (s.messages j + 1) else s.messages
        creators := Function.update s.creators c .done }
  | _ => none

end create

/-! ### The worker -/

section worker

variable (s : System K) (i : ℕ)

/-- The broker delivers a message once more. -/
def redeliver (j : ℕ) : Option (System K) :=
  if j < s.count then some { s with messages := Function.update s.messages j (s.messages j + 1) } else none

/-- A worker takes a message and reads the job. -/
def deliver (j : ℕ) : Option (System K) :=
  if s.workers i = .idle ∧ 0 < s.messages j ∧ j < s.count then
    some { s.goto i (.read j (s.state j) (s.cancelRequested j)) with
      messages := Function.update s.messages j (s.messages j - 1) }
  else none

/-- The copy has the cancel request. -/
def refuse : Option (System K) :=
  match s.workers i with
  | .read j seen true => some ((s.store j seen .cancelled).goto i .done)
  | _ => none

/-- There is no connection profile. -/
def missProfile : Option (System K) :=
  match s.workers i with
  | .read j seen false => some ((s.store j seen .failed).goto i .done)
  | _ => none

/-- `_start_job`. -/
def startJob : Option (System K) :=
  match s.workers i with
  | .read j seen false => some ((s.store j seen .running).goto i (.executing j .running))
  | _ => none

/-- What the refresh of a running job shows. -/
def cancelSeen (j : ℕ) : Bool := s.cancelRequested j || s.state j = .cancelling

/-- `_check_cancel`. -/
def checkCancel : Option (System K) :=
  match s.workers i with
  | .executing j _ =>
      if cancelSeen s j = true then some (s.goto i (.ending j (s.state j)))
      else some (s.goto i (.executing j (s.state j)))
  | _ => none

/-- Something raises, and the handler refreshes the job. -/
def raises : Option (System K) :=
  match s.workers i with
  | .executing j _ =>
      if cancelSeen s j = true then some (s.goto i (.ending j (s.state j)))
      else some (s.goto i (.failing j (s.state j)))
  | _ => none

/-- `_finish_job`, by the way the run ends. -/
def finishJob (succeeds : Bool) : Option (System K) :=
  match s.workers i with
  | .executing j seen => if succeeds = true then some ((s.store j seen .succeeded).goto i .done) else none
  | .failing j seen => if succeeds = true then none else some ((s.store j seen .failed).goto i .done)
  | .ending j seen => if succeeds = true then none else some ((s.store j seen .cancelled).goto i .done)
  | _ => none

/-- A worker dies; its message may come again. -/
def loseWorker (requeued : Bool) : Option (System K) :=
  match (s.workers i).job? with
  | some j =>
      some { s.goto i .done with
        messages := if requeued = true then Function.update s.messages j (s.messages j + 1) else s.messages }
  | none => none

end worker

/-! ### Cancellation -/

section cancel

variable (s : System K) (c : ℕ)

/-- `cancel_sm3_mapping_task` reads a job that is not terminal. -/
def readCancel (j : ℕ) : Option (System K) :=
  if s.cancels c = none ∧ j < s.count ∧ (s.state j).isTerminal = false then
    some { s with cancels := Function.update s.cancels c (some (j, s.state j)) }
  else none

def commitCancel : Option (System K) :=
  match s.cancels c with
  | some (j, seen) =>
      some { s.store j seen (if seen = .queued then .cancelled else .cancelling) with
        cancelRequested := Function.update s.cancelRequested j true
        cancels := Function.update s.cancels c none }
  | none => none

end cancel

/-! ### The system -/

inductive Action (K : Type) where
  | checkCreate (c : ℕ) (table : K)
  | insertJob (c : ℕ)
  | enqueueWorker (c : ℕ) (sent : Bool)
  | redeliver (j : ℕ)
  | deliver (i j : ℕ)
  | refuse (i : ℕ)
  | missProfile (i : ℕ)
  | startJob (i : ℕ)
  | checkCancel (i : ℕ)
  | raises (i : ℕ)
  | finishJob (i : ℕ) (succeeds : Bool)
  | loseWorker (i : ℕ) (requeued : Bool)
  | readCancel (c j : ℕ)
  | commitCancel (c : ℕ)

def step [DecidableEq K] (s : System K) : Action K → Option (System K)
  | .checkCreate c table => checkCreate s c table
  | .insertJob c => insertJob s c
  | .enqueueWorker c sent => enqueueWorker s c sent
  | .redeliver j => redeliver s j
  | .deliver i j => deliver s i j
  | .refuse i => refuse s i
  | .missProfile i => missProfile s i
  | .startJob i => startJob s i
  | .checkCancel i => checkCancel s i
  | .raises i => raises s i
  | .finishJob i succeeds => finishJob s i succeeds
  | .loseWorker i requeued => loseWorker s i requeued
  | .readCancel c j => readCancel s c j
  | .commitCancel c => commitCancel s c

end RecoveryService.Sm3Jobs
