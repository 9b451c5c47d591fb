import RecoveryService.Lib.Runs

/-! # The jobs of the SM4 batches

The table `doris_sm4_batch_jobs` under the dispatcher, the workers, the stop requests and the recovery
at start-up of `services/doris_encryption.py`.  Jobs are numbered in the order of their creation.  Every
transaction reads the states it decides on in one step and writes in another, but for the two `UPDATE`s
that name the state they expect (`consider`, `deliver`); a write is left out where it would not change
what was read.  What the functions do to the other columns is left out, and so are the texts.

A message stays with the broker: it may be delivered again.  Which reserved jobs are ten minutes old
is the choice of the action that opens a pass, and what happens to a table that of the worker. -/

namespace RecoveryService.Sm4Batch

inductive JobState where
  | queued
  | reserved
  | running
  | stopping
  | succeeded
  | failed
  | partially
  | stopped
  | cancelled
deriving DecidableEq

namespace JobState

def isTerminal : JobState → Bool
  | succeeded | failed | partially | stopped | cancelled => true
  | queued | reserved | running | stopping => false

/-- The states that the dispatcher counts. -/
def isActive : JobState → Bool
  | reserved | running | stopping => true
  | _ => false

/-- The states in which a worker leaves its loop. -/
def isStop : JobState → Bool
  | stopping | cancelled | stopped => true
  | _ => false

end JobState

open JobState

/-- The columns of `DorisSm4BatchJob` that no transaction changes.  `_normalize_batch_tables` drops the
tables without a name; the two times of the execution window are minutes of the day. -/
structure Job where
  connection : String
  database : String
  tables : List String
  executionWindow : Option (ℕ × ℕ)
  named : "" ∉ tables

/-- `settings.sm4_worker_concurrency`, `sm4_connection_concurrency`, `sm4_database_concurrency` and
`sm4_recover_active_jobs_on_startup`. -/
structure Settings where
  workerConcurrency : ℕ
  connectionConcurrency : ℕ
  databaseConcurrency : ℕ
  recoverActiveJobsOnStartup : Bool := true

namespace Settings

variable (settings : Settings)

def maxGlobal : ℕ := max 1 settings.workerConcurrency

def maxConnection : ℕ := max 1 settings.connectionConcurrency

def maxDatabase : ℕ := max 1 settings.databaseConcurrency

end Settings

/-! ### The places of the parties -/

/-- What a pass of the dispatcher did with a job. -/
inductive Verdict where
  | outOfWindow
  | blocked
  /-- The job was no longer queued. -/
  | lost
  | reserved
deriving DecidableEq

/-- `active` and `available` are the variables of the dispatcher, `todo` the rest of its loop;
`oldest` and `verdicts` keep what the loop went over. -/
structure Pass where
  active : List ℕ
  available : ℕ
  todo : List ℕ
  oldest : List ℕ
  verdicts : List (ℕ × Verdict) := []
deriving DecidableEq

inductive DispatcherPlace where
  | idle
  | resetting (stale : List ℕ) (pass : Pass)
  | choosing (pass : Pass)
  | sending (j : ℕ) (pass : Pass)
deriving DecidableEq

/-- Where a worker is in `run_sm4_batch_job`; `seen` is the state in its copy of the job, `index`,
`success` and `failure` the variables of the table loop. -/
inductive WorkerPlace where
  | idle
  | claimed (j : ℕ)
  | loaded (j : ℕ) (seen : JobState)
  | leaving (j : ℕ) (seen : JobState)
  | looping (j : ℕ) (seen : JobState) (index success failure : ℕ)
  | executing (j : ℕ) (seen : JobState) (index success failure : ℕ)
  | tailing (j : ℕ) (seen : JobState)
  | done
deriving DecidableEq

/-- The job of a worker that is not through with it. -/
def WorkerPlace.job? : WorkerPlace → Option ℕ
  | idle | done => none
  | claimed j => some j
  | loaded j _ | leaving j _ | tailing j _ => some j
  | looping j _ _ _ _ | executing j _ _ _ _ => some j

/-- `claimants` are the workers that claimed a job, `runners` those that began its table loop, and
`executed` says whether a table of the job was executed. -/
structure System where
  count : ℕ := 0
  state : ℕ → JobState := fun _ => .queued
  sent : ℕ → Bool := fun _ => false
  dispatcher : DispatcherPlace := .idle
  workers : ℕ → WorkerPlace := fun _ => .idle
  stops : ℕ → Option (ℕ × JobState) := fun _ => none
  recoveries : ℕ → Option (List ℕ × List ℕ) := fun _ => none
  claimants : ℕ → List ℕ := fun _ => []
  runners : ℕ → List ℕ := fun _ => []
  executed : ℕ → Bool := fun _ => false

namespace System

variable (s : System)

def write (j : ℕ) (new : JobState) : System := { s with state := Function.update s.state j new }

/-- The commit of a transaction that has read `seen`. -/
def store (j : ℕ) (seen new : JobState) : System := if new = seen then s else s.write j new

def writeAll (js : List ℕ) (new : JobState) : System :=
  { s with state := fun j => if j ∈ js then new else s.state j }

def goto (i : ℕ) (place : WorkerPlace) : System :=
  { s with workers := Function.update s.workers i place }

def dispatch (place : DispatcherPlace) : System := { s with dispatcher := place }

theorem workers_goto (i k : ℕ) (place : WorkerPlace) :
    (s.goto i place).workers k = if k = i then place else s.workers k := by
  simp only [goto, Function.update_apply]

/-- The jobs whose state passes a test, the oldest first. -/
def select (p : JobState → Bool) : List ℕ := (List.range s.count).filter fun j => p (s.state j)

/-- The jobs in `reserved`, `running` or `stopping`. -/
def activeJobs : List ℕ := s.select isActive

end System

/-! ### The dispatcher -/

section dispatcher

variable (job : ℕ → Job) (settings : Settings) (s : System)

/-- `_is_now_in_execution_window`. -/
def isNowInExecutionWindow (now start stop : ℕ) : Bool :=
  if start = stop then true
  else if start < stop then decide (start ≤ now ∧ now ≤ stop)
  else decide (start ≤ now ∨ now ≤ stop)

/-- The test on the window of a job. -/
def Job.inWindow (job : Job) (now : ℕ) : Bool :=
  match job.executionWindow with
  | none => true
  | some (start, stop) => isNowInExecutionWindow now start stop

def onConnection (j : ℕ) (active : List ℕ) : List ℕ :=
  active.filter fun i => (job i).connection = (job j).connection

def onDatabase (j : ℕ) (active : List ℕ) : List ℕ :=
  (onConnection job j active).filter fun i => (job i).database = (job j).database

/-- The names that count for the table lock. -/
def Job.lockedTables (job : Job) : List String := job.tables.filter (· ≠ "")

/-- Whether `_sm4_dispatch_block_reason` gives a reason. -/
def isBlocked (j : ℕ) (active : List ℕ) : Bool :=
  if settings.maxConnection ≤ (onConnection job j active).length then true
  else if settings.maxDatabase ≤ (onDatabase job j active).length then true
  else (onDatabase job j active).any fun i =>
    (job j).lockedTables.any fun name => (job i).lockedTables.contains name

/-- `_dispatch_queued_sm4_jobs_locked` reads the stale, the active and the queued jobs; the stale ones
are queued for it. -/
def openPass (stale : List ℕ) : Option System :=
  if s.dispatcher = .idle ∧ stale.length ≤ 20 ∧ stale ⊆ s.select (· = .reserved) then
    let active := s.activeJobs.filter (· ∉ stale)
    let oldest := ((List.range s.count).filter fun j => s.state j = .queued ∨ j ∈ stale).take 50
    some (s.dispatch (.resetting stale
      { active := active, available := settings.maxGlobal - active.length, todo := oldest
        oldest := oldest }))
  else none

/-- `_reset_stale_reserved_sm4_jobs` writes. -/
def resetStale : Option System :=
  match s.dispatcher with
  | .resetting stale pass => some ((s.writeAll stale .queued).dispatch (.choosing pass))
  | _ => none

/-- One job of the loop. -/
def consider (now : ℕ) : Option System :=
  match s.dispatcher with
  | .choosing { active, available, todo := j :: rest, oldest, verdicts } =>
      let pass (verdict : Verdict) : Pass :=
        { active := active, available := available, todo := rest, oldest := oldest
          verdicts := verdicts ++ [(j, verdict)] }
      if available = 0 then none
      else if (job j).inWindow now = false then some (s.dispatch (.choosing (pass .outOfWindow)))
      else if isBlocked job settings j active = true then some (s.dispatch (.choosing (pass .blocked)))
      else if s.state j = .queued then
        some ((s.write j .reserved).dispatch (.sending j (pass .reserved)))
      else some (s.dispatch (.choosing (pass .lost)))
  | _ => none

/-- The message of `_enqueue_sm4_worker` reaches the broker. -/
def reach : Option System :=
  match s.dispatcher with
  | .sending j _ => some { s with sent := Function.update s.sent j true }
  | _ => none

/-- `_enqueue_sm4_worker` returns. -/
def sendReturns : Option System :=
  match s.dispatcher with
  | .sending j pass =>
      if s.sent j = true then
        some (s.dispatch (.choosing
          { pass with active := pass.active ++ [j], available := pass.available - 1 }))
      else none
  | _ => none

/-- `_enqueue_sm4_worker` raises, with the message delivered or not. -/
def sendRaises : Option System :=
  match s.dispatcher with
  | .sending j pass => some ((s.write j .queued).dispatch (.choosing pass))
  | _ => none

/-- The loop of the pass is over. -/
def Pass.over (pass : Pass) : Prop := pass.todo = [] ∨ pass.available = 0

instance (pass : Pass) : Decidable pass.over := inferInstanceAs (Decidable (_ ∨ _))

def closePass : Option System :=
  match s.dispatcher with
  | .choosing pass => if pass.over then some (s.dispatch .idle) else none
  | _ => none

/-- The dispatcher dies. -/
def loseDispatcher : Option System := some (s.dispatch .idle)

end dispatcher

/-! ### The workers -/

section workers

variable (job : ℕ → Job) (s : System) (i : ℕ)

/-- `run_sm4_batch_job` claims a reserved job; another delivery is ignored. -/
def deliver (j : ℕ) : Option System :=
  if s.workers i = .idle ∧ s.sent j = true then
    if s.state j = .reserved then
      some { (s.write j .running).goto i (.claimed j) with
        claimants := Function.update s.claimants j (s.claimants j ++ [i]) }
    else some (s.goto i .done)
  else none

/-- There is no connection profile. -/
def missProfile : Option System :=
  match s.workers i with
  | .claimed j => some ((s.write j .failed).goto i .done)
  | _ => none

/-- `_run_sm4_batch_task_locked` reads the job, under the guard of the database. -/
def load : Option System :=
  match s.workers i with
  | .claimed j =>
      if s.state j = .cancelled then some (s.goto i .done)
      else if (s.state j).isStop = true then some (s.goto i (.leaving j (s.state j)))
      else some (s.goto i (.loaded j (s.state j)))
  | _ => none

/-- The job was stopped: before its first table, or in a table that raised. -/
def leave : Option System :=
  match s.workers i with
  | .leaving j seen => some ((s.store j seen .stopped).goto i .done)
  | _ => none

/-- The table loop begins. -/
def beginTables : Option System :=
  match s.workers i with
  | .loaded j seen =>
      some { (s.store j seen .running).goto i (.looping j .running 0 0 0) with
        runners := Function.update s.runners j (s.runners j ++ [i]) }
  | _ => none

/-- The look before a table; a job that is not stopped has the table executed. -/
def look : Option System :=
  match s.workers i with
  | .looping j _ index success failure =>
      if index < (job j).tables.length then
        if (s.state j).isStop = true then some (s.goto i (.tailing j (s.state j)))
        else some { s.goto i (.executing j (s.state j) index success failure) with
          executed := Function.update s.executed j true }
      else none
  | _ => none

def tableSucceeds : Option System :=
  match s.workers i with
  | .executing j seen index success failure =>
      some (s.goto i (.looping j seen (index + 1) (success + 1) failure))
  | _ => none

/-- `_execute_sm4_batch_table` raises, and the worker looks again. -/
def tableRaises : Option System :=
  match s.workers i with
  | .executing j _ index success failure =>
      if (s.state j).isStop = true then some (s.goto i (.leaving j (s.state j)))
      else some (s.goto i (.looping j (s.state j) (index + 1) success (failure + 1)))
  | _ => none

/-- `_stop_remaining_sm4_batch_tables`. -/
def tail : Option System :=
  match s.workers i with
  | .tailing j seen =>
      some ((s.store j seen (if seen = .cancelled then .cancelled else .stopped)).goto i .done)
  | _ => none

/-- The state behind the loop. -/
def outcome (success failure : ℕ) : JobState :=
  if failure ≠ 0 ∧ success ≠ 0 then .partially else if failure ≠ 0 then .failed else .succeeded

def finish : Option System :=
  match s.workers i with
  | .looping j seen index success failure =>
      if index < (job j).tables.length then none
      else some ((s.store j seen (outcome success failure)).goto i .done)
  | _ => none

/-- Anything under the `try` of the worker raises, and its handler writes. -/
def raiseError : Option System :=
  match s.workers i with
  | .loaded j seen | .leaving j seen | .tailing j seen | .looping j seen _ _ _
  | .executing j seen _ _ _ => some ((s.store j seen .failed).goto i .done)
  | _ => none

/-- The worker dies, is refused the guard of the database or cannot write. -/
def loseWorker : Option System := some (s.goto i .done)

end workers

/-! ### Stop requests and the recovery at start-up -/

section requests

variable (settings : Settings) (s : System)

/-- `stop_sm4_batch_task` reads a job that is not terminal. -/
def openStop (c j : ℕ) : Option System :=
  if j < s.count ∧ (s.state j).isTerminal = false then
    some { s with stops := Function.update s.stops c (some (j, s.state j)) }
  else none

/-- The state a stop request makes of the one it has read. -/
def stopped (seen : JobState) : JobState :=
  if seen = .queued ∨ seen = .reserved then .cancelled else .stopping

def commitStop (c : ℕ) : Option System :=
  match s.stops c with
  | some (j, seen) =>
      some { s.store j seen (stopped seen) with stops := Function.update s.stops c none }
  | none => none

/-- `_recover_interrupted_sm4_jobs_on_startup` reads the reserved jobs, and the running ones. -/
def openRecovery (r : ℕ) : Option System :=
  let interrupted :=
    if settings.recoverActiveJobsOnStartup then s.select fun x => x = .running ∨ x = .stopping else []
  some { s with
    recoveries := Function.update s.recoveries r (some (s.select (· = .reserved), interrupted)) }

def commitRecovery (r : ℕ) : Option System :=
  match s.recoveries r with
  | some (requeued, interrupted) =>
      some { (s.writeAll requeued .queued).writeAll interrupted .failed with
        recoveries := Function.update s.recoveries r none }
  | none => none

end requests

/-! ### The system -/

inductive Action where
  /-- `prepare_sm4_batch_task` adds a job. -/
  | prepare
  | openPass (stale : List ℕ)
  | resetStale
  | consider (now : ℕ)
  | reach
  | sendReturns
  | sendRaises
  | closePass
  | loseDispatcher
  | deliver (i j : ℕ)
  | missProfile (i : ℕ)
  | load (i : ℕ)
  | leave (i : ℕ)
  | beginTables (i : ℕ)
  | look (i : ℕ)
  | tableSucceeds (i : ℕ)
  | tableRaises (i : ℕ)
  | tail (i : ℕ)
  | finish (i : ℕ)
  | raise (i : ℕ)
  | loseWorker (i : ℕ)
  | openStop (c j : ℕ)
  | commitStop (c : ℕ)
  | openRecovery (r : ℕ)
  | commitRecovery (r : ℕ)

def step (job : ℕ → Job) (settings : Settings) (s : System) : Action → Option System
  | .prepare => some { s with count := s.count + 1 }
  | .openPass stale => openPass settings s stale
  | .resetStale => resetStale s
  | .consider now => consider job settings s now
  | .reach => reach s
  | .sendReturns => sendReturns s
  | .sendRaises => sendRaises s
  | .closePass => closePass s
  | .loseDispatcher => loseDispatcher s
  | .deliver i j => deliver s i j
  | .missProfile i => missProfile s i
  | .load i => load s i
  | .leave i => leave s i
  | .beginTables i => beginTables s i
  | .look i => look job s i
  | .tableSucceeds i => tableSucceeds s i
  | .tableRaises i => tableRaises s i
  | .tail i => tail s i
  | .finish i => finish job s i
  | .raise i => raiseError s i
  | .loseWorker i => loseWorker s i
  | .openStop c j => openStop s c j
  | .commitStop c => commitStop s c
  | .openRecovery r => openRecovery settings s r
  | .commitRecovery r => commitRecovery s r

/-! ### Batches of one table -/

def oneTable : ℕ → Job := fun _ =>
  { connection := "doris", database := "ods", tables := ["customers"], executionWindow := none
    named := by decide }

def oneWorker : Settings :=
  { workerConcurrency := 1, connectionConcurrency := 1, databaseConcurrency := 1 }

end RecoveryService.Sm4Batch
