import RecoveryService.Lib.Statements
import RecoveryService.Sm4Batch.Jobs

/-! # The run of one batch

`run_sm4_batch_job` of `services/doris_encryption.py` on one job.  The worker goes through the slots
below; a stop request is carried out just before one of them, and at one of them the run may be cut off:
something raises there, or the process is killed.

* slot `0`: the claim;
* slot `1`: the connection profile, the lookup of the job and the guard of the database;
* slot `2`: the job is read under the guard;
* slot `3`: the check of the key, and the begin of the tables;
* slots `4 + 2 * k` and `5 + 2 * k`: the look before table `k`, and the end of that table;
* slot `4 + 2 * n`: the end of a run over `n` tables.

What a table raises is no cut: `tableSucceeds` says how it ends.  The worker writes the columns in which
its copy of the job differs from what it has read.  Texts and times are left out. -/

namespace RecoveryService.Sm4Batch

open Program JobState

/-! ### The job -/

/-- The `state` of an entry of `results`. -/
inductive TableState where
  | queued
  | running
  | succeeded
  | failed
  | stopped
  | cancelled
deriving DecidableEq

def TableState.isTerminal : TableState → Bool
  | succeeded | failed | stopped | cancelled => true
  | queued | running => false

structure Row where
  state : JobState
  results : List TableState
  totalCount : ℕ
  successCount : ℕ
  failedCount : ℕ

/-- A column behind a write of `new` by a session that has read `seen`. -/
def column {α : Type} [DecidableEq α] (stored seen new : α) : α := if new = seen then stored else new

def Row.store (stored seen new : Row) : Row where
  state := column stored.state seen.state new.state
  results := column stored.results seen.results new.results
  totalCount := column stored.totalCount seen.totalCount new.totalCount
  successCount := column stored.successCount seen.successCount new.successCount
  failedCount := column stored.failedCount seen.failedCount new.failedCount

/-- A job for `n` tables as `prepare_sm4_batch_task` makes it, in some state by now. -/
def submitted (n : ℕ) (state : JobState) : Row where
  state := state
  results := List.replicate n .queued
  totalCount := n
  successCount := 0
  failedCount := 0

/-- `stop_sm4_batch_task`. -/
def Row.stopRequested (row : Row) : Row :=
  if row.state.isTerminal = true then row
  else if row.state = .queued ∨ row.state = .reserved then
    { row with
      state := .cancelled
      results := row.results.map fun x => if x = .queued then .cancelled else x }
  else { row with state := .stopping }

/-- `_recover_interrupted_sm4_jobs_on_startup`. -/
def Row.recovered (recoverActive : Bool) (row : Row) : Row :=
  if row.state = .reserved then { row with state := .queued }
  else if recoverActive = true ∧ (row.state = .running ∨ row.state = .stopping) then
    { row with
      state := .failed
      results := row.results.map fun x => if x.isTerminal = true then x else .failed
      failedCount := if row.totalCount = 0 then row.results.length else row.totalCount
      successCount := 0 }
  else row

/-! ### The environment -/

inductive Cut where
  /-- Something raises; `handled` says whether the exception handler can write. -/
  | raises (handled : Bool)
  | killed

structure RunEnv where
  profile : Bool := true
  recoverActiveJobsOnStartup : Bool := true
  tableSucceeds : ℕ → Bool := fun _ => true
  stop : Option ℕ := none
  cut : Option (ℕ × Cut) := none

structure RunWorld where
  row : Row
  /-- The worker's copy of the row. -/
  copy : Row
  claimed : Bool := false

abbrev BatchRun := Program RunWorld Cut

namespace RunWorld

variable (w : RunWorld)

def refresh : RunWorld := { w with copy := w.row }

def commit (f : Row → Row) : RunWorld :=
  { w with row := w.row.store w.copy (f w.copy), copy := f w.copy }

end RunWorld

/-- A slot of the worker, with what it does there. -/
def slot (env : RunEnv) (t : ℕ) (f : RunWorld → RunWorld) : BatchRun Unit := fun w =>
  let w := if env.stop = some t then { w with row := w.row.stopRequested } else w
  match env.cut with
  | some (x, cut) => if x = t then (.error cut, w) else (.ok (), f w)
  | none => (.ok (), f w)

/-! ### The tables -/

/-- The variables of the table loop. -/
structure Progress where
  results : List TableState
  success : ℕ := 0
  failure : ℕ := 0

namespace Progress

variable (p : Progress) (k : ℕ)

def starts : Progress := { p with results := p.results.set k .running }

def succeeds : Progress := { p with results := p.results.set k .succeeded, success := p.success + 1 }

def fails : Progress := { p with results := p.results.set k .failed, failure := p.failure + 1 }

end Progress

/-- `_save_sm4_batch_progress`. -/
def saveProgress (p : Progress) (job : Row) : Row :=
  { job with results := p.results, successCount := p.success, failedCount := p.failure }

/-- `_stop_remaining_sm4_batch_tables`. -/
def stopRemaining (p : Progress) (k : ℕ) (job : Row) : Row :=
  let cancelled := job.state = .cancelled
  { job with
    state := if cancelled then .cancelled else .stopped
    results := p.results.mapIdx fun i x =>
      if k ≤ i ∧ x.isTerminal = false then (if cancelled then .cancelled else .stopped) else x }

section tables

variable (env : RunEnv)

/-- The look before a table. -/
def lookBefore (k : ℕ) (p : Progress) (w : RunWorld) : RunWorld :=
  if w.row.state.isStop = true then w.refresh.commit (stopRemaining p k)
  else w.refresh.commit (saveProgress (p.starts k))

/-- The end of a table. -/
def tableEnds (k : ℕ) (p : Progress) (w : RunWorld) : RunWorld :=
  if env.tableSucceeds k = true then w.commit (saveProgress (p.succeeds k))
  else if w.row.state.isStop = true then
    w.refresh.commit fun job => { job with results := p.results.set k .stopped, state := .stopped }
  else w.refresh.commit (saveProgress (p.fails k))

/-- A table of the loop; `none` where the worker has left the loop. -/
def runTable (k : ℕ) (p : Progress) : BatchRun (Option Progress) := do
  slot env (4 + 2 * k) (lookBefore k p)
  let looked ← state
  if looked.copy.state.isStop = true then pure none
  else do
    slot env (5 + 2 * k) (tableEnds env k (p.starts k))
    let ended ← state
    if env.tableSucceeds k = true then pure (some ((p.starts k).succeeds k))
    else if ended.copy.state.isStop = true then pure none
    else pure (some ((p.starts k).fails k))

/-- The state of the job behind its last table, at slot `4 + 2 * k`. -/
def finishBatch (k : ℕ) (p : Progress) : BatchRun Unit :=
  slot env (4 + 2 * k) fun w => w.commit fun job => { job with state := outcome p.success p.failure }

/-- The table loop from table `k` on, with `m` tables left, and what is behind it. -/
def runTables : ℕ → ℕ → Progress → BatchRun Unit
  | 0, k, p => finishBatch env k p
  | m + 1, k, p => do
      let next ← runTable env k p
      match next with
      | some p => runTables m (k + 1) p
      | none => pure ()

/-! ### The job -/

/-- The job is read; one that is stopped already is left. -/
def loadJob (w : RunWorld) : RunWorld :=
  if w.row.state = .stopping ∨ w.row.state = .stopped then
    w.refresh.commit fun job => { job with state := .stopped }
  else w.refresh

/-- The `try` of `_run_sm4_batch_task_locked`. -/
def runLocked (n : ℕ) : BatchRun Unit := do
  slot env 2 loadJob
  let loaded ← state
  if loaded.copy.state.isStop = true then pure ()
  else do
    slot env 3 fun w => w.commit fun job => { job with state := .running }
    runTables env n 0 { results := loaded.copy.results }

/-- Its exception handler. -/
def handleCut : Cut → Option (BatchRun Unit)
  | .raises true => some (update fun w => w.refresh.commit fun job => { job with state := .failed })
  | .raises false => some (pure ())
  | .killed => none

/-- The claimed job: without a connection profile it fails, else it is run under the guard. -/
def runClaimed (n : ℕ) : BatchRun Unit :=
  if env.profile = true then do
    slot env 1 id
    attempt (runLocked env n) handleCut
  else slot env 1 fun w => w.refresh.commit fun job => { job with state := .failed }

/-- The claim. -/
def claim (w : RunWorld) : RunWorld :=
  if w.row.state = .reserved then { w with row := { w.row with state := .running }, claimed := true }
  else w

/-- `run_sm4_batch_job`. -/
def runSm4BatchJob (n : ℕ) : BatchRun Unit := do
  slot env 0 claim
  let w ← state
  if w.claimed = true then runClaimed env n else pure ()

/-- How a run is left: behind a killed worker the service starts again. -/
def leaves (run : Except Cut Unit × RunWorld) : RunWorld :=
  match run with
  | (.error .killed, w) => { w with row := w.row.recovered env.recoverActiveJobsOnStartup }
  | (_, w) => w

/-- The run on a job for `n` tables. -/
def batchRun (n : ℕ) (state : JobState) : RunWorld :=
  leaves env (runSm4BatchJob env n { row := submitted n state, copy := submitted n state })

end tables

end RecoveryService.Sm4Batch
