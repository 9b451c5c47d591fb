import RecoveryService.Lib.Runs

/-! # A query export job

One job, the workers it was delivered to, and the requests that cancel, expire and download it.  Every
transaction reads the row of the job in one step and writes it in another; between the two the others
go on.  A write changes the columns that differ from what was read, so `Job.store` keeps the others as
they are by then.  The requests are those of users with access to the job. -/

namespace RecoveryService.QueryExport

inductive JobState where
  | queued
  | running
  | succeeded
  | failed
  | cancelled
  | expired
deriving DecidableEq

/-- The columns of `QueryExportJob` the functions below decide on or hand out. -/
structure Job where
  state : JobState := .queued
  processedRows : ℕ := 0
  rowCount : ℕ := 0
  filePath : Option String := none
  expiresAt : Option ℕ := none
  downloadCount : ℕ := 0
deriving DecidableEq

/-- A column behind a write of `new` by a transaction that has read `seen`. -/
def column {α : Type} [DecidableEq α] (stored seen new : α) : α := if new = seen then stored else new

/-- The row behind the commit of a transaction that has read `seen` and made `new` of it. -/
def Job.store (stored seen new : Job) : Job where
  state := column stored.state seen.state new.state
  processedRows := column stored.processedRows seen.processedRows new.processedRows
  rowCount := column stored.rowCount seen.rowCount new.rowCount
  filePath := column stored.filePath seen.filePath new.filePath
  expiresAt := column stored.expiresAt seen.expiresAt new.expiresAt
  downloadCount := column stored.downloadCount seen.downloadCount new.downloadCount

/-! ### What the transactions make of the row -/

namespace Job

def claimed (seen : Job) : Job := { seen with state := .running }

def reported (seen : Job) (count : ℕ) : Job := { seen with processedRows := count }

def finished (seen : Job) (rows : ℕ) (path : String) (expiresAt : ℕ) : Job :=
  { seen with
    state := .succeeded, rowCount := rows, processedRows := rows, filePath := some path
    expiresAt := some expiresAt }

def failed (seen : Job) : Job := { seen with state := .failed }

def cancelled (seen : Job) : Job := { seen with state := .cancelled }

/-- `_expire_job_file`, but for the file. -/
def expired (seen : Job) : Job := { seen with state := .expired, filePath := none }

def downloaded (seen : Job) : Job := { seen with downloadCount := seen.downloadCount + 1 }

/-- `job.expires_at <= app_now()`. -/
def isExpired (job : Job) (now : ℕ) : Bool :=
  match job.expiresAt with
  | some t => decide (t ≤ now)
  | none => false

end Job

/-! ### Progress reports -/

inductive Format where
  | csv
  | tsv
  | jsonl
  | xlsx
  | parquet

/-- The row counts at which `_write_rows` calls `progress` for a result of `n` rows. -/
def reports : Format → ℕ → List ℕ
  | .parquet, n =>
      (List.range (n / 5000)).map (fun i => 5000 * (i + 1)) ++ if n % 5000 = 0 then [] else [n]
  | _, n => (List.range (n / 1000)).map (fun i => 1000 * (i + 1)) ++ [n]

/-! ### The system -/

/-- Where a worker is in `run_query_export`. -/
inductive WorkerPlace where
  | idle
  | loaded (seen : Job)
  | working (rows : ℕ) (left : List ℕ)
  | reporting (seen : Job) (count rows : ℕ) (left : List ℕ)
  | written (rows : ℕ)
  | storing (seen : Job) (rows : ℕ)
  | failing
  | storingFailure (seen : Job)
  | done

/-- Where a cleanup or a late download is in `_expire_job_file`. -/
inductive ExpiryPlace where
  | idle
  | loaded (seen : Job)
  | removed (seen : Job)
deriving DecidableEq

/-- The transactions that store a state. -/
inductive Party where
  | worker (w : ℕ)
  | expiry (e : ℕ)
deriving DecidableEq

/-- `unseen p` says that a cancellation was committed since `p` last looked at the state of the job. -/
structure System where
  job : Job := {}
  file : Bool := false
  now : ℕ := 0
  workers : ℕ → WorkerPlace := fun _ => .idle
  cancels : ℕ → Option Job := fun _ => none
  expiries : ℕ → ExpiryPlace := fun _ => .idle
  downloads : ℕ → Option Job := fun _ => none
  unseen : Party → Bool := fun _ => false

inductive Action where
  | deliver (w : ℕ)
  | claim (w rows : ℕ)
  | look (w : ℕ)
  | report (w : ℕ)
  | write (w : ℕ)
  | load (w : ℕ)
  | succeed (w : ℕ)
  | raise (w : ℕ)
  | loadFailure (w : ℕ)
  | fail (w : ℕ)
  | openCancel (c : ℕ)
  | cancel (c : ℕ)
  | openExpiry (e : ℕ)
  | unlink (e : ℕ)
  | expire (e : ℕ)
  | openDownload (d : ℕ)
  | download (d : ℕ)
  | tick

def System.goto (s : System) (w : ℕ) (place : WorkerPlace) : System :=
  { s with workers := Function.update s.workers w place }

/-- The transaction of a party writes the row. -/
def System.commit (s : System) (seen new : Job) : System := { s with job := s.job.store seen new }

/-- A party looks at the state. -/
def System.looked (s : System) (p : Party) : System :=
  { s with unseen := Function.update s.unseen p false }

section

variable (path : String) (format : Format) (expireAfter : ℕ) (s : System)

/-! ### `run_query_export` -/

/-- The worker reads the job: a job that is not queued is ignored. -/
def deliver (w : ℕ) : Option System :=
  match s.workers w with
  | .idle =>
      if s.job.state = .queued then some ((s.goto w (.loaded s.job)).looked (.worker w))
      else some (s.goto w .done)
  | _ => none

/-- The worker stores `running`; the query will have `rows` rows. -/
def claim (w rows : ℕ) : Option System :=
  match s.workers w with
  | .loaded seen => some ((s.commit seen seen.claimed).goto w (.working rows (reports format rows)))
  | _ => none

/-- `_record_progress` reads the job; this is where a cancellation is noticed (`ExportCancelled`). -/
def look (w : ℕ) : Option System :=
  match s.workers w with
  | .working rows (count :: left) =>
      if s.job.state = .cancelled then some (s.goto w .done)
      else some ((s.goto w (.reporting s.job count rows left)).looked (.worker w))
  | _ => none

/-- `_record_progress` commits. -/
def report (w : ℕ) : Option System :=
  match s.workers w with
  | .reporting seen count rows left =>
      some ((s.commit seen (seen.reported count)).goto w (.working rows left))
  | _ => none

/-- `partial.replace(target)`, behind the last progress report. -/
def write (w : ℕ) : Option System :=
  match s.workers w with
  | .working rows [] => some { s.goto w (.written rows) with file := true }
  | _ => none

/-- The job is read again for the result; its state is not looked at. -/
def load (w : ℕ) : Option System :=
  match s.workers w with
  | .written rows => some (s.goto w (.storing s.job rows))
  | _ => none

/-- The success is committed.  `path` is the file of the job, `expireAfter` the setting
`query_export_expire_hours`. -/
def succeed (w : ℕ) : Option System :=
  match s.workers w with
  | .storing seen rows =>
      some ((s.commit seen (seen.finished rows path (s.now + max 1 expireAfter))).goto w .done)
  | _ => none

/-- Anything between the claim and the commit of the success raises. -/
def raiseError (w : ℕ) : Option System :=
  match s.workers w with
  | .working _ _ | .reporting _ _ _ _ | .written _ | .storing _ _ => some (s.goto w .failing)
  | _ => none

/-- The job is read again for the failure. -/
def loadFailure (w : ℕ) : Option System :=
  match s.workers w with
  | .failing => some (s.goto w (.storingFailure s.job))
  | _ => none

def fail (w : ℕ) : Option System :=
  match s.workers w with
  | .storingFailure seen => some ((s.commit seen seen.failed).goto w .done)
  | _ => none

/-! ### Requests -/

/-- `cancel_query_export_job` reads the job. -/
def openCancel (c : ℕ) : Option System :=
  if s.job.state = .queued ∨ s.job.state = .running then
    some { s with cancels := Function.update s.cancels c (some s.job) }
  else none

def cancel (c : ℕ) : Option System :=
  match s.cancels c with
  | some seen =>
      some { s.commit seen seen.cancelled with
        cancels := Function.update s.cancels c none
        unseen := fun _ => true }
  | none => none

/-- `cleanup_expired_query_exports`, or a download, reads an expired job. -/
def openExpiry (e : ℕ) : Option System :=
  if s.expiries e = .idle ∧ s.job.state = .succeeded ∧ s.job.isExpired s.now = true then
    some { s.looked (.expiry e) with expiries := Function.update s.expiries e (.loaded s.job) }
  else none

/-- `_expire_job_file` removes the file. -/
def unlink (e : ℕ) : Option System :=
  match s.expiries e with
  | .loaded seen =>
      some { s with
        file := if seen.filePath = none then s.file else false
        expiries := Function.update s.expiries e (.removed seen) }
  | _ => none

def expire (e : ℕ) : Option System :=
  match s.expiries e with
  | .removed seen =>
      some { s.commit seen seen.expired with expiries := Function.update s.expiries e .idle }
  | _ => none

/-- `record_query_export_download` reads a job with a file. -/
def openDownload (d : ℕ) : Option System :=
  if s.job.state = .succeeded ∧ s.job.filePath ≠ none ∧ s.job.isExpired s.now = false ∧
      s.file = true then
    some { s with downloads := Function.update s.downloads d (some s.job) }
  else none

def download (d : ℕ) : Option System :=
  match s.downloads d with
  | some seen =>
      some { s.commit seen seen.downloaded with downloads := Function.update s.downloads d none }
  | none => none

def step (s : System) : Action → Option System
  | .deliver w => deliver s w
  | .claim w rows => claim format s w rows
  | .look w => look s w
  | .report w => report s w
  | .write w => write s w
  | .load w => load s w
  | .succeed w => succeed path expireAfter s w
  | .raise w => raiseError s w
  | .loadFailure w => loadFailure s w
  | .fail w => fail s w
  | .openCancel c => openCancel s c
  | .cancel c => cancel s c
  | .openExpiry e => openExpiry s e
  | .unlink e => unlink s e
  | .expire e => expire s e
  | .openDownload d => openDownload s d
  | .download d => download s d
  | .tick => some { s with now := s.now + 1 }

end

end RecoveryService.QueryExport
