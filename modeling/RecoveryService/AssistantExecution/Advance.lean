import RecoveryService.Lib.Runs

/-! # An assistant batch and the processes that advance it

A batch that belongs to an assistant plan goes through four stages.  `advance` claims a ready
stage by comparing and swapping the state of the batch's row, submits the stage's child task,
links it to the row and later consumes its outcome; `resume` makes a failed stage ready again.
Every process works on the copy of the row it has read: apart from the claims, what it writes
are the columns whose value differs from the one it has loaded, whatever the row holds by then.

`Sys` is one batch with all the processes that may advance it, and `Action` has one action for
each of their transactions.  `submissions` and `resumes` only record what was done. -/

namespace RecoveryService.AssistantExecution

open Runs

inductive Stage
  | restore
  | sync
  | standard
  | encryption
deriving DecidableEq

namespace Stage

instance : Fintype Stage :=
  ⟨{restore, sync, standard, encryption}, fun stage => by cases stage <;> decide⟩

/-- The stage that is made ready when this one has succeeded. -/
def next : Stage → Option Stage
  | restore => some sync
  | sync => some standard
  | standard => some encryption
  | encryption => none

/-- The stage whose success is required. -/
def previous : Stage → Option Stage
  | restore => none
  | sync => some restore
  | standard => some sync
  | encryption => some standard

/-- The position of the stage. -/
def rank : Stage → ℕ
  | restore => 0
  | sync => 1
  | standard => 2
  | encryption => 3

end Stage

/-- `state` of the batch: `ready` is `assistant_waiting_file` or `assistant_…_ready`, `queued` is
`restore_queued`, `sync_queued`, `standardize_queued` or `encrypting`. -/
inductive BatchState
  | ready (stage : Stage)
  | submitting (stage : Stage)
  | queued (stage : Stage)
  | failed
  | completed
deriving DecidableEq

/-- The stage the state belongs to. -/
def BatchState.stage? : BatchState → Option Stage
  | .ready stage | .submitting stage | .queued stage => some stage
  | .failed | .completed => none

/-- `resume_from_stage`: the name of a stage, or the state in which an exception was caught. -/
inductive ResumeFrom
  | stage (stage : Stage)
  | state (state : BatchState)
deriving DecidableEq

/-- The row of the batch: `child` holds `restore_task_id`, `sync_run_id`, `standard_run_id` and
`encryption_batch_id`. -/
structure Row where
  state : BatchState
  resumeFromStage : Option ResumeFrom
  child : Stage → Option ℕ
deriving DecidableEq

/-- How a child task stands; `unnamed` is a restore task that has succeeded without naming the
schema it has restored. -/
inductive Status
  | running
  | failed
  | unnamed
  | succeeded
deriving DecidableEq

structure Child where
  stage : Stage
  status : Status
deriving DecidableEq

/-- Where a process is in `advance`: not in it, between the claim of a stage and its submission,
between the submission and the link, or dispatching the restore task; for the standard stage the
link comes before the submission. -/
inductive Pc
  | idle
  | claimed (stage : Stage)
  | linked (id : ℕ)
  | submitted (stage : Stage) (id : ℕ)
  | dispatching (sent : Bool)
  | refreshed
deriving DecidableEq

/-- A process and the copy of the row it works on. -/
structure Process where
  pc : Pc
  batch : Row

/-- A submission that was made, and whether the recorded child of the previous stage had
succeeded by then. -/
structure Submission where
  stage : Stage
  afterPrevious : Bool

structure Sys where
  row : Row
  process : ℕ → Process
  children : ℕ → Option Child
  submissions : List Submission
  resumes : List Stage

/-- What the call that submits a child does: it is refused and creates nothing, it creates the
child and raises, or it creates the child and returns it. -/
inductive Outcome
  | refused
  | lost
  | taken
deriving DecidableEq

/-- The transactions of `advance`, of the handler in `advance_batches` and of `resume`, and the
progress of a child task. -/
inductive Action
  | read (p : ℕ)
  | claim (p : ℕ)
  | prepare (p : ℕ) (id : ℕ)
  | submit (p : ℕ) (id : ℕ) (outcome : Outcome)
  | link (p : ℕ)
  | refresh (p : ℕ)
  | undo (p : ℕ)
  | dispatched (p : ℕ)
  | offline (p : ℕ)
  | consume (p : ℕ)
  | raises (p : ℕ)
  | crash (p : ℕ)
  | resume
  | progress (id : ℕ) (status : Status)
deriving DecidableEq

/-! ### Writing the row -/

/-- The value of a column after a commit: it is written only when the session has changed it. -/
def written {α : Type} [DecidableEq α] (loaded new current : α) : α :=
  if new = loaded then current else new

section

variable {α : Type} [DecidableEq α]

theorem written_self (loaded new : α) : written loaded new loaded = new := by
  unfold written
  split_ifs with h
  · exact h.symm
  · rfl

theorem written_same (loaded new : α) : written loaded new new = new := by
  unfold written
  split_ifs <;> rfl

theorem written_of_ne {loaded new : α} (h : new ≠ loaded) (current : α) : written loaded new current = new := by
  unfold written
  rw [if_neg h]

theorem written_loaded (loaded current : α) : written loaded loaded current = current := by
  unfold written
  rw [if_pos rfl]

end

namespace Row

/-- The commit of a session that has loaded `batch` and assigned `state` and `resumeFromStage`. -/
def commit (row batch : Row) (state : BatchState) (resumeFromStage : Option ResumeFrom) : Row :=
  { row with
    state := written batch.state state row.state
    resumeFromStage := written batch.resumeFromStage resumeFromStage row.resumeFromStage }

/-- The id of a new child is another one than the id loaded, so it is always written. -/
def linkChild (row : Row) (stage : Stage) (id : ℕ) : Row :=
  { row with child := fun other => if other = stage then some id else row.child other }

/-- The child is recorded after its submission; the run of the standard stage has been before. -/
def linkSubmitted (row : Row) (stage : Stage) (id : ℕ) : Row :=
  if stage = .standard then row else row.linkChild stage id

theorem linkChild_child_same (row : Row) (stage : Stage) (id : ℕ) :
    (row.linkChild stage id).child stage = some id := by
  simp [linkChild]

theorem linkChild_child_ne (row : Row) {stage other : Stage} {id : ℕ} (h : other ≠ stage) :
    (row.linkChild stage id).child other = row.child other := by
  simp [linkChild, h]

theorem linkSubmitted_state (row : Row) (stage : Stage) (id : ℕ) :
    (row.linkSubmitted stage id).state = row.state := by
  unfold linkSubmitted
  split_ifs <;> rfl

theorem linkSubmitted_child_ne (row : Row) {stage other : Stage} {id : ℕ} (h : other ≠ stage) :
    (row.linkSubmitted stage id).child other = row.child other := by
  unfold linkSubmitted
  split_ifs
  · rfl
  · exact row.linkChild_child_ne h

theorem linkSubmitted_child_same (row : Row) {stage : Stage} {id : ℕ}
    (h : stage = .standard → row.child .standard = some id) :
    (row.linkSubmitted stage id).child stage = some id := by
  unfold linkSubmitted
  split_ifs with hstage
  · rw [hstage]
    exact h hstage
  · exact row.linkChild_child_same stage id

/-- `_failed`. -/
def failed (batch : Row) (stage : Stage) : Row :=
  { batch with state := .failed, resumeFromStage := some (.stage stage) }

/-- What the handler in `advance_batches` assigns. -/
def stageFailed (batch : Row) : Row :=
  { batch with
    state := .failed
    resumeFromStage := batch.resumeFromStage.or (some (.state batch.state)) }

/-- The state in which the outcome of a stage that has succeeded leaves the batch. -/
def stateAfter (stage : Stage) : BatchState :=
  match stage.next with
  | some next => .ready next
  | none => .completed

end Row

namespace Sys

/-- The state of the process `p`. -/
def set (s : Sys) (p : ℕ) (process : Process) : Sys :=
  { s with process := fun q => if q = p then process else s.process q }

/-- A child task is created. -/
def create (s : Sys) (id : ℕ) (stage : Stage) : Sys :=
  { s with children := fun i => if i = id then some ⟨stage, .running⟩ else s.children i }

/-- The child recorded for a stage has succeeded. -/
def succeeded (s : Sys) (stage : Stage) : Bool :=
  ((s.row.child stage).bind s.children).any fun c => c.status = .succeeded

/-- A submission is recorded. -/
def record (s : Sys) (stage : Stage) : Sys :=
  { s with submissions := ⟨stage, stage.previous.all s.succeeded⟩ :: s.submissions }

/-- A commit of the process `p`, which keeps what it has assigned. -/
def commit (s : Sys) (p : ℕ) (pc : Pc) (batch : Row) : Sys :=
  { s with row := s.row.commit (s.process p).batch batch.state batch.resumeFromStage }.set p
    ⟨pc, batch⟩

/-- `_claim`: compare and swap the state of the row; the copy is refreshed in either case. -/
def claim (s : Sys) (p : ℕ) (original next : BatchState) (pc : Pc) : Sys :=
  if s.row.state = original then
    { s with row := { s.row with state := next } }.set p ⟨pc, { s.row with state := next }⟩
  else s.set p ⟨.idle, s.row⟩

/-- The call that submits a stage. -/
def submitTo (s : Sys) (p : ℕ) (stage : Stage) (id : ℕ) : Outcome → Sys
  | .refused => (s.record stage).set p ⟨.idle, (s.process p).batch⟩
  | .lost => ((s.record stage).create id stage).set p ⟨.idle, (s.process p).batch⟩
  | .taken => ((s.record stage).create id stage).set p ⟨.submitted stage id, (s.process p).batch⟩

/-- The child is recorded and the state after the submission written. -/
def linkTo (s : Sys) (p : ℕ) (pc : Pc) (stage : Stage) (id : ℕ) (resumeFromStage : Option ResumeFrom) : Sys :=
  { s with row := s.row.linkSubmitted stage id }.commit p pc
    { (s.process p).batch.linkSubmitted stage id with
      state := .queued stage
      resumeFromStage := resumeFromStage }

/-- `_queue_restore` creates the task, links it and writes the state in one transaction. -/
def submitRestore (s : Sys) (p : ℕ) (id : ℕ) : Outcome → Sys
  | .refused => (s.record .restore).set p ⟨.dispatching false, (s.process p).batch⟩
  | _ => (s.submitTo p .restore id .taken).linkTo p (.dispatching true) .restore id none

/-- The stage whose outcome the process `p` consumes, the child it reads and how that stands. -/
def consumed (s : Sys) (p : ℕ) : Option (Stage × ℕ × Status) :=
  match (s.process p).batch.state with
  | .queued stage =>
      ((s.process p).batch.child stage).bind fun id =>
        (s.children id).map fun c => (stage, id, c.status)
  | _ => none

/-- The branches of `advance` for the states after a submission. -/
def consume (s : Sys) (p : ℕ) : Option Sys :=
  match s.consumed p with
  | some (_, _, .running) => some s
  | some (stage, _, .succeeded) => some (s.claim p (.queued stage) (Row.stateAfter stage) .idle)
  | some (stage, _, _) => some (s.commit p .idle ((s.process p).batch.failed stage))
  | none => none

/-- `resume`, under the lock of the row. -/
def resume (s : Sys) : Option Sys :=
  match s.row.state, s.row.resumeFromStage with
  | .failed, some (.stage stage) =>
      some { s with
        row := { s.row with state := .ready stage }
        resumes := stage :: s.resumes }
  | _, _ => none

/-- A child task ends. -/
def progress (s : Sys) (id : ℕ) (status : Status) : Option Sys :=
  match s.children id with
  | some ⟨stage, .running⟩ =>
      if status ≠ .running ∧ (status = .unnamed → stage = .restore) then
        some { s with children := fun i => if i = id then some ⟨stage, status⟩ else s.children i }
      else none
  | _ => none

/-- An exception leaves `advance`: before a claim, after the claim of the state that follows a
stage, or while the id of the standard run is committed. -/
def Raising (process : Process) : Prop :=
  process.pc = .claimed .standard ∨
    process.pc = .idle ∧ process.batch.state ≠ .failed ∧
      ∀ stage, process.batch.state ≠ .submitting stage

instance (process : Process) : Decidable (Raising process) :=
  inferInstanceAs (Decidable (_ ∨ _ ∧ _ ∧ _))

end Sys

open Sys in
/-- One transaction. -/
def step (s : Sys) : Action → Option Sys
  | .read p => if (s.process p).pc = .idle then some (s.set p ⟨.idle, s.row⟩) else none
  | .claim p =>
      match (s.process p).pc, (s.process p).batch.state with
      | .idle, .ready stage => some (s.claim p (.ready stage) (.submitting stage) (.claimed stage))
      | _, _ => none
  | .prepare p id =>
      if (s.process p).pc = .claimed .standard ∧ s.children id = none then
        some ({ s with row := s.row.linkChild .standard id }.set p
          ⟨.linked id, (s.process p).batch.linkChild .standard id⟩)
      else none
  | .submit p id outcome =>
      if s.children id = none then
        match (s.process p).pc with
        | .claimed .restore => some (s.submitRestore p id outcome)
        | .claimed .standard => none
        | .claimed stage => some (s.submitTo p stage id outcome)
        | .linked run => if run = id then some (s.submitTo p .standard id outcome) else none
        | _ => none
      else none
  | .link p =>
      match (s.process p).pc with
      | .submitted stage id =>
          some (s.linkTo p .idle stage id (s.process p).batch.resumeFromStage)
      | _ => none
  -- The dispatch of the restore task raised: the copy is refreshed, then its state written.
  | .refresh p =>
      match (s.process p).pc with
      | .dispatching _ => some (s.set p ⟨.refreshed, s.row⟩)
      | _ => none
  | .undo p =>
      if (s.process p).pc = .refreshed then
        some (s.commit p .idle { (s.process p).batch with state := .submitting .restore })
      else none
  | .dispatched p =>
      if (s.process p).pc = .dispatching true then some (s.set p ⟨.idle, (s.process p).batch⟩)
      else none
  | .offline p =>
      if (s.process p).pc = .idle ∧ (s.process p).batch.state = .ready .standard then
        some (s.commit p .idle ((s.process p).batch.failed .standard))
      else none
  | .consume p => if (s.process p).pc = .idle then s.consume p else none
  | .raises p =>
      if Raising (s.process p) then some (s.commit p .idle (s.process p).batch.stageFailed)
      else none
  | .crash p => some (s.set p ⟨.idle, s.row⟩)
  | .resume => s.resume
  | .progress id status => s.progress id status

/-- The row `confirm_plan` creates. -/
def Row.confirmed : Row := ⟨.ready .restore, none, fun _ => none⟩

/-- The batch has been confirmed, and no process works on it. -/
def Sys.start : Sys :=
  { row := Row.confirmed
    process := fun _ => ⟨.idle, Row.confirmed⟩
    children := fun _ => none
    submissions := []
    resumes := [] }

/-! ### What a batch promises -/

namespace Sys

/-- How often a stage has been submitted. -/
def submitted (s : Sys) (stage : Stage) : ℕ :=
  s.submissions.countP fun submission => submission.stage = stage

/-- How often a stage has been resumed. -/
def resumed (s : Sys) (stage : Stage) : ℕ := s.resumes.count stage

/-- The child is one of the stage and has not ended. -/
def Running (s : Sys) (stage : Stage) (id : ℕ) : Prop := s.children id = some ⟨stage, .running⟩

instance (s : Sys) (stage : Stage) (id : ℕ) : Decidable (s.Running stage id) :=
  inferInstanceAs (Decidable (_ = _))

/-- `bounded`: a stage is submitted once and once more for each time it was resumed; `ordered`: a
stage is submitted after the recorded child of the previous one has succeeded; `completed`: a
completed batch records four children that have succeeded; `single`: a stage has at most one
child that has not ended. -/
structure Sound (s : Sys) : Prop where
  bounded : ∀ stage, s.submitted stage ≤ 1 + s.resumed stage
  ordered : ∀ submission ∈ s.submissions, submission.afterPrevious = true
  completed : s.row.state = .completed → ∀ stage, s.succeeded stage = true
  single : ∀ stage id id', s.Running stage id → s.Running stage id' → id = id'

end Sys

/-- The row has been failed at the stage. -/
def Row.FailedAt (row : Row) (stage : Stage) : Prop :=
  row.state = .failed ∧ row.resumeFromStage = some (.stage stage)

instance (row : Row) (stage : Stage) : Decidable (row.FailedAt stage) :=
  inferInstanceAs (Decidable (_ ∧ _))

/-- What the outcome of a child is consumed for is still what the row waits for: the row has not
changed since it was read, or another process has already consumed the same failure; a success
is one of the child the row records. -/
def Sys.Current (s : Sys) (p : ℕ) : Option (Stage × ℕ × Status) → Prop
  | some (_, _, .running) => True
  | some (stage, id, .succeeded) => s.row.state = .queued stage → s.row.child stage = some id
  | some (stage, _, _) => s.row = (s.process p).batch ∨ s.row.FailedAt stage
  | none => True

/-- The batch is not failed over a row that has changed since it was read, and an exception does
not leave it to be resumed from a stage that has not ended or is not the one it was in. -/
def Careful (s : Sys) : Action → Prop
  | .consume p => s.Current p (s.consumed p)
  | .offline p => s.row = (s.process p).batch ∨ s.row.FailedAt .standard
  | .raises p =>
      (s.process p).batch.resumeFromStage ≠ none → ∀ stage,
        s.row.resumeFromStage = some (.stage stage) →
          s.row = (s.process p).batch ∧ s.row.state.stage? = some stage ∧
            ∀ id ∈ s.row.child stage, ¬ s.Running stage id
  | _ => True

instance (s : Sys) (p : ℕ) : (x : Option (Stage × ℕ × Status)) → Decidable (s.Current p x)
  | some (_, _, .running) => .isTrue trivial
  | some (stage, id, .succeeded) =>
      inferInstanceAs (Decidable (s.row.state = .queued stage → s.row.child stage = some id))
  | some (stage, _, .failed) =>
      inferInstanceAs (Decidable (s.row = (s.process p).batch ∨ s.row.FailedAt stage))
  | some (stage, _, .unnamed) =>
      inferInstanceAs (Decidable (s.row = (s.process p).batch ∨ s.row.FailedAt stage))
  | none => .isTrue trivial

instance (s : Sys) : (a : Action) → Decidable (Careful s a)
  | .consume p => inferInstanceAs (Decidable (s.Current p (s.consumed p)))
  | .offline p =>
      inferInstanceAs (Decidable (s.row = (s.process p).batch ∨ s.row.FailedAt .standard))
  | .raises p =>
      inferInstanceAs (Decidable ((s.process p).batch.resumeFromStage ≠ none → ∀ stage,
        s.row.resumeFromStage = some (.stage stage) →
          s.row = (s.process p).batch ∧ s.row.state.stage? = some stage ∧
            ∀ id ∈ s.row.child stage, ¬ s.Running stage id))
  | .read _ => .isTrue trivial
  | .claim _ => .isTrue trivial
  | .prepare _ _ => .isTrue trivial
  | .submit _ _ _ => .isTrue trivial
  | .link _ => .isTrue trivial
  | .refresh _ => .isTrue trivial
  | .undo _ => .isTrue trivial
  | .dispatched _ => .isTrue trivial
  | .crash _ => .isTrue trivial
  | .resume => .isTrue trivial
  | .progress _ _ => .isTrue trivial

end RecoveryService.AssistantExecution
