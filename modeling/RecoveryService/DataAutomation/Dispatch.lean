import RecoveryService.Lib.Runs

/-! # Dispatching the tasks of the stages

Several processes run `dispatch_pending_stage_tasks`, others run `_reconcile_stage_dispatches`, and
the targets make progress on their own.  Each action is one transaction, or the call of the broker
between two of them: a dispatcher reconciles, lists the pending rows, and for each of them claims
the row, sends its task, and writes the row.  Only the claim looks at the row it writes.

Times are in seconds.  `sentTerminal` are the rows that reached the broker when their target was
terminal. -/

namespace RecoveryService.DataAutomation

open Runs

inductive TargetType
  | recoveryTask | componentRun | workflowRun | sm4Job
deriving DecidableEq

inductive DispatchStatus
  | pending | dispatching | dispatched | running | succeeded | failed
deriving DecidableEq

/-- `_TERMINAL_DISPATCH_STATES`. -/
def DispatchStatus.isTerminal : DispatchStatus → Bool
  | succeeded | failed => true
  | _ => false

/-- `DataAutomationStageDispatch`. -/
structure DispatchRow where
  id : ℕ
  targetType : TargetType
  targetId : ℕ
  status : DispatchStatus := .pending
  attempts : ℕ := 0
  celeryTaskId : Option String := none
  nextAttemptAt : Option ℕ := none
  lastAttemptAt : Option ℕ := none
  lastError : Option String := none

/-- `_target_dispatch_state` of the state of a target; `none` where there is no target. -/
def targetDispatchState : TargetType → Option String → Option DispatchStatus
  | _, none => none
  | .recoveryTask, some state =>
      if state ∈ ["succeeded", "succeeded_with_warnings"] then some .succeeded
      else if state ∈ ["failed", "cancelled", "stopped"] then some .failed
      else if state ≠ "" ∧ state ≠ "created" then some .running
      else none
  | .componentRun, some state =>
      if state ∈ ["succeeded", "success"] then some .succeeded
      else if state ∈ ["failed", "partial", "cancelled"] then some .failed
      else if state = "running" then some .running
      else none
  | .workflowRun, some state =>
      if state = "succeeded" then some .succeeded
      else if state ∈ ["failed", "partial", "cancelled"] then some .failed
      else if state = "running" then some .running
      else none
  | .sm4Job, some state =>
      if state ∈ ["succeeded", "success"] then some .succeeded
      else if state ∈ ["failed", "partial", "cancelled", "stopped"] then some .failed
      else if state = "running" then some .running
      else if state = "reserved" then some .dispatched
      else none

/-- A row a dispatcher has claimed: the number of the attempt and the time of the claim. -/
structure Claim where
  rowId : ℕ
  attempt : ℕ
  claimedAt : ℕ

/-- Where a dispatcher is, and the ids it has still to go through. -/
inductive Phase
  | idle
  | reconciled (now limit : ℕ)
  | listed (ids : List ℕ)
  | claimed (claim : Claim) (ids : List ℕ)
  | sent (claim : Claim) (celeryTaskId : Option String) (ids : List ℕ)
  | raised (claim : Claim) (text : String) (ids : List ℕ)

/-- The rows are in the order of `created_at`; dispatchers are numbered. -/
structure Dispatching where
  now : ℕ := 0
  rows : List DispatchRow := []
  target : TargetType → ℕ → Option String := fun _ _ => none
  phase : ℕ → Phase := fun _ => .idle
  sentTerminal : List ℕ := []

namespace Dispatching

/-- `_DISPATCH_STALE_AFTER`. -/
def staleAfter : ℕ := 120

def row (w : Dispatching) (id : ℕ) : Option DispatchRow := w.rows.find? (fun r => r.id = id)

def targetState (w : Dispatching) (r : DispatchRow) : Option DispatchStatus :=
  targetDispatchState r.targetType (w.target r.targetType r.targetId)

def TargetTerminal (w : Dispatching) (r : DispatchRow) : Prop :=
  ∃ status ∈ w.targetState r, status.isTerminal = true

instance (w : Dispatching) (r : DispatchRow) : Decidable (w.TargetTerminal r) := by
  unfold TargetTerminal
  infer_instance

def setPhase (w : Dispatching) (d : ℕ) (phase : Phase) : Dispatching :=
  { w with phase := Function.update w.phase d phase }

def mapRows (w : Dispatching) (f : DispatchRow → DispatchRow) : Dispatching :=
  { w with rows := w.rows.map f }

def onRow (w : Dispatching) (id : ℕ) (f : DispatchRow → DispatchRow) : Dispatching :=
  w.mapRows (fun r => if r.id = id then f r else r)

/-! ### The transactions -/

/-- The first `UPDATE` on a row: a claim out of the stale window is pending again. -/
def resetRow (w : Dispatching) (r : DispatchRow) : DispatchRow :=
  if r.status = .dispatching ∧ ∃ t ∈ r.lastAttemptAt, t + staleAfter < w.now then
    { r with status := .pending, nextAttemptAt := some w.now }
  else r

def resetStale (w : Dispatching) : Dispatching := w.mapRows w.resetRow

/-- `_reconcile_stage_dispatches` on one row. -/
def reconcileRow (w : Dispatching) (r : DispatchRow) : DispatchRow :=
  if r.status.isTerminal then r
  else
    match w.targetState r with
    | none => r
    | some status =>
        { r with
          status := status
          celeryTaskId :=
            if r.targetType = .sm4Job ∧ r.celeryTaskId = none then
              some s!"doris-sm4-{r.targetId}"
            else r.celeryTaskId }

/-- `_reconcile_stage_dispatches`. -/
def reconcile (w : Dispatching) : Dispatching := w.mapRows w.reconcileRow

def Due (r : DispatchRow) (now : ℕ) : Prop :=
  r.status = .pending ∧ ∀ t ∈ r.nextAttemptAt, t ≤ now

instance (r : DispatchRow) (now : ℕ) : Decidable (Due r now) := by
  unfold Due
  infer_instance

/-- The ids of the pending rows that are due. -/
def dueIds (w : Dispatching) (now limit : ℕ) : List ℕ :=
  ((w.rows.filter (fun r => Due r now)).map DispatchRow.id).take (max 1 (min limit 500))

/-- The second `UPDATE` on a row. -/
def claimedRow (w : Dispatching) (r : DispatchRow) : DispatchRow :=
  { r with
    status := .dispatching
    attempts := r.attempts + 1
    lastAttemptAt := some w.now
    nextAttemptAt := none }

/-- The claim: only a row that is due is taken. -/
def claimRow (w : Dispatching) (d id : ℕ) (ids : List ℕ) : Dispatching :=
  match w.row id with
  | none => w.setPhase d (.listed ids)
  | some r =>
      if Due r w.now then
        (w.onRow id w.claimedRow).setPhase d
          (.claimed { rowId := id, attempt := r.attempts + 1, claimedAt := w.now } ids)
      else w.setPhase d (.listed ids)

/-- How the call of the broker ends. -/
inductive SendOutcome
  | delivered
  | raisedBefore (text : String)
  | raisedAfter (text : String)

def SendOutcome.reachesBroker : SendOutcome → Bool
  | .delivered | .raisedAfter _ => true
  | .raisedBefore _ => false

/-- `_dispatch_stage_task`: an SM4 row has no task of its own, the call sends queued jobs. -/
def sendRow (w : Dispatching) (d : ℕ) (claim : Claim) (ids : List ℕ) (outcome : SendOutcome) : Dispatching :=
  match w.row claim.rowId with
  | none => w.setPhase d (.listed ids)
  | some r =>
      let sentTerminal :=
        if r.targetType ≠ .sm4Job ∧ outcome.reachesBroker = true ∧ w.TargetTerminal r then
          w.sentTerminal ++ [claim.rowId]
        else w.sentTerminal
      let phase :=
        match outcome with
        | .delivered =>
            Phase.sent claim
              (if r.targetType = .sm4Job then none else some s!"data-automation-{r.id}") ids
        | .raisedBefore text | .raisedAfter text => Phase.raised claim text ids
      { w.setPhase d phase with sentTerminal := sentTerminal }

/-- The row after a send that raised nothing. -/
def sentRow (w : Dispatching) (celeryTaskId : Option String) (r : DispatchRow) : DispatchRow :=
  if r.targetType = .sm4Job then
    match w.targetState r with
    | some status =>
        { r with status := status, celeryTaskId := some s!"doris-sm4-{r.targetId}", lastError := none }
    | none => { r with status := .pending, nextAttemptAt := some (w.now + 30), lastError := none }
  else { r with status := .dispatched, celeryTaskId := celeryTaskId, lastError := none }

/-- `delay_seconds`. -/
def delaySeconds (attempts : ℕ) : ℕ :=
  min 300 (5 * 2 ^ min ((if attempts = 0 then 1 else attempts) - 1) 6)

/-- The row after an exception. -/
def raisedRow (w : Dispatching) (text : String) (r : DispatchRow) : DispatchRow :=
  { r with
    status := .pending
    nextAttemptAt := some (w.now + delaySeconds r.attempts)
    lastError := some ((text.take 100000).copy) }

/-- Write a claimed row and go on. -/
def writeRow (w : Dispatching) (d : ℕ) (claim : Claim) (ids : List ℕ)
    (f : DispatchRow → DispatchRow) : Dispatching :=
  (w.onRow claim.rowId f).setPhase d (.listed ids)

/-! ### The actions -/

inductive Action
  /-- Time passes. -/
  | wait (seconds : ℕ)
  /-- A stage registers its dispatch. -/
  | register (row : DispatchRow) (state : String)
  /-- A target changes its state. -/
  | progress (targetType : TargetType) (targetId : ℕ) (state : String)
  /-- Another process reconciles. -/
  | reconcile
  | start (d limit : ℕ)
  | list (d : ℕ)
  | claim (d : ℕ)
  | send (d : ℕ) (outcome : SendOutcome)
  | finish (d : ℕ)
  /-- The last transaction of a send fails. -/
  | finishRaises (d : ℕ) (text : String)
  | recover (d : ℕ)
  /-- A dispatcher returns, or its process ends anywhere. -/
  | stop (d : ℕ)

/-- One action; `none` where it cannot happen. -/
def step (w : Dispatching) (action : Action) : Option Dispatching :=
  match action with
  | .wait seconds => some { w with now := w.now + seconds }
  | .register row state =>
      if (w.row row.id).isSome ∨ row.status ≠ .pending ∨
          targetDispatchState row.targetType (some state) ≠ none ∨
            w.target row.targetType row.targetId ≠ none then none
      else
        some { w with
          rows := w.rows ++ [row]
          target := fun targetType id =>
            if targetType = row.targetType ∧ id = row.targetId then some state
            else w.target targetType id }
  | .progress targetType targetId state =>
      some { w with
        target := fun targetType' id =>
          if targetType' = targetType ∧ id = targetId then some state else w.target targetType' id }
  | .reconcile => some w.reconcile
  | .start d limit =>
      match w.phase d with
      | .idle => some (w.resetStale.reconcile.setPhase d (.reconciled w.now limit))
      | _ => none
  | .list d =>
      match w.phase d with
      | .reconciled now limit => some (w.setPhase d (.listed (w.dueIds now limit)))
      | _ => none
  | .claim d =>
      match w.phase d with
      | .listed (id :: ids) => some (w.claimRow d id ids)
      | _ => none
  | .send d outcome =>
      match w.phase d with
      | .claimed claim ids => some (w.sendRow d claim ids outcome)
      | _ => none
  | .finish d =>
      match w.phase d with
      | .sent claim celeryTaskId ids => some (w.writeRow d claim ids (w.sentRow celeryTaskId))
      | _ => none
  | .finishRaises d text =>
      match w.phase d with
      | .sent claim _ ids => some (w.setPhase d (.raised claim text ids))
      | _ => none
  | .recover d =>
      match w.phase d with
      | .raised claim text ids => some (w.writeRow d claim ids (w.raisedRow text))
      | _ => none
  | .stop d => some (w.setPhase d .idle)

end Dispatching

end RecoveryService.DataAutomation
