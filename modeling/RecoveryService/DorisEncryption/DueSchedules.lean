import RecoveryService.DataPlatform.DueVersions

/-! # A tick of the SM4 scheduler

`_run_due_sm4_schedules` is built like the tick over the workflow versions.  A schedule whose
connection profile is gone has its slot taken and is not submitted. -/

namespace RecoveryService.DorisEncryption

open DataPlatform ChangeTrigger

/-- A row of `doris_sm4_schedules`, as far as the scheduler is concerned. -/
structure Sm4Schedule where
  id : ℕ
  connectionId : ℕ
  enabled : Bool := true
  rule : ScheduleRule := {}
  nextRunAt : Option ℕ
  archivedAt : Option ℕ := none
  deletedAt : Option ℕ := none

def Sm4Schedule.due (schedule : Sm4Schedule) (now : ℕ) : Bool :=
  schedule.enabled ∧ schedule.nextRunAt.any (· ≤ now) ∧ schedule.archivedAt = none ∧
    schedule.deletedAt = none

/-- The due schedules that a tick takes up. -/
def dueSm4Schedules (now : ℕ) (schedules : List Sm4Schedule) : List Sm4Schedule :=
  firstTwenty Sm4Schedule.nextRunAt (schedules.filter (fun schedule => schedule.due now))

variable (nextScheduleTime : ScheduleRule → ℕ → Except String ℕ)

/-- `_run_due_sm4_schedules`; `profiles` are the ids of the connection profiles, and
`createBatch` is what `create_sm4_batch_task` raises for a schedule. -/
def runDueSm4Schedules (createBatch : ℕ → Option String) (profiles : List ℕ) (now : ℕ)
    (schedules : List Sm4Schedule) : Tick :=
  runTick Sm4Schedule.id
    (fun schedule => claimSlot nextScheduleTime now schedule.id schedule.rule true)
    (fun schedule => schedule.connectionId ∈ profiles) createBatch (dueSm4Schedules now schedules)

variable {nextScheduleTime}

/-- A tick over the schedules is honoured exactly when the next slot of one of them cannot be
computed, or all their connections have a profile and no submission but the last one raises. -/
theorem runDueSm4Schedules_honoured {createBatch : ℕ → Option String} {profiles : List ℕ} {now : ℕ}
    {schedules : List Sm4Schedule} (hnd : (schedules.map Sm4Schedule.id).Nodup) :
    (runDueSm4Schedules nextScheduleTime createBatch profiles now schedules).Honoured ↔
      (∃ schedule ∈ dueSm4Schedules now schedules, ∃ text,
          nextScheduleTime schedule.rule now = .error text) ∨
        ((∀ schedule ∈ dueSm4Schedules now schedules, schedule.connectionId ∈ profiles) ∧
          ∀ schedule ∈ (dueSm4Schedules now schedules).dropLast,
            createBatch schedule.id = none) := by
  have hdue : ((dueSm4Schedules now schedules).map Sm4Schedule.id).Nodup :=
    firstTwenty_nodup ((List.filter_sublist.map _).nodup hnd)
  unfold runDueSm4Schedules
  rw [runTick_honoured_iff hdue (fun _ _ h => claimSlot_eq_ok h) (fun _ _ => rfl)]
  simp only [claimSlot_eq_error, decide_eq_true_eq, forall_const]
  refine or_congr_right ?_
  -- when all profiles exist, all schedules taken up are due
  refine and_congr_right (fun hall => ?_)
  rw [List.filter_eq_self.mpr (by simpa using hall)]

/-! ### Both schedulers -/

/-- A tick submits every row whose slot it took exactly when no submission but the last one
raises (and, for the SM4 schedules, all connections have a profile), or when its transaction
raises and takes no slot. -/
theorem ticks_honoured_iff {V : Type} {nextVersionTime nextSm4Time : ScheduleRule → ℕ → Except String ℕ}
    {runVersion createBatch : ℕ → Option String} {runs : List (WorkflowRun V)} {profiles : List ℕ}
    {now : ℕ} {versions : List WorkflowVersion} {schedules : List Sm4Schedule}
    (hversions : (versions.map WorkflowVersion.id).Nodup) (hschedules : (schedules.map Sm4Schedule.id).Nodup) :
    ((runDueVersions nextVersionTime runVersion runs now versions).Honoured ↔
      (∃ version ∈ dueVersions now versions, ∃ text,
          nextVersionTime version.rule now = .error text) ∨
        ∀ version ∈ ((dueVersions now versions).filter
          (fun version => ¬ hasActiveWorkflowRun runs version.id)).dropLast,
            runVersion version.id = none) ∧
    ((runDueSm4Schedules nextSm4Time createBatch profiles now schedules).Honoured ↔
      (∃ schedule ∈ dueSm4Schedules now schedules, ∃ text,
          nextSm4Time schedule.rule now = .error text) ∨
        ((∀ schedule ∈ dueSm4Schedules now schedules, schedule.connectionId ∈ profiles) ∧
          ∀ schedule ∈ (dueSm4Schedules now schedules).dropLast,
            createBatch schedule.id = none)) :=
  ⟨runDueVersions_honoured hversions, runDueSm4Schedules_honoured hschedules⟩

/-- Two online versions that are due at `600`. -/
def dueTwice : List WorkflowVersion :=
  [{ countedVersion with scheduleEnabled := true, nextRunAt := some 500 },
    { countedVersion with id := 1, workflowId := 1, scheduleEnabled := true, nextRunAt := some 540 }]

/-- Two schedules that are due at `600`. -/
def dueSchedules : List Sm4Schedule :=
  [{ id := 0, connectionId := 7, nextRunAt := some 500 },
    { id := 1, connectionId := 7, nextRunAt := some 540 }]

/-- What a submission raises when only that of the row `failing` fails. -/
def onlyRaises (failing id : ℕ) : Option String :=
  if id = failing then some "Failed to submit workflow executor task" else none

def oneDayLater (_ : ScheduleRule) (after : ℕ) : Except String ℕ := .ok (after + 86400)

/-- The first submission raises: the slot of the second row is taken, and it is not submitted. -/
theorem tick_loses_slot :
    ¬ (runDueVersions oneDayLater (onlyRaises 0) ([] : List (WorkflowRun ℕ)) 600 dueTwice).Honoured ∧
      ¬ (runDueSm4Schedules oneDayLater (onlyRaises 0) [7] 600 dueSchedules).Honoured := by
  decide

/-- The last submission raises: both rows were submitted. -/
theorem tick_keeps_slots :
    (runDueVersions oneDayLater (onlyRaises 1) ([] : List (WorkflowRun ℕ)) 600 dueTwice).Honoured ∧
      (runDueSm4Schedules oneDayLater (onlyRaises 1) [7] 600 dueSchedules).Honoured := by
  have hboth :
      ((runDueVersions oneDayLater (onlyRaises 1) ([] : List (WorkflowRun ℕ)) 600 dueTwice).Honoured ↔
        _) ∧ ((runDueSm4Schedules oneDayLater (onlyRaises 1) [7] 600 dueSchedules).Honoured ↔ _) :=
    ticks_honoured_iff (by decide) (by decide)
  exact ⟨hboth.1.mpr (Or.inr (by decide)), hboth.2.mpr (Or.inr (by decide))⟩

end RecoveryService.DorisEncryption
