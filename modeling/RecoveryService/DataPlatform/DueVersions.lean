import RecoveryService.ChangeTrigger.System
import RecoveryService.Lib.Calls

/-! # A tick of the time scheduler

A tick takes up the due rows in the order of their `next_run_at`, at most 20 of them, and writes
their next slots in one transaction.  After it has been committed the rows are submitted one
after the other, and the first submission that raises ends the tick.

The slot of a row is taken when `last_run_at` is written; a tick is honoured when every row whose
slot it took was submitted (`Tick.Honoured`).

The time of the next slot (`_next_schedule_time`) and what a submission raises are parameters:
nothing below depends on them. -/

namespace RecoveryService.DataPlatform

open Checks Calls ChangeTrigger

/-- What a tick writes into a row. -/
structure SlotUpdate where
  id : ℕ
  lastRunAt : Option ℕ
  nextRunAt : ℕ

/-- The updates committed, the submissions made and what ended the tick. -/
structure Tick where
  updates : List SlotUpdate := []
  called : List ℕ := []
  raised : Option String := none

/-- Every row whose slot was taken was submitted. -/
def Tick.Honoured (tick : Tick) : Prop :=
  ∀ update ∈ tick.updates, update.lastRunAt ≠ none → update.id ∈ tick.called

instance (tick : Tick) : Decidable tick.Honoured :=
  inferInstanceAs (Decidable (∀ update ∈ tick.updates, _ → _))

section rows

variable {α : Type} (id : α → ℕ) (nextRunAt : α → Option ℕ)

/-- `.order_by(next_run_at).limit(20)`. -/
def firstTwenty (rows : List α) : List α :=
  (rows.insertionSort (fun a b => (nextRunAt a).getD 0 ≤ (nextRunAt b).getD 0)).take 20

/-- Commit the claims of the rows, then submit the due ones. -/
def runTick (claim : α → Except String SlotUpdate) (due : α → Bool) (submit : ℕ → Option String)
    (rows : List α) : Tick :=
  match rows.mapM claim with
  | .error text => { raised := some text }
  | .ok updates =>
      let calls := callEach submit ((rows.filter due).map id)
      { updates := updates, called := calls.called, raised := calls.raised }

variable {id nextRunAt}

theorem firstTwenty_nodup {rows : List α} (h : (rows.map id).Nodup) :
    ((firstTwenty nextRunAt rows).map id).Nodup := by
  have hsorted : ((rows.insertionSort
      (fun a b => (nextRunAt a).getD 0 ≤ (nextRunAt b).getD 0)).map id).Nodup :=
    ((List.perm_insertionSort _ rows).map id).nodup_iff.mpr h
  exact ((List.take_sublist 20 _).map id).nodup hsorted

variable {claim : α → Except String SlotUpdate} {takes due : α → Bool} {submit : ℕ → Option String}
  {rows : List α}

/-- Where a claim takes the slot of the rows with `takes`: the tick is honoured exactly when its
transaction raises, or every row whose slot it takes is due and no submission but the last one
raises. -/
theorem runTick_honoured_iff (hnd : (rows.map id).Nodup) (hclaim : ∀ a update, claim a = .ok update →
      update.id = id a ∧ (update.lastRunAt ≠ none ↔ takes a = true))
    (hdue : ∀ a, due a = true → takes a = true) :
    (runTick id claim due submit rows).Honoured ↔
      (∃ a ∈ rows, ∃ text, claim a = .error text) ∨
        ((∀ a ∈ rows, takes a = true → due a = true) ∧
          ∀ a ∈ (rows.filter due).dropLast, submit (id a) = none) := by
  unfold runTick
  cases hm : rows.mapM claim with
  | error text =>
      obtain ⟨a, ha, he⟩ := mapM_eq_error hm
      constructor
      · exact fun _ => Or.inl ⟨a, ha, text, he⟩
      · intro _ update hu
        cases hu
  | ok updates =>
      obtain ⟨hto, hfrom⟩ := mapM_eq_ok hm
      have hraises : ¬ ∃ a ∈ rows, ∃ text, claim a = .error text := by
        rintro ⟨a, ha, text, he⟩
        obtain ⟨update, _, hok⟩ := hto a ha
        rw [he] at hok
        cases hok
      have hdueNodup : ((rows.filter due).map id).Nodup :=
        (List.filter_sublist.map id).nodup hnd
      have hcovers := callEach_covers_iff submit hdueNodup
      rw [← List.map_dropLast, List.forall_mem_map, List.forall_mem_map] at hcovers
      rw [or_iff_right hraises, ← hcovers]
      dsimp only [Tick.Honoured]
      constructor
      · intro hhonoured
        have hcalled : ∀ a ∈ rows, takes a = true →
            id a ∈ (callEach submit ((rows.filter due).map id)).called := by
          intro a ha htakes
          obtain ⟨update, hu, hok⟩ := hto a ha
          obtain ⟨hid, htaken⟩ := hclaim a update hok
          rw [← hid]
          exact hhonoured update hu (htaken.mpr htakes)
        constructor
        · intro a ha htakes
          have hmem := (callEach_called_sublist submit _).subset (hcalled a ha htakes)
          obtain ⟨b, hb, he⟩ := List.mem_map.mp hmem
          obtain ⟨hb, hbdue⟩ := List.mem_filter.mp hb
          rw [← List.inj_on_of_nodup_map hnd hb ha he]
          exact hbdue
        · intro a ha
          obtain ⟨ha, hadue⟩ := List.mem_filter.mp ha
          exact hcalled a ha (hdue a hadue)
      · rintro ⟨hall, hcalled⟩ update hu htaken
        obtain ⟨a, ha, hok⟩ := hfrom update hu
        obtain ⟨hid, htakes⟩ := hclaim a update hok
        rw [hid]
        exact hcalled a (List.mem_filter.mpr ⟨ha, hall a ha (htakes.mp htaken)⟩)

end rows

/-! ### The tick over the versions -/

variable {V : Type} (nextScheduleTime : ScheduleRule → ℕ → Except String ℕ)

/-- The new slot of a row; `takes` when the row gets its `last_run_at`. -/
def claimSlot (now : ℕ) (id : ℕ) (rule : ScheduleRule) (takes : Bool) : Except String SlotUpdate := do
  let next ← nextScheduleTime rule now
  return { id := id, lastRunAt := if takes then some now else none, nextRunAt := next }

def WorkflowVersion.due (version : WorkflowVersion) (now : ℕ) : Bool :=
  version.channel = .prod ∧ version.status = .online ∧ version.scheduleEnabled ∧
    version.nextRunAt.any (· ≤ now)

/-- The due versions that a tick takes up. -/
def dueVersions (now : ℕ) (versions : List WorkflowVersion) : List WorkflowVersion :=
  firstTwenty WorkflowVersion.nextRunAt (versions.filter (fun version => version.due now))

/-- `_run_due_versions`; a version with an active run only gets another slot.  `runVersion` is
what `run_version` raises for a version. -/
def runDueVersions (runVersion : ℕ → Option String) (runs : List (WorkflowRun V)) (now : ℕ)
    (versions : List WorkflowVersion) : Tick :=
  let idle := fun version : WorkflowVersion => ¬ hasActiveWorkflowRun runs version.id
  runTick WorkflowVersion.id
    (fun version => claimSlot nextScheduleTime now version.id version.rule (idle version))
    (fun version => idle version) runVersion (dueVersions now versions)

variable {nextScheduleTime}

theorem claimSlot_eq_ok {now id : ℕ} {rule : ScheduleRule} {takes : Bool} {update : SlotUpdate}
    (h : claimSlot nextScheduleTime now id rule takes = .ok update) :
    update.id = id ∧ (update.lastRunAt ≠ none ↔ takes = true) := by
  unfold claimSlot at h
  obtain ⟨next, _, h⟩ := bind_eq_ok.mp h
  cases h
  cases takes <;> simp

theorem claimSlot_eq_error {now id : ℕ} {rule : ScheduleRule} {takes : Bool} :
    (∃ text, claimSlot nextScheduleTime now id rule takes = .error text) ↔
      ∃ text, nextScheduleTime rule now = .error text := by
  unfold claimSlot
  cases nextScheduleTime rule now <;> simp [bind, Except.bind, pure, Except.pure]

/-- A tick over the versions is honoured exactly when the next slot of one of them cannot be
computed, or no submission but the last one raises. -/
theorem runDueVersions_honoured {runVersion : ℕ → Option String} {runs : List (WorkflowRun V)}
    {now : ℕ} {versions : List WorkflowVersion} (hnd : (versions.map WorkflowVersion.id).Nodup) :
    (runDueVersions nextScheduleTime runVersion runs now versions).Honoured ↔
      (∃ version ∈ dueVersions now versions, ∃ text,
          nextScheduleTime version.rule now = .error text) ∨
        ∀ version ∈ ((dueVersions now versions).filter
          (fun version => ¬ hasActiveWorkflowRun runs version.id)).dropLast,
            runVersion version.id = none := by
  have hdue : ((dueVersions now versions).map WorkflowVersion.id).Nodup :=
    firstTwenty_nodup ((List.filter_sublist.map _).nodup hnd)
  unfold runDueVersions
  dsimp only
  rw [runTick_honoured_iff hdue (fun _ _ h => claimSlot_eq_ok h) (fun _ h => h)]
  simp only [claimSlot_eq_error]
  refine or_congr_right ?_
  exact and_iff_right (fun _ _ h => h)

end RecoveryService.DataPlatform
