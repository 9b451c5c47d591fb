import RecoveryService.DataPlatform.Version

/-! # The rows of a change trigger

A change trigger watches values of a table and starts a run of its workflow version when they
have changed.  Its row keeps the value last seen (`observedValue`), the value of the last run
that succeeded (`appliedValue`), the confirmed value that waits for a run (`pendingValue`), the
values queued behind it and the id of the run it waits for.

This file holds the rows, and what the single transactions of `services/data_change_trigger.py`
write into the row of the trigger.  The values are those of an arbitrary type `V`: what a probe
reads, and whether it counts as a change, is decided by the conditions of the configuration. -/

set_option linter.unusedSectionVars false

namespace RecoveryService.ChangeTrigger

open DataPlatform

/-! ### Configuration -/

inductive FirstRunPolicy where
  | baselineOnly
  | manualConfirm
  | runImmediately
deriving DecidableEq

inductive OverlapPolicy where
  | merge
  | skip
  | queue

/-- The configuration of a trigger.  `conditions previous current` is the verdict of
`_evaluate_conditions`; the ends of the execution window are minutes of the day. -/
structure TriggerConfig (V : Type) where
  conditions : Option V → V → Bool
  firstRunPolicy : FirstRunPolicy := .baselineOnly
  overlapPolicy : OverlapPolicy := .merge
  probeIntervalMinutes : Option ℤ := none
  retryIntervalMinutes : Option ℤ := none
  consecutiveMatches : Option ℤ := none
  minimumTriggerIntervalMinutes : Option ℤ := none
  executionWindowEnabled : Bool := false
  executionWindowStart : ℕ := 0
  executionWindowEnd : ℕ := 23 * 60 + 59

/-- `int(value or default)`. -/
def intOr (value : Option ℤ) (default : ℤ) : ℤ :=
  match value with
  | none => default
  | some n => if n = 0 then default else n

section config

variable {V : Type} (config : TriggerConfig V)

def TriggerConfig.intervalMinutes : ℕ :=
  (max 1 (min 1440 (intOr config.probeIntervalMinutes 5))).toNat

def TriggerConfig.retryMinutes : ℕ := (max 1 (intOr config.retryIntervalMinutes 5)).toNat

/-- `int(row.config.get("consecutive_matches") or 1)`. -/
def TriggerConfig.requiredMatches : ℤ := intOr config.consecutiveMatches 1

def TriggerConfig.minimumMinutes : ℕ := (max 0 (intOr config.minimumTriggerIntervalMinutes 0)).toNat

/-- `_inside_execution_window`; the window may run over midnight. -/
def TriggerConfig.insideExecutionWindow (now : ℕ) : Bool :=
  if config.executionWindowEnabled then
    let current := now / 60 % 1440
    if config.executionWindowStart ≤ config.executionWindowEnd then
      config.executionWindowStart ≤ current ∧ current ≤ config.executionWindowEnd
    else config.executionWindowStart ≤ current ∨ current ≤ config.executionWindowEnd
  else true

end config

/-! ### Rows -/

inductive TriggerState where
  | active
  | paused
  | retired
  | waitingBaselineConfirm
  | pendingWindow
  | pendingDebounce
  | dispatching
  | running
  | pendingRetry
  | probeFailed
deriving DecidableEq

/-- A row of `data_platform_change_trigger_states`. -/
structure TriggerRow (V : Type) where
  id : ℕ
  workflowId : ℕ
  versionId : ℕ
  nodeKey : String
  nodeName : String
  enabled : Bool
  state : TriggerState
  config : TriggerConfig V
  observedValue : Option V := none
  pendingValue : Option V := none
  pendingQueue : List V := []
  appliedValue : Option V := none
  consecutiveMatches : ℤ := 0
  pendingRunId : Option ℕ := none
  lastProbeAt : Option ℕ := none
  nextProbeAt : Option ℕ
  lastTriggerAt : Option ℕ := none
  lastSuccessAt : Option ℕ := none
  message : String

/-- `trigger_context` of a run that a trigger starts. -/
structure TriggerContext (V : Type) where
  triggerStateId : ℕ
  probeId : ℕ
  nodeKey : String
  pendingValue : V
  appliedValue : Option V

/-- A row of `data_platform_workflow_runs`, as far as triggers are concerned. -/
structure WorkflowRun (V : Type) where
  id : ℕ
  versionId : ℕ
  triggerType : TriggerType
  triggerContext : Option (TriggerContext V)
  status : RunStatus
  message : String

inductive ProbeStatus where
  | observed
  | baseline
  | skippedOverlap
  | queuedOverlap
  | merged
  | pendingWindow
  | debounced
  | triggering
  | triggered
  | applied
  | failed
deriving DecidableEq

/-- A row of `data_platform_change_probes`. -/
structure ChangeProbe (V : Type) where
  id : ℕ
  previousValue : Option V
  currentValue : Option V
  matched : Bool
  status : ProbeStatus
  message : String
  runId : Option ℕ := none
  createdAt : ℕ

section row

variable {V : Type} [DecidableEq V]

/-- The run was started by the trigger with this id. -/
def WorkflowRun.startedBy (run : WorkflowRun V) (trigger : ℕ) : Prop :=
  run.triggerType = .dataChange ∧ ∃ context, run.triggerContext = some context ∧
    context.triggerStateId = trigger

instance (run : WorkflowRun V) (trigger : ℕ) : Decidable (run.startedBy trigger) :=
  decidable_of_iff (run.triggerType = .dataChange ∧
    run.triggerContext.any (fun context => context.triggerStateId = trigger)) (by
      unfold WorkflowRun.startedBy
      rw [Option.any_eq_true]
      simp)

/-! ### The end of a run -/

/-- The next queued value takes the place of the pending one. -/
def TriggerRow.popQueue (row : TriggerRow V) (now : ℕ) : TriggerRow V :=
  match row.pendingValue, row.pendingQueue with
  | none, value :: queue =>
      { row with pendingValue := some value, pendingQueue := queue, nextProbeAt := some now }
  | _, _ => row

/-- `finalize_change_trigger_run` for a run that succeeded. -/
def TriggerRow.applyRun (row : TriggerRow V) (now : ℕ) (runId : ℕ) (value : V) : TriggerRow V :=
  let row := { row with
    appliedValue := some value
    pendingValue := if row.pendingValue = some value then none else row.pendingValue
    nextProbeAt := if row.pendingValue = some value then row.nextProbeAt else some now
    pendingRunId := none }
  let row := row.popQueue now
  { row with
    lastSuccessAt := some now
    state :=
      if row.enabled = false then .paused
      else if row.pendingValue = none then .active else .pendingRetry
    nextProbeAt := if row.enabled then row.nextProbeAt else none
    message :=
      if row.pendingValue = none then s!"变化触发运行 {runId} 成功，已推进应用水位。"
      else s!"变化触发运行 {runId} 成功；运行期间发现了更新变化，将继续处理。" }

/-- `finalize_change_trigger_run` for a run that did not succeed. -/
def TriggerRow.keepPending (row : TriggerRow V) (now : ℕ) (runId : ℕ) : TriggerRow V :=
  { row with
    pendingRunId := none
    state := if row.enabled then .pendingRetry else .paused
    nextProbeAt := if row.enabled then some (now + 60 * row.config.retryMinutes) else none
    message := s!"变化触发运行 {runId} 未成功，保留 pending_value 等待重试。" }

/-- What `finalize_change_trigger_run` writes into the row; it ignores the runs the row does
not wait for. -/
def TriggerRow.finalizeRun (row : TriggerRow V) (now : ℕ) (run : WorkflowRun V) : TriggerRow V :=
  match run.triggerContext with
  | some context =>
      if run.triggerType = .dataChange ∧ context.triggerStateId = row.id ∧
          row.pendingRunId = some run.id then
        if run.status = .succeeded then row.applyRun now run.id context.pendingValue
        else row.keepPending now run.id
      else row
  | none => row

/-- The run the row waits for does not exist. -/
def TriggerRow.loseRun (row : TriggerRow V) : TriggerRow V :=
  { row with
    pendingRunId := none
    state := .pendingRetry
    message := "关联运行不存在，保留 pending_value 等待重试。" }

/-! ### A probe -/

/-- How a probe ends. -/
inductive ProbeOutcome where
  | baseline
  | waitBaseline
  | unmatched
  | skipped
  | queued
  | merged
  | window
  | debounce
  | trigger
deriving DecidableEq

/-- `_within_debounce`. -/
def TriggerRow.withinDebounce (row : TriggerRow V) (now : ℕ) : Bool :=
  match row.lastTriggerAt with
  | some last => now < last + 60 * row.config.minimumMinutes
  | none => false

/-- A probe takes the row over from an earlier change that has no run, or from no value at all:
it counts as matched whatever the conditions say. -/
def TriggerRow.forced (row : TriggerRow V) : Bool :=
  row.appliedValue = none ∨ (row.pendingValue ≠ none ∧ row.pendingRunId = none)

/-- Write what the probe has read. -/
def TriggerRow.observe (row : TriggerRow V) (now : ℕ) (current : V) : TriggerRow V :=
  { row with
    observedValue := some current
    lastProbeAt := some now
    nextProbeAt := some (now + 60 * row.config.intervalMinutes)
    consecutiveMatches :=
      if row.config.conditions row.appliedValue current then row.consecutiveMatches + 1 else 0 }

/-- The number of matches a probe counts; `row` is the row after `observe`. -/
def TriggerRow.countedMatches (row : TriggerRow V) : ℤ :=
  if row.forced then max row.consecutiveMatches row.config.requiredMatches
  else row.consecutiveMatches

/-- The branch a probe takes; `row` is the row after `observe`. -/
def TriggerRow.probeOutcome (row : TriggerRow V) (now : ℕ) (matched : Bool) : ProbeOutcome :=
  if row.appliedValue = none ∧ row.config.firstRunPolicy = .baselineOnly then .baseline
  else if row.appliedValue = none ∧ row.config.firstRunPolicy = .manualConfirm then .waitBaseline
  else if ¬ ((matched ∨ row.forced) ∧
      max 1 row.config.requiredMatches ≤ row.countedMatches) then .unmatched
  else if row.pendingRunId ≠ none then
    match row.config.overlapPolicy with
    | .skip => .skipped
    | .queue => .queued
    | .merge => .merged
  else if ¬ row.config.insideExecutionWindow now then .window
  else if row.withinDebounce now then .debounce
  else .trigger

/-- `queue[-100:]` after `current` was added. -/
def enqueueValue (queue : List V) (current : V) : List V :=
  let queue := if current ∈ queue then queue else queue ++ [current]
  queue.drop (queue.length - 100)

/-- What a probe writes into the row after `observe`; `runId` is the id of the planned run. -/
def TriggerRow.settle (row : TriggerRow V) (now : ℕ) (current : V) (runId : ℕ) :
    ProbeOutcome → TriggerRow V
  | .baseline =>
      { row with
        appliedValue := some current
        state := .active
        message := "首次探测仅建立基线。" }
  | .waitBaseline =>
      { row with
        appliedValue := none
        state := .waitingBaselineConfirm
        message := "首次探测等待人工确认基线。" }
  | .unmatched =>
      { row with
        consecutiveMatches := row.countedMatches
        message := "探测完成，条件未满足。" }
  | .skipped =>
      { row with
        consecutiveMatches := row.countedMatches
        message := "上一次运行未完成，本次变化按跳过策略记录但不排队。" }
  | .queued =>
      let queue := enqueueValue row.pendingQueue current
      { row with
        consecutiveMatches := row.countedMatches
        pendingQueue := queue
        message := s!"上一次运行未完成，本次变化已排队；队列长度 {queue.length}。" }
  | .merged =>
      { row with
        consecutiveMatches := row.countedMatches
        pendingValue := some current
        message := "已合并到当前待处理变化，等待在途运行完成。" }
  | .window =>
      { row with
        consecutiveMatches := row.countedMatches
        pendingValue := some current
        state := .pendingWindow
        message := "变化已确认，等待执行窗口。" }
  | .debounce =>
      { row with
        consecutiveMatches := row.countedMatches
        pendingValue := some current
        state := .pendingDebounce
        message := "变化已确认，等待最短触发间隔。" }
  | .trigger =>
      { row with
        consecutiveMatches := row.countedMatches
        pendingValue := some current
        pendingRunId := some runId
        lastTriggerAt := some now
        state := .dispatching
        message := s!"正在创建变化触发运行 {runId}。" }

/-- The status a probe is stored with. -/
def ProbeOutcome.probeStatus : ProbeOutcome → ProbeStatus
  | .baseline => .baseline
  | .waitBaseline => .baseline
  | .unmatched => .observed
  | .skipped => .skippedOverlap
  | .queued => .queuedOverlap
  | .merged => .merged
  | .window => .pendingWindow
  | .debounce => .debounced
  | .trigger => .triggering

/-! ### The other transactions -/

/-- What `retire_change_triggers` writes into the row. -/
def TriggerRow.retire (row : TriggerRow V) : TriggerRow V :=
  { row with enabled := false, state := .retired, nextProbeAt := none }

/-- A scheduled probe finds the trigger switched off. -/
def TriggerRow.retireProbed (row : TriggerRow V) : TriggerRow V :=
  { row.retire with message := "触发器源任务已删除或停用，巡检状态已退役。" }

/-- `not row.enabled or row.state == "retired" or _standalone_task_missing(session, row)`. -/
def TriggerRow.offDuty (row : TriggerRow V) (taskMissing : Bool) : Bool :=
  row.enabled = false ∨ row.state = .retired ∨ taskMissing

/-- What `_mark_probe_failure` writes into a row on duty. -/
def TriggerRow.failProbe (row : TriggerRow V) (now : ℕ) (text : String) : TriggerRow V :=
  { row with
    state := .probeFailed
    nextProbeAt := some (now + 60 * row.config.retryMinutes)
    message := s!"数据变化探测失败，{row.config.retryMinutes} 分钟后重试：{text}" }

/-- `update_change_trigger_state`. -/
def TriggerRow.updateState (row : TriggerRow V) (now : ℕ) (enabled : Bool) : TriggerRow V :=
  { row with
    enabled := enabled
    state := if enabled then .active else .paused
    nextProbeAt := if enabled then some now else none
    message := if enabled then "触发器已恢复。" else "触发器已暂停。" }

/-- `rebuild_change_trigger_baseline` once no run is pending. -/
def TriggerRow.rebuildBaseline (row : TriggerRow V) (now : ℕ) (current : V) : TriggerRow V :=
  { row with
    observedValue := some current
    appliedValue := some current
    pendingValue := none
    pendingQueue := []
    pendingRunId := none
    consecutiveMatches := 0
    lastProbeAt := some now
    nextProbeAt := some (now + 60 * row.config.intervalMinutes)
    state := .active
    message := "基线已按当前数据重新建立。" }

/-- The handler of a dispatch that failed. -/
def TriggerRow.handleFailure (row : TriggerRow V) (text : String) : TriggerRow V :=
  { row with
    pendingRunId := none
    state := .pendingRetry
    message := s!"触发工作流失败，保留变化等待重试：{text}" }

/-- The confirmation of a dispatch whose run is active. -/
def TriggerRow.confirmRun (row : TriggerRow V) (runId : ℕ) : TriggerRow V :=
  if row.pendingRunId = some runId then
    { row with state := .running, message := s!"已触发工作流运行 {runId}。" }
  else row

/-- The scheduler takes the row up for a probe. -/
def TriggerRow.takeUp (row : TriggerRow V) (now : ℕ) : TriggerRow V :=
  { row with nextProbeAt := some (now + 60 * row.config.intervalMinutes) }

/-! ### What the transactions leave alone -/

section frame

variable (row : TriggerRow V) (now : ℕ)

@[simp] theorem TriggerRow.popQueue_id : (row.popQueue now).id = row.id := by
  unfold TriggerRow.popQueue
  split <;> rfl

@[simp] theorem TriggerRow.popQueue_config : (row.popQueue now).config = row.config := by
  unfold TriggerRow.popQueue
  split <;> rfl

@[simp] theorem TriggerRow.popQueue_enabled : (row.popQueue now).enabled = row.enabled := by
  unfold TriggerRow.popQueue
  split <;> rfl

@[simp] theorem TriggerRow.popQueue_pendingRunId : (row.popQueue now).pendingRunId = row.pendingRunId := by
  unfold TriggerRow.popQueue
  split <;> rfl

@[simp] theorem TriggerRow.popQueue_appliedValue : (row.popQueue now).appliedValue = row.appliedValue := by
  unfold TriggerRow.popQueue
  split <;> rfl

theorem TriggerRow.popQueue_nextProbeAt (h : row.nextProbeAt ≠ none) :
    (row.popQueue now).nextProbeAt ≠ none := by
  unfold TriggerRow.popQueue
  split
  · simp
  · exact h

@[simp] theorem TriggerRow.applyRun_id (runId : ℕ) (value : V) :
    (row.applyRun now runId value).id = row.id := by
  simp [TriggerRow.applyRun]

@[simp] theorem TriggerRow.applyRun_config (runId : ℕ) (value : V) :
    (row.applyRun now runId value).config = row.config := by
  simp [TriggerRow.applyRun]

@[simp] theorem TriggerRow.applyRun_pendingRunId (runId : ℕ) (value : V) :
    (row.applyRun now runId value).pendingRunId = none := by
  simp [TriggerRow.applyRun]

@[simp] theorem TriggerRow.applyRun_appliedValue (runId : ℕ) (value : V) :
    (row.applyRun now runId value).appliedValue = some value := by
  simp [TriggerRow.applyRun]

/-- A success clears the pending value it applied. -/
theorem TriggerRow.applyRun_pendingValue (runId : ℕ) (value : V) (hq : row.pendingQueue = []) :
    (row.applyRun now runId value).pendingValue =
        (if row.pendingValue = some value then none else row.pendingValue) ∧
      (row.applyRun now runId value).pendingQueue = [] := by
  unfold TriggerRow.applyRun TriggerRow.popQueue
  simp [hq]

/-- The next queued value takes the place of the value applied. -/
theorem TriggerRow.applyRun_pendingQueue (runId : ℕ) (value next : V) (queue : List V)
    (hp : row.pendingValue = some value) (hq : row.pendingQueue = next :: queue) :
    (row.applyRun now runId value).pendingValue = some next ∧
      (row.applyRun now runId value).pendingQueue = queue := by
  unfold TriggerRow.applyRun TriggerRow.popQueue
  simp [hp, hq]

/-- A row that is enabled stays scheduled. -/
theorem TriggerRow.applyRun_scheduled (runId : ℕ) (value : V) (h : row.enabled = true → row.nextProbeAt ≠ none)
    (he : (row.applyRun now runId value).enabled = true) :
    (row.applyRun now runId value).nextProbeAt ≠ none := by
  have hen : row.enabled = true := by
    simpa [TriggerRow.applyRun] using he
  unfold TriggerRow.applyRun
  dsimp only
  rw [TriggerRow.popQueue_enabled, if_pos hen]
  apply TriggerRow.popQueue_nextProbeAt
  dsimp only
  split_ifs
  · exact h hen
  · simp

@[simp] theorem TriggerRow.finalizeRun_id (run : WorkflowRun V) : (row.finalizeRun now run).id = row.id := by
  unfold TriggerRow.finalizeRun
  split
  · split_ifs <;> simp [TriggerRow.keepPending]
  · rfl

/-- Finalisation either leaves the row alone or clears the run it was called for. -/
theorem TriggerRow.finalizeRun_pendingRunId (run : WorkflowRun V) : row.finalizeRun now run = row ∨
      (row.pendingRunId = some run.id ∧ (row.finalizeRun now run).pendingRunId = none) := by
  unfold TriggerRow.finalizeRun
  cases run.triggerContext with
  | none => exact Or.inl rfl
  | some context =>
      dsimp only
      split_ifs with h hs
      · exact Or.inr ⟨h.2.2, by simp⟩
      · exact Or.inr ⟨h.2.2, rfl⟩
      · exact Or.inl rfl

@[simp] theorem TriggerRow.settle_id (current : V) (runId : ℕ) (outcome : ProbeOutcome) :
    (row.settle now current runId outcome).id = row.id := by
  cases outcome <;> rfl

@[simp] theorem TriggerRow.settle_enabled (current : V) (runId : ℕ) (outcome : ProbeOutcome) :
    (row.settle now current runId outcome).enabled = row.enabled := by
  cases outcome <;> rfl

@[simp] theorem TriggerRow.settle_config (current : V) (runId : ℕ) (outcome : ProbeOutcome) :
    (row.settle now current runId outcome).config = row.config := by
  cases outcome <;> rfl

@[simp] theorem TriggerRow.settle_nextProbeAt (current : V) (runId : ℕ) (outcome : ProbeOutcome) :
    (row.settle now current runId outcome).nextProbeAt = row.nextProbeAt := by
  cases outcome <;> rfl

theorem TriggerRow.settle_pendingRunId (current : V) (runId : ℕ) (outcome : ProbeOutcome) :
    (row.settle now current runId outcome).pendingRunId =
      if outcome = .trigger then some runId else row.pendingRunId := by
  cases outcome <;> rfl

@[simp] theorem TriggerRow.settle_pendingQueue (current : V) (runId : ℕ) (outcome : ProbeOutcome) :
    (row.settle now current runId outcome).pendingQueue =
      if outcome = .queued then enqueueValue row.pendingQueue current else row.pendingQueue := by
  cases outcome <;> rfl

@[simp] theorem TriggerRow.settle_appliedValue (current : V) (runId : ℕ) (outcome : ProbeOutcome) :
    (row.settle now current runId outcome).appliedValue =
      if outcome = .baseline then some current
      else if outcome = .waitBaseline then none else row.appliedValue := by
  cases outcome <;> rfl

/-- The outcomes that confirm a change for the next run. -/
def ProbeOutcome.setsPending : ProbeOutcome → Bool
  | .merged => true
  | .window => true
  | .debounce => true
  | .trigger => true
  | _ => false

@[simp] theorem TriggerRow.settle_pendingValue (current : V) (runId : ℕ) (outcome : ProbeOutcome) :
    (row.settle now current runId outcome).pendingValue =
      if outcome.setsPending then some current else row.pendingValue := by
  cases outcome <;> rfl

variable {matched : Bool}

/-- The branches of a probe while a run is awaited. -/
theorem TriggerRow.probeOutcome_awaited (h : row.pendingRunId ≠ none) :
    row.probeOutcome now matched = .baseline ∨ row.probeOutcome now matched = .waitBaseline ∨
      row.probeOutcome now matched = .unmatched ∨
        row.probeOutcome now matched = (match row.config.overlapPolicy with
          | .skip => .skipped
          | .queue => .queued
          | .merge => .merged) := by
  unfold TriggerRow.probeOutcome
  split_ifs <;> simp_all

/-- The branches of a probe while no run is awaited. -/
theorem TriggerRow.probeOutcome_idle (h : row.pendingRunId = none) :
    row.probeOutcome now matched ≠ .skipped ∧ row.probeOutcome now matched ≠ .queued ∧
      row.probeOutcome now matched ≠ .merged := by
  unfold TriggerRow.probeOutcome
  split_ifs <;> simp_all

/-- A probe waits for a baseline only when there is none. -/
theorem TriggerRow.appliedValue_of_waitBaseline (h : row.probeOutcome now matched = .waitBaseline) :
    row.appliedValue = none := by
  unfold TriggerRow.probeOutcome at h
  split_ifs at h with h1 h2
  · exact h2.1
  · cases hpolicy : row.config.overlapPolicy <;> rw [hpolicy] at h <;> cases h

/-- Only a row that waits for no run triggers. -/
theorem TriggerRow.pendingRunId_of_trigger (h : row.probeOutcome now matched = .trigger) : row.pendingRunId = none := by
  unfold TriggerRow.probeOutcome at h
  split_ifs at h with _ _ _ hp
  · cases hpolicy : row.config.overlapPolicy <;> rw [hpolicy] at h <;> cases h
  · exact not_not.mp hp

@[simp] theorem TriggerRow.confirmRun_pendingRunId (runId : ℕ) :
    (row.confirmRun runId).pendingRunId = row.pendingRunId := by
  unfold TriggerRow.confirmRun
  split_ifs <;> rfl

@[simp] theorem TriggerRow.confirmRun_id (runId : ℕ) : (row.confirmRun runId).id = row.id := by
  unfold TriggerRow.confirmRun
  split_ifs <;> rfl

@[simp] theorem TriggerRow.confirmRun_nextProbeAt (runId : ℕ) :
    (row.confirmRun runId).nextProbeAt = row.nextProbeAt := by
  unfold TriggerRow.confirmRun
  split_ifs <;> rfl

end frame

end row

end RecoveryService.ChangeTrigger
