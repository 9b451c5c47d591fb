import RecoveryService.ChangeTrigger.Synchronize
import RecoveryService.Lib.Runs

/-! # A change trigger, its runs and its dispatches

The transactions of the service on one change trigger, as steps of a transition system.  A probe
that confirms a change only plans a run: it stores the id of the run in the row.  The run is
created by a second transaction, the executor task is submitted after it, and a third
transaction confirms the dispatch or, when something was raised in between, takes it back.  All
other operations may come between these transactions.

The state keeps the row, the runs and probes stored so far, the dispatches under way, how often
the scheduler has taken the row up without having probed it (`due`), how many scheduled probes
have failed and wait for `_mark_probe_failure` (`failing`), and the first id not used yet. -/

set_option linter.unusedSectionVars false

namespace RecoveryService.ChangeTrigger

open DataPlatform Checks

variable {V : Type}

/-- How far a dispatch has come. -/
inductive DispatchPhase where
  | planned
  | created
  | submitted
  | raised (text : String)
deriving DecidableEq

/-- A planned run on its way to the executor. -/
structure Dispatch (V : Type) where
  runId : ℕ
  versionId : ℕ
  context : TriggerContext V
  phase : DispatchPhase

structure System (V : Type) where
  row : TriggerRow V
  runs : List (WorkflowRun V) := []
  probes : List (ChangeProbe V) := []
  dispatches : List (Dispatch V) := []
  due : ℕ := 0
  failing : ℕ := 0
  nextId : ℕ := 0

section system

variable [DecidableEq V] (s : System V)

def System.findRun (id : ℕ) : Option (WorkflowRun V) := s.runs.find? (fun run => run.id = id)

def System.findDispatch (id : ℕ) : Option (Dispatch V) :=
  s.dispatches.find? (fun dispatch => dispatch.runId = id)

/-- Write the status and the message of a run. -/
def System.setRun (id : ℕ) (status : RunStatus) (message : String) : System V :=
  { s with
    runs := s.runs.map (fun run =>
      if run.id = id then { run with status := status, message := message } else run) }

def System.setPhase (id : ℕ) (phase : DispatchPhase) : System V :=
  { s with
    dispatches := s.dispatches.map (fun dispatch =>
      if dispatch.runId = id then { dispatch with phase := phase } else dispatch) }

def System.dropDispatch (id : ℕ) : System V :=
  { s with dispatches := s.dispatches.filter (fun dispatch => dispatch.runId ≠ id) }

def System.setProbe (id : ℕ) (f : ChangeProbe V → ChangeProbe V) : System V :=
  { s with probes := s.probes.map (fun probe => if probe.id = id then f probe else probe) }

/-! ### The end of a run -/

def System.finalizeChangeTriggerRun (now : ℕ) (run : WorkflowRun V) : System V :=
  match run.triggerContext with
  | some context =>
      if run.triggerType = .dataChange ∧ context.triggerStateId = s.row.id ∧
          s.row.pendingRunId = some run.id then
        let row := s.row.finalizeRun now run
        System.setProbe { s with row := row } context.probeId (fun probe =>
          { probe with
            status := if run.status = .succeeded then .applied else .failed
            message := row.message })
      else s
  | none => s

/-- Store the final status of a run and finalise it. -/
def System.endRun (now : ℕ) (id : ℕ) (status : RunStatus) (message : String) : System V :=
  match s.findRun id with
  | some run =>
      (s.setRun id status message).finalizeChangeTriggerRun now
        { run with status := status, message := message }
  | none => s

/-- `_mark_interrupted_runs_on_startup`. -/
def System.markInterruptedRuns (now : ℕ) : System V :=
  (s.runs.filter (fun run => run.status.active)).foldl
    (fun s run => s.endRun now run.id .failed
      "Workflow run was interrupted by service restart; please submit it again.") s

def System.reconcilePendingRun (now : ℕ) : System V :=
  match s.row.pendingRunId with
  | none => s
  | some id =>
      match s.findRun id with
      | some run => if run.status.active then s else s.finalizeChangeTriggerRun now run
      | none => { s with row := s.row.loseRun }

/-! ### A probe -/

/-- Whether the conditions hold for what a probe has read. -/
def System.matched (current : V) : Bool := s.row.config.conditions s.row.appliedValue current

/-- How a probe that has read `current` ends. -/
def System.probeOutcome (now : ℕ) (current : V) : ProbeOutcome :=
  (s.row.observe now current).probeOutcome now (s.matched current)

/-- The run a probe plans; the probe itself gets the id before it. -/
def System.plannedDispatch (current : V) : Dispatch V :=
  { runId := s.nextId + 1
    versionId := s.row.versionId
    context :=
      { triggerStateId := s.row.id
        probeId := s.nextId
        nodeKey := s.row.nodeKey
        pendingValue := current
        appliedValue := s.row.appliedValue }
    phase := .planned }

/-- The part of `_probe_and_maybe_run` after the reading: the probe is stored, and a dispatch is
planned when it triggers. -/
def System.recordProbe (now : ℕ) (current : V) : System V :=
  let outcome := s.probeOutcome now current
  let runId := s.nextId + 1
  let probe : ChangeProbe V :=
    { id := s.nextId
      previousValue := s.row.appliedValue
      currentValue := some current
      matched := s.matched current
      status := outcome.probeStatus
      message := "探测完成。"
      runId := if outcome = .trigger then some runId else none
      createdAt := now }
  { s with
    row := (s.row.observe now current).settle now current runId outcome
    probes := s.probes ++ [probe]
    dispatches :=
      if outcome = .trigger then s.dispatches ++ [s.plannedDispatch current] else s.dispatches
    nextId := s.nextId + 2 }

/-- A probe gets past its early returns. -/
def System.Reads (manual taskMissing : Bool) : Prop :=
  ¬ (s.row.offDuty taskMissing ∧ manual = false) ∧ s.row.state ≠ .dispatching

instance (manual taskMissing : Bool) : Decidable (s.Reads manual taskMissing) :=
  inferInstanceAs (Decidable (¬ (_ ∧ _) ∧ _ ≠ _))

/-- The first transaction of `_probe_and_maybe_run`. -/
def System.probe (now : ℕ) (manual taskMissing : Bool) (current : V) : System V :=
  if s.row.offDuty taskMissing ∧ manual = false then { s with row := s.row.retireProbed }
  else if s.row.state = .dispatching then s
  else (s.reconcilePendingRun now).recordProbe now current

/-! ### The run of a dispatch -/

def hasActiveWorkflowRun (runs : List (WorkflowRun V)) (versionId : ℕ) : Bool :=
  runs.any (fun run => run.versionId = versionId ∧ run.status.active)

/-- `prepare_workflow_run`; `version` is the version with the requested id, if there is one. -/
def prepareWorkflowRun (complete : NodeSpec → Bool) (version : Option WorkflowVersion)
    (runs : List (WorkflowRun V)) (id : ℕ) (triggerType : TriggerType)
    (context : Option (TriggerContext V)) : Except String (WorkflowRun V) :=
  match version with
  | none => .error "Workflow version does not exist."
  | some version => do
      raiseIf (version.status ∉ [.draft, .submitted, .online])
        "This version is offline and cannot run."
      validateComponentTaskBindings complete version.nodes
      raiseIf (hasActiveWorkflowRun runs version.id) ("This workflow version already has an " ++
        "active run. Please wait for it to finish before submitting again.")
      return {
        id := id
        versionId := version.id
        triggerType := triggerType
        triggerContext := context
        status := .queued
        message := "Waiting for workflow executor." }

/-- The transaction of `run_version` that creates the run of a dispatch. -/
def System.createRun (complete : NodeSpec → Bool) (version : Option WorkflowVersion)
    (dispatch : Dispatch V) : System V :=
  match prepareWorkflowRun complete version s.runs dispatch.runId .dataChange
      (some dispatch.context) with
  | .ok run => System.setPhase { s with runs := s.runs ++ [run] } dispatch.runId .created
  | .error text => s.setPhase dispatch.runId (.raised text)

/-- `_enqueue_workflow_run` and, when it raises, the handler in `run_version`. -/
def System.enqueueRun (now : ℕ) (id : ℕ) (failure : Option String) : System V :=
  match failure with
  | none => s.setPhase id .submitted
  | some text =>
      let message := "Failed to submit workflow executor task: " ++ text
      (s.endRun now id .failed message).setPhase id (.raised message)

/-- The third transaction of `_probe_and_maybe_run`. -/
def System.confirmDispatch (dispatch : Dispatch V) : System V :=
  let s := s.dropDispatch dispatch.runId
  match s.findRun dispatch.runId with
  | some run =>
      if run.status.active then
        System.setProbe { s with row := s.row.confirmRun run.id } dispatch.context.probeId (fun probe =>
          if probe.status = .triggering then
            { probe with
              runId := some run.id
              status := .triggered
              message := s!"已关联工作流运行 {run.id}。" }
          else probe)
      else s
  | none => s

/-- The transaction after a dispatch that raised. -/
def System.handleFailure (dispatch : Dispatch V) (text : String) : System V :=
  System.dropDispatch { s with row := s.row.handleFailure text } dispatch.runId

/-! ### The other operations -/

/-- `_mark_probe_failure`; the failed probe is stored unless the row is retired. -/
def System.markProbeFailure (now : ℕ) (taskMissing : Bool) (text : String) : System V :=
  if s.row.offDuty taskMissing then { s with row := s.row.retire }
  else
    { s with
      row := s.row.failProbe now text
      probes := s.probes ++ [{
        id := s.nextId
        previousValue := s.row.appliedValue
        currentValue := none
        matched := false
        status := .failed
        message := text
        createdAt := now }]
      nextId := s.nextId + 1 }

/-- `rebuild_change_trigger_baseline` with the confirmation given. -/
def System.rebuildBaseline (now : ℕ) (current : V) : Except String (System V) := do
  let s := s.reconcilePendingRun now
  raiseIf (s.row.pendingRunId ≠ none) "触发器仍有关联运行未结束，不能重建基线。"
  return { s with row := s.row.rebuildBaseline now current }

/-! ### What the parts of a transaction leave alone -/

theorem System.finalize_row (now : ℕ) (run : WorkflowRun V) :
    (s.finalizeChangeTriggerRun now run).row = s.row.finalizeRun now run := by
  unfold System.finalizeChangeTriggerRun TriggerRow.finalizeRun
  cases run.triggerContext with
  | none => rfl
  | some context =>
      dsimp only
      split_ifs <;> rfl

@[simp] theorem System.finalize_runs (now : ℕ) (run : WorkflowRun V) :
    (s.finalizeChangeTriggerRun now run).runs = s.runs := by
  unfold System.finalizeChangeTriggerRun
  split
  · split_ifs <;> rfl
  · rfl

@[simp] theorem System.finalize_dispatches (now : ℕ) (run : WorkflowRun V) :
    (s.finalizeChangeTriggerRun now run).dispatches = s.dispatches := by
  unfold System.finalizeChangeTriggerRun
  split
  · split_ifs <;> rfl
  · rfl

@[simp] theorem System.finalize_nextId (now : ℕ) (run : WorkflowRun V) :
    (s.finalizeChangeTriggerRun now run).nextId = s.nextId := by
  unfold System.finalizeChangeTriggerRun
  split
  · split_ifs <;> rfl
  · rfl

@[simp] theorem System.endRun_dispatches (now id : ℕ) (status : RunStatus) (message : String) :
    (s.endRun now id status message).dispatches = s.dispatches := by
  unfold System.endRun
  split
  · rw [System.finalize_dispatches]
    rfl
  · rfl

/-- Reconciliation forgets the run it does not find, or finalises it when it has ended. -/
theorem System.reconcile_cases (now : ℕ) : s.reconcilePendingRun now = s ∨
      (∃ id, s.row.pendingRunId = some id ∧ s.findRun id = none ∧
        s.reconcilePendingRun now = { s with row := s.row.loseRun }) ∨
      ∃ id run, s.row.pendingRunId = some id ∧ s.findRun id = some run ∧
        run.status.active = false ∧
        s.reconcilePendingRun now = s.finalizeChangeTriggerRun now run := by
  unfold System.reconcilePendingRun
  cases hp : s.row.pendingRunId with
  | none => exact Or.inl rfl
  | some id =>
      dsimp only
      cases hf : s.findRun id with
      | none => exact Or.inr (Or.inl ⟨id, rfl, hf, rfl⟩)
      | some run =>
          dsimp only
          split_ifs with ha
          · exact Or.inl rfl
          · exact Or.inr (Or.inr ⟨id, run, rfl, hf, by simpa using ha, rfl⟩)

theorem System.findRun_eq_some {id : ℕ} {run : WorkflowRun V} (h : s.findRun id = some run) :
    run ∈ s.runs ∧ run.id = id :=
  ⟨List.mem_of_find?_eq_some h, by simpa using List.find?_some h⟩

theorem System.findRun_eq_none {id : ℕ} (h : s.findRun id = none) : ∀ run ∈ s.runs, run.id ≠ id := by
  simpa using List.find?_eq_none.mp h

theorem System.findDispatch_eq_some {id : ℕ} {dispatch : Dispatch V}
    (h : s.findDispatch id = some dispatch) : dispatch ∈ s.dispatches ∧ dispatch.runId = id :=
  ⟨List.mem_of_find?_eq_some h, by simpa using List.find?_some h⟩

@[simp] theorem System.recordProbe_config (now : ℕ) (current : V) :
    (s.recordProbe now current).row.config = s.row.config :=
  TriggerRow.settle_config _ _ _ _ _

theorem System.recordProbe_pendingValue (now : ℕ) (current : V) : (s.recordProbe now current).row.pendingValue =
      if (s.probeOutcome now current).setsPending then some current else s.row.pendingValue :=
  TriggerRow.settle_pendingValue _ _ _ _ _

theorem System.recordProbe_pendingQueue (now : ℕ) (current : V) : (s.recordProbe now current).row.pendingQueue =
      if s.probeOutcome now current = .queued then enqueueValue s.row.pendingQueue current
      else s.row.pendingQueue :=
  TriggerRow.settle_pendingQueue _ _ _ _ _

theorem System.recordProbe_appliedValue (now : ℕ) (current : V) : (s.recordProbe now current).row.appliedValue =
      if s.probeOutcome now current = .baseline then some current
      else if s.probeOutcome now current = .waitBaseline then none else s.row.appliedValue :=
  TriggerRow.settle_appliedValue _ _ _ _ _

theorem System.recordProbe_pendingRunId (now : ℕ) (current : V) : (s.recordProbe now current).row.pendingRunId =
      if s.probeOutcome now current = .trigger then some (s.nextId + 1) else s.row.pendingRunId :=
  TriggerRow.settle_pendingRunId _ _ _ _ _

/-- The branches of a probe while a run is awaited. -/
theorem System.probeOutcome_awaited (now : ℕ) (current : V) (h : s.row.pendingRunId ≠ none) :
    s.probeOutcome now current = .baseline ∨ s.probeOutcome now current = .waitBaseline ∨
      s.probeOutcome now current = .unmatched ∨
        s.probeOutcome now current = (match s.row.config.overlapPolicy with
          | .skip => .skipped
          | .queue => .queued
          | .merge => .merged) :=
  (s.row.observe now current).probeOutcome_awaited now h

/-- The branches of a probe while no run is awaited. -/
theorem System.probeOutcome_idle (now : ℕ) (current : V) (h : s.row.pendingRunId = none) :
    s.probeOutcome now current ≠ .skipped ∧ s.probeOutcome now current ≠ .queued ∧
      s.probeOutcome now current ≠ .merged :=
  (s.row.observe now current).probeOutcome_idle now h

theorem prepareWorkflowRun_ok {complete : NodeSpec → Bool} {version : Option WorkflowVersion}
    {runs : List (WorkflowRun V)} {id : ℕ} {triggerType : TriggerType}
    {context : Option (TriggerContext V)} {run : WorkflowRun V}
    (h : prepareWorkflowRun complete version runs id triggerType context = .ok run) :
    run.id = id ∧ run.triggerType = triggerType ∧ run.triggerContext = context ∧
      run.status = .queued := by
  unfold prepareWorkflowRun at h
  cases version with
  | none => cases h
  | some version =>
      obtain ⟨_, _, h⟩ := bind_eq_ok.mp h
      obtain ⟨_, _, h⟩ := bind_eq_ok.mp h
      obtain ⟨_, _, h⟩ := bind_eq_ok.mp h
      cases h
      exact ⟨rfl, rfl, rfl, rfl⟩

end system

/-! ### Steps -/

/-- The transactions, with what they read from outside. -/
inductive Action (V : Type) where
  | takeUp (now : ℕ)
  | scheduledProbe (now : ℕ) (taskMissing : Bool) (current : V)
  | scheduledProbeRaises (taskMissing : Bool)
  | markProbeFailure (now : ℕ) (taskMissing : Bool) (text : String)
  | manualProbe (now : ℕ) (taskMissing : Bool) (current : V)
  | createRun (runId : ℕ) (version : Option WorkflowVersion)
  | enqueueRun (now : ℕ) (runId : ℕ) (failure : Option String)
  | confirmDispatch (runId : ℕ)
  | handleFailure (runId : ℕ)
  | submitRun (version : Option WorkflowVersion) (triggerType : TriggerType)
      (context : Option (TriggerContext V))
  | claimRun (runId : ℕ)
  | finishRun (now : ℕ) (runId : ℕ) (status : RunStatus) (message : String)
  | markInterruptedRuns (now : ℕ)
  | updateState (now : ℕ) (enabled : Bool)
  | rebuildBaseline (now : ℕ) (current : V)
  | synchronize (now : ℕ) (version : WorkflowVersion)
  | retire

section step

variable [DecidableEq V] (complete : NodeSpec → Bool)
  (normalizeTriggerConfig : List NodeSpec → Json → Except String (TriggerConfig V))

/-- One transaction. -/
def step (s : System V) : Action V → Option (System V)
  | .takeUp now =>
      if s.row.enabled ∧ (s.row.nextProbeAt.any (· ≤ now)) then
        some { s with row := s.row.takeUp now, due := s.due + 1 }
      else none
  | .scheduledProbe now taskMissing current =>
      if s.due = 0 then none
      else some (System.probe { s with due := s.due - 1 } now false taskMissing current)
  | .scheduledProbeRaises taskMissing =>
      if s.due = 0 ∨ s.row.offDuty taskMissing ∨ s.row.state = .dispatching then none
      else some { s with due := s.due - 1, failing := s.failing + 1 }
  | .markProbeFailure now taskMissing text =>
      if s.failing = 0 then none
      else some (System.markProbeFailure { s with failing := s.failing - 1 } now taskMissing text)
  | .manualProbe now taskMissing current => some (s.probe now true taskMissing current)
  | .createRun runId version =>
      match s.findDispatch runId with
      | some dispatch =>
          if dispatch.phase = .planned ∧ version.all (·.id = dispatch.versionId) then
            some (s.createRun complete version dispatch)
          else none
      | none => none
  | .enqueueRun now runId failure =>
      match s.findDispatch runId with
      | some dispatch =>
          if dispatch.phase = .created then some (s.enqueueRun now runId failure) else none
      | none => none
  | .confirmDispatch runId =>
      match s.findDispatch runId with
      | some dispatch =>
          if dispatch.phase = .submitted then some (s.confirmDispatch dispatch) else none
      | none => none
  | .handleFailure runId =>
      match s.findDispatch runId with
      | some dispatch =>
          match dispatch.phase with
          | .raised text => some (s.handleFailure dispatch text)
          | _ => none
      | none => none
  | .submitRun version triggerType context =>
      if triggerType = .dataChange ∧ context.any (·.triggerStateId = s.row.id) then none
      else
        match prepareWorkflowRun complete version s.runs s.nextId triggerType context with
        | .ok run => some { s with runs := s.runs ++ [run], nextId := s.nextId + 1 }
        | .error _ => none
  | .claimRun runId =>
      match s.findRun runId with
      | some run =>
          if run.status = .queued then some (s.setRun runId .running "Workflow is running.")
          else none
      | none => none
  | .finishRun now runId status message =>
      match s.findRun runId with
      | some run =>
          if run.status.active ∧ ¬ status.active then some (s.endRun now runId status message)
          else none
      | none => none
  | .markInterruptedRuns now => some (s.markInterruptedRuns now)
  | .updateState now enabled => some { s with row := s.row.updateState now enabled }
  | .rebuildBaseline now current =>
      match s.rebuildBaseline now current with
      | .ok s => some s
      | .error _ => none
  | .synchronize now version =>
      match synchronizeChangeTriggers normalizeTriggerConfig now version (s.row.id + 1) [s.row] with
      | .ok rows => (rows.find? (fun row => row.id = s.row.id)).map (fun row => { s with row := row })
      | .error _ => none
  | .retire => some { s with row := s.row.retire }

/-! ### What an enabled transaction does -/

variable {complete} {normalizeTriggerConfig} {s s' : System V}
variable {now : ℕ}

theorem step_takeUp (h : step complete normalizeTriggerConfig s (.takeUp now) = some s') :
    s.row.enabled = true ∧ s' = { s with row := s.row.takeUp now, due := s.due + 1 } := by
  simp only [step] at h
  split_ifs at h with hc
  cases h
  exact ⟨hc.1, rfl⟩

variable {taskMissing : Bool}

theorem step_scheduledProbe {current : V}
    (h : step complete normalizeTriggerConfig s (.scheduledProbe now taskMissing current) = some s') :
    s' = System.probe { s with due := s.due - 1 } now false taskMissing current := by
  simp only [step] at h
  split_ifs at h
  cases h
  rfl

theorem step_scheduledProbeRaises
    (h : step complete normalizeTriggerConfig s (.scheduledProbeRaises taskMissing) = some s') :
    s' = { s with due := s.due - 1, failing := s.failing + 1 } := by
  simp only [step] at h
  split_ifs at h
  cases h
  rfl

theorem step_markProbeFailure {text : String}
    (h : step complete normalizeTriggerConfig s (.markProbeFailure now taskMissing text) = some s') :
    s' = System.markProbeFailure { s with failing := s.failing - 1 } now taskMissing text := by
  simp only [step] at h
  split_ifs at h
  cases h
  rfl

variable {runId : ℕ}
variable {version : Option WorkflowVersion}

theorem step_createRun (h : step complete normalizeTriggerConfig s (.createRun runId version) = some s') :
    ∃ dispatch ∈ s.dispatches, dispatch.phase = .planned ∧
      s' = s.createRun complete version dispatch := by
  simp only [step] at h
  cases hf : s.findDispatch runId with
  | none =>
      rw [hf] at h
      cases h
  | some dispatch =>
      rw [hf] at h
      dsimp only at h
      split_ifs at h with hc
      cases h
      exact ⟨dispatch, (s.findDispatch_eq_some hf).1, hc.1, rfl⟩

theorem step_enqueueRun {failure : Option String}
    (h : step complete normalizeTriggerConfig s (.enqueueRun now runId failure) = some s') :
    s' = s.enqueueRun now runId failure := by
  simp only [step] at h
  cases hf : s.findDispatch runId with
  | none =>
      rw [hf] at h
      cases h
  | some dispatch =>
      rw [hf] at h
      dsimp only at h
      split_ifs at h
      cases h
      rfl

theorem step_confirmDispatch (h : step complete normalizeTriggerConfig s (.confirmDispatch runId) = some s') :
    ∃ dispatch, s' = s.confirmDispatch dispatch := by
  simp only [step] at h
  cases hf : s.findDispatch runId with
  | none =>
      rw [hf] at h
      cases h
  | some dispatch =>
      rw [hf] at h
      dsimp only at h
      split_ifs at h
      cases h
      exact ⟨dispatch, rfl⟩

theorem step_handleFailure (h : step complete normalizeTriggerConfig s (.handleFailure runId) = some s') :
    ∃ dispatch ∈ s.dispatches, dispatch.runId = runId ∧ ∃ text, dispatch.phase = .raised text ∧
      s' = s.handleFailure dispatch text := by
  simp only [step] at h
  cases hf : s.findDispatch runId with
  | none =>
      rw [hf] at h
      cases h
  | some dispatch =>
      rw [hf] at h
      dsimp only at h
      obtain ⟨hd, hid⟩ := s.findDispatch_eq_some hf
      cases hp : dispatch.phase with
      | raised text =>
          rw [hp] at h
          cases h
          exact ⟨dispatch, hd, hid, text, hp, rfl⟩
      | planned | created | submitted =>
          rw [hp] at h
          cases h

theorem step_submitRun {triggerType : TriggerType} {context : Option (TriggerContext V)}
    (h : step complete normalizeTriggerConfig s (.submitRun version triggerType context) = some s') :
    ∃ run : WorkflowRun V, run.id = s.nextId ∧ ¬ run.startedBy s.row.id ∧
      s' = { s with runs := s.runs ++ [run], nextId := s.nextId + 1 } := by
  simp only [step] at h
  split_ifs at h with hc
  cases hrun : prepareWorkflowRun complete version s.runs s.nextId triggerType context with
  | error text =>
      rw [hrun] at h
      cases h
  | ok run =>
      rw [hrun] at h
      cases h
      obtain ⟨hid, htype, hcontext, _⟩ := prepareWorkflowRun_ok hrun
      refine ⟨run, hid, ?_, rfl⟩
      rintro ⟨ht, c, hc', htrigger⟩
      apply hc
      rw [← htype, ← hcontext, hc']
      exact ⟨ht, by simpa using htrigger⟩

theorem step_claimRun (h : step complete normalizeTriggerConfig s (.claimRun runId) = some s') :
    ∃ run ∈ s.runs, run.id = runId ∧ run.status = .queued ∧
      s' = s.setRun runId .running "Workflow is running." := by
  simp only [step] at h
  cases hf : s.findRun runId with
  | none =>
      rw [hf] at h
      cases h
  | some run =>
      rw [hf] at h
      dsimp only at h
      split_ifs at h with hc
      cases h
      obtain ⟨hr, hid⟩ := s.findRun_eq_some hf
      exact ⟨run, hr, hid, hc, rfl⟩

theorem step_finishRun {status : RunStatus} {message : String}
    (h : step complete normalizeTriggerConfig s (.finishRun now runId status message) = some s') :
    status.active = false ∧ s' = s.endRun now runId status message := by
  simp only [step] at h
  cases hf : s.findRun runId with
  | none =>
      rw [hf] at h
      cases h
  | some run =>
      rw [hf] at h
      dsimp only at h
      split_ifs at h with hc
      cases h
      exact ⟨by simpa using hc.2, rfl⟩

theorem step_rebuildBaseline {current : V}
    (h : step complete normalizeTriggerConfig s (.rebuildBaseline now current) = some s') :
    (s.reconcilePendingRun now).row.pendingRunId = none ∧
      s' = { s.reconcilePendingRun now with
        row := (s.reconcilePendingRun now).row.rebuildBaseline now current } := by
  simp only [step] at h
  cases hr : s.rebuildBaseline now current with
  | error text =>
      rw [hr] at h
      cases h
  | ok t =>
      rw [hr] at h
      cases h
      unfold System.rebuildBaseline at hr
      obtain ⟨_, hcheck, hr⟩ := bind_eq_ok.mp hr
      cases hr
      rw [raiseIf_eq_ok, not_not] at hcheck
      exact ⟨hcheck, rfl⟩

theorem step_synchronize {version : WorkflowVersion}
    (h : step complete normalizeTriggerConfig s (.synchronize now version) = some s') :
    ∃ configured, configuredNodes normalizeTriggerConfig version = .ok configured ∧
      s' = { s with
        row := if s.row.versionId = version.id then synchronizeRow now configured s.row else s.row } := by
  simp only [step] at h
  cases hrows : synchronizeChangeTriggers normalizeTriggerConfig now version (s.row.id + 1) [s.row] with
  | error text =>
      rw [hrows] at h
      cases h
  | ok rows =>
      rw [hrows] at h
      obtain ⟨configured, hc, hfind⟩ := synchronize_single normalizeTriggerConfig hrows
      dsimp only at h
      rw [hfind] at h
      cases h
      exact ⟨configured, hc, rfl⟩

end step

/-! ### A trigger that counts rows -/

/-- The configuration of a trigger that fires on every change. -/
def everyChange : TriggerConfig ℕ :=
  { conditions := fun previous current => previous.any (· ≠ current) }

def countedVersion : WorkflowVersion :=
  { id := 0
    workflowId := 0
    versionNo := 1
    channel := .prod
    status := .online
    nodes := [{ key := "change", name := "change", nodeType := .changeTrigger,
                config := .obj [("task_definition_id", .str "task")] },
              { key := "load", name := "load" }]
    edges := [("change", "load")]
    releaseSnapshot := none
    scheduleEnabled := false }

/-- The trigger as publishing leaves it. -/
def countedStart : System ℕ :=
  { row := newTriggerRow 0 countedVersion 0
      { key := "change", name := "change", nodeType := .changeTrigger } everyChange }

abbrev countedStep : System ℕ → Action ℕ → Option (System ℕ) :=
  step (fun _ => false) (fun _ _ => .ok everyChange)

end RecoveryService.ChangeTrigger
