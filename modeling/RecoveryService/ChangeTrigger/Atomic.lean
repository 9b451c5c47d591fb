import RecoveryService.ChangeTrigger.System

/-! # Operations of a change trigger, each in one go

The same operations without interleaving: a probe that triggers creates its run, submits it and
confirms it before anything else happens (`System.deliver`).  `deliver_run` says that this is a
run of the interleaved system. -/

set_option linter.unusedSectionVars false

namespace RecoveryService.ChangeTrigger

open DataPlatform Checks Runs

variable {V : Type} [DecidableEq V]

/-- What the dispatch of a planned run meets: the version it finds, and what submitting the
executor task raises. -/
structure Delivery where
  version : Option WorkflowVersion
  failure : Option String

/-- The transactions of a dispatch after the one that planned it. -/
def System.deliver (complete : NodeSpec → Bool) (now : ℕ) (delivery : Delivery) (s : System V)
    (dispatch : Dispatch V) : System V :=
  match prepareWorkflowRun complete delivery.version s.runs dispatch.runId .dataChange
      (some dispatch.context) with
  | .error text => s.handleFailure dispatch text
  | .ok run =>
      let s := { s with runs := s.runs ++ [run] }
      match delivery.failure with
      | none => s.confirmDispatch dispatch
      | some text =>
          let message := "Failed to submit workflow executor task: " ++ text
          (s.endRun now dispatch.runId .failed message).handleFailure dispatch message

/-- `_probe_and_maybe_run` as a whole. -/
def System.probeAndMaybeRun (complete : NodeSpec → Bool) (s : System V) (now : ℕ)
    (manual taskMissing : Bool) (current : V) (delivery : Delivery) : System V :=
  let s' := s.probe now manual taskMissing current
  match s'.dispatches with
  | [] => s'
  | dispatch :: _ => s'.deliver complete now delivery dispatch

inductive Operation (V : Type) where
  | probe (now : ℕ) (manual taskMissing : Bool) (current : V) (delivery : Delivery)
  | markProbeFailure (now : ℕ) (taskMissing : Bool) (text : String)
  | finishRun (now : ℕ) (runId : ℕ) (status : RunStatus) (message : String)
  | updateState (now : ℕ) (enabled : Bool)
  | rebuildBaseline (now : ℕ) (current : V)

/-- One operation. -/
def operate (complete : NodeSpec → Bool) (s : System V) : Operation V → Option (System V)
  | .probe now manual taskMissing current delivery =>
      if delivery.version.all (fun version => version.id = s.row.versionId) then
        some (s.probeAndMaybeRun complete now manual taskMissing current delivery)
      else none
  | .markProbeFailure now taskMissing text => some (s.markProbeFailure now taskMissing text)
  | .finishRun now runId status message =>
      match s.findRun runId with
      | some run =>
          if run.status.active ∧ ¬ status.active then some (s.endRun now runId status message)
          else none
      | none => none
  | .updateState now enabled => some { s with row := s.row.updateState now enabled }
  | .rebuildBaseline now current =>
      match s.rebuildBaseline now current with
      | .ok s => some s
      | .error _ => none

/-! ### Delivery is a run of the interleaved system -/

variable {s : System V}

theorem System.finalize_withDispatches (dispatches : List (Dispatch V)) (now : ℕ) (run : WorkflowRun V) :
    System.finalizeChangeTriggerRun { s with dispatches := dispatches } now run =
      { s.finalizeChangeTriggerRun now run with dispatches := dispatches } := by
  unfold System.finalizeChangeTriggerRun
  cases run.triggerContext with
  | none => rfl
  | some context =>
      dsimp only
      split_ifs <;> rfl

theorem System.endRun_withDispatches (dispatches : List (Dispatch V)) (now id : ℕ)
    (status : RunStatus) (message : String) :
    System.endRun { s with dispatches := dispatches } now id status message =
      { s.endRun now id status message with dispatches := dispatches } := by
  unfold System.endRun
  have hf : System.findRun { s with dispatches := dispatches } id = s.findRun id := rfl
  rw [hf]
  cases s.findRun id with
  | none => rfl
  | some run =>
      exact System.finalize_withDispatches (s := s.setRun id status message) dispatches now
        { run with status := status, message := message }

variable {complete : NodeSpec → Bool}

theorem deliver_run {normalizeTriggerConfig : List NodeSpec → Json → Except String (TriggerConfig V)}
    {dispatch : Dispatch V} {delivery : Delivery} (now : ℕ) (hd : s.dispatches = [dispatch])
    (hp : dispatch.phase = .planned)
    (hv : delivery.version.all (fun version => version.id = dispatch.versionId)) :
    ∃ as, Run (step complete normalizeTriggerConfig) Free s as
      (s.deliver complete now delivery dispatch) := by
  have hfind : s.findDispatch dispatch.runId = some dispatch := by
    unfold System.findDispatch
    rw [hd]
    simp
  unfold System.deliver
  cases hrun : prepareWorkflowRun complete delivery.version s.runs dispatch.runId .dataChange
      (some dispatch.context) with
  | error text =>
      refine ⟨[.createRun dispatch.runId delivery.version, .handleFailure dispatch.runId], ?_⟩
      have hcreate : step complete normalizeTriggerConfig s
          (.createRun dispatch.runId delivery.version) =
            some (s.setPhase dispatch.runId (.raised text)) := by
        simp [step, hfind, hp, hv, System.createRun, hrun]
      refine Run.step trivial hcreate (Run.step trivial ?_ (Run.refl _))
      simp [step, System.findDispatch, System.setPhase, System.handleFailure,
        System.dropDispatch, hd]
  | ok run =>
      let created := System.setPhase { s with runs := s.runs ++ [run] } dispatch.runId .created
      have hcreate : step complete normalizeTriggerConfig s
          (.createRun dispatch.runId delivery.version) = some created := by
        simp [step, hfind, hp, hv, System.createRun, hrun, created]
      have hcreated : created.dispatches = [{ dispatch with phase := .created }] := by
        simp [created, System.setPhase, hd]
      cases hfailure : delivery.failure with
      | none =>
          refine ⟨[.createRun dispatch.runId delivery.version, .enqueueRun now dispatch.runId none,
            .confirmDispatch dispatch.runId], ?_⟩
          have henqueue : step complete normalizeTriggerConfig created
              (.enqueueRun now dispatch.runId none) =
                some (created.setPhase dispatch.runId .submitted) := by
            simp [step, System.findDispatch, hcreated, System.enqueueRun]
          refine Run.step trivial hcreate (Run.step trivial henqueue (Run.step trivial ?_ (Run.refl _)))
          simp [step, System.findDispatch, System.setPhase, created, hd, System.confirmDispatch,
            System.dropDispatch, System.findRun, System.setProbe]
      | some text =>
          let message := "Failed to submit workflow executor task: " ++ text
          refine ⟨[.createRun dispatch.runId delivery.version,
            .enqueueRun now dispatch.runId (some text), .handleFailure dispatch.runId], ?_⟩
          have henqueue : step complete normalizeTriggerConfig created
              (.enqueueRun now dispatch.runId (some text)) =
                some ((created.endRun now dispatch.runId .failed message).setPhase dispatch.runId
                  (.raised message)) := by
            simp [step, System.findDispatch, hcreated, System.enqueueRun, message]
          refine Run.step trivial hcreate (Run.step trivial henqueue (Run.step trivial ?_ (Run.refl _)))
          have hend : created.endRun now dispatch.runId .failed message =
              { System.endRun { s with runs := s.runs ++ [run] } now dispatch.runId .failed message with
                dispatches := [{ dispatch with phase := .created }] } := by
            rw [← System.endRun_withDispatches]
            simp [created, System.setPhase, hd]
          rw [hend]
          simp [step, System.findDispatch, System.setPhase, System.handleFailure,
            System.dropDispatch, message, hd]

/-- The trigger has its baseline, and a change was read. -/
def changed : System ℕ := (countedStart.probe 0 true false 10).probe 300 true false 11

theorem deliver_run_changed : ∃ dispatch, changed.dispatches = [dispatch] ∧ ∃ as, Run countedStep Free changed as
    (changed.deliver (fun _ => false) 301 ⟨some countedVersion, none⟩ dispatch) :=
  ⟨_, rfl, deliver_run 301 rfl rfl rfl⟩

/-! ### The state between operations -/

/-- What a run was created with. -/
def WorkflowRun.origin (run : WorkflowRun V) : ℕ × TriggerType × Option (TriggerContext V) :=
  (run.id, run.triggerType, run.triggerContext)

/-- The run was created for this dispatch. -/
def WorkflowRun.createdFor (run : WorkflowRun V) (dispatch : Dispatch V) : Prop :=
  run.origin = (dispatch.runId, .dataChange, some dispatch.context)

/-- The values of the runs the trigger has started, in the order of their creation. -/
def System.dispatched (s : System V) : List V :=
  (s.runs.map WorkflowRun.origin).filterMap (fun origin =>
    if origin.2.1 = .dataChange ∧ origin.2.2.any (fun c => c.triggerStateId = s.row.id) then
      origin.2.2.map TriggerContext.pendingValue
    else none)

/-- Between operations no dispatch is under way, and the run the row waits for is in flight. -/
structure AtomicInv (s : System V) : Prop where
  idle : s.dispatches = []
  runsNodup : (s.runs.map WorkflowRun.id).Nodup
  runsFresh : ∀ run ∈ s.runs, run.id < s.nextId
  probesFresh : ∀ probe ∈ s.probes, probe.id < s.nextId
  awaited : ∀ id, s.row.pendingRunId = some id → ∃ run ∈ s.runs, run.id = id ∧
    run.status.active = true ∧ run.triggerType = .dataChange ∧
      ∃ context, run.triggerContext = some context ∧ context.triggerStateId = s.row.id
  scheduled : s.row.enabled = true → s.row.nextProbeAt ≠ none

/-- The rows agree in configuration and values. -/
structure TriggerRow.SameValues (row row' : TriggerRow V) : Prop where
  id : row'.id = row.id
  config : row'.config = row.config
  applied : row'.appliedValue = row.appliedValue
  pending : row'.pendingValue = row.pendingValue
  queue : row'.pendingQueue = row.pendingQueue

/-- The trigger has been published and nothing has happened yet. -/
structure System.Initial (s : System V) : Prop where
  idle : s.dispatches = []
  runs : s.runs = []
  probes : s.probes = []
  pendingRunId : s.row.pendingRunId = none
  pendingValue : s.row.pendingValue = none
  pendingQueue : s.row.pendingQueue = []
  scheduled : s.row.enabled = true → s.row.nextProbeAt ≠ none

theorem AtomicInv.of_initial (h : s.Initial) : AtomicInv s := by
  refine ⟨h.idle, ?_, ?_, ?_, ?_, h.scheduled⟩
  · simp [h.runs]
  · simp [h.runs]
  · simp [h.probes]
  · simp [h.pendingRunId]

/-- What an operation may do. -/
inductive Effect (s s' : System V) : Operation V → Prop
  | quiet {op : Operation V}
      (other : ∀ now id status message, op = .finishRun now id status message →
        s.row.pendingRunId ≠ some id)
      (unread : ∀ now manual taskMissing current delivery,
        op = .probe now manual taskMissing current delivery → ¬ s.Reads manual taskMissing)
      (values : s.row.SameValues s'.row)
      (pending : s'.row.pendingRunId = s.row.pendingRunId)
      (runs : s'.runs.map WorkflowRun.origin = s.runs.map WorkflowRun.origin)
      (probes : s'.probes = s.probes ∨ ∃ probe, probe.status ≠ .merged ∧
        s'.probes = s.probes ++ [probe]) : Effect s s' op
  | observed {now : ℕ} {manual taskMissing : Bool} {current : V} {delivery : Delivery}
      (reads : s.Reads manual taskMissing) (outcome : s.probeOutcome now current ≠ .trigger)
      (eq : s' = s.recordProbe now current) :
      Effect s s' (.probe now manual taskMissing current delivery)
  | takenBack {now : ℕ} {manual taskMissing : Bool} {current : V} {delivery : Delivery}
      (reads : s.Reads manual taskMissing) (outcome : s.probeOutcome now current = .trigger)
      (values : (s.recordProbe now current).row.SameValues s'.row)
      (pending : s'.row.pendingRunId = none)
      (runs : delivery.failure = none →
        s'.runs.map WorkflowRun.origin = s.runs.map WorkflowRun.origin) :
      Effect s s' (.probe now manual taskMissing current delivery)
  | dispatched {now : ℕ} {manual taskMissing : Bool} {current : V} {delivery : Delivery}
      (reads : s.Reads manual taskMissing) (outcome : s.probeOutcome now current = .trigger)
      (values : (s.recordProbe now current).row.SameValues s'.row)
      (pending : s'.row.pendingRunId = some (s.nextId + 1))
      (runs : s'.runs.map WorkflowRun.origin = s.runs.map WorkflowRun.origin ++
        [(s.nextId + 1, .dataChange, some (s.plannedDispatch current).context)])
      (probes : ∃ probe, probe.id = s.nextId ∧ probe.status ≠ .merged ∧
        s'.probes = s.probes ++ [probe]) :
      Effect s s' (.probe now manual taskMissing current delivery)
  | applied {now id : ℕ} {run : WorkflowRun V} {context : TriggerContext V} {message : String}
      (awaited : s.row.pendingRunId = some id) (mem : run ∈ s.runs) (run_id : run.id = id)
      (run_context : run.triggerContext = some context)
      (row : s'.row = s.row.applyRun now id context.pendingValue)
      (runs : s'.runs.map WorkflowRun.origin = s.runs.map WorkflowRun.origin) :
      Effect s s' (.finishRun now id .succeeded message)
  | kept {now id : ℕ} {status : RunStatus} {message : String}
      (awaited : s.row.pendingRunId = some id) (failed : status ≠ .succeeded)
      (row : s'.row = s.row.keepPending now id)
      (runs : s'.runs.map WorkflowRun.origin = s.runs.map WorkflowRun.origin) :
      Effect s s' (.finishRun now id status message)
  | rebuilt {now : ℕ} {current : V} (row : s'.row = s.row.rebuildBaseline now current)
      (runs : s'.runs.map WorkflowRun.origin = s.runs.map WorkflowRun.origin) :
      Effect s s' (.rebuildBaseline now current)

/-! ### The parts of an operation -/

variable {run : WorkflowRun V}

theorem AtomicInv.findRun (h : AtomicInv s) (hr : run ∈ s.runs) : s.findRun run.id = some run := by
  cases hf : s.findRun run.id with
  | none => exact absurd rfl (s.findRun_eq_none hf run hr)
  | some r =>
      obtain ⟨hr', hid⟩ := s.findRun_eq_some hf
      rw [List.inj_on_of_nodup_map h.runsNodup hr' hr hid]

/-- Between operations there is nothing to reconcile. -/
theorem AtomicInv.reconcile (h : AtomicInv s) (now : ℕ) : s.reconcilePendingRun now = s := by
  unfold System.reconcilePendingRun
  cases hp : s.row.pendingRunId with
  | none => rfl
  | some id =>
      obtain ⟨run, hr, rfl, ha, _⟩ := h.awaited id hp
      dsimp only
      rw [h.findRun hr]
      dsimp only
      rw [if_pos ha]

@[simp] theorem System.setRun_origin (id : ℕ) (status : RunStatus) (message : String) :
    (s.setRun id status message).runs.map WorkflowRun.origin = s.runs.map WorkflowRun.origin := by
  unfold System.setRun
  rw [List.map_map]
  apply List.map_congr_left
  intro run _
  simp only [Function.comp]
  split_ifs <;> rfl

theorem System.endRun_eq {id : ℕ} (hf : s.findRun id = some run) (now : ℕ) (status : RunStatus)
    (message : String) :
    s.endRun now id status message = (s.setRun id status message).finalizeChangeTriggerRun now
      { run with status := status, message := message } := by
  unfold System.endRun
  rw [hf]

variable {runs runs' : List (WorkflowRun V)}

/-- The ids of runs with the same origins. -/
theorem map_id_of_origin (h : runs'.map WorkflowRun.origin = runs.map WorkflowRun.origin) :
    runs'.map WorkflowRun.id = runs.map WorkflowRun.id := by
  have := congrArg (List.map Prod.fst) h
  simpa [List.map_map, Function.comp_def, WorkflowRun.origin] using this

/-- A run of the state reached has the origin of a run of the state before. -/
theorem exists_origin (h : runs'.map WorkflowRun.origin = runs.map WorkflowRun.origin) (hr : run ∈ runs') :
    ∃ r ∈ runs, r.id = run.id ∧ r.triggerContext = run.triggerContext := by
  have hm : run.origin ∈ runs'.map WorkflowRun.origin := List.mem_map_of_mem hr
  rw [h] at hm
  obtain ⟨r, hr', he⟩ := List.mem_map.mp hm
  exact ⟨r, hr', congrArg Prod.fst he, congrArg (fun o => o.2.2) he⟩

variable {s' : System V}

/-- Operations that keep the runs and change at most the run the row waits for to none. -/
theorem AtomicInv.of_frame (h : AtomicInv s) (hidle : s'.dispatches = []) (hid : s'.row.id = s.row.id)
    (hruns : s'.runs = s.runs) (hnext : s.nextId ≤ s'.nextId)
    (hpending : s'.row.pendingRunId = s.row.pendingRunId ∨ s'.row.pendingRunId = none)
    (hprobes : ∀ probe ∈ s'.probes, probe.id < s'.nextId)
    (hscheduled : s'.row.enabled = true → s'.row.nextProbeAt ≠ none) : AtomicInv s' := by
  refine ⟨hidle, ?_, ?_, hprobes, ?_, hscheduled⟩
  · rw [hruns]
    exact h.runsNodup
  · rw [hruns]
    exact fun run hr => (h.runsFresh run hr).trans_le hnext
  · intro id hp
    cases hpending with
    | inl he =>
        rw [hruns, hid]
        exact h.awaited id (he ▸ hp)
    | inr hnone =>
        rw [hnone] at hp
        cases hp

/-- Finishing a run the row does not wait for only stores its status. -/
theorem AtomicInv.endRun_other (h : AtomicInv s) (hr : run ∈ s.runs) (hother : s.row.pendingRunId ≠ some run.id)
    (now : ℕ) (status : RunStatus) (message : String) :
    s.endRun now run.id status message = s.setRun run.id status message := by
  rw [System.endRun_eq (h.findRun hr)]
  unfold System.finalizeChangeTriggerRun
  split
  · rw [if_neg]
    exact fun hc => hother hc.2.2
  · rfl

theorem AtomicInv.setRun_other (h : AtomicInv s) {id : ℕ} (hother : s.row.pendingRunId ≠ some id)
    (status : RunStatus) (message : String) : AtomicInv (s.setRun id status message) := by
  have hids := map_id_of_origin (System.setRun_origin (s := s) id status message)
  refine ⟨h.idle, ?_, ?_, h.probesFresh, ?_, h.scheduled⟩
  · rw [hids]
    exact h.runsNodup
  · intro run hr
    have hm : run.id ∈ (s.setRun id status message).runs.map WorkflowRun.id :=
      List.mem_map_of_mem hr
    rw [hids] at hm
    obtain ⟨r, hr', he⟩ := List.mem_map.mp hm
    rw [← he]
    exact h.runsFresh r hr'
  · intro pending hp
    obtain ⟨run, hr, hid, hrest⟩ := h.awaited pending hp
    refine ⟨run, ?_, hid, hrest⟩
    refine List.mem_map.mpr ⟨run, hr, if_neg ?_⟩
    intro he
    exact hother (hp.trans (congrArg some (hid.symm.trans he)))

/-- Finishing the run the row waits for. -/
theorem AtomicInv.endRun_awaited (h : AtomicInv s) (hr : run ∈ s.runs) (hp : s.row.pendingRunId = some run.id)
    {context : TriggerContext V} (hc : run.triggerContext = some context) (now : ℕ) (status : RunStatus)
    (message : String) : (s.endRun now run.id status message).row =
      if status = .succeeded then s.row.applyRun now run.id context.pendingValue
      else s.row.keepPending now run.id := by
  obtain ⟨r, hr', hid, _, htype, c, hc', htrigger⟩ := h.awaited run.id hp
  have heq : r = run := List.inj_on_of_nodup_map h.runsNodup hr' hr hid
  subst heq
  rw [hc, Option.some.injEq] at hc'
  subst hc'
  rw [System.endRun_eq (h.findRun hr), System.finalize_row]
  unfold TriggerRow.finalizeRun
  rw [hc]
  dsimp only
  rw [if_pos ⟨htype, htrigger, hp⟩]
  rfl

theorem System.endRun_runs {id : ℕ} (hf : s.findRun id = some run) (now : ℕ) (status : RunStatus)
    (message : String) : (s.endRun now id status message).runs = (s.setRun id status message).runs := by
  rw [System.endRun_eq hf, System.finalize_runs]

theorem System.setProbe_probes_id {id : ℕ} {f : ChangeProbe V → ChangeProbe V}
    (hf : ∀ probe, (f probe).id = probe.id) :
    (s.setProbe id f).probes.map ChangeProbe.id = s.probes.map ChangeProbe.id := by
  unfold System.setProbe
  rw [List.map_map]
  apply List.map_congr_left
  intro probe _
  simp only [Function.comp]
  split_ifs
  · exact hf probe
  · rfl

variable {probes : List (ChangeProbe V)}

/-- Writing to the last probe leaves the earlier ones alone. -/
theorem System.setProbe_last {probe : ChangeProbe V} (hs : s.probes = probes ++ [probe])
    (hfresh : ∀ p ∈ probes, p.id < probe.id) (f : ChangeProbe V → ChangeProbe V) :
    (s.setProbe probe.id f).probes = probes ++ [f probe] := by
  unfold System.setProbe
  dsimp only
  rw [hs, List.map_append, List.map_singleton, if_pos rfl]
  congr 1
  conv_rhs => rw [← List.map_id probes]
  apply List.map_congr_left
  intro p hp
  rw [if_neg]
  · rfl
  · have := hfresh p hp
    omega

theorem System.finalize_probes_id (now : ℕ) (run : WorkflowRun V) :
    (s.finalizeChangeTriggerRun now run).probes.map ChangeProbe.id = s.probes.map ChangeProbe.id := by
  unfold System.finalizeChangeTriggerRun
  cases run.triggerContext with
  | none => rfl
  | some context =>
      dsimp only
      split_ifs
      · exact System.setProbe_probes_id (fun probe => rfl)
      · exact System.setProbe_probes_id (fun probe => rfl)
      · rfl

theorem AtomicInv.fresh_of_ids (h : AtomicInv s)
    (hids : probes.map ChangeProbe.id = s.probes.map ChangeProbe.id) :
    ∀ probe ∈ probes, probe.id < s.nextId := by
  intro probe hprobe
  have hm : probe.id ∈ probes.map ChangeProbe.id := List.mem_map_of_mem hprobe
  rw [hids] at hm
  obtain ⟨p, hp, he⟩ := List.mem_map.mp hm
  rw [← he]
  exact h.probesFresh p hp

theorem AtomicInv.endRun (h : AtomicInv s) (hr : run ∈ s.runs) (hp : s.row.pendingRunId = some run.id) (now : ℕ)
    (status : RunStatus) (message : String) : AtomicInv (s.endRun now run.id status message) := by
  obtain ⟨r, hr', hid, _, htype, c, hc, htrigger⟩ := h.awaited run.id hp
  have heq : r = run := List.inj_on_of_nodup_map h.runsNodup hr' hr hid
  subst heq
  have hrow := h.endRun_awaited hr hp hc now status message
  have hruns := System.endRun_runs (h.findRun hr) now status message
  have hids : (s.endRun now r.id status message).runs.map WorkflowRun.id =
      s.runs.map WorkflowRun.id := by
    rw [hruns]
    exact map_id_of_origin (System.setRun_origin _ _ _)
  have hnext : (s.endRun now r.id status message).nextId = s.nextId := by
    rw [System.endRun_eq (h.findRun hr), System.finalize_nextId]
    rfl
  have hprobes : (s.endRun now r.id status message).probes.map ChangeProbe.id =
      s.probes.map ChangeProbe.id := by
    rw [System.endRun_eq (h.findRun hr), System.finalize_probes_id]
    rfl
  refine ⟨?_, ?_, ?_, ?_, ?_, ?_⟩
  · rw [System.endRun_dispatches]
    exact h.idle
  · rw [hids]
    exact h.runsNodup
  · intro run hrun
    have hm : run.id ∈ (s.endRun now r.id status message).runs.map WorkflowRun.id :=
      List.mem_map_of_mem hrun
    rw [hids] at hm
    obtain ⟨r', hr', he⟩ := List.mem_map.mp hm
    rw [hnext, ← he]
    exact h.runsFresh r' hr'
  · rw [hnext]
    exact h.fresh_of_ids hprobes
  · intro id hpending
    rw [hrow] at hpending
    split_ifs at hpending
    · rw [TriggerRow.applyRun_pendingRunId] at hpending
      cases hpending
    · cases hpending
  · rw [hrow]
    split_ifs
    · exact s.row.applyRun_scheduled now _ _ h.scheduled
    · intro he
      have hen : s.row.enabled = true := he
      simp [TriggerRow.keepPending, hen]

theorem AtomicInv.recordProbe_probesFresh (h : AtomicInv s) (now : ℕ) (current : V) :
    ∀ probe ∈ (s.recordProbe now current).probes, probe.id < s.nextId + 2 := by
  intro probe hp
  unfold System.recordProbe at hp
  simp only [List.mem_append, List.mem_singleton] at hp
  cases hp with
  | inl hp =>
      have := h.probesFresh probe hp
      omega
  | inr hp =>
      subst hp
      dsimp only
      omega

/-- The probe that is stored. -/
theorem System.recordProbe_probes (s : System V) (now : ℕ) (current : V) :
    ∃ probe, (s.recordProbe now current).probes = s.probes ++ [probe] ∧ probe.id = s.nextId ∧
      probe.currentValue = some current ∧
        probe.status = (s.probeOutcome now current).probeStatus :=
  ⟨_, rfl, rfl, rfl, rfl⟩

/-- A probe is followed by another one. -/
theorem System.recordProbe_nextProbeAt (s : System V) (now : ℕ) (current : V) :
    (s.recordProbe now current).row.nextProbeAt ≠ none := by
  unfold System.recordProbe
  dsimp only
  rw [TriggerRow.settle_nextProbeAt]
  simp [TriggerRow.observe]

theorem AtomicInv.recordProbe (h : AtomicInv s) (now : ℕ) (current : V)
    (ho : s.probeOutcome now current ≠ .trigger) : AtomicInv (s.recordProbe now current) := by
  refine h.of_frame ?_ (TriggerRow.settle_id _ _ _ _ _) rfl (Nat.le_add_right _ 2) ?_
    (h.recordProbe_probesFresh now current) (fun _ => s.recordProbe_nextProbeAt now current)
  · unfold System.recordProbe
    dsimp only
    rw [if_neg ho]
    exact h.idle
  · left
    unfold System.recordProbe
    dsimp only
    rw [TriggerRow.settle_pendingRunId, if_neg ho]
    rfl

/-- The planned run is created, and the dispatch is done. -/
theorem AtomicInv.launch (h : AtomicInv s) (now : ℕ) (current : V) (ho : s.probeOutcome now current = .trigger)
    (hrun : run.createdFor (s.plannedDispatch current)) (hq : run.status = .queued) :
    AtomicInv { s.recordProbe now current with runs := s.runs ++ [run], dispatches := [] } := by
  have hid : run.id = s.nextId + 1 := congrArg Prod.fst hrun
  have htype : run.triggerType = .dataChange := congrArg (fun o => o.2.1) hrun
  have hcontext : run.triggerContext = some (s.plannedDispatch current).context :=
    congrArg (fun o => o.2.2) hrun
  refine ⟨rfl, ?_, ?_, h.recordProbe_probesFresh now current, ?_,
    fun _ => s.recordProbe_nextProbeAt now current⟩
  · rw [List.map_append, List.map_singleton]
    refine h.runsNodup.append (List.nodup_singleton _) ?_
    rw [List.disjoint_singleton]
    intro hm
    obtain ⟨r, hr, he⟩ := List.mem_map.mp hm
    have := h.runsFresh r hr
    omega
  · intro r hr
    show r.id < s.nextId + 2
    rw [List.mem_append, List.mem_singleton] at hr
    cases hr with
    | inl hr =>
        have := h.runsFresh r hr
        omega
    | inr hr =>
        subst hr
        omega
  · intro id hp
    unfold System.recordProbe at hp ⊢
    dsimp only at hp ⊢
    rw [TriggerRow.settle_pendingRunId, if_pos ho, Option.some.injEq] at hp
    refine ⟨run, by simp, hid.trans hp, ?_, htype, _, hcontext, ?_⟩
    · rw [hq]
      rfl
    · rw [TriggerRow.settle_id]
      rfl

theorem TriggerRow.SameValues.refl (row : TriggerRow V) : row.SameValues row :=
  ⟨rfl, rfl, rfl, rfl, rfl⟩

theorem TriggerRow.confirmRun_sameValues (row : TriggerRow V) (runId : ℕ) :
    row.SameValues (row.confirmRun runId) := by
  unfold TriggerRow.confirmRun
  split_ifs
  · exact ⟨rfl, rfl, rfl, rfl, rfl⟩
  · exact TriggerRow.SameValues.refl row

theorem recordProbe_dispatches (h : AtomicInv s) {now : ℕ} {current : V}
    (ho : s.probeOutcome now current = .trigger) :
    (s.recordProbe now current).dispatches = [s.plannedDispatch current] := by
  unfold System.recordProbe
  dsimp only
  rw [if_pos ho, h.idle, List.nil_append]

theorem recordProbe_pendingRunId {now : ℕ} {current : V} (ho : s.probeOutcome now current = .trigger) :
    (s.recordProbe now current).row.pendingRunId = some (s.nextId + 1) := by
  unfold System.recordProbe
  dsimp only
  rw [TriggerRow.settle_pendingRunId, if_pos ho]

section deliver

variable {complete : NodeSpec → Bool} {now : ℕ} {manual taskMissing : Bool} {current : V}
  {delivery : Delivery}

variable {s' : System V}

/-- The run could not be created. -/
theorem AtomicInv.createFailed (h : AtomicInv s) (hreads : s.Reads manual taskMissing)
    (ho : s.probeOutcome now current = .trigger) {text : String}
    (hs' : s' = (s.recordProbe now current).handleFailure (s.plannedDispatch current) text) :
    AtomicInv s' ∧ Effect s s' (.probe now manual taskMissing current delivery) := by
  subst hs'
  have hd := recordProbe_dispatches h ho
  constructor
  · refine h.of_frame ?_ (TriggerRow.settle_id _ _ _ _ _) rfl (Nat.le_add_right _ 2) (Or.inr rfl)
      (h.recordProbe_probesFresh now current) (fun _ => s.recordProbe_nextProbeAt now current)
    simp [System.handleFailure, System.dropDispatch, hd]
  · exact Effect.takenBack hreads ho ⟨rfl, rfl, rfl, rfl, rfl⟩ rfl (fun _ => rfl)

variable {run : WorkflowRun V}

/-- The run was created and submitted. -/
theorem AtomicInv.confirmed (h : AtomicInv s) (hreads : s.Reads manual taskMissing)
    (ho : s.probeOutcome now current = .trigger) (hrun : run.createdFor (s.plannedDispatch current))
    (hq : run.status = .queued) (hs' : s' = System.confirmDispatch
      { s.recordProbe now current with runs := s.runs ++ [run] } (s.plannedDispatch current)) :
    AtomicInv s' ∧ Effect s s' (.probe now manual taskMissing current delivery) := by
  have hid : run.id = (s.plannedDispatch current).runId := congrArg Prod.fst hrun
  have hlaunched := h.launch now current ho hrun hq
  generalize hL : ({ s.recordProbe now current with runs := s.runs ++ [run], dispatches := [] } :
    System V) = launched at hlaunched
  have hdrop : System.dropDispatch { s.recordProbe now current with runs := s.runs ++ [run] }
      (s.plannedDispatch current).runId = launched := by
    rw [← hL]
    simp [System.dropDispatch, recordProbe_dispatches h ho]
  have hmem : run ∈ launched.runs := by
    rw [← hL]
    simp
  have hrow : launched.row = (s.recordProbe now current).row := by rw [← hL]
  unfold System.confirmDispatch at hs'
  rw [hdrop] at hs'
  dsimp only at hs'
  rw [← hid, hlaunched.findRun hmem] at hs'
  dsimp only at hs'
  rw [if_pos (by rw [hq]; rfl)] at hs'
  subst hs'
  constructor
  · refine hlaunched.of_frame hlaunched.idle (TriggerRow.confirmRun_id _ _) rfl le_rfl
      (Or.inl (TriggerRow.confirmRun_pendingRunId _ _)) ?_ ?_
    · apply hlaunched.fresh_of_ids
      apply System.setProbe_probes_id
      intro probe
      split_ifs <;> rfl
    · intro he
      show (launched.row.confirmRun run.id).nextProbeAt ≠ none
      rw [TriggerRow.confirmRun_nextProbeAt, hrow]
      exact s.recordProbe_nextProbeAt now current
  · refine Effect.dispatched hreads ho ?_ ?_ ?_ ?_
    · rw [← hrow]
      exact TriggerRow.confirmRun_sameValues _ _
    · show (launched.row.confirmRun run.id).pendingRunId = _
      rw [TriggerRow.confirmRun_pendingRunId, hrow]
      exact recordProbe_pendingRunId ho
    · show launched.runs.map WorkflowRun.origin = _
      rw [← hL, List.map_append, List.map_singleton, hrun]
      rfl
    · obtain ⟨probe, hprobes, hprobe, _, hstatus⟩ := s.recordProbe_probes now current
      have hlast : (s.plannedDispatch current).context.probeId = probe.id := hprobe.symm
      have hfresh : ∀ p ∈ s.probes, p.id < probe.id := hprobe ▸ h.probesFresh
      have hprobes' : launched.probes = s.probes ++ [probe] := by
        rw [← hL]
        exact hprobes
      have htriggering : probe.status = .triggering := by rw [hstatus, ho]; rfl
      rw [hlast]
      refine ⟨_, ?_, ?_, System.setProbe_last hprobes' hfresh _⟩
      · rw [if_pos htriggering]
        exact hprobe
      · rw [if_pos htriggering]
        simp

/-- The run was created, but submitting it raised. -/
theorem AtomicInv.submitFailed (h : AtomicInv s) (hreads : s.Reads manual taskMissing)
    (ho : s.probeOutcome now current = .trigger) (hrun : run.createdFor (s.plannedDispatch current))
    (hq : run.status = .queued) {text message : String} (hfailure : delivery.failure = some text)
    (hs' : s' = (System.endRun { s.recordProbe now current with runs := s.runs ++ [run] } now
      (s.plannedDispatch current).runId .failed message).handleFailure (s.plannedDispatch current)
        message) : AtomicInv s' ∧ Effect s s' (.probe now manual taskMissing current delivery) := by
  have hid : run.id = (s.plannedDispatch current).runId := congrArg Prod.fst hrun
  have hcontext : run.triggerContext = some (s.plannedDispatch current).context :=
    congrArg (fun o => o.2.2) hrun
  have hlaunched := h.launch now current ho hrun hq
  have hpending := recordProbe_pendingRunId (s := s) ho
  generalize hL : ({ s.recordProbe now current with runs := s.runs ++ [run], dispatches := [] } :
    System V) = launched at hlaunched
  have hbase : ({ s.recordProbe now current with runs := s.runs ++ [run] } : System V) =
      { launched with dispatches := [s.plannedDispatch current] } := by
    rw [← hL, ← recordProbe_dispatches h ho]
  have hmem : run ∈ launched.runs := by
    rw [← hL]
    simp
  have hrow : launched.row = (s.recordProbe now current).row := by rw [← hL]
  rw [← hrow] at hpending
  have hawaited : launched.row.pendingRunId = some run.id := by
    rw [hpending, hid]
    rfl
  have hended := hlaunched.endRun hmem hawaited now .failed message
  have hendRow := hlaunched.endRun_awaited hmem hawaited hcontext now .failed message
  rw [hbase, System.endRun_withDispatches, ← hid] at hs'
  subst hs'
  constructor
  · refine hended.of_frame ?_ rfl rfl le_rfl (Or.inr rfl) hended.probesFresh hended.scheduled
    simp [System.handleFailure, System.dropDispatch, hid]
  · refine Effect.takenBack hreads ho ?_ rfl ?_
    · rw [← hrow]
      show launched.row.SameValues
        ((launched.endRun now run.id .failed message).row.handleFailure message)
      rw [hendRow]
      exact ⟨rfl, rfl, rfl, rfl, rfl⟩
    · intro hnone
      rw [hfailure] at hnone
      cases hnone

/-- What becomes of a planned run. -/
theorem AtomicInv.deliver (h : AtomicInv s) (hreads : s.Reads manual taskMissing)
    (ho : s.probeOutcome now current = .trigger)
    (hs' : s' = (s.recordProbe now current).deliver complete now delivery (s.plannedDispatch current)) :
    AtomicInv s' ∧ Effect s s' (.probe now manual taskMissing current delivery) := by
  unfold System.deliver at hs'
  cases hrun : prepareWorkflowRun complete delivery.version (s.recordProbe now current).runs
      (s.plannedDispatch current).runId .dataChange (some (s.plannedDispatch current).context) with
  | error text =>
      rw [hrun] at hs'
      exact h.createFailed hreads ho hs'
  | ok run =>
      rw [hrun] at hs'
      obtain ⟨hid, htype, hcontext, hq⟩ := prepareWorkflowRun_ok hrun
      have hfor : run.createdFor (s.plannedDispatch current) := by
        unfold WorkflowRun.createdFor WorkflowRun.origin
        rw [hid, htype, hcontext]
      cases hfailure : delivery.failure with
      | none =>
          rw [hfailure] at hs'
          exact h.confirmed hreads ho hfor hq hs'
      | some text =>
          rw [hfailure] at hs'
          exact h.submitFailed hreads ho hfor hq hfailure hs'

end deliver

theorem AtomicInv.probeAndMaybeRun (h : AtomicInv s) (complete : NodeSpec → Bool) (now : ℕ)
    (manual taskMissing : Bool) (current : V) (delivery : Delivery)
    (hs' : s' = s.probeAndMaybeRun complete now manual taskMissing current delivery) :
    AtomicInv s' ∧ Effect s s' (.probe now manual taskMissing current delivery) := by
  have hother : ∀ now' id status message,
      Operation.probe now manual taskMissing current delivery = .finishRun now' id status message →
        s.row.pendingRunId ≠ some id := by
    intro _ _ _ _ hop
    cases hop
  unfold System.probeAndMaybeRun System.probe at hs'
  rw [h.reconcile now] at hs'
  split_ifs at hs' with hoff hd
  · dsimp only at hs'
    rw [h.idle] at hs'
    dsimp only at hs'
    subst hs'
    refine ⟨h.of_frame rfl rfl rfl le_rfl (Or.inl rfl) h.probesFresh ?_, ?_⟩
    · intro he
      cases he
    · refine Effect.quiet hother ?_ ⟨rfl, rfl, rfl, rfl, rfl⟩ rfl rfl (Or.inl rfl)
      intro _ _ _ _ _ hop hreads
      cases hop
      exact hreads.1 hoff
  · dsimp only at hs'
    rw [h.idle] at hs'
    dsimp only at hs'
    subst hs'
    refine ⟨h, Effect.quiet hother ?_ (TriggerRow.SameValues.refl _) rfl rfl (Or.inl rfl)⟩
    intro _ _ _ _ _ hop hreads
    cases hop
    exact hreads.2 hd
  · dsimp only at hs'
    have hreads : s.Reads manual taskMissing := ⟨hoff, hd⟩
    by_cases ho : s.probeOutcome now current = .trigger
    · rw [recordProbe_dispatches h ho] at hs'
      exact h.deliver hreads ho hs'
    · have hrecorded := h.recordProbe now current ho
      rw [hrecorded.idle] at hs'
      dsimp only at hs'
      subst hs'
      exact ⟨hrecorded, Effect.observed hreads ho rfl⟩

/-- Every operation keeps the invariant and has one of the effects. -/
theorem AtomicInv.operate (h : AtomicInv s) {op : Operation V} (hop : operate complete s op = some s') :
    AtomicInv s' ∧ Effect s s' op := by
  cases op with
  | probe now manual taskMissing current delivery =>
      simp only [ChangeTrigger.operate] at hop
      split_ifs at hop
      cases hop
      exact h.probeAndMaybeRun complete now manual taskMissing current delivery rfl
  | markProbeFailure now taskMissing text =>
      cases hop
      have hother : ∀ now' id status message,
          Operation.markProbeFailure (V := V) now taskMissing text =
            .finishRun now' id status message → s.row.pendingRunId ≠ some id := by
        intro _ _ _ _ he
        cases he
      have hunread : ∀ now' manual missing current delivery,
          Operation.markProbeFailure (V := V) now taskMissing text =
            .probe now' manual missing current delivery → ¬ s.Reads manual missing := by
        intro _ _ _ _ _ he
        cases he
      unfold System.markProbeFailure
      split_ifs with hoff
      · refine ⟨h.of_frame h.idle rfl rfl le_rfl (Or.inl rfl) h.probesFresh ?_, ?_⟩
        · intro he
          cases he
        · exact Effect.quiet hother hunread ⟨rfl, rfl, rfl, rfl, rfl⟩ rfl rfl (Or.inl rfl)
      · refine ⟨h.of_frame h.idle rfl rfl (Nat.le_succ _) (Or.inl rfl) ?_ ?_, ?_⟩
        · intro probe hp
          simp only [List.mem_append, List.mem_singleton] at hp
          cases hp with
          | inl hp =>
              have := h.probesFresh probe hp
              dsimp only
              omega
          | inr hp =>
              subst hp
              dsimp only
              omega
        · intro _
          simp [TriggerRow.failProbe]
        · exact Effect.quiet hother hunread ⟨rfl, rfl, rfl, rfl, rfl⟩ rfl rfl (Or.inr ⟨_, by simp, rfl⟩)
  | finishRun now id status message =>
      simp only [ChangeTrigger.operate] at hop
      cases hf : s.findRun id with
      | none =>
          rw [hf] at hop
          cases hop
      | some run =>
          rw [hf] at hop
          dsimp only at hop
          split_ifs at hop
          cases hop
          obtain ⟨hr, rfl⟩ := s.findRun_eq_some hf
          have horigin : (s.endRun now run.id status message).runs.map WorkflowRun.origin =
              s.runs.map WorkflowRun.origin := by
            rw [System.endRun_runs hf, System.setRun_origin]
          by_cases hp : s.row.pendingRunId = some run.id
          · obtain ⟨r, hr', hid, _, _, context, hc, _⟩ := h.awaited run.id hp
            have heq : r = run := List.inj_on_of_nodup_map h.runsNodup hr' hr hid
            subst heq
            have hrow := h.endRun_awaited hr hp hc now status message
            refine ⟨h.endRun hr hp now status message, ?_⟩
            by_cases hs : status = .succeeded
            · subst hs
              rw [if_pos rfl] at hrow
              exact Effect.applied hp hr rfl hc hrow horigin
            · rw [if_neg hs] at hrow
              exact Effect.kept hp hs hrow horigin
          · rw [h.endRun_other hr hp now status message]
            refine ⟨h.setRun_other hp status message, ?_⟩
            refine Effect.quiet ?_ ?_ (TriggerRow.SameValues.refl _) rfl
              (System.setRun_origin _ _ _) (Or.inl rfl)
            · intro _ _ _ _ he
              cases he
              exact hp
            · intro _ _ _ _ _ he
              cases he
  | updateState now enabled =>
      cases hop
      refine ⟨h.of_frame h.idle rfl rfl le_rfl (Or.inl rfl) h.probesFresh ?_, ?_⟩
      · intro he
        have hen : enabled = true := he
        simp [TriggerRow.updateState, hen]
      · refine Effect.quiet ?_ ?_ ⟨rfl, rfl, rfl, rfl, rfl⟩ rfl rfl (Or.inl rfl)
        · intro _ _ _ _ he
          cases he
        · intro _ _ _ _ _ he
          cases he
  | rebuildBaseline now current =>
      simp only [ChangeTrigger.operate] at hop
      cases hr : s.rebuildBaseline now current with
      | error text =>
          rw [hr] at hop
          cases hop
      | ok t =>
          rw [hr] at hop
          cases hop
          unfold System.rebuildBaseline at hr
          rw [h.reconcile now] at hr
          obtain ⟨_, _, hr⟩ := bind_eq_ok.mp hr
          cases hr
          refine ⟨h.of_frame h.idle rfl rfl le_rfl (Or.inr rfl) h.probesFresh ?_, ?_⟩
          · intro _
            simp [TriggerRow.rebuildBaseline]
          · exact Effect.rebuilt rfl rfl

end RecoveryService.ChangeTrigger
