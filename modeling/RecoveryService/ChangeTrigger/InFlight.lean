import RecoveryService.ChangeTrigger.System

/-! # The run a trigger waits for

Between the transaction that plans a run and the one that creates it, the row names a run that
does not exist.  `_reconcile_pending_run` cannot tell it from a run that was lost, and the
handler of a failed dispatch clears `pending_run_id` whichever run it names.  `Undisturbed`
excludes these two steps; then every run of the trigger in flight is the one its row waits for
(`tracked_of_undisturbed`), hence there is at most one, and the baseline cannot be rebuilt
meanwhile. -/

set_option linter.unusedSectionVars false

namespace RecoveryService.ChangeTrigger

open DataPlatform Checks Runs

variable {V : Type}

/-- Every run of the trigger in flight is the one the row waits for. -/
def System.Tracked (s : System V) : Prop :=
  ∀ run ∈ s.runs, run.startedBy s.row.id → run.status.active = true →
    s.row.pendingRunId = some run.id

/-- The row waits for a run that is planned and not created yet. -/
def System.AwaitsCreation (s : System V) : Prop :=
  ∃ dispatch ∈ s.dispatches, dispatch.phase = .planned ∧ s.row.pendingRunId = some dispatch.runId

/-- No probe and no rebuilding reconciles while the row waits for a run not created yet, and no
failed dispatch is taken back while the row waits for another run. -/
def Undisturbed (s : System V) : Action V → Prop
  | .scheduledProbe _ taskMissing _ => s.Reads false taskMissing → ¬ s.AwaitsCreation
  | .manualProbe _ taskMissing _ => s.Reads true taskMissing → ¬ s.AwaitsCreation
  | .rebuildBaseline _ _ => ¬ s.AwaitsCreation
  | .handleFailure runId => s.row.pendingRunId = none ∨ s.row.pendingRunId = some runId
  | _ => True

instance (s : System V) : Decidable s.Tracked :=
  inferInstanceAs (Decidable (∀ run ∈ s.runs, run.startedBy s.row.id → run.status.active = true →
    s.row.pendingRunId = some run.id))

instance (s : System V) : Decidable s.AwaitsCreation :=
  inferInstanceAs (Decidable (∃ dispatch ∈ s.dispatches, dispatch.phase = .planned ∧ _))

instance (s : System V) : (a : Action V) → Decidable (Undisturbed s a)
  | .scheduledProbe _ taskMissing _ =>
      inferInstanceAs (Decidable (s.Reads false taskMissing → ¬ s.AwaitsCreation))
  | .manualProbe _ taskMissing _ =>
      inferInstanceAs (Decidable (s.Reads true taskMissing → ¬ s.AwaitsCreation))
  | .rebuildBaseline _ _ => inferInstanceAs (Decidable (¬ s.AwaitsCreation))
  | .handleFailure runId =>
      inferInstanceAs (Decidable (s.row.pendingRunId = none ∨ s.row.pendingRunId = some runId))
  | .takeUp _ => .isTrue trivial
  | .scheduledProbeRaises _ => .isTrue trivial
  | .markProbeFailure _ _ _ => .isTrue trivial
  | .createRun _ _ => .isTrue trivial
  | .enqueueRun _ _ _ => .isTrue trivial
  | .confirmDispatch _ => .isTrue trivial
  | .submitRun _ _ _ => .isTrue trivial
  | .claimRun _ => .isTrue trivial
  | .finishRun _ _ _ _ => .isTrue trivial
  | .markInterruptedRuns _ => .isTrue trivial
  | .updateState _ _ => .isTrue trivial
  | .synchronize _ _ => .isTrue trivial
  | .retire => .isTrue trivial

/-- The trigger has not run yet. -/
def System.Fresh (s : System V) : Prop :=
  s.row.pendingRunId = none ∧ s.runs = [] ∧ s.dispatches = []

/-! ### The invariant -/

/-- `planned`: the row waits for the run of a dispatch that has not created it; `raised`: a
dispatch that raised has left no run in flight. -/
structure InFlightInv (s : System V) : Prop where
  tracked : s.Tracked
  planned : ∀ dispatch ∈ s.dispatches, dispatch.phase = .planned →
    s.row.pendingRunId = some dispatch.runId ∧ ∀ run ∈ s.runs, run.id ≠ dispatch.runId
  raised : ∀ dispatch ∈ s.dispatches, ∀ text, dispatch.phase = .raised text →
    ∀ run ∈ s.runs, run.id = dispatch.runId → run.status.active = false
  runsNodup : (s.runs.map WorkflowRun.id).Nodup
  runsFresh : ∀ run ∈ s.runs, run.id < s.nextId
  dispatchesNodup : (s.dispatches.map Dispatch.runId).Nodup
  dispatchesFresh : ∀ dispatch ∈ s.dispatches, dispatch.runId < s.nextId

variable {s s' : System V}

theorem InFlightInv.of_fresh (h : s.Fresh) : InFlightInv s := by
  obtain ⟨_, hruns, hdispatches⟩ := h
  refine ⟨?_, ?_, ?_, ?_, ?_, ?_, ?_⟩ <;> simp [System.Tracked, hruns, hdispatches]

/-- Steps that touch neither the pending run nor the runs. -/
theorem InFlightInv.of_frame (h : InFlightInv s) (hid : s'.row.id = s.row.id)
    (hpending : s'.row.pendingRunId = s.row.pendingRunId) (hruns : s'.runs = s.runs)
    (hdispatches : List.Sublist s'.dispatches s.dispatches) (hnext : s.nextId ≤ s'.nextId) :
    InFlightInv s' := by
  refine ⟨?_, ?_, ?_, ?_, ?_, ?_, ?_⟩
  · intro run hr hstarted ha
    rw [hpending]
    rw [hruns] at hr
    rw [hid] at hstarted
    exact h.tracked run hr hstarted ha
  · intro dispatch hd hp
    rw [hpending, hruns]
    exact h.planned dispatch (hdispatches.subset hd) hp
  · intro dispatch hd text hp
    rw [hruns]
    exact h.raised dispatch (hdispatches.subset hd) text hp
  · rw [hruns]
    exact h.runsNodup
  · rw [hruns]
    exact fun run hr => (h.runsFresh run hr).trans_le hnext
  · exact (hdispatches.map _).nodup h.dispatchesNodup
  · exact fun dispatch hd => (h.dispatchesFresh dispatch (hdispatches.subset hd)).trans_le hnext

/-- The pending run may be forgotten when no run of the trigger is in flight and none planned. -/
theorem InFlightInv.of_clear (h : InFlightInv s) (hid : s'.row.id = s.row.id)
    (hruns : s'.runs = s.runs) (hdispatches : List.Sublist s'.dispatches s.dispatches)
    (hnext : s.nextId ≤ s'.nextId) (hidle : ∀ run ∈ s.runs, run.startedBy s.row.id → run.status.active = false)
    (hplanned : ∀ dispatch ∈ s'.dispatches, dispatch.phase ≠ .planned) : InFlightInv s' := by
  refine ⟨?_, ?_, ?_, ?_, ?_, ?_, ?_⟩
  · intro run hr hstarted ha
    rw [hruns] at hr
    rw [hid] at hstarted
    rw [hidle run hr hstarted] at ha
    cases ha
  · intro dispatch hd hp
    exact absurd hp (hplanned dispatch hd)
  · intro dispatch hd text hp
    rw [hruns]
    exact h.raised dispatch (hdispatches.subset hd) text hp
  · rw [hruns]
    exact h.runsNodup
  · rw [hruns]
    exact fun run hr => (h.runsFresh run hr).trans_le hnext
  · exact (hdispatches.map _).nodup h.dispatchesNodup
  · exact fun dispatch hd => (h.dispatchesFresh dispatch (hdispatches.subset hd)).trans_le hnext

theorem InFlightInv.eq_of_id_eq (h : InFlightInv s) {run₁ run₂ : WorkflowRun V}
    (h₁ : run₁ ∈ s.runs) (h₂ : run₂ ∈ s.runs) (he : run₁.id = run₂.id) : run₁ = run₂ :=
  List.inj_on_of_nodup_map h.runsNodup h₁ h₂ he

variable {run : WorkflowRun V}

/-- When the run the row waits for is stored and has ended, nothing is in flight. -/
theorem InFlightInv.idle_of_ended (h : InFlightInv s) (hr : run ∈ s.runs)
    (hp : s.row.pendingRunId = some run.id) (ha : run.status.active = false) :
    (∀ r ∈ s.runs, r.startedBy s.row.id → r.status.active = false) ∧
      ∀ dispatch ∈ s.dispatches, dispatch.phase ≠ .planned := by
  constructor
  · intro r hr' hstarted
    by_contra hactive
    have hpending := h.tracked r hr' hstarted (by simpa using hactive)
    rw [hp, Option.some.injEq] at hpending
    rw [h.eq_of_id_eq hr' hr hpending.symm, ha] at hactive
    exact hactive rfl
  · intro dispatch hd hplanned
    obtain ⟨hpending, hnone⟩ := h.planned dispatch hd hplanned
    rw [hp, Option.some.injEq] at hpending
    exact hnone run hr hpending

/-! ### The parts of a step -/

variable [DecidableEq V]

theorem InFlightInv.finalize (h : InFlightInv s) (hr : run ∈ s.runs) (ha : run.status.active = false) (now : ℕ) :
    InFlightInv (s.finalizeChangeTriggerRun now run) := by
  have hid : (s.finalizeChangeTriggerRun now run).row.id = s.row.id := by
    rw [System.finalize_row]
    exact TriggerRow.finalizeRun_id _ _ _
  cases s.row.finalizeRun_pendingRunId now run with
  | inl hsame =>
      refine h.of_frame hid ?_ (by simp) (by simp) (by simp)
      rw [System.finalize_row, hsame]
  | inr hcleared =>
      obtain ⟨hidle, hplanned⟩ := h.idle_of_ended hr hcleared.1 ha
      refine h.of_clear hid (by simp) (by simp) (by simp) hidle ?_
      rw [System.finalize_dispatches]
      exact hplanned

variable {status : RunStatus}

/-- A run may be stored with a status that is not active. -/
theorem InFlightInv.setRun (h : InFlightInv s) (id : ℕ)
    (hstatus : status.active = true → ∀ run ∈ s.runs, run.id = id → run.status.active = true) (message : String) :
    InFlightInv (s.setRun id status message) := by
  have hmem : ∀ run ∈ (s.setRun id status message).runs, ∃ r ∈ s.runs, run.id = r.id ∧
      run.triggerType = r.triggerType ∧ run.triggerContext = r.triggerContext ∧
        (run.status.active = true → r.status.active = true) := by
    intro run hr
    obtain ⟨r, hr', he⟩ := List.mem_map.mp hr
    refine ⟨r, hr', ?_⟩
    split_ifs at he with hid
    · subst he
      exact ⟨rfl, rfl, rfl, fun ha => hstatus ha r hr' hid⟩
    · subst he
      exact ⟨rfl, rfl, rfl, fun ha => ha⟩
  have hids : (s.setRun id status message).runs.map WorkflowRun.id = s.runs.map WorkflowRun.id := by
    unfold System.setRun
    rw [List.map_map]
    apply List.map_congr_left
    intro run _
    simp only [Function.comp]
    split_ifs <;> rfl
  refine ⟨?_, ?_, ?_, ?_, ?_, h.dispatchesNodup, h.dispatchesFresh⟩
  · intro run hr hstarted ha
    obtain ⟨r, hr', hid, htype, hcontext, hactive⟩ := hmem run hr
    rw [hid]
    refine h.tracked r hr' ?_ (hactive ha)
    unfold WorkflowRun.startedBy at hstarted ⊢
    rw [← htype, ← hcontext]
    exact hstarted
  · intro dispatch hd hp
    obtain ⟨hpending, hnone⟩ := h.planned dispatch hd hp
    refine ⟨hpending, ?_⟩
    intro run hr
    obtain ⟨r, hr', hid, _⟩ := hmem run hr
    rw [hid]
    exact hnone r hr'
  · intro dispatch hd text hp run hr he
    obtain ⟨r, hr', hid, _, _, hactive⟩ := hmem run hr
    have := h.raised dispatch hd text hp r hr' (hid ▸ he)
    by_contra hne
    rw [hactive (by simpa using hne)] at this
    cases this
  · rw [hids]
    exact h.runsNodup
  · intro run hr
    obtain ⟨r, hr', hid, _⟩ := hmem run hr
    rw [hid]
    exact h.runsFresh r hr'

theorem InFlightInv.endRun (h : InFlightInv s) (now : ℕ) (id : ℕ) (hstatus : status.active = false)
    (message : String) : InFlightInv (s.endRun now id status message) := by
  unfold System.endRun
  cases hf : s.findRun id with
  | none => exact h
  | some run =>
      obtain ⟨hr, hid⟩ := s.findRun_eq_some hf
      have hset : InFlightInv (s.setRun id status message) := by
        apply h.setRun
        intro ha
        rw [hstatus] at ha
        cases ha
      apply hset.finalize _ hstatus
      exact List.mem_map.mpr ⟨run, hr, by rw [if_pos hid]⟩

theorem InFlightInv.markInterruptedRuns (h : InFlightInv s) (now : ℕ) :
    InFlightInv (s.markInterruptedRuns now) := by
  unfold System.markInterruptedRuns
  generalize s.runs.filter (fun run => run.status.active) = runs
  induction runs generalizing s with
  | nil => exact h
  | cons run runs ih => exact ih (h.endRun now run.id rfl _)

theorem InFlightInv.reconcile (h : InFlightInv s) (now : ℕ) (hwait : ¬ s.AwaitsCreation) :
    InFlightInv (s.reconcilePendingRun now) := by
  rcases s.reconcile_cases now with he | ⟨id, hp, hf, he⟩ | ⟨id, run, hp, hf, ha, he⟩
  · rw [he]
    exact h
  · rw [he]
    refine h.of_clear rfl rfl (List.Sublist.refl _) le_rfl ?_ ?_
    · intro run hr hstarted
      by_contra hactive
      have hpending := h.tracked run hr hstarted (by simpa using hactive)
      rw [hp, Option.some.injEq] at hpending
      exact s.findRun_eq_none hf run hr hpending.symm
    · intro dispatch hd hplanned
      exact hwait ⟨dispatch, hd, hplanned, (h.planned dispatch hd hplanned).1⟩
  · rw [he]
    exact h.finalize (s.findRun_eq_some hf).1 ha now

theorem InFlightInv.recordProbe (h : InFlightInv s) (now : ℕ) (current : V) :
    InFlightInv (s.recordProbe now current) := by
  unfold System.recordProbe
  dsimp only
  have hid : (s.plannedDispatch current).runId = s.nextId + 1 := rfl
  by_cases ho : s.probeOutcome now current = .trigger
  · have hnone : s.row.pendingRunId = none :=
      (s.row.observe now current).pendingRunId_of_trigger now ho
    have hidle : ∀ run ∈ s.runs, run.startedBy s.row.id → run.status.active = false := by
      intro run hr hstarted
      by_contra hactive
      have := h.tracked run hr hstarted (by simpa using hactive)
      rw [hnone] at this
      cases this
    rw [ho]
    refine ⟨?_, ?_, ?_, h.runsNodup, ?_, ?_, ?_⟩
    · intro run hr hstarted ha
      rw [hidle run hr hstarted] at ha
      cases ha
    · intro dispatch hd hp
      simp only [if_true, List.mem_append, List.mem_singleton] at hd
      cases hd with
      | inl hd =>
          have := (h.planned dispatch hd hp).1
          rw [hnone] at this
          cases this
      | inr hd =>
          subst hd
          refine ⟨rfl, ?_⟩
          intro run hr
          have := h.runsFresh run hr
          omega
    · intro dispatch hd text hp
      simp only [if_true, List.mem_append, List.mem_singleton] at hd
      cases hd with
      | inl hd => exact h.raised dispatch hd text hp
      | inr hd =>
          subst hd
          cases hp
    · intro run hr
      have := h.runsFresh run hr
      dsimp only
      omega
    · simp only [if_true, List.map_append, List.map_cons, List.map_nil]
      refine h.dispatchesNodup.append (List.nodup_singleton _) ?_
      rw [List.disjoint_singleton]
      intro hm
      obtain ⟨dispatch, hd, he⟩ := List.mem_map.mp hm
      have := h.dispatchesFresh dispatch hd
      omega
    · intro dispatch hd
      simp only [if_true, List.mem_append, List.mem_singleton] at hd
      cases hd with
      | inl hd =>
          have := h.dispatchesFresh dispatch hd
          dsimp only
          omega
      | inr hd =>
          subst hd
          dsimp only
          omega
  · refine h.of_frame ?_ ?_ rfl ?_ ?_
    · exact TriggerRow.settle_id _ _ _ _ _
    · dsimp only
      rw [TriggerRow.settle_pendingRunId, if_neg ho]
      rfl
    · dsimp only
      rw [if_neg ho]
    · dsimp only
      omega

theorem InFlightInv.probe (h : InFlightInv s) (now : ℕ) {manual taskMissing : Bool}
    (hok : s.Reads manual taskMissing → ¬ s.AwaitsCreation) (current : V) :
    InFlightInv (s.probe now manual taskMissing current) := by
  unfold System.probe
  split_ifs with hoff hd
  · exact h.of_frame rfl rfl rfl (List.Sublist.refl _) le_rfl
  · exact h
  · exact (h.reconcile now (hok ⟨hoff, hd⟩)).recordProbe now current

theorem InFlightInv.setPhase (h : InFlightInv s) {id : ℕ} {phase : DispatchPhase} (hplanned : phase ≠ .planned)
    (hraised : ∀ text, phase = .raised text → ∀ run ∈ s.runs, run.id = id → run.status.active = false) :
    InFlightInv (s.setPhase id phase) := by
  have hmem : ∀ dispatch ∈ (s.setPhase id phase).dispatches, ∃ d ∈ s.dispatches,
      dispatch.runId = d.runId ∧ ((d.runId = id ∧ dispatch.phase = phase) ∨ dispatch.phase = d.phase) := by
    intro dispatch hd
    obtain ⟨d, hd', he⟩ := List.mem_map.mp hd
    refine ⟨d, hd', ?_⟩
    split_ifs at he with hid
    · subst he
      exact ⟨rfl, Or.inl ⟨hid, rfl⟩⟩
    · subst he
      exact ⟨rfl, Or.inr rfl⟩
  have hids : (s.setPhase id phase).dispatches.map Dispatch.runId = s.dispatches.map Dispatch.runId := by
    unfold System.setPhase
    rw [List.map_map]
    apply List.map_congr_left
    intro dispatch _
    simp only [Function.comp]
    split_ifs <;> rfl
  refine ⟨h.tracked, ?_, ?_, h.runsNodup, h.runsFresh, ?_, ?_⟩
  · intro dispatch hd hp
    obtain ⟨d, hd', hid, hphase⟩ := hmem dispatch hd
    rw [hid]
    cases hphase with
    | inl hphase => exact absurd (hphase.2.symm.trans hp) hplanned
    | inr hphase => exact h.planned d hd' (hphase.symm.trans hp)
  · intro dispatch hd text hp run hr he
    obtain ⟨d, hd', hid, hphase⟩ := hmem dispatch hd
    cases hphase with
    | inl hphase => exact hraised text (hphase.2.symm.trans hp) run hr ((he.trans hid).trans hphase.1)
    | inr hphase => exact h.raised d hd' text (hphase.symm.trans hp) run hr (he.trans hid)
  · rw [hids]
    exact h.dispatchesNodup
  · intro dispatch hd
    obtain ⟨d, hd', hid, _⟩ := hmem dispatch hd
    rw [hid]
    exact h.dispatchesFresh d hd'

/-- A run with a new id may be stored when it is the one the row waits for, or not the trigger's. -/
theorem InFlightInv.addRun (h : InFlightInv s) {nextId : ℕ} (hfresh : run.id < nextId)
    (hnext : s.nextId ≤ nextId) (hnew : ∀ r ∈ s.runs, r.id ≠ run.id)
    (hstarted : run.startedBy s.row.id → s.row.pendingRunId = some run.id)
    (hplanned : ∀ dispatch ∈ s.dispatches, dispatch.runId = run.id →
      dispatch.phase ≠ .planned ∧ ∀ text, dispatch.phase ≠ .raised text) :
    InFlightInv { s with runs := s.runs ++ [run], nextId := nextId } := by
  refine ⟨?_, ?_, ?_, ?_, ?_, h.dispatchesNodup, ?_⟩
  · intro r hr hs ha
    rw [List.mem_append, List.mem_singleton] at hr
    cases hr with
    | inl hr => exact h.tracked r hr hs ha
    | inr hr =>
        subst hr
        exact hstarted hs
  · intro dispatch hd hp
    obtain ⟨hpending, hnone⟩ := h.planned dispatch hd hp
    refine ⟨hpending, ?_⟩
    intro r hr
    rw [List.mem_append, List.mem_singleton] at hr
    cases hr with
    | inl hr => exact hnone r hr
    | inr hr =>
        subst hr
        exact fun he => (hplanned dispatch hd he.symm).1 hp
  · intro dispatch hd text hp r hr he
    rw [List.mem_append, List.mem_singleton] at hr
    cases hr with
    | inl hr => exact h.raised dispatch hd text hp r hr he
    | inr hr =>
        subst hr
        exact absurd hp ((hplanned dispatch hd he.symm).2 text)
  · rw [List.map_append, List.map_singleton]
    refine h.runsNodup.append (List.nodup_singleton _) ?_
    rw [List.disjoint_singleton]
    intro hm
    obtain ⟨r, hr, he⟩ := List.mem_map.mp hm
    exact hnew r hr he
  · intro r hr
    rw [List.mem_append, List.mem_singleton] at hr
    cases hr with
    | inl hr => exact (h.runsFresh r hr).trans_le hnext
    | inr hr =>
        subst hr
        exact hfresh
  · exact fun dispatch hd => (h.dispatchesFresh dispatch hd).trans_le hnext

variable {complete : NodeSpec → Bool}

theorem InFlightInv.createRun (h : InFlightInv s) {version : Option WorkflowVersion} {dispatch : Dispatch V}
    (hd : dispatch ∈ s.dispatches) (hp : dispatch.phase = .planned) :
    InFlightInv (s.createRun complete version dispatch) := by
  obtain ⟨hpending, hnone⟩ := h.planned dispatch hd hp
  have hfresh := h.dispatchesFresh dispatch hd
  unfold System.createRun
  cases hrun : prepareWorkflowRun complete version s.runs dispatch.runId .dataChange
      (some dispatch.context) with
  | error text =>
      apply h.setPhase
      · intro hc
        cases hc
      · exact fun _ _ run hr he => absurd he (hnone run hr)
  | ok run =>
      obtain ⟨hid, _, _, _⟩ := prepareWorkflowRun_ok hrun
      rw [← hid] at hpending hnone hfresh
      -- the phase of the dispatch is set first, so that it is no longer a planned one
      have hset : InFlightInv (s.setPhase dispatch.runId .created) := by
        apply h.setPhase
        · intro hc
          cases hc
        · intro _ hc
          cases hc
      refine hset.addRun hfresh (le_refl s.nextId) hnone (fun _ => hpending) ?_
      intro d' hd' he
      obtain ⟨d, _, rfl⟩ := List.mem_map.mp hd'
      split_ifs at he ⊢ with hdid
      · simp
      · exact absurd (he.trans hid) hdid

/-- A run that was ended is stored with the status it was ended with. -/
theorem endRun_status (s : System V) {now id : ℕ} {message : String} (hstatus : status.active = false)
    (hr : run ∈ (s.endRun now id status message).runs) (hid : run.id = id) : run.status.active = false := by
  unfold System.endRun at hr
  cases hf : s.findRun id with
  | none =>
      rw [hf] at hr
      exact absurd hid (s.findRun_eq_none hf run hr)
  | some r =>
      rw [hf] at hr
      dsimp only at hr
      rw [System.finalize_runs] at hr
      obtain ⟨r', _, he⟩ := List.mem_map.mp hr
      split_ifs at he with hc
      · subst he
        exact hstatus
      · subst he
        exact absurd hid hc

theorem InFlightInv.enqueueRun (h : InFlightInv s) (now : ℕ) (id : ℕ) (failure : Option String) :
    InFlightInv (s.enqueueRun now id failure) := by
  unfold System.enqueueRun
  cases failure with
  | none =>
      apply h.setPhase
      · intro hc
        cases hc
      · intro _ hc
        cases hc
  | some text =>
      apply (h.endRun now id rfl _).setPhase
      · intro hc
        cases hc
      · intro _ _ run hr he
        exact endRun_status s rfl hr he

theorem InFlightInv.handleFailure (h : InFlightInv s) {dispatch : Dispatch V} {text : String}
    (hd : dispatch ∈ s.dispatches) (hphase : dispatch.phase = .raised text)
    (hok : s.row.pendingRunId = none ∨ s.row.pendingRunId = some dispatch.runId) :
    InFlightInv (s.handleFailure dispatch text) := by
  unfold System.handleFailure
  refine h.of_clear rfl rfl List.filter_sublist le_rfl ?_ ?_
  · intro run hr hstarted
    by_contra hactive
    have hpending := h.tracked run hr hstarted (by simpa using hactive)
    cases hok with
    | inl hnone =>
        rw [hnone] at hpending
        cases hpending
    | inr hown =>
        rw [hown, Option.some.injEq] at hpending
        rw [h.raised dispatch hd text hphase run hr hpending.symm] at hactive
        exact hactive rfl
  · intro d hd' hplanned
    have hd'' := List.mem_filter.mp hd'
    have hpending := (h.planned d hd''.1 hplanned).1
    cases hok with
    | inl hnone =>
        rw [hnone] at hpending
        cases hpending
    | inr hown =>
        rw [hown, Option.some.injEq] at hpending
        have hne := hd''.2
        rw [decide_eq_true_eq] at hne
        exact hne hpending.symm

theorem InFlightInv.confirmDispatch (h : InFlightInv s) (dispatch : Dispatch V) :
    InFlightInv (s.confirmDispatch dispatch) := by
  have hdrop : InFlightInv (s.dropDispatch dispatch.runId) :=
    h.of_frame rfl rfl rfl List.filter_sublist le_rfl
  unfold System.confirmDispatch
  dsimp only
  split
  · split_ifs
    · exact hdrop.of_frame (TriggerRow.confirmRun_id _ _) (TriggerRow.confirmRun_pendingRunId _ _) rfl
        (List.Sublist.refl _) le_rfl
    · exact hdrop
  · exact hdrop

/-- Every step that meets the condition keeps the invariant. -/
theorem InFlightInv.step {normalizeTriggerConfig : List NodeSpec → Json → Except String (TriggerConfig V)}
    (h : InFlightInv s) {a : Action V} (hok : Undisturbed s a)
    (hstep : step complete normalizeTriggerConfig s a = some s') : InFlightInv s' := by
  have hsame : ∀ {t : System V}, t.row.id = s.row.id → t.row.pendingRunId = s.row.pendingRunId →
      t.runs = s.runs → t.dispatches = s.dispatches → s.nextId ≤ t.nextId → InFlightInv t :=
    fun hid hp hr hd hn => h.of_frame hid hp hr (by rw [hd]) hn
  cases a with
  | takeUp now =>
      obtain ⟨_, rfl⟩ := step_takeUp hstep
      exact hsame rfl rfl rfl rfl le_rfl
  | scheduledProbe now taskMissing current =>
      obtain rfl := step_scheduledProbe hstep
      have hdue : InFlightInv { s with due := s.due - 1 } := hsame rfl rfl rfl rfl le_rfl
      exact hdue.probe now hok current
  | scheduledProbeRaises taskMissing =>
      obtain rfl := step_scheduledProbeRaises hstep
      exact hsame rfl rfl rfl rfl le_rfl
  | markProbeFailure now taskMissing text =>
      obtain rfl := step_markProbeFailure hstep
      unfold System.markProbeFailure
      split_ifs
      · exact hsame rfl rfl rfl rfl le_rfl
      · exact hsame rfl rfl rfl rfl (Nat.le_succ _)
  | manualProbe now taskMissing current =>
      cases hstep
      exact h.probe now hok current
  | createRun runId version =>
      obtain ⟨dispatch, hd, hp, rfl⟩ := step_createRun hstep
      exact h.createRun hd hp
  | enqueueRun now runId failure =>
      obtain rfl := step_enqueueRun hstep
      exact h.enqueueRun now runId failure
  | confirmDispatch runId =>
      obtain ⟨dispatch, rfl⟩ := step_confirmDispatch hstep
      exact h.confirmDispatch dispatch
  | handleFailure runId =>
      obtain ⟨dispatch, hd, rfl, text, hphase, rfl⟩ := step_handleFailure hstep
      exact h.handleFailure hd hphase hok
  | submitRun version triggerType context =>
      obtain ⟨run, hid, hforeign, rfl⟩ := step_submitRun hstep
      refine h.addRun (by omega) (Nat.le_succ _) ?_ (fun hs => absurd hs hforeign) ?_
      · intro r hr
        have := h.runsFresh r hr
        omega
      · intro dispatch hd he
        have := h.dispatchesFresh dispatch hd
        omega
  | claimRun runId =>
      obtain ⟨run, hr, rfl, hqueued, rfl⟩ := step_claimRun hstep
      apply h.setRun
      intro _ r hr' hid
      rw [h.eq_of_id_eq hr' hr hid, hqueued]
      rfl
  | finishRun now runId status message =>
      obtain ⟨hended, rfl⟩ := step_finishRun hstep
      exact h.endRun now runId hended message
  | markInterruptedRuns now =>
      cases hstep
      exact h.markInterruptedRuns now
  | updateState now enabled | retire =>
      cases hstep
      exact hsame rfl rfl rfl rfl le_rfl
  | rebuildBaseline now current =>
      obtain ⟨hnone, rfl⟩ := step_rebuildBaseline hstep
      exact (h.reconcile now hok).of_frame rfl hnone.symm rfl (List.Sublist.refl _) le_rfl
  | synchronize now version =>
      obtain ⟨configured, _, rfl⟩ := step_synchronize hstep
      refine hsame ?_ ?_ rfl rfl le_rfl
      · dsimp only
        split_ifs <;> simp
      · dsimp only
        split_ifs <;> simp

/-! ### Runs -/

/-- While a run of the trigger is in flight the baseline is not rebuilt. -/
theorem System.Tracked.rebuildBaseline (h : s.Tracked) (hnd : (s.runs.map WorkflowRun.id).Nodup)
    (hr : run ∈ s.runs) (hstarted : run.startedBy s.row.id) (ha : run.status.active = true) (now : ℕ)
    (current : V) : s.rebuildBaseline now current = .error "触发器仍有关联运行未结束，不能重建基线。" := by
  have hp := h run hr hstarted ha
  have hf : s.findRun run.id = some run := by
    cases hf : s.findRun run.id with
    | none => exact absurd rfl (s.findRun_eq_none hf run hr)
    | some r =>
        obtain ⟨hr', hid⟩ := s.findRun_eq_some hf
        rw [List.inj_on_of_nodup_map hnd hr' hr hid]
  have hreconcile : s.reconcilePendingRun now = s := by
    unfold System.reconcilePendingRun
    rw [hp]
    dsimp only
    rw [hf]
    dsimp only
    rw [if_pos ha]
  unfold System.rebuildBaseline
  dsimp only
  rw [hreconcile, raiseIf, if_pos (by simp [hp])]
  rfl

/-- In an undisturbed run every run of the trigger in flight is the one the row waits for; there
is at most one, and the baseline is not rebuilt before it ends. -/
theorem tracked_of_undisturbed {complete : NodeSpec → Bool}
    {normalizeTriggerConfig : List NodeSpec → Json → Except String (TriggerConfig V)}
    {as : List (Action V)} (hfresh : s.Fresh)
    (h : Run (step complete normalizeTriggerConfig) Undisturbed s as s') : s'.Tracked ∧
      (∀ run₁ ∈ s'.runs, ∀ run₂ ∈ s'.runs, run₁.startedBy s'.row.id → run₂.startedBy s'.row.id →
        run₁.status.active = true → run₂.status.active = true → run₁ = run₂) ∧
      ∀ run ∈ s'.runs, run.startedBy s'.row.id → run.status.active = true → ∀ now current,
        ChangeTrigger.step complete normalizeTriggerConfig s' (.rebuildBaseline now current) = none := by
  have hinv : InFlightInv s' :=
    h.invariant (InFlightInv.of_fresh hfresh) (fun _ _ _ hok hs hi => hi.step hok hs)
  refine ⟨hinv.tracked, ?_, ?_⟩
  · intro run₁ h₁ run₂ h₂ hs₁ hs₂ ha₁ ha₂
    apply hinv.eq_of_id_eq h₁ h₂
    have hp₁ := hinv.tracked run₁ h₁ hs₁ ha₁
    have hp₂ := hinv.tracked run₂ h₂ hs₂ ha₂
    rw [hp₁, Option.some.injEq] at hp₂
    exact hp₂
  · intro run hr hstarted ha now current
    simp only [ChangeTrigger.step]
    rw [hinv.tracked.rebuildBaseline hinv.runsNodup hr hstarted ha]

/-! ### A dispatch that is disturbed, and one that is not -/

/-- The baseline is taken, then a change is confirmed and the run `3` is planned. -/
def planChange : List (Action ℕ) :=
  [.takeUp 0, .scheduledProbe 0 false 10, .takeUp 300, .scheduledProbe 300 false 11]

/-- The baseline is rebuilt before the planned run is created: the row has forgotten the run. -/
theorem rebuild_before_creation : countedStart.Fresh ∧ ∃ s', Run countedStep Free countedStart
      (planChange ++ [.rebuildBaseline 301 11, .createRun 3 (some countedVersion)]) s' ∧
        ¬ s'.Tracked :=
  ⟨⟨rfl, rfl, rfl⟩, exists_run (by decide)⟩

/-- An undisturbed dispatch ends with a run in flight, and the row waits for it. -/
theorem dispatch_tracked : ∃ s', Run countedStep Undisturbed countedStart
    (planChange ++ [.createRun 3 (some countedVersion), .enqueueRun 301 3 none,
      .confirmDispatch 3]) s' ∧ s'.Tracked ∧
      ∃ run ∈ s'.runs, run.startedBy s'.row.id ∧ run.status.active = true := by
  obtain ⟨s', h, hactive⟩ : ∃ s', Run countedStep Undisturbed countedStart
      (planChange ++ [.createRun 3 (some countedVersion), .enqueueRun 301 3 none,
        .confirmDispatch 3]) s' ∧
        ∃ run ∈ s'.runs, run.startedBy s'.row.id ∧ run.status.active = true :=
    exists_run (by decide)
  exact ⟨s', h, (tracked_of_undisturbed ⟨rfl, rfl, rfl⟩ h).1, hactive⟩

end RecoveryService.ChangeTrigger
