import RecoveryService.ChangeTrigger.System

/-! # A pause lasts until it is ended

A probe or the handler of a failed probe that finds the trigger switched off retires its row,
also when the user has switched it off; the next synchronisation takes a retired row for one
whose node has come back and enables it.  When neither of the two meets a row that is switched
off (`FindsEnabled`), a pause lasts (`paused_until_resumed`); otherwise the next
synchronisation ends it (`synchronize_ends_pause`). -/

set_option linter.unusedSectionVars false

namespace RecoveryService.ChangeTrigger

open DataPlatform Checks Runs Text

variable {V : Type}

/-- The user has paused the trigger. -/
def TriggerRow.Paused (row : TriggerRow V) : Prop := row.enabled = false ∧ row.state = .paused

/-- The trigger is switched off, and its row not retired. -/
def TriggerRow.Suspended (row : TriggerRow V) : Prop := row.enabled = false ∧ row.state ≠ .retired

/-- The version has the trigger node of the row. -/
def TriggerRow.HasNode (row : TriggerRow V) (version : WorkflowVersion) : Prop :=
  row.nodeKey ∈ (triggerNodes version).map (fun node => strip node.key)

/-- The trigger is not resumed, and its version stays online with the same trigger node. -/
def StaysPaused (s : System V) : Action V → Prop
  | .updateState _ enabled => enabled = false
  | .synchronize _ version => version.id = s.row.versionId → s.row.HasNode version
  | .retire => False
  | _ => True

/-- The actions that retire a row they find switched off. -/
def Action.retiresDisabled : Action V → Bool
  | .scheduledProbe _ _ _ => true
  | .markProbeFailure _ _ _ => true
  | _ => false

/-- No scheduled probe and no handler of a failed probe finds the trigger switched off. -/
def FindsEnabled (s : System V) (a : Action V) : Prop :=
  a.retiresDisabled = true → s.row.enabled = true

instance (row : TriggerRow V) (version : WorkflowVersion) : Decidable (row.HasNode version) :=
  inferInstanceAs (Decidable (_ ∈ _))

instance (s : System V) (a : Action V) : Decidable (FindsEnabled s a) :=
  inferInstanceAs (Decidable (_ → _))

instance (s : System V) : (a : Action V) → Decidable (StaysPaused s a)
  | .updateState _ enabled => inferInstanceAs (Decidable (enabled = false))
  | .synchronize _ version =>
      inferInstanceAs (Decidable (version.id = s.row.versionId → s.row.HasNode version))
  | .retire => .isFalse id
  | .takeUp _ => .isTrue trivial
  | .scheduledProbe _ _ _ => .isTrue trivial
  | .scheduledProbeRaises _ => .isTrue trivial
  | .markProbeFailure _ _ _ => .isTrue trivial
  | .manualProbe _ _ _ => .isTrue trivial
  | .createRun _ _ => .isTrue trivial
  | .enqueueRun _ _ _ => .isTrue trivial
  | .confirmDispatch _ => .isTrue trivial
  | .handleFailure _ => .isTrue trivial
  | .submitRun _ _ _ => .isTrue trivial
  | .claimRun _ => .isTrue trivial
  | .finishRun _ _ _ _ => .isTrue trivial
  | .markInterruptedRuns _ => .isTrue trivial
  | .rebuildBaseline _ _ => .isTrue trivial

/-! ### The node of the row -/

variable {normalizeTriggerConfig : List NodeSpec → Json → Except String (TriggerConfig V)}
variable {version : WorkflowVersion} {configured : List (String × NodeSpec × TriggerConfig V)}

/-- The configured nodes are the trigger nodes of the version. -/
theorem configuredNodes_keys (h : configuredNodes normalizeTriggerConfig version = .ok configured) :
    configured.map Prod.fst = (triggerNodes version).map (fun node => strip node.key) := by
  unfold configuredNodes at h
  generalize triggerNodes version = nodes at h
  induction nodes generalizing configured with
  | nil =>
      cases h
      rfl
  | cons node nodes ih =>
      rw [List.mapM_cons] at h
      obtain ⟨item, hitem, h⟩ := bind_eq_ok.mp h
      obtain ⟨rest, hrest, h⟩ := bind_eq_ok.mp h
      obtain ⟨config, _, hitem⟩ := bind_eq_ok.mp hitem
      cases hitem
      cases h
      rw [List.map_cons, List.map_cons, ih hrest]

/-- Synchronisation finds the node of a row that has one. -/
theorem synchronizeRow_of_hasNode {row : TriggerRow V}
    (hc : configuredNodes normalizeTriggerConfig version = .ok configured) (h : row.HasNode version) (now : ℕ) :
    ∃ node config, synchronizeRow now configured row = row.synchronize now node config := by
  unfold synchronizeRow
  cases hl : configured.lookup row.nodeKey with
  | some item => exact ⟨item.1, item.2, rfl⟩
  | none =>
      exfalso
      have hmem : row.nodeKey ∈ configured.map Prod.fst := by
        rw [configuredNodes_keys hc]
        exact h
      obtain ⟨item, hitem, he⟩ := List.mem_map.mp hmem
      have := List.lookup_eq_none_iff.mp hl item hitem
      simp [he] at this

/-! ### What keeps a row suspended -/

variable [DecidableEq V] {row : TriggerRow V} {s s' : System V}

theorem TriggerRow.Suspended.finalizeRun (h : row.Suspended) (now : ℕ) (run : WorkflowRun V) :
    (row.finalizeRun now run).Suspended := by
  obtain ⟨hoff, hstate⟩ := h
  unfold TriggerRow.finalizeRun
  cases run.triggerContext with
  | none => exact ⟨hoff, hstate⟩
  | some context =>
      dsimp only
      split_ifs
      · simp [TriggerRow.Suspended, TriggerRow.applyRun, hoff]
      · simp [TriggerRow.Suspended, TriggerRow.keepPending, hoff]
      · exact ⟨hoff, hstate⟩

theorem TriggerRow.Suspended.settle (h : row.Suspended) (now : ℕ) (current : V) (runId : ℕ)
    (outcome : ProbeOutcome) : (row.settle now current runId outcome).Suspended := by
  obtain ⟨hoff, hstate⟩ := h
  refine ⟨(TriggerRow.settle_enabled _ _ _ _ _).trans hoff, ?_⟩
  cases outcome <;> first | exact hstate | simp [TriggerRow.settle]

theorem TriggerRow.Suspended.confirmRun (h : row.Suspended) (runId : ℕ) : (row.confirmRun runId).Suspended := by
  unfold TriggerRow.confirmRun
  split_ifs
  · exact ⟨h.1, by simp⟩
  · exact h

theorem TriggerRow.Suspended.synchronize (h : row.Suspended) (now : ℕ) (node : NodeSpec)
    (config : TriggerConfig V) : (row.synchronize now node config).Suspended := by
  obtain ⟨hoff, hstate⟩ := h
  unfold TriggerRow.synchronize
  rw [if_neg hstate, if_neg hstate]
  exact ⟨hoff, hstate⟩

theorem suspended_endRun (h : s.row.Suspended) (now id : ℕ) (status : RunStatus)
    (message : String) : (s.endRun now id status message).row.Suspended := by
  unfold System.endRun
  cases s.findRun id with
  | none => exact h
  | some run =>
      dsimp only
      rw [System.finalize_row]
      exact TriggerRow.Suspended.finalizeRun h now _

theorem suspended_markInterruptedRuns (h : s.row.Suspended) (now : ℕ) :
    (s.markInterruptedRuns now).row.Suspended := by
  unfold System.markInterruptedRuns
  generalize s.runs.filter (fun run => run.status.active) = runs
  induction runs generalizing s with
  | nil => exact h
  | cons run runs ih => exact ih (suspended_endRun h now run.id _ _)

theorem suspended_reconcile (h : s.row.Suspended) (now : ℕ) : (s.reconcilePendingRun now).row.Suspended := by
  rcases s.reconcile_cases now with he | ⟨_, _, _, he⟩ | ⟨_, run, _, _, _, he⟩
  · rw [he]
    exact h
  · rw [he]
    exact ⟨h.1, by simp [TriggerRow.loseRun]⟩
  · rw [he, System.finalize_row]
    exact h.finalizeRun now run

/-- A manual probe does not look at the switch. -/
theorem suspended_manualProbe (h : s.row.Suspended) (now : ℕ) (taskMissing : Bool) (current : V) :
    (s.probe now true taskMissing current).row.Suspended := by
  unfold System.probe
  rw [if_neg (by simp)]
  split_ifs
  · exact h
  · have hobserved : ((s.reconcilePendingRun now).row.observe now current).Suspended :=
      suspended_reconcile h now
    exact hobserved.settle now current _ _

/-- A step that neither resumes the trigger nor probes it while it is switched off. -/
theorem suspended_step {complete : NodeSpec → Bool} {a : Action V} (h : s.row.Suspended)
    (hstays : StaysPaused s a) (hfinds : FindsEnabled s a)
    (hstep : step complete normalizeTriggerConfig s a = some s') : s'.row.Suspended := by
  have hon : s.row.enabled ≠ true := by simp [h.1]
  cases a with
  | takeUp now => exact absurd (step_takeUp hstep).1 hon
  | scheduledProbe now taskMissing current | markProbeFailure now taskMissing text => exact absurd (hfinds rfl) hon
  | scheduledProbeRaises taskMissing =>
      obtain rfl := step_scheduledProbeRaises hstep
      exact h
  | manualProbe now taskMissing current =>
      cases hstep
      exact suspended_manualProbe h now taskMissing current
  | createRun runId version =>
      obtain ⟨dispatch, _, _, rfl⟩ := step_createRun hstep
      unfold System.createRun
      split <;> exact h
  | enqueueRun now runId failure =>
      obtain rfl := step_enqueueRun hstep
      cases failure with
      | none => exact h
      | some text => exact suspended_endRun h now runId _ _
  | confirmDispatch runId =>
      obtain ⟨dispatch, rfl⟩ := step_confirmDispatch hstep
      unfold System.confirmDispatch
      dsimp only
      split
      · split_ifs
        · exact h.confirmRun _
        · exact h
      · exact h
  | handleFailure runId =>
      obtain ⟨dispatch, _, _, text, _, rfl⟩ := step_handleFailure hstep
      exact ⟨h.1, by simp [System.handleFailure, System.dropDispatch, TriggerRow.handleFailure]⟩
  | submitRun version triggerType context =>
      obtain ⟨run, _, _, rfl⟩ := step_submitRun hstep
      exact h
  | claimRun runId =>
      obtain ⟨run, _, _, _, rfl⟩ := step_claimRun hstep
      exact h
  | finishRun now runId status message =>
      obtain ⟨_, rfl⟩ := step_finishRun hstep
      exact suspended_endRun h now runId status message
  | markInterruptedRuns now =>
      cases hstep
      exact suspended_markInterruptedRuns h now
  | updateState now enabled =>
      cases hstep
      have hoff : enabled = false := hstays
      subst hoff
      exact ⟨rfl, by simp [TriggerRow.updateState]⟩
  | rebuildBaseline now current =>
      obtain ⟨_, rfl⟩ := step_rebuildBaseline hstep
      exact ⟨(suspended_reconcile h now).1, by simp [TriggerRow.rebuildBaseline]⟩
  | synchronize now version =>
      obtain ⟨configured, hc, rfl⟩ := step_synchronize hstep
      dsimp only
      split_ifs with hv
      · obtain ⟨node, config, he⟩ := synchronizeRow_of_hasNode hc (hstays hv.symm) now
        rw [he]
        exact h.synchronize now node config
      · exact h
  | retire => exact absurd hstays id

/-! ### Runs -/

/-- A pause lasts until the trigger is resumed, when no scheduled probe and no handler of a failed
probe finds the trigger switched off. -/
theorem paused_until_resumed {complete : NodeSpec → Bool} {as : List (Action V)} (hpaused : s.row.Paused)
    (h : Run (step complete normalizeTriggerConfig)
      (fun s a => StaysPaused s a ∧ FindsEnabled s a) s as s') : s'.row.enabled = false := by
  have hsuspended : s.row.Suspended := ⟨hpaused.1, by rw [hpaused.2]; simp⟩
  have hinv : s'.row.Suspended :=
    h.invariant (I := fun s => s.row.Suspended) hsuspended
      (fun _ _ _ hok hs hi => suspended_step hi hok.1 hok.2 hs)
  exact hinv.1

/-- The scheduler has taken the trigger up, then the user has paused it. -/
def pausedStart : System ℕ :=
  { countedStart with row := (countedStart.row.takeUp 0).updateState 1 false, due := 1 }

/-- The probe that was due retires the row, and the next synchronisation ends the pause. -/
theorem pause_lost : Run countedStep Free countedStart [.takeUp 0, .updateState 1 false] pausedStart ∧
      pausedStart.row.Paused ∧ ∃ s, Run countedStep StaysPaused pausedStart
        [.scheduledProbe 2 false 10, .synchronize 3 countedVersion] s ∧ s.row.enabled = true :=
  ⟨perform_iff.mp rfl, ⟨rfl, rfl⟩, exists_run (by decide)⟩

/-- A manual probe and a synchronisation do not end the pause. -/
theorem pause_kept : ∃ s, Run countedStep (fun s a => StaysPaused s a ∧ FindsEnabled s a)
    pausedStart [.manualProbe 2 false 10, .synchronize 3 countedVersion] s ∧
      s.row.enabled = false := by
  obtain ⟨s, h, _⟩ : ∃ s, Run countedStep (fun s a => StaysPaused s a ∧ FindsEnabled s a)
      pausedStart [.manualProbe 2 false 10, .synchronize 3 countedVersion] s ∧
        s.row.state = .active := exists_run (by decide)
  exact ⟨s, h, paused_until_resumed ⟨rfl, rfl⟩ h⟩

end RecoveryService.ChangeTrigger
