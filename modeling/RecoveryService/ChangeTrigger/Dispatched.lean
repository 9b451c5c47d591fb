import RecoveryService.ChangeTrigger.System

/-! # When a change trigger dispatches

A probe dispatches a run when no run is pending, inside the execution window, once the interval since
the last dispatch is over and the change is confirmed.  The counter of matches is raised by a probe that
takes over a pending value or makes the first run, and it stays raised: the probes behind it that match
count on from there.  A history keeps beside the system the matches in succession that there really were
and what was known at each dispatch. -/

set_option linter.unusedSectionVars false

namespace RecoveryService.ChangeTrigger

open DataPlatform Runs

variable {V : Type} [DecidableEq V]

/-! ### Histories -/

/-- A dispatch: when, which run the row waited for, how many probes in succession had matched, and whether
a pending value or the first run was outstanding. -/
structure DispatchRecord where
  now : ℕ
  awaited : Option ℕ
  streak : ℕ
  outstanding : Bool

/-- `lifted`: a probe has raised the counter over the matches, and it has not been set to zero since.
A dispatch without a probe is recorded as `none`. -/
structure History (V : Type) where
  system : System V
  streak : ℕ := 0
  lifted : Bool := false
  records : List (Option DispatchRecord) := []

/-- The probe of an action, with the time, whether it is manual, whether the task is missing and the value. -/
def Action.probe? : Action V → Option (ℕ × Bool × Bool × V)
  | .scheduledProbe now taskMissing current => some (now, false, taskMissing, current)
  | .manualProbe now taskMissing current => some (now, true, taskMissing, current)
  | _ => none

/-- What a probe reads, when it gets past its early returns. -/
def System.reading (s : System V) (a : Action V) : Option (ℕ × V) :=
  match a.probe? with
  | some (now, manual, taskMissing, current) => if s.Reads manual taskMissing then some (now, current) else none
  | none => none

/-- A pending value waits for a run, or the first run is due. -/
def System.outstanding (s : System V) : Bool :=
  s.row.pendingValue ≠ none ∨ (s.row.appliedValue = none ∧ s.row.config.firstRunPolicy = .runImmediately)

/-- The successive matches with this probe; `s` is reconciled. -/
def System.streakWith (s : System V) (streak : ℕ) (current : V) : ℕ :=
  if s.matched current = true then streak + 1 else 0

/-- What the history knows behind a probe that has read. -/
def History.observed (h : History V) (now : ℕ) (current : V) (s' : System V) : History V :=
  let s := h.system.reconcilePendingRun now
  let streak := s.streakWith h.streak current
  { system := s'
    streak := streak
    lifted := (h.lifted && s.matched current) ||
      decide ((s.row.observe now current).consecutiveMatches < s'.row.consecutiveMatches)
    records :=
      if h.system.dispatches.length < s'.dispatches.length then
        h.records ++ [some {
          now := now
          awaited := s.row.pendingRunId
          streak := streak
          outstanding := s.outstanding }]
      else h.records }

/-- Behind the other actions; a baseline that is rebuilt starts the count again. -/
def History.passed (h : History V) (a : Action V) (s' : System V) : History V :=
  let rebuilt := match a with
    | .rebuildBaseline _ _ => true
    | _ => false
  { system := s'
    streak := if rebuilt = true then 0 else h.streak
    lifted := if rebuilt = true then false else h.lifted
    records := if h.system.dispatches.length < s'.dispatches.length then h.records ++ [none] else h.records }

section step

variable (complete : NodeSpec → Bool)
  (normalizeTriggerConfig : List NodeSpec → Json → Except String (TriggerConfig V))

def historyStep (h : History V) (a : Action V) : Option (History V) :=
  (step complete normalizeTriggerConfig h.system a).map fun s' =>
    match h.system.reading a with
    | some (now, current) => h.observed now current s'
    | none => h.passed a s'

/-- The configuration stays; only publishing the version can change it. -/
def FixedConfig (h : History V) (a : Action V) : Prop :=
  ∀ now version, a = .synchronize now version →
    ∀ s', step complete normalizeTriggerConfig h.system a = some s' → s'.row.config = h.system.row.config

end step

/-! ### What is asked of a dispatch -/

/-- The minute of the day lies between the ends, or the window runs over midnight and it lies behind its
start or before its end. -/
structure TriggerConfig.Inside (config : TriggerConfig V) (now : ℕ) : Prop where
  day : config.executionWindowStart ≤ config.executionWindowEnd →
    config.executionWindowStart ≤ now / 60 % 1440 ∧ now / 60 % 1440 ≤ config.executionWindowEnd
  night : config.executionWindowEnd < config.executionWindowStart →
    config.executionWindowStart ≤ now / 60 % 1440 ∨ now / 60 % 1440 ≤ config.executionWindowEnd

structure DispatchRecord.Permitted (config : TriggerConfig V) (r : DispatchRecord) : Prop where
  idle : r.awaited = none
  inWindow : config.executionWindowEnabled = true → config.Inside r.now

/-- The change is confirmed by enough probes, or it was before. -/
def DispatchRecord.Confirmed (config : TriggerConfig V) (r : DispatchRecord) : Prop :=
  config.requiredMatches ≤ r.streak ∨ r.outstanding = true

/-- The second dispatch comes when the interval since the first one is over. -/
def Apart (config : TriggerConfig V) : Option DispatchRecord → Option DispatchRecord → Prop
  | some r, some r' => r.now + 60 * config.minimumMinutes ≤ r'.now
  | _, _ => False

/-- Every dispatch of the history was made by a probe, permitted, confirmed and apart from the one before. -/
structure History.Behaves (config : TriggerConfig V) (h : History V) : Prop where
  permitted : ∀ r ∈ h.records, ∃ d, r = some d ∧ d.Permitted config
  apart : h.records.IsChain (Apart config)
  confirmed : ∀ d, some d ∈ h.records → d.Confirmed config

/-- A probe that matches, with nothing outstanding and nothing else to stop a dispatch, counts on from a
raised counter, and the probes before it that matched are too few. -/
def Overcounted (h : History V) (a : Action V) : Prop :=
  ∃ p ∈ h.system.reading a, let s := h.system.reconcilePendingRun p.1
    h.lifted = true ∧ s.matched p.2 = true ∧ ((h.streak + 1 : ℕ) : ℤ) < s.row.config.requiredMatches ∧
      s.row.pendingValue = none ∧ s.row.appliedValue ≠ none ∧ s.row.pendingRunId = none ∧
        s.row.config.insideExecutionWindow p.1 = true ∧ s.row.withinDebounce p.1 = false

instance (h : History V) (a : Action V) : Decidable (Overcounted h a) :=
  inferInstanceAs (Decidable (∃ _ ∈ _, _))

/-- The trigger has been created. -/
structure History.Begins (h : History V) : Prop where
  records : h.records = []
  lifted : h.lifted = false
  streak : h.streak = 0
  dispatches : h.system.dispatches = []
  counter : h.system.row.consecutiveMatches = 0
  lastTriggerAt : h.system.row.lastTriggerAt = none

/-! ### What the other transactions leave alone -/

/-- The counter, the time of the last dispatch and the configuration are the same. -/
structure TriggerRow.SameCount (row row' : TriggerRow V) : Prop where
  counter : row'.consecutiveMatches = row.consecutiveMatches
  last : row'.lastTriggerAt = row.lastTriggerAt
  config : row'.config = row.config

variable {row : TriggerRow V} {s s' : System V}

theorem TriggerRow.SameCount.refl (row : TriggerRow V) : row.SameCount row := ⟨rfl, rfl, rfl⟩

theorem TriggerRow.SameCount.trans {row' row'' : TriggerRow V} (h : row.SameCount row')
    (h' : row'.SameCount row'') : row.SameCount row'' :=
  ⟨h'.counter.trans h.counter, h'.last.trans h.last, h'.config.trans h.config⟩

theorem popQueue_sameCount (row : TriggerRow V) (now : ℕ) : row.SameCount (row.popQueue now) := by
  unfold TriggerRow.popQueue
  split
  · exact ⟨rfl, rfl, rfl⟩
  · exact .refl row

theorem finalizeRun_sameCount (row : TriggerRow V) (now : ℕ) (run : WorkflowRun V) :
    row.SameCount (row.finalizeRun now run) := by
  unfold TriggerRow.finalizeRun
  cases run.triggerContext with
  | none => exact .refl row
  | some context =>
      dsimp only
      split_ifs
      · have hpop := popQueue_sameCount { row with
          appliedValue := some context.pendingValue
          pendingValue := if row.pendingValue = some context.pendingValue then none else row.pendingValue
          nextProbeAt := if row.pendingValue = some context.pendingValue then row.nextProbeAt else some now
          pendingRunId := none } now
        exact ⟨hpop.counter, hpop.last, hpop.config⟩
      · exact ⟨rfl, rfl, rfl⟩
      · exact .refl row

theorem confirmRun_sameCount (row : TriggerRow V) (runId : ℕ) : row.SameCount (row.confirmRun runId) := by
  unfold TriggerRow.confirmRun
  split_ifs
  · exact ⟨rfl, rfl, rfl⟩
  · exact .refl row

/-- No dispatch is added, and the row keeps its count. -/
structure Quiet (s s' : System V) : Prop where
  row : s.row.SameCount s'.row
  dispatches : s'.dispatches.length ≤ s.dispatches.length

theorem Quiet.refl (s : System V) : Quiet s s := ⟨.refl _, le_refl _⟩

theorem Quiet.trans {s'' : System V} (h : Quiet s s') (h' : Quiet s' s'') : Quiet s s'' :=
  ⟨h.row.trans h'.row, h'.dispatches.trans h.dispatches⟩

theorem quiet_endRun (s : System V) (now id : ℕ) (status : RunStatus) (message : String) :
    Quiet s (s.endRun now id status message) := by
  refine ⟨?_, (congrArg List.length (s.endRun_dispatches now id status message)).le⟩
  unfold System.endRun
  split
  · rw [System.finalize_row]
    exact finalizeRun_sameCount s.row now _
  · exact .refl _

theorem quiet_markInterruptedRuns (s : System V) (now : ℕ) : Quiet s (s.markInterruptedRuns now) := by
  unfold System.markInterruptedRuns
  generalize s.runs.filter (fun run => run.status.active) = runs
  induction runs generalizing s with
  | nil => exact .refl s
  | cons run runs ih => exact (quiet_endRun s now run.id .failed _).trans (ih _)

theorem quiet_reconcile (s : System V) (now : ℕ) : Quiet s (s.reconcilePendingRun now) := by
  rcases s.reconcile_cases now with heq | ⟨id, -, -, heq⟩ | ⟨id, run, -, -, -, heq⟩
  · rw [heq]
    exact .refl s
  · rw [heq]
    exact ⟨⟨rfl, rfl, rfl⟩, le_refl _⟩
  · rw [heq]
    refine ⟨?_, (congrArg List.length (s.finalize_dispatches now run)).le⟩
    rw [System.finalize_row]
    exact finalizeRun_sameCount s.row now run

theorem quiet_setPhase (s : System V) (id : ℕ) (phase : DispatchPhase) : Quiet s (s.setPhase id phase) :=
  ⟨.refl _, (List.length_map _).le⟩

theorem quiet_dropDispatch (s : System V) (id : ℕ) : Quiet s (s.dropDispatch id) :=
  ⟨.refl _, List.length_filter_le _ _⟩

theorem quiet_confirmDispatch (s : System V) (dispatch : Dispatch V) : Quiet s (s.confirmDispatch dispatch) := by
  refine (quiet_dropDispatch s dispatch.runId).trans ?_
  unfold System.confirmDispatch
  dsimp only
  split
  · split_ifs
    · exact ⟨confirmRun_sameCount _ _, le_refl _⟩
    · exact .refl _
  · exact .refl _

theorem quiet_createRun (s : System V) (complete : NodeSpec → Bool) (version : Option WorkflowVersion)
    (dispatch : Dispatch V) : Quiet s (s.createRun complete version dispatch) := by
  unfold System.createRun
  split
  · exact ⟨.refl _, (List.length_map _).le⟩
  · exact quiet_setPhase _ _ _

theorem quiet_enqueueRun (s : System V) (now id : ℕ) (failure : Option String) :
    Quiet s (s.enqueueRun now id failure) := by
  unfold System.enqueueRun
  split
  · exact quiet_setPhase _ _ _
  · exact (quiet_endRun s now id .failed _).trans (quiet_setPhase _ _ _)

variable {now : ℕ} {current : V}

/-- A probe that does not get past its early returns. -/
theorem quiet_unread {manual taskMissing : Bool} (h : ¬ s.Reads manual taskMissing) :
    Quiet s (s.probe now manual taskMissing current) := by
  unfold System.probe
  split_ifs with hoff hdispatching
  · exact ⟨⟨rfl, rfl, rfl⟩, le_refl _⟩
  · exact .refl s
  · exact (h ⟨hoff, hdispatching⟩).elim

/-- An action that rebuilds the baseline or publishes the version. -/
def Action.resets : Action V → Bool
  | .rebuildBaseline _ _ => true
  | .synchronize _ _ => true
  | _ => false

variable {complete : NodeSpec → Bool}
  {normalizeTriggerConfig : List NodeSpec → Json → Except String (TriggerConfig V)} {a : Action V}

theorem quiet_step (hs : step complete normalizeTriggerConfig s a = some s') (hreading : s.reading a = none)
    (hresets : a.resets = false) : Quiet s s' := by
  have hunread : ∀ {now : ℕ} {manual taskMissing : Bool} {current : V}, a.probe? = some (now, manual, taskMissing, current) →
      ¬ s.Reads manual taskMissing := by
    intro now manual taskMissing current hprobe hreads
    unfold System.reading at hreading
    rw [hprobe] at hreading
    dsimp only at hreading
    rw [if_pos hreads] at hreading
    cases hreading
  cases a with
  | takeUp now =>
      obtain ⟨-, rfl⟩ := step_takeUp hs
      exact ⟨⟨rfl, rfl, rfl⟩, le_refl _⟩
  | scheduledProbe now taskMissing current =>
      rw [step_scheduledProbe hs]
      have hquiet : Quiet { s with due := s.due - 1 }
          (System.probe { s with due := s.due - 1 } now false taskMissing current) := quiet_unread (hunread rfl)
      exact ⟨hquiet.row, hquiet.dispatches⟩
  | scheduledProbeRaises taskMissing =>
      rw [step_scheduledProbeRaises hs]
      exact ⟨.refl _, le_refl _⟩
  | markProbeFailure now taskMissing text =>
      rw [step_markProbeFailure hs]
      unfold System.markProbeFailure
      split_ifs
      · exact ⟨⟨rfl, rfl, rfl⟩, le_refl _⟩
      · exact ⟨⟨rfl, rfl, rfl⟩, le_refl _⟩
  | manualProbe now taskMissing current =>
      simp only [step, Option.some.injEq] at hs
      rw [← hs]
      exact quiet_unread (hunread rfl)
  | createRun runId version =>
      obtain ⟨dispatch, -, -, rfl⟩ := step_createRun hs
      exact quiet_createRun s complete version dispatch
  | enqueueRun now runId failure =>
      rw [step_enqueueRun hs]
      exact quiet_enqueueRun s now runId failure
  | confirmDispatch runId =>
      obtain ⟨dispatch, rfl⟩ := step_confirmDispatch hs
      exact quiet_confirmDispatch s dispatch
  | handleFailure runId =>
      obtain ⟨dispatch, -, -, text, -, rfl⟩ := step_handleFailure hs
      exact ⟨⟨rfl, rfl, rfl⟩, List.length_filter_le _ _⟩
  | submitRun version triggerType context =>
      obtain ⟨run, -, -, rfl⟩ := step_submitRun hs
      exact ⟨.refl _, le_refl _⟩
  | claimRun runId =>
      obtain ⟨run, -, -, -, rfl⟩ := step_claimRun hs
      exact ⟨.refl _, le_refl _⟩
  | finishRun now runId status message =>
      rw [(step_finishRun hs).2]
      exact quiet_endRun s now runId status message
  | markInterruptedRuns now =>
      simp only [step, Option.some.injEq] at hs
      rw [← hs]
      exact quiet_markInterruptedRuns s now
  | updateState now enabled | retire =>
      simp only [step, Option.some.injEq] at hs
      rw [← hs]
      exact ⟨⟨rfl, rfl, rfl⟩, le_refl _⟩
  | rebuildBaseline now current | synchronize now version => cases hresets

/-! ### A probe that reads -/

theorem finalize_due (s : System V) (due now : ℕ) (run : WorkflowRun V) :
    System.finalizeChangeTriggerRun { s with due := due } now run =
      { s.finalizeChangeTriggerRun now run with due := due } := by
  unfold System.finalizeChangeTriggerRun
  cases run.triggerContext with
  | none => rfl
  | some context =>
      dsimp only
      split_ifs <;> rfl

theorem reconcile_due (s : System V) (due now : ℕ) :
    System.reconcilePendingRun { s with due := due } now = { s.reconcilePendingRun now with due := due } := by
  have hfind : ∀ id, System.findRun { s with due := due } id = s.findRun id := fun _ => rfl
  unfold System.reconcilePendingRun
  cases hp : s.row.pendingRunId with
  | none => simp only
  | some id =>
      simp only [hfind]
      cases s.findRun id with
      | none => rfl
      | some run =>
          dsimp only
          split_ifs
          · rfl
          · exact finalize_due s due now run

theorem reading_eq_some (h : s.reading a = some (now, current)) :
    ∃ manual taskMissing, a.probe? = some (now, manual, taskMissing, current) ∧ s.Reads manual taskMissing := by
  unfold System.reading at h
  split at h
  · next manual taskMissing _ hprobe =>
      split_ifs at h with hreads
      cases h
      exact ⟨manual, taskMissing, hprobe, hreads⟩
  · cases h

/-- The probe is recorded in the reconciled system. -/
theorem step_reading (hs : step complete normalizeTriggerConfig s a = some s')
    (hreading : s.reading a = some (now, current)) :
    s'.row = ((s.reconcilePendingRun now).recordProbe now current).row ∧
      s'.dispatches = ((s.reconcilePendingRun now).recordProbe now current).dispatches := by
  obtain ⟨manual, taskMissing, hprobe, hreads⟩ := reading_eq_some hreading
  have hrecorded : ∀ t : System V, t.Reads manual taskMissing →
      t.probe now manual taskMissing current = (t.reconcilePendingRun now).recordProbe now current := by
    intro t ht
    rw [System.probe, if_neg ht.1, if_neg ht.2]
  cases a with
  | scheduledProbe now' taskMissing' current' =>
      cases hprobe
      rw [step_scheduledProbe hs, hrecorded { s with due := s.due - 1 } hreads, reconcile_due]
      exact ⟨rfl, rfl⟩
  | manualProbe now' taskMissing' current' =>
      cases hprobe
      simp only [step, Option.some.injEq] at hs
      rw [← hs, hrecorded _ hreads]
      exact ⟨rfl, rfl⟩
  | _ => cases hprobe

theorem recordProbe_grows (now : ℕ) (current : V) :
    s.dispatches.length < (s.recordProbe now current).dispatches.length ↔
      s.probeOutcome now current = .trigger := by
  unfold System.recordProbe
  dsimp only
  split_ifs with h
  · simp [h]
  · simp [h]

theorem recordProbe_last (now : ℕ) (current : V) : (s.recordProbe now current).row.lastTriggerAt =
    if s.probeOutcome now current = .trigger then some now else s.row.lastTriggerAt := by
  change (TriggerRow.settle _ now current _ (s.probeOutcome now current)).lastTriggerAt = _
  cases s.probeOutcome now current <;> rfl

/-- The counter behind a probe; only a probe that goes on behind the first run policies raises it. -/
theorem recordProbe_counter (now : ℕ) (current : V) :
    (s.recordProbe now current).row.consecutiveMatches = (s.row.observe now current).consecutiveMatches ∨
      (s.recordProbe now current).row.consecutiveMatches = (s.row.observe now current).countedMatches := by
  change (TriggerRow.settle _ now current _ (s.probeOutcome now current)).consecutiveMatches = _ ∨
    (TriggerRow.settle _ now current _ (s.probeOutcome now current)).consecutiveMatches = _
  cases s.probeOutcome now current with
  | baseline | waitBaseline => exact .inl rfl
  | _ => exact .inr rfl

theorem observe_counter (now : ℕ) (current : V) : (s.row.observe now current).consecutiveMatches =
    if s.matched current = true then s.row.consecutiveMatches + 1 else 0 := rfl

theorem countedMatches_cases (row : TriggerRow V) : row.countedMatches = row.consecutiveMatches ∨
    row.countedMatches = max row.consecutiveMatches row.config.requiredMatches := by
  unfold TriggerRow.countedMatches
  split_ifs
  · exact .inr rfl
  · exact .inl rfl

/-- What a probe that triggers has found. -/
theorem probeOutcome_trigger_iff (now : ℕ) (current : V) : s.probeOutcome now current = .trigger ↔
    (s.row.appliedValue = none → s.row.config.firstRunPolicy = .runImmediately) ∧
      (s.matched current = true ∨ s.row.forced = true) ∧
        max 1 s.row.config.requiredMatches ≤ (s.row.observe now current).countedMatches ∧
          s.row.pendingRunId = none ∧ s.row.config.insideExecutionWindow now = true ∧
            s.row.withinDebounce now = false := by
  have hforced : (s.row.observe now current).forced = s.row.forced := rfl
  have hdebounce : (s.row.observe now current).withinDebounce now = s.row.withinDebounce now := rfl
  unfold System.probeOutcome TriggerRow.probeOutcome
  rw [hforced, hdebounce]
  change (if s.row.appliedValue = none ∧ s.row.config.firstRunPolicy = .baselineOnly then ProbeOutcome.baseline
    else if s.row.appliedValue = none ∧ s.row.config.firstRunPolicy = .manualConfirm then .waitBaseline
    else if ¬ ((s.matched current = true ∨ s.row.forced = true) ∧
        max 1 s.row.config.requiredMatches ≤ (s.row.observe now current).countedMatches) then .unmatched
    else if s.row.pendingRunId ≠ none then _
    else if ¬ s.row.config.insideExecutionWindow now = true then .window
    else if s.row.withinDebounce now = true then .debounce
    else .trigger) = .trigger ↔ _
  by_cases hbaseline : s.row.appliedValue = none ∧ s.row.config.firstRunPolicy = .baselineOnly
  · rw [if_pos hbaseline]
    simp [hbaseline.1, hbaseline.2]
  rw [if_neg hbaseline]
  by_cases hwait : s.row.appliedValue = none ∧ s.row.config.firstRunPolicy = .manualConfirm
  · rw [if_pos hwait]
    simp [hwait.1, hwait.2]
  rw [if_neg hwait]
  have hfirst : s.row.appliedValue = none → s.row.config.firstRunPolicy = .runImmediately := by
    intro happlied
    cases hpolicy : s.row.config.firstRunPolicy with
    | baselineOnly => exact (hbaseline ⟨happlied, hpolicy⟩).elim
    | manualConfirm => exact (hwait ⟨happlied, hpolicy⟩).elim
    | runImmediately => rfl
  by_cases hmatched : (s.matched current = true ∨ s.row.forced = true) ∧
      max 1 s.row.config.requiredMatches ≤ (s.row.observe now current).countedMatches
  · rw [if_neg (not_not.mpr hmatched)]
    by_cases hpending : s.row.pendingRunId = none
    · rw [if_neg (not_not.mpr hpending)]
      by_cases hwindow : s.row.config.insideExecutionWindow now = true
      · rw [if_neg (not_not.mpr hwindow)]
        cases hdebounced : s.row.withinDebounce now with
        | true => simp
        | false =>
            rw [if_neg Bool.false_ne_true]
            exact iff_of_true rfl ⟨hfirst, hmatched.1, hmatched.2, hpending, hwindow, rfl⟩
      · rw [if_pos hwindow]
        simp [hwindow]
    · rw [if_pos hpending]
      simp only [hpending, false_and, and_false, iff_false]
      cases (s.row.observe now current).config.overlapPolicy <;> rintro ⟨⟩
  · rw [if_pos hmatched]
    simp only [reduceCtorEq, false_iff]
    rintro ⟨-, hsome, hcount, -⟩
    exact hmatched ⟨hsome, hcount⟩

/-! ### The invariant -/

/-- The counter is that of the matches unless it was raised, and then it is enough for a dispatch; the
dispatches so far were permitted and apart. -/
structure HistoryInv (config : TriggerConfig V) (h : History V) : Prop where
  fixed : h.system.row.config = config
  counter : h.lifted = false → h.system.row.consecutiveMatches ≤ h.streak
  raised : h.lifted = true → config.requiredMatches ≤ h.system.row.consecutiveMatches
  last : h.system.row.lastTriggerAt = h.records.getLast?.bind (Option.map DispatchRecord.now)
  permitted : ∀ r ∈ h.records, ∃ d, r = some d ∧ d.Permitted config
  apart : h.records.IsChain (Apart config)

/-- Every dispatch so far was confirmed. -/
def History.AllConfirmed (config : TriggerConfig V) (h : History V) : Prop :=
  ∀ d, some d ∈ h.records → d.Confirmed config

variable {config : TriggerConfig V} {h : History V}

theorem HistoryInv.behaves_iff (hinv : HistoryInv config h) : h.Behaves config ↔ h.AllConfirmed config :=
  ⟨fun hb => hb.confirmed, fun hc => ⟨hinv.permitted, hinv.apart, hc⟩⟩

theorem HistoryInv.of_begins (hb : h.Begins) : HistoryInv h.system.row.config h where
  fixed := rfl
  counter _ := by rw [hb.counter, hb.streak]; rfl
  raised hl := by
    rw [hb.lifted] at hl
    cases hl
  last := by rw [hb.lastTriggerAt, hb.records]; rfl
  permitted r hr := by
    rw [hb.records] at hr
    cases hr
  apart := by
    rw [hb.records]
    exact .nil

variable {s' : System V}

/-- A step without a probe that reads. -/
theorem HistoryInv.passed (hinv : HistoryInv config h)
    (hrow : (h.passed a s').lifted = false → s'.row.consecutiveMatches ≤ (h.passed a s').streak)
    (hraised : (h.passed a s').lifted = true → config.requiredMatches ≤ s'.row.consecutiveMatches)
    (hconfig : s'.row.config = h.system.row.config) (hlast : s'.row.lastTriggerAt = h.system.row.lastTriggerAt)
    (hdispatches : s'.dispatches.length ≤ h.system.dispatches.length) :
    HistoryInv config (h.passed a s') ∧ (h.passed a s').records = h.records := by
  have hrecords : (h.passed a s').records = h.records := if_neg (Nat.not_lt.mpr hdispatches)
  refine ⟨⟨hconfig.trans hinv.fixed, hrow, hraised, ?_, ?_, ?_⟩, hrecords⟩
  · rw [hrecords]
    exact hlast.trans hinv.last
  · rw [hrecords]
    exact hinv.permitted
  · rw [hrecords]
    exact hinv.apart

theorem withinDebounce_false {row : TriggerRow V} : row.withinDebounce now = false ↔
    ∀ last, row.lastTriggerAt = some last → last + 60 * row.config.minimumMinutes ≤ now := by
  unfold TriggerRow.withinDebounce
  cases row.lastTriggerAt with
  | none | some last => simp

theorem inside_of_window {config : TriggerConfig V} (h : config.insideExecutionWindow now = true)
    (henabled : config.executionWindowEnabled = true) : config.Inside now := by
  unfold TriggerConfig.insideExecutionWindow at h
  rw [if_pos henabled] at h
  simp only at h
  split_ifs at h with hends
  · exact ⟨fun _ => of_decide_eq_true h, fun hlt => absurd hends (Nat.not_le.mpr hlt)⟩
  · exact ⟨fun hle => absurd hle hends, fun _ => of_decide_eq_true h⟩

/-- A probe that reads: the counter. -/
theorem HistoryInv.observed_counter (hinv : HistoryInv config h)
    (hs' : s'.row = ((h.system.reconcilePendingRun now).recordProbe now current).row) :
    ((h.observed now current s').lifted = false → s'.row.consecutiveMatches ≤ (h.observed now current s').streak) ∧
      ((h.observed now current s').lifted = true → config.requiredMatches ≤ s'.row.consecutiveMatches) := by
  have hquiet := quiet_reconcile h.system now
  have hconfig : (h.system.reconcilePendingRun now).row.config = config := hquiet.row.config.trans hinv.fixed
  have hcounter := hquiet.row.counter
  have hstored := recordProbe_counter (s := h.system.reconcilePendingRun now) now current
  have hcases := countedMatches_cases ((h.system.reconcilePendingRun now).row.observe now current)
  have hobserved := observe_counter (s := h.system.reconcilePendingRun now) now current
  have hobservedConfig : ((h.system.reconcilePendingRun now).row.observe now current).config = config := hconfig
  rw [hobservedConfig] at hcases
  unfold History.observed System.streakWith
  dsimp only
  rw [hs']
  generalize hr : ((h.system.reconcilePendingRun now).recordProbe now current).row.consecutiveMatches = r
  generalize ho : ((h.system.reconcilePendingRun now).row.observe now current).consecutiveMatches = o at *
  rw [hr] at hstored
  cases hmatched : (h.system.reconcilePendingRun now).matched current with
  | true =>
      rw [hmatched, if_pos rfl] at hobserved
      rw [if_pos rfl, Bool.and_true]
      constructor
      · intro hl
        rw [Bool.or_eq_false_iff, decide_eq_false_iff_not] at hl
        have hold := hinv.counter hl.1
        push_cast
        omega
      · intro hl
        rw [Bool.or_eq_true, decide_eq_true_eq] at hl
        rcases hl with hl | hl
        · have hold := hinv.raised hl
          omega
        · omega
  | false =>
      rw [hmatched, if_neg Bool.false_ne_true] at hobserved
      rw [if_neg Bool.false_ne_true, Bool.and_false, Bool.false_or]
      constructor
      · intro hl
        rw [decide_eq_false_iff_not] at hl
        push_cast
        omega
      · intro hl
        rw [decide_eq_true_eq] at hl
        omega

/-- A probe that reads: the dispatch. -/
theorem HistoryInv.observed (hinv : HistoryInv config h) (hreading : h.system.reading a = some (now, current))
    (hs' : s'.row = ((h.system.reconcilePendingRun now).recordProbe now current).row)
    (hdispatches : s'.dispatches = ((h.system.reconcilePendingRun now).recordProbe now current).dispatches) :
    HistoryInv config (h.observed now current s') ∧
      ((h.observed now current s').AllConfirmed config ↔ h.AllConfirmed config ∧ ¬ Overcounted h a) := by
  have hquiet := quiet_reconcile h.system now
  have hconfig : (h.system.reconcilePendingRun now).row.config = config := hquiet.row.config.trans hinv.fixed
  obtain ⟨hcounter, hraised⟩ := hinv.observed_counter hs'
  have hconfig' : s'.row.config = config := by
    rw [hs', System.recordProbe_config]
    exact hconfig
  have hsame : (h.system.reconcilePendingRun now).dispatches = h.system.dispatches := by
    rcases h.system.reconcile_cases now with heq | ⟨id, -, -, heq⟩ | ⟨id, run, -, -, -, heq⟩
    · rw [heq]
    · rw [heq]
    · rw [heq, System.finalize_dispatches]
  have hgrows : h.system.dispatches.length < s'.dispatches.length ↔
      (h.system.reconcilePendingRun now).probeOutcome now current = .trigger := by
    rw [hdispatches, ← hsame]
    exact recordProbe_grows now current
  have hlast : s'.row.lastTriggerAt = if (h.system.reconcilePendingRun now).probeOutcome now current = .trigger
      then some now else h.system.row.lastTriggerAt := by
    rw [hs', recordProbe_last, hquiet.row.last]
  have hover : Overcounted h a ↔ h.lifted = true ∧ (h.system.reconcilePendingRun now).matched current = true ∧
      ((h.streak + 1 : ℕ) : ℤ) < config.requiredMatches ∧
      (h.system.reconcilePendingRun now).row.pendingValue = none ∧
      (h.system.reconcilePendingRun now).row.appliedValue ≠ none ∧
      (h.system.reconcilePendingRun now).row.pendingRunId = none ∧
      config.insideExecutionWindow now = true ∧
      (h.system.reconcilePendingRun now).row.withinDebounce now = false := by
    unfold Overcounted
    rw [hreading]
    simp only [Option.mem_some_iff, exists_eq_left', hconfig]
  generalize hrec : h.system.reconcilePendingRun now = s at *
  have htrigger := probeOutcome_trigger_iff (s := s) now current
  rw [hconfig] at htrigger
  by_cases hout : s.probeOutcome now current = .trigger
  · -- the new record
    obtain ⟨hfirst, hsome, hcount, hidle, hwindow, hdebounce⟩ := htrigger.mp hout
    have hrecords : (h.observed now current s').records = h.records ++ [some {
        now := now
        awaited := s.row.pendingRunId
        streak := s.streakWith h.streak current
        outstanding := s.outstanding }] := by
      unfold History.observed
      rw [hrec]
      exact if_pos (hgrows.mpr hout)
    have hconfirmed : DispatchRecord.Confirmed config {
        now := now
        awaited := s.row.pendingRunId
        streak := s.streakWith h.streak current
        outstanding := s.outstanding } ↔ ¬ Overcounted h a := by
      rw [hover]
      constructor
      · rintro (hstreak | hout) ⟨-, hm, hfew, hvalue, happlied, -⟩
        · have hwith : s.streakWith h.streak current = h.streak + 1 := if_pos hm
          dsimp only at hstreak
          rw [hwith] at hstreak
          omega
        · have hnot : s.outstanding = false := by simp [System.outstanding, hvalue, happlied]
          rw [hnot] at hout
          cases hout
      · intro hnot
        cases houtstanding : s.outstanding with
        | true => exact .inr rfl
        | false =>
            have hclear : s.row.pendingValue = none ∧ s.row.appliedValue ≠ none := by
              have hneither := of_decide_eq_false houtstanding
              rw [not_or, not_not] at hneither
              exact ⟨hneither.1, fun happlied =>
                hneither.2 ⟨happlied, hconfig.symm ▸ hfirst happlied⟩⟩
            have hforced : s.row.forced = false := by simp [TriggerRow.forced, hclear.1, hclear.2]
            have hm : s.matched current = true := by
              rcases hsome with hm | hf
              · exact hm
              · rw [hforced] at hf
                cases hf
            have hwith : s.streakWith h.streak current = h.streak + 1 := if_pos hm
            refine .inl ?_
            dsimp only
            rw [hwith]
            by_contra hfew
            refine hnot ⟨?_, hm, not_le.mp hfew, hclear.1, hclear.2, hidle, hwindow, hdebounce⟩
            -- a counter that was not raised is that of the matches
            by_contra hl
            have hold := hinv.counter (Bool.eq_false_of_not_eq_true hl)
            have hstored : (s.row.observe now current).countedMatches = h.system.row.consecutiveMatches + 1 := by
              have hobserved := observe_counter (s := s) now current
              rw [hm, if_pos rfl, hquiet.row.counter] at hobserved
              have hsameForced : (s.row.observe now current).forced = s.row.forced := rfl
              rw [TriggerRow.countedMatches, hsameForced, hforced, if_neg Bool.false_ne_true, hobserved]
            rw [hstored] at hcount
            push_cast at hfew
            omega
    refine ⟨⟨hconfig', hcounter, hraised, ?_, ?_, ?_⟩, ?_⟩
    · rw [hrecords, List.getLast?_concat]
      exact hlast.trans (if_pos hout)
    · intro r hr
      rw [hrecords] at hr
      rcases List.mem_append.mp hr with hr | hr
      · exact hinv.permitted r hr
      · rw [List.mem_singleton.mp hr]
        exact ⟨_, rfl, hidle, inside_of_window hwindow⟩
    · rw [hrecords]
      refine List.IsChain.append hinv.apart (.singleton _) ?_
      intro r hr r' hr'
      obtain rfl := Option.some.inj (Option.mem_def.mp hr')
      obtain ⟨d, rfl, -⟩ := hinv.permitted r (List.mem_of_getLast? hr)
      have hd : s.row.lastTriggerAt = some d.now := by
        rw [hquiet.row.last, hinv.last, Option.mem_def.mp hr]
        rfl
      have hapart := withinDebounce_false.mp hdebounce d.now hd
      rwa [hconfig] at hapart
    · unfold History.AllConfirmed
      rw [hrecords]
      constructor
      · intro hall
        exact ⟨fun d hd => hall d (List.mem_append_left _ hd),
          hconfirmed.mp (hall _ (List.mem_append_right _ (List.mem_singleton_self _)))⟩
      · rintro ⟨hall, hnot⟩ d hd
        rcases List.mem_append.mp hd with hd | hd
        · exact hall d hd
        · rw [Option.some.inj (List.mem_singleton.mp hd)]
          exact hconfirmed.mpr hnot
  · have hrecords : (h.observed now current s').records = h.records := by
      unfold History.observed
      rw [hrec]
      exact if_neg (mt hgrows.mp hout)
    have hnot : ¬ Overcounted h a := by
      rw [hover]
      rintro ⟨hl, hm, hfew, hvalue, happlied, hidle, hwindow, hdebounce⟩
      refine hout (htrigger.mpr ⟨fun hnone => (happlied hnone).elim, .inl hm, ?_, hidle, hwindow, hdebounce⟩)
      have hold := hinv.raised hl
      have hobserved := observe_counter (s := s) now current
      rw [hm, if_pos rfl, hquiet.row.counter] at hobserved
      have hcases := countedMatches_cases (s.row.observe now current)
      push_cast at hfew
      omega
    refine ⟨⟨hconfig', hcounter, hraised, ?_, ?_, ?_⟩, ?_⟩
    · rw [hrecords]
      exact (hlast.trans (if_neg hout)).trans hinv.last
    · rw [hrecords]
      exact hinv.permitted
    · rw [hrecords]
      exact hinv.apart
    · unfold History.AllConfirmed
      rw [hrecords]
      exact ⟨fun hall => ⟨hall, hnot⟩, And.left⟩

/-- Publishing the version leaves the count of the row. -/
theorem synchronizeRow_counter (row : TriggerRow V) (now : ℕ)
    (configured : List (String × NodeSpec × TriggerConfig V)) :
    (synchronizeRow now configured row).consecutiveMatches = row.consecutiveMatches := by
  unfold synchronizeRow
  split
  · unfold TriggerRow.synchronize
    rfl
  · rfl

theorem synchronizeRow_last (row : TriggerRow V) (now : ℕ)
    (configured : List (String × NodeSpec × TriggerConfig V)) :
    (synchronizeRow now configured row).lastTriggerAt = row.lastTriggerAt := by
  unfold synchronizeRow
  split
  · unfold TriggerRow.synchronize
    rfl
  · rfl

theorem HistoryInv.quiet (hinv : HistoryInv config h) (hquiet : Quiet h.system s') (hresets : a.resets = false) :
    HistoryInv config (h.passed a s') ∧ (h.passed a s').records = h.records := by
  have hkept : (h.passed a s').lifted = h.lifted ∧ (h.passed a s').streak = h.streak := by
    cases a with
    | rebuildBaseline now current => cases hresets
    | _ => exact ⟨rfl, rfl⟩
  refine hinv.passed ?_ ?_ hquiet.row.config hquiet.row.last hquiet.dispatches
  · rw [hkept.1, hkept.2, hquiet.row.counter]
    exact hinv.counter
  · rw [hkept.1, hquiet.row.counter]
    exact hinv.raised

theorem HistoryInv.rebuilt (hinv : HistoryInv config h) (now : ℕ) (current : V)
    (hs : s' = { h.system.reconcilePendingRun now with
      row := (h.system.reconcilePendingRun now).row.rebuildBaseline now current }) :
    HistoryInv config (h.passed (.rebuildBaseline now current) s') ∧
      (h.passed (.rebuildBaseline now current) s').records = h.records := by
  have hquiet := quiet_reconcile h.system now
  have hcounter : s'.row.consecutiveMatches = 0 := by
    rw [hs]
    rfl
  refine hinv.passed (fun _ => ?_) nofun ?_ ?_ ?_
  · rw [hcounter]
    exact Int.natCast_nonneg _
  · rw [hs]
    exact hquiet.row.config
  · rw [hs]
    exact hquiet.row.last
  · rw [hs]
    exact hquiet.dispatches

theorem HistoryInv.synchronized (hinv : HistoryInv config h) (now : ℕ) (version : WorkflowVersion)
    {configured : List (String × NodeSpec × TriggerConfig V)}
    (hrow : s'.row = if h.system.row.versionId = version.id then synchronizeRow now configured h.system.row
      else h.system.row) (hdispatches : s'.dispatches = h.system.dispatches)
    (hconfig : s'.row.config = h.system.row.config) :
    HistoryInv config (h.passed (.synchronize now version) s') ∧
      (h.passed (.synchronize now version) s').records = h.records := by
  have hcount : s'.row.consecutiveMatches = h.system.row.consecutiveMatches ∧
      s'.row.lastTriggerAt = h.system.row.lastTriggerAt := by
    rw [hrow]
    split_ifs
    · exact ⟨synchronizeRow_counter _ now configured, synchronizeRow_last _ now configured⟩
    · exact ⟨rfl, rfl⟩
  refine hinv.passed ?_ ?_ hconfig hcount.2 (congrArg List.length hdispatches).le
  · rw [hcount.1]
    exact hinv.counter
  · rw [hcount.1]
    exact hinv.raised

theorem historyStep_inv {h' : History V} (hfixed : FixedConfig complete normalizeTriggerConfig h a)
    (hs : historyStep complete normalizeTriggerConfig h a = some h') (hinv : HistoryInv config h) :
    HistoryInv config h' ∧ (h'.AllConfirmed config ↔ h.AllConfirmed config ∧ ¬ Overcounted h a) := by
  obtain ⟨s', hstep, heq⟩ := Option.map_eq_some_iff.mp hs
  cases hreading : h.system.reading a with
  | some p =>
      rw [hreading] at heq
      subst heq
      obtain ⟨hrow, hdispatches⟩ := step_reading hstep hreading
      exact hinv.observed hreading hrow hdispatches
  | none =>
      rw [hreading] at heq
      subst heq
      have hpassed : HistoryInv config (h.passed a s') ∧ (h.passed a s').records = h.records := by
        cases hresets : a.resets with
        | false => exact hinv.quiet (quiet_step hstep hreading hresets) hresets
        | true =>
            cases a with
            | rebuildBaseline now current => exact hinv.rebuilt now current (step_rebuildBaseline hstep).2
            | synchronize now version =>
                have hconfig := hfixed now version rfl s' hstep
                obtain ⟨configured, -, heq⟩ := step_synchronize hstep
                exact hinv.synchronized now version (by rw [heq]) (by rw [heq]) hconfig
            | _ => cases hresets
      have hnot : ¬ Overcounted h a := by
        rintro ⟨p, hp, -⟩
        rw [hreading] at hp
        cases hp
      refine ⟨hpassed.1, ?_⟩
      unfold History.AllConfirmed
      rw [hpassed.2]
      exact ⟨fun hall => ⟨hall, hnot⟩, And.left⟩

/-- In every history of a trigger with a fixed configuration every dispatch was permitted, apart from the
one before and confirmed exactly where no probe counts on from a raised counter. -/
theorem dispatches_behave_iff {complete : NodeSpec → Bool}
    {normalizeTriggerConfig : List NodeSpec → Json → Except String (TriggerConfig V)} {start h : History V}
    {as : List (Action V)} (hbegins : start.Begins)
    (hrun : Run (historyStep complete normalizeTriggerConfig) (FixedConfig complete normalizeTriggerConfig)
      start as h) :
    h.Behaves start.system.row.config ↔
      Run (historyStep complete normalizeTriggerConfig) (fun h a => ¬ Overcounted h a) start as h := by
  have hstart : start.AllConfirmed start.system.row.config := by
    intro d hd
    rw [hbegins.records] at hd
    cases hd
  have hinv : HistoryInv start.system.row.config h :=
    hrun.invariant (HistoryInv.of_begins hbegins) fun _ _ _ hok hs hi => (historyStep_inv hok hs hi).1
  rw [hinv.behaves_iff, hrun.ends_iff (HistoryInv.of_begins hbegins) fun _ _ _ hok hs hi => historyStep_inv hok hs hi]
  exact and_iff_right hstart

/-! ### A trigger that asks for three matches -/

/-- Every change counts, three in succession are asked for, and the first run is made at once. -/
def threeChanges : TriggerConfig ℕ :=
  { everyChange with
    consecutiveMatches := some 3
    firstRunPolicy := .runImmediately }

def threeStart : History ℕ :=
  { system :=
      { row := newTriggerRow 0 countedVersion 0
          { key := "change", name := "change", nodeType := .changeTrigger } threeChanges } }

abbrev threeStep : History ℕ → Action ℕ → Option (History ℕ) :=
  historyStep (fun _ => false) (fun _ _ => .ok threeChanges)

/-- The first run, up to its success. -/
def firstRun : List (Action ℕ) :=
  [.manualProbe 0 false 10, .createRun 1 (some countedVersion), .enqueueRun 1 1 none, .confirmDispatch 1,
    .claimRun 1, .finishRun 60 1 .succeeded ""]

theorem fixed_of_resets {h : History ℕ} {a : Action ℕ} (ha : a.resets = false) :
    FixedConfig (fun _ => false) (fun _ _ => .ok threeChanges) h a := by
  rintro now version rfl
  cases ha

/-- A change that is seen once and again unseen does not dispatch behind the first run. -/
theorem first_run_behaves : ∃ h, Run threeStep (fun h a => ¬ Overcounted h a) threeStart
    (firstRun ++ [.manualProbe 120 false 10, .manualProbe 180 false 11]) h ∧ h.Behaves threeChanges := by
  obtain ⟨h, hrun, hresets⟩ : ∃ h, Run threeStep (fun h a => ¬ Overcounted h a) threeStart
      (firstRun ++ [.manualProbe 120 false 10, .manualProbe 180 false 11]) h ∧
      (perform threeStep (fun _ a => a.resets = false) threeStart
        (firstRun ++ [.manualProbe 120 false 10, .manualProbe 180 false 11])).isSome = true :=
    ⟨_, perform_iff.mp rfl, rfl⟩
  obtain ⟨h', hrun'⟩ := Option.isSome_iff_exists.mp hresets
  have hfixed : Run threeStep (FixedConfig (fun _ => false) (fun _ _ => .ok threeChanges)) threeStart _ h' :=
    (perform_iff.mp hrun').mono fun _ _ ha => fixed_of_resets ha
  have hsame : h = h' := by
    have hfree := perform_iff.mpr (hrun.mono fun _ _ _ => trivial : Run threeStep Free threeStart _ h)
    have hfree' := perform_iff.mpr (hfixed.mono fun _ _ _ => trivial : Run threeStep Free threeStart _ h')
    exact Option.some.inj (hfree.symm.trans hfree')
  subst hsame
  exact ⟨h, hrun, (dispatches_behave_iff ⟨rfl, rfl, rfl, rfl, rfl, rfl⟩ hfixed).mpr hrun⟩

/-- The first change behind the first run dispatches at once, though three matches are asked for. -/
theorem single_match_dispatches : ¬ ∀ (as : List (Action ℕ)) (h : History ℕ),
    Run threeStep (FixedConfig (fun _ => false) (fun _ _ => .ok threeChanges)) threeStart as h →
      h.Behaves threeChanges := by
  intro hall
  obtain ⟨h, hrun, d, hd, hfew, hnone⟩ : ∃ h, Run threeStep (fun _ a => a.resets = false) threeStart
      (firstRun ++ [.manualProbe 120 false 11]) h ∧
      ∃ d, some d ∈ h.records ∧ d.streak = 1 ∧ d.outstanding = false :=
    ⟨_, perform_iff.mp rfl, ⟨120, none, 1, false⟩, .tail _ (.head _), rfl, rfl⟩
  rcases (hall _ h (hrun.mono fun _ _ ha => fixed_of_resets ha)).confirmed d hd with hstreak | hout
  · rw [hfew] at hstreak
    exact absurd hstreak (by decide)
  · rw [hnone] at hout
    cases hout

end RecoveryService.ChangeTrigger
