import RecoveryService.ChangeTrigger.Atomic

/-! # Merging changes while a run is in flight

With the overlap policy `merge` a change confirmed while a run is in flight replaces the pending
value.  When the run succeeds the value it was dispatched with becomes the applied value, and the
value merged last stays pending (`merge_keepsChanges`); the probes table says which one that is
(`mergedValue`). -/

set_option linter.unusedSectionVars false

namespace RecoveryService.ChangeTrigger

open DataPlatform Checks Runs

variable {V : Type} [DecidableEq V]

/-- The value merged last since the probe that dispatched the run, or the value the run was
dispatched with. -/
def mergedValue (probes : List (ChangeProbe V)) (context : TriggerContext V) : V :=
  ((probes.dropWhile (fun probe => probe.id ≠ context.probeId)).filter
    (fun probe => probe.status = .merged)).foldl
      (fun value probe => probe.currentValue.getD value) context.pendingValue

variable {probes : List (ChangeProbe V)} {context : TriggerContext V}

theorem mergedValue_append (hm : ∃ probe ∈ probes, probe.id = context.probeId) (probe : ChangeProbe V) :
    mergedValue (probes ++ [probe]) context =
      if probe.status = .merged then probe.currentValue.getD (mergedValue probes context)
      else mergedValue probes context := by
  unfold mergedValue
  have hne : (probes.dropWhile (fun probe => probe.id ≠ context.probeId)).isEmpty = false := by
    rw [← Bool.not_eq_true, List.isEmpty_iff, List.dropWhile_eq_nil_iff]
    obtain ⟨p, hp, hid⟩ := hm
    intro hall
    have := hall p hp
    simp [hid] at this
  rw [List.dropWhile_append, hne]
  simp only [Bool.false_eq_true, if_false, List.filter_append]
  split_ifs with hs
  · simp [hs]
  · simp [hs]

/-- A probe that has just been stored was not followed by a merge. -/
theorem mergedValue_new {probe : ChangeProbe V} (hfresh : ∀ p ∈ probes, p.id ≠ context.probeId)
    (hs : probe.status ≠ .merged) : mergedValue (probes ++ [probe]) context = context.pendingValue := by
  unfold mergedValue
  have hnil : probes.dropWhile (fun probe => probe.id ≠ context.probeId) = [] := by
    rw [List.dropWhile_eq_nil_iff]
    intro p hp
    simpa using hfresh p hp
  have hfilter : (List.dropWhile (fun probe => probe.id ≠ context.probeId) [probe]).filter
      (fun probe => probe.status = .merged) = [] := by
    rw [List.filter_eq_nil_iff]
    intro p hp
    have := (List.dropWhile_sublist _).subset hp
    rw [List.mem_singleton] at this
    rw [this]
    simpa using hs
  rw [List.dropWhile_append, hnil]
  simp only [List.isEmpty_nil, if_true]
  rw [hfilter]
  rfl

/-! ### The invariant -/

/-- `pending`: while a run is awaited the pending value is the one merged last. -/
structure MergeInv (s : System V) : Prop where
  atomic : AtomicInv s
  policy : s.row.config.overlapPolicy = .merge
  queue : s.row.pendingQueue = []
  pending : ∀ run ∈ s.runs, s.row.pendingRunId = some run.id →
    ∀ context, run.triggerContext = some context →
      s.row.pendingValue = some (mergedValue s.probes context) ∧
        ∃ probe ∈ s.probes, probe.id = context.probeId

variable {s s' : System V} {complete : NodeSpec → Bool} {op : Operation V}

theorem MergeInv.of_initial (h : s.Initial) (hp : s.row.config.overlapPolicy = .merge) : MergeInv s := by
  refine ⟨AtomicInv.of_initial h, hp, h.pendingQueue, ?_⟩
  simp [h.runs]

/-- With the policy `merge` no value is queued. -/
theorem MergeInv.not_queued (h : MergeInv s) (now : ℕ) (current : V) :
    s.probeOutcome now current ≠ .queued := by
  by_cases hp : s.row.pendingRunId = none
  · exact (s.probeOutcome_idle now current hp).2.1
  · have := s.probeOutcome_awaited now current hp
    rw [h.policy] at this
    rcases this with ho | ho | ho | ho <;> rw [ho] <;> simp

/-- A probe that does not trigger. -/
theorem MergeInv.observed (h : MergeInv s) {now : ℕ} {current : V}
    (ho : s.probeOutcome now current ≠ .trigger) : MergeInv (s.recordProbe now current) := by
  obtain ⟨probe, hprobes, _, hvalue, hstatus⟩ := s.recordProbe_probes now current
  refine ⟨h.atomic.recordProbe now current ho, ?_, ?_, ?_⟩
  · rw [s.recordProbe_config]
    exact h.policy
  · rw [s.recordProbe_pendingQueue, if_neg (h.not_queued now current)]
    exact h.queue
  · intro run hr hp context hc
    rw [s.recordProbe_pendingRunId, if_neg ho] at hp
    obtain ⟨hpending, hm⟩ := h.pending run hr hp context hc
    constructor
    · rw [s.recordProbe_pendingValue, hprobes, mergedValue_append hm, hpending, hvalue, hstatus]
      have := s.probeOutcome_awaited now current (by rw [hp]; simp)
      rw [h.policy] at this
      rcases this with ho | ho | ho | ho <;> rw [ho] <;> rfl
    · obtain ⟨p, hp', hid⟩ := hm
      rw [hprobes]
      exact ⟨p, List.mem_append_left _ hp', hid⟩

theorem MergeInv.operate (h : MergeInv s) (hop : operate complete s op = some s') : MergeInv s' := by
  obtain ⟨hatomic, heffect⟩ := h.atomic.operate hop
  cases heffect with
  | quiet hother _ hvalues hpending hruns hprobes =>
      refine ⟨hatomic, ?_, ?_, ?_⟩
      · rw [hvalues.config]
        exact h.policy
      · rw [hvalues.queue]
        exact h.queue
      · intro run hr hp context hc
        obtain ⟨r, hr', hid, hcontext⟩ := exists_origin hruns hr
        rw [hpending, ← hid] at hp
        rw [← hcontext] at hc
        obtain ⟨hvalue, hm⟩ := h.pending r hr' hp context hc
        rw [hvalues.pending]
        cases hprobes with
        | inl hsame =>
            rw [hsame]
            exact ⟨hvalue, hm⟩
        | inr hadded =>
            obtain ⟨probe, hstatus, hadded⟩ := hadded
            rw [hadded, mergedValue_append hm, if_neg hstatus]
            obtain ⟨p, hp', hpid⟩ := hm
            exact ⟨hvalue, p, List.mem_append_left _ hp', hpid⟩
  | observed _ ho heq =>
      rw [heq]
      exact h.observed ho
  | takenBack _ ho hvalues hpending hruns =>
      refine ⟨hatomic, ?_, ?_, ?_⟩
      · rw [hvalues.config, s.recordProbe_config]
        exact h.policy
      · rw [hvalues.queue, s.recordProbe_pendingQueue, if_neg (h.not_queued _ _)]
        exact h.queue
      · intro run hr hp
        rw [hpending] at hp
        cases hp
  | @dispatched now manual taskMissing current delivery _ ho hvalues hpending hruns hprobes =>
      refine ⟨hatomic, ?_, ?_, ?_⟩
      · rw [hvalues.config, s.recordProbe_config]
        exact h.policy
      · rw [hvalues.queue, s.recordProbe_pendingQueue, if_neg (h.not_queued _ _)]
        exact h.queue
      · intro run hr hp context hc
        obtain ⟨probe, hid, hstatus, hprobes⟩ := hprobes
        have hcontext : context = (s.plannedDispatch current).context := by
          have hm : run.origin ∈ s'.runs.map WorkflowRun.origin := List.mem_map_of_mem hr
          rw [hpending, Option.some.injEq] at hp
          rw [hruns, List.mem_append, List.mem_singleton] at hm
          cases hm with
          | inl hm =>
              obtain ⟨r, hr', he⟩ := List.mem_map.mp hm
              have hrid : r.id = run.id := congrArg Prod.fst he
              have := h.atomic.runsFresh r hr'
              omega
          | inr hm =>
              have := congrArg (fun o => o.2.2) hm
              exact Option.some.inj (hc.symm.trans this)
        have hprobeId : context.probeId = s.nextId := by
          rw [hcontext]
          rfl
        constructor
        · rw [hvalues.pending, s.recordProbe_pendingValue, ho, hprobes, mergedValue_new ?_ hstatus,
            hcontext]
          · rfl
          · intro p hp'
            have := h.atomic.probesFresh p hp'
            omega
        · rw [hprobes]
          exact ⟨probe, by simp, hid.trans hprobeId.symm⟩
  | applied hp hr hid hc hrow hruns =>
      refine ⟨hatomic, ?_, ?_, ?_⟩
      · rw [hrow, TriggerRow.applyRun_config]
        exact h.policy
      · rw [hrow]
        exact (s.row.applyRun_pendingValue _ _ _ h.queue).2
      · intro run _ hp'
        rw [hrow, TriggerRow.applyRun_pendingRunId] at hp'
        cases hp'
  | kept hp hs hrow hruns =>
      refine ⟨hatomic, ?_, ?_, ?_⟩
      · rw [hrow]
        exact h.policy
      · rw [hrow]
        exact h.queue
      · intro run _ hp'
        rw [hrow] at hp'
        cases hp'
  | rebuilt hrow hruns =>
      refine ⟨hatomic, ?_, ?_, ?_⟩
      · rw [hrow]
        exact h.policy
      · rw [hrow]
        rfl
      · intro run _ hp'
        rw [hrow] at hp'
        cases hp'

/-! ### No change is lost -/

/-- The operation takes what it reads as the baseline. -/
def TakesBaseline (s : System V) : Operation V → Prop
  | .probe now _ _ current _ => s.probeOutcome now current = .baseline
  | .rebuildBaseline _ _ => True
  | _ => False

/-- The operation is the success of the run that the row waits for. -/
def Succeeds (s : System V) (run : WorkflowRun V) (op : Operation V) : Prop :=
  run ∈ s.runs ∧ s.row.pendingRunId = some run.id ∧
    ∃ now message, op = .finishRun now run.id .succeeded message

/-- What an operation does to the values of the row and to its schedule. -/
structure KeepsChanges (s s' : System V) (op : Operation V) : Prop where
  applied : s'.row.appliedValue ≠ s.row.appliedValue →
    TakesBaseline s op ∨ ∃ run, Succeeds s run op
  succeeded : ∀ run, Succeeds s run op → ∃ context, run.triggerContext = some context ∧
    s'.row.appliedValue = some context.pendingValue ∧
      s'.row.pendingValue =
        if mergedValue s.probes context = context.pendingValue then none
        else some (mergedValue s.probes context)
  failed : ∀ now id status message, op = .finishRun now id status message → status ≠ .succeeded →
    s'.row.appliedValue = s.row.appliedValue ∧ s'.row.pendingValue = s.row.pendingValue
  scheduled : s'.row.enabled = true → s'.row.nextProbeAt ≠ none

theorem MergeInv.keepsChanges (h : MergeInv s) (hop : ChangeTrigger.operate complete s op = some s') :
    KeepsChanges s s' op := by
  obtain ⟨hatomic, heffect⟩ := h.atomic.operate hop
  cases heffect with
  | quiet hother _ hvalues hpending hruns hprobes =>
      refine ⟨?_, ?_, ?_, hatomic.scheduled⟩
      · exact fun hne => absurd hvalues.applied hne
      · rintro run ⟨_, hp, now, message, rfl⟩
        exact absurd hp (hother _ _ _ _ rfl)
      · exact fun _ _ _ _ _ _ => ⟨hvalues.applied, hvalues.pending⟩
  | observed _ ho heq =>
      refine ⟨?_, ?_, ?_, hatomic.scheduled⟩
      · intro hne
        left
        show s.probeOutcome _ _ = .baseline
        by_contra hb
        apply hne
        rw [heq, s.recordProbe_appliedValue, if_neg hb]
        split_ifs with hwait
        · exact ((s.row.observe _ _).appliedValue_of_waitBaseline _ hwait).symm
        · rfl
      · rintro run ⟨_, _, now, message, hop⟩
        cases hop
      · intro _ _ _ _ hop
        cases hop
  | takenBack _ ho hvalues hpending hruns | dispatched _ ho hvalues hpending hruns hprobes =>
      refine ⟨?_, ?_, ?_, hatomic.scheduled⟩
      · intro hne
        refine absurd ?_ hne
        rw [hvalues.applied, s.recordProbe_appliedValue, ho]
        rfl
      · rintro run ⟨_, _, now, message, hop⟩
        cases hop
      · intro _ _ _ _ hop
        cases hop
  | @applied now id run context message hp hr hid hc hrow hruns =>
      subst hid
      obtain ⟨hvalue, _⟩ := h.pending run hr hp context hc
      refine ⟨?_, ?_, ?_, hatomic.scheduled⟩
      · exact fun _ => Or.inr ⟨run, hr, hp, now, message, rfl⟩
      · rintro r ⟨hr', hp', _, _, hop⟩
        have heq : r = run := by
          rw [hp, Option.some.injEq] at hp'
          exact List.inj_on_of_nodup_map h.atomic.runsNodup hr' hr hp'.symm
        subst heq
        refine ⟨context, hc, ?_, ?_⟩
        · rw [hrow]
          exact TriggerRow.applyRun_appliedValue _ _ _ _
        · rw [hrow, (s.row.applyRun_pendingValue _ _ _ h.queue).1, hvalue]
          simp only [Option.some.injEq]
      · intro _ _ _ _ hop hne
        cases hop
        exact absurd rfl hne
  | kept hp hs hrow hruns =>
      refine ⟨?_, ?_, ?_, hatomic.scheduled⟩
      · intro hne
        rw [hrow] at hne
        exact absurd rfl hne
      · rintro run ⟨_, _, now, message, hop⟩
        cases hop
        exact absurd rfl hs
      · intro _ _ _ _ _ _
        rw [hrow]
        exact ⟨rfl, rfl⟩
  | rebuilt hrow hruns =>
      refine ⟨?_, ?_, ?_, hatomic.scheduled⟩
      · exact fun _ => Or.inl trivial
      · rintro run ⟨_, _, now, message, hop⟩
        cases hop
      · intro _ _ _ _ hop
        cases hop

/-- With the policy `merge`, over every sequence of operations: the applied value changes only
when a baseline is taken or the awaited run succeeds, and then to the value of that run; the
value merged last stays pending; a failed run changes neither value; an enabled row is scheduled. -/
theorem merge_keepsChanges {s₀ : System V} {ops : List (Operation V)} (hstart : s₀.Initial)
    (hpolicy : s₀.row.config.overlapPolicy = .merge) (h : Run (operate complete) Free s₀ ops s)
    (hop : operate complete s op = some s') : KeepsChanges s s' op := by
  have hinv : MergeInv s :=
    h.invariant (MergeInv.of_initial hstart hpolicy) (fun _ _ _ _ hs hi => hi.operate hs)
  exact hinv.keepsChanges hop

/-- While run `3` is in flight for the value `11` the value `12` is merged; it stays pending. -/
theorem merge_twelve : ∃ s s', Run (operate (fun _ => false)) Free countedStart
    [.probe 0 false false 10 ⟨none, none⟩, .probe 300 false false 11 ⟨some countedVersion, none⟩,
      .probe 600 false false 12 ⟨none, none⟩] s ∧
    operate (fun _ => false) s (.finishRun 700 3 .succeeded "") = some s' ∧
    KeepsChanges s s' (.finishRun 700 3 .succeeded "") ∧
    s'.row.appliedValue = some 11 ∧ s'.row.pendingValue = some 12 := by
  obtain ⟨s, h, hs⟩ : ∃ s, Run (operate (fun _ => false)) Free countedStart
      [.probe 0 false false 10 ⟨none, none⟩, .probe 300 false false 11 ⟨some countedVersion, none⟩,
        .probe 600 false false 12 ⟨none, none⟩] s ∧
      (operate (fun _ => false) s (.finishRun 700 3 .succeeded "")).any (fun s' =>
        s'.row.appliedValue = some 11 ∧ s'.row.pendingValue = some 12) = true :=
    exists_run (by decide)
  obtain ⟨s', hop, hvalues⟩ := (Option.any_eq_true _ _).mp hs
  rw [decide_eq_true_eq] at hvalues
  have hstart : countedStart.Initial := ⟨rfl, rfl, rfl, rfl, rfl, rfl, by decide⟩
  exact ⟨s, s', h, hop, merge_keepsChanges hstart rfl h hop, hvalues⟩

end RecoveryService.ChangeTrigger
