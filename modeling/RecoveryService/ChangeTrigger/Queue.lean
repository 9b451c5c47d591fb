import RecoveryService.ChangeTrigger.Atomic

/-! # Queued changes

With the overlap policy `queue` a change confirmed while a run is in flight is appended to the
queue, and the success of a run makes the head of the queue the pending value.  The next probe
dispatches it, but not as it was queued: a probe that finds a pending value without a run takes
over what it has just read.  When these probes read the pending value again (`Steady`), the
values are dispatched in the order in which they were confirmed, each once, and applied in that
order (`queue_inOrder`). -/

set_option linter.unusedSectionVars false

namespace RecoveryService.ChangeTrigger

open DataPlatform Checks Runs

variable {V : Type} [DecidableEq V]

/-- A system with the values confirmed and the values applied so far. -/
structure QueueTrace (V : Type) where
  system : System V
  accepted : List V := []
  applied : List V := []

/-- The outcomes that confirm a change. -/
def ProbeOutcome.confirms : ProbeOutcome → Bool
  | .queued => true
  | .window => true
  | .debounce => true
  | .trigger => true
  | _ => false

/-- The change an operation confirms.  A probe that finds the pending value again without a run
in flight confirms nothing new. -/
def System.confirmed (s : System V) : Operation V → Option V
  | .probe now manual taskMissing current _ =>
      if s.Reads manual taskMissing ∧ (s.probeOutcome now current).confirms ∧
          (s.row.pendingRunId ≠ none ∨ s.row.pendingValue ≠ some current) then some current
      else none
  | _ => none

/-- The value the success of the awaited run applies. -/
def System.appliedBy (s s' : System V) : Operation V → Option V
  | .finishRun _ id status _ =>
      if s.row.pendingRunId = some id ∧ status = .succeeded then s'.row.appliedValue else none
  | _ => none

def traceStep (complete : NodeSpec → Bool) (t : QueueTrace V) (op : Operation V) : Option (QueueTrace V) :=
  (operate complete t.system op).map (fun s' =>
    { system := s'
      accepted := t.accepted ++ (t.system.confirmed op).toList
      applied := t.applied ++ (t.system.appliedBy s' op).toList })

/-- The values confirmed are distinct, at most 100 of them wait in the queue, all runs succeed,
and the baseline is not rebuilt. -/
def Assumed (t : QueueTrace V) : Operation V → Prop
  | .probe now manual taskMissing current delivery =>
      delivery.failure = none ∧
        t.system.confirmed (.probe now manual taskMissing current delivery) ∉ t.accepted.map some ∧
        (t.system.probeOutcome now current = .queued → t.system.row.pendingQueue.length < 100)
  | .finishRun _ id status _ => t.system.row.pendingRunId = some id → status = .succeeded
  | .rebuildBaseline _ _ => False
  | _ => True

/-- A probe that finds a pending value while no run is in flight reads this value. -/
def Steady (t : QueueTrace V) : Operation V → Prop
  | .probe _ manual taskMissing current _ =>
      t.system.Reads manual taskMissing → t.system.row.pendingRunId = none →
        t.system.row.pendingValue = none ∨ t.system.row.pendingValue = some current
  | _ => True

instance (t : QueueTrace V) : (op : Operation V) → Decidable (Assumed t op)
  | .probe _ _ _ _ _ => inferInstanceAs (Decidable (_ ∧ _ ∧ (_ → _)))
  | .finishRun _ _ _ _ => inferInstanceAs (Decidable (_ → _))
  | .rebuildBaseline _ _ => .isFalse id
  | .markProbeFailure _ _ _ => .isTrue trivial
  | .updateState _ _ => .isTrue trivial

instance (t : QueueTrace V) : (op : Operation V) → Decidable (Steady t op)
  | .probe _ _ _ _ _ => inferInstanceAs (Decidable (_ → _ → _ ∨ _))
  | .finishRun _ _ _ _ => .isTrue trivial
  | .rebuildBaseline _ _ => .isTrue trivial
  | .markProbeFailure _ _ _ => .isTrue trivial
  | .updateState _ _ => .isTrue trivial

/-- The values confirmed and not dispatched. -/
def System.waiting (s : System V) : List V :=
  (if s.row.pendingRunId = none then s.row.pendingValue.toList else []) ++ s.row.pendingQueue

/-- The value of the run in flight. -/
def System.inFlight (s : System V) : List V :=
  if s.row.pendingRunId = none then [] else s.row.pendingValue.toList

/-- Every value confirmed was dispatched or waits, in order; the values dispatched were applied,
except for the one in flight. -/
def InOrder (t : QueueTrace V) : Prop :=
  t.system.dispatched ++ t.system.waiting = t.accepted ∧
    t.applied ++ t.system.inFlight = t.system.dispatched

instance (t : QueueTrace V) : Decidable (InOrder t) := inferInstanceAs (Decidable (_ ∧ _))

/-! ### The invariant -/

structure QueueInv (t : QueueTrace V) : Prop where
  atomic : AtomicInv t.system
  policy : t.system.row.config.overlapPolicy = .queue
  order : InOrder t
  queued : t.system.row.pendingValue = none → t.system.row.pendingQueue = []
  awaited : ∀ run ∈ t.system.runs, t.system.row.pendingRunId = some run.id →
    ∀ context, run.triggerContext = some context →
      t.system.row.pendingValue = some context.pendingValue

variable {t t' : QueueTrace V} {s s' : System V} {complete : NodeSpec → Bool} {op : Operation V}

theorem QueueInv.of_initial (h : s.Initial) (hp : s.row.config.overlapPolicy = .queue) :
    QueueInv { system := s } := by
  refine ⟨AtomicInv.of_initial h, hp, ?_, fun _ => h.pendingQueue, ?_⟩
  · simp [InOrder, System.dispatched, System.waiting, System.inFlight, h.runs, h.pendingRunId,
      h.pendingValue, h.pendingQueue]
  · simp [h.runs]

theorem System.dispatched_congr (hid : s'.row.id = s.row.id)
    (hruns : s'.runs.map WorkflowRun.origin = s.runs.map WorkflowRun.origin) :
    s'.dispatched = s.dispatched := by
  unfold System.dispatched
  rw [hruns, hid]

variable {current : V}

/-- A new value fits into the queue. -/
theorem enqueueValue_of_lt {queue : List V} (hnew : current ∉ queue) (hlen : queue.length < 100) :
    enqueueValue queue current = queue ++ [current] := by
  unfold enqueueValue
  rw [if_neg hnew]
  have hz : (queue ++ [current]).length - 100 = 0 := by
    rw [List.length_append, List.length_singleton]
    omega
  dsimp only
  rw [hz, List.drop_zero]

/-- The order when a run is in flight, and when none is. -/
theorem inOrder_iff {t : QueueTrace V} : InOrder t ↔
    match t.system.row.pendingRunId, t.system.row.pendingValue with
    | none, none => t.system.dispatched ++ t.system.row.pendingQueue = t.accepted ∧
        t.applied = t.system.dispatched
    | none, some value =>
        t.system.dispatched ++ value :: t.system.row.pendingQueue = t.accepted ∧
          t.applied = t.system.dispatched
    | some _, none => t.system.dispatched ++ t.system.row.pendingQueue = t.accepted ∧
        t.applied = t.system.dispatched
    | some _, some value => t.system.dispatched ++ t.system.row.pendingQueue = t.accepted ∧
        t.applied ++ [value] = t.system.dispatched := by
  unfold InOrder System.waiting System.inFlight
  cases t.system.row.pendingRunId <;> cases t.system.row.pendingValue <;> simp

/-- Operations that leave the values that wait, the runs and the traces alone. -/
theorem QueueInv.of_frame (h : QueueInv t) (hatomic : AtomicInv s')
    (hid : s'.row.id = t.system.row.id) (hconfig : s'.row.config = t.system.row.config)
    (hvalue : s'.row.pendingValue = t.system.row.pendingValue)
    (hqueue : s'.row.pendingQueue = t.system.row.pendingQueue)
    (hpending : s'.row.pendingRunId = t.system.row.pendingRunId)
    (hruns : s'.runs.map WorkflowRun.origin = t.system.runs.map WorkflowRun.origin) :
    QueueInv { system := s', accepted := t.accepted, applied := t.applied } := by
  have hdispatched := System.dispatched_congr hid hruns
  refine ⟨hatomic, ?_, ?_, ?_, ?_⟩
  · rw [hconfig]
    exact h.policy
  · have horder := inOrder_iff.mp h.order
    rw [inOrder_iff]
    dsimp only
    rw [hpending, hvalue, hqueue, hdispatched]
    exact horder
  · intro hnone
    rw [hqueue]
    exact h.queued (hvalue.symm.trans hnone)
  · intro run hr hp context hc
    obtain ⟨r, hr', hrid, hcontext⟩ := exists_origin hruns hr
    rw [hvalue]
    exact h.awaited r hr' (by rw [← hpending, hp, hrid]) context (hcontext.trans hc)

/-- The run in flight was dispatched with the pending value. -/
theorem QueueInv.inFlight (h : QueueInv t) {id : ℕ} (hp : t.system.row.pendingRunId = some id) :
    ∃ value, t.system.row.pendingValue = some value ∧
      t.system.dispatched ++ t.system.row.pendingQueue = t.accepted ∧
        t.applied ++ [value] = t.system.dispatched := by
  obtain ⟨run, hr, hid, _, _, context, hc, _⟩ := h.atomic.awaited id hp
  have hvalue := h.awaited run hr (by rw [hp, hid]) context hc
  have horder := inOrder_iff.mp h.order
  rw [hp, hvalue] at horder
  exact ⟨context.pendingValue, hvalue, horder⟩

variable {accepted : List V}

/-- The first confirmed value that waits becomes or stays the pending value. -/
theorem QueueInv.confirm (h : QueueInv t) (hidle : t.system.row.pendingRunId = none)
    (hsteady : t.system.row.pendingValue = none ∨ t.system.row.pendingValue = some current)
    (haccepted : accepted = t.accepted ++
      (if t.system.row.pendingValue ≠ some current then [current] else [])) :
    t.system.dispatched ++ current :: t.system.row.pendingQueue = accepted ∧
      t.applied = t.system.dispatched := by
  have horder := inOrder_iff.mp h.order
  rw [hidle] at horder
  cases hsteady with
  | inl hnone =>
      rw [hnone] at horder haccepted
      have hq := h.queued hnone
      rw [hq] at horder ⊢
      rw [haccepted, ← horder.1]
      simp [horder.2]
  | inr hsome =>
      rw [hsome] at horder haccepted
      rw [haccepted]
      simpa using horder

/-- A probe whose change waits: no run is in flight. -/
theorem QueueInv.of_confirm (h : QueueInv t) (hatomic : AtomicInv s') (hidle : t.system.row.pendingRunId = none)
    (hsteady : t.system.row.pendingValue = none ∨ t.system.row.pendingValue = some current)
    (haccepted : accepted = t.accepted ++
      (if t.system.row.pendingValue ≠ some current then [current] else [])) (hid : s'.row.id = t.system.row.id)
    (hconfig : s'.row.config = t.system.row.config) (hvalue : s'.row.pendingValue = some current)
    (hqueue : s'.row.pendingQueue = t.system.row.pendingQueue) (hpending : s'.row.pendingRunId = none)
    (hruns : s'.runs.map WorkflowRun.origin = t.system.runs.map WorkflowRun.origin) :
    QueueInv { system := s', accepted := accepted, applied := t.applied } := by
  have hdispatched := System.dispatched_congr hid hruns
  refine ⟨hatomic, ?_, ?_, ?_, ?_⟩
  · rw [hconfig]
    exact h.policy
  · rw [inOrder_iff]
    dsimp only
    rw [hpending, hvalue, hqueue, hdispatched]
    exact h.confirm hidle hsteady haccepted
  · intro hnone
    rw [hvalue] at hnone
    cases hnone
  · intro run _ hp
    rw [hpending] at hp
    cases hp

section probe

variable {now : ℕ} {manual taskMissing : Bool} {current : V} {delivery : Delivery}

theorem System.confirmed_idle (hreads : s.Reads manual taskMissing)
    (hc : (s.probeOutcome now current).confirms = true) (hidle : s.row.pendingRunId = none) :
    (s.confirmed (.probe now manual taskMissing current delivery)).toList =
      if s.row.pendingValue ≠ some current then [current] else [] := by
  unfold System.confirmed
  dsimp only
  split_ifs <;> simp_all

theorem System.confirmed_none (hc : (s.probeOutcome now current).confirms = false) :
    s.confirmed (.probe now manual taskMissing current delivery) = none := by
  unfold System.confirmed
  dsimp only
  rw [if_neg]
  rw [hc]
  simp

/-- A probe that does not trigger. -/
theorem QueueInv.observed (h : QueueInv t) (hreads : t.system.Reads manual taskMissing)
    (hassumed : Assumed t (.probe now manual taskMissing current delivery))
    (hsteady : Steady t (.probe now manual taskMissing current delivery))
    (ho : t.system.probeOutcome now current ≠ .trigger) : QueueInv
      { system := t.system.recordProbe now current
        accepted := t.accepted ++
          (t.system.confirmed (.probe now manual taskMissing current delivery)).toList
        applied := t.applied } := by
  have hatomic := h.atomic.recordProbe now current ho
  have hid : (t.system.recordProbe now current).row.id = t.system.row.id :=
    TriggerRow.settle_id _ _ _ _ _
  have hpending := t.system.recordProbe_pendingRunId now current
  rw [if_neg ho] at hpending
  have hvalue := t.system.recordProbe_pendingValue now current
  have hqueue := t.system.recordProbe_pendingQueue now current
  cases hp : t.system.row.pendingRunId with
  | none =>
      obtain ⟨_, hnq, hnm⟩ := t.system.probeOutcome_idle now current hp
      rw [if_neg hnq] at hqueue
      cases hc : (t.system.probeOutcome now current).confirms with
      | false =>
          have hsets : (t.system.probeOutcome now current).setsPending = false := by
            cases houtcome : t.system.probeOutcome now current <;> rw [houtcome] at hc hnm <;>
              first | rfl | exact absurd rfl hnm | cases hc
          rw [hsets] at hvalue
          rw [System.confirmed_none hc, Option.toList_none, List.append_nil]
          exact h.of_frame hatomic hid (t.system.recordProbe_config now current) hvalue hqueue
            hpending rfl
      | true =>
          have hsets : (t.system.probeOutcome now current).setsPending = true := by
            cases houtcome : t.system.probeOutcome now current <;> rw [houtcome] at hc hnq <;>
              first | rfl | exact absurd rfl hnq | cases hc
          rw [hsets] at hvalue
          refine h.of_confirm hatomic hp (hsteady hreads hp) ?_ hid
            (t.system.recordProbe_config now current) hvalue hqueue (hpending.trans hp) rfl
          rw [System.confirmed_idle hreads hc hp]
  | some id =>
      have hawaited := t.system.probeOutcome_awaited now current (by rw [hp]; simp)
      rw [h.policy] at hawaited
      by_cases hq : t.system.probeOutcome now current = .queued
      · -- the value joins the queue
        have hconfirmed : t.system.confirmed (.probe now manual taskMissing current delivery) =
            some current := by
          unfold System.confirmed
          dsimp only
          rw [if_pos]
          exact ⟨hreads, by rw [hq]; rfl, Or.inl (by rw [hp]; simp)⟩
        have hnew : current ∉ t.accepted := by
          have := hassumed.2.1
          rw [hconfirmed] at this
          simpa using this
        obtain ⟨value, hwaiting, horder, happlied⟩ := h.inFlight hp
        have hdispatched : (t.system.recordProbe now current).dispatched = t.system.dispatched :=
          System.dispatched_congr hid rfl
        have hwaits : current ∉ t.system.row.pendingQueue := by
          intro hm
          apply hnew
          rw [← horder]
          exact List.mem_append_right _ hm
        rw [if_pos hq, enqueueValue_of_lt hwaits (hassumed.2.2 hq)] at hqueue
        rw [hq] at hvalue
        have hvalue' : (t.system.recordProbe now current).row.pendingValue = some value :=
          hvalue.trans hwaiting
        refine ⟨hatomic, ?_, ?_, ?_, ?_⟩
        · rw [t.system.recordProbe_config]
          exact h.policy
        · rw [hconfirmed, inOrder_iff]
          dsimp only
          rw [hpending, hp, hvalue', hqueue, hdispatched]
          refine ⟨?_, happlied⟩
          rw [← horder]
          simp
        · intro hnone
          rw [hvalue'] at hnone
          cases hnone
        · intro run hr hawait context hc
          rw [hvalue]
          exact h.awaited run hr (by rw [← hpending, hawait]) context hc
      · have hframe : (t.system.probeOutcome now current).confirms = false ∧
            (t.system.probeOutcome now current).setsPending = false := by
          rcases hawaited with ha | ha | ha | ha
          · rw [ha]
            exact ⟨rfl, rfl⟩
          · rw [ha]
            exact ⟨rfl, rfl⟩
          · rw [ha]
            exact ⟨rfl, rfl⟩
          · exact absurd ha hq
        rw [if_neg hq] at hqueue
        rw [hframe.2] at hvalue
        rw [System.confirmed_none hframe.1, Option.toList_none, List.append_nil]
        exact h.of_frame hatomic hid (t.system.recordProbe_config now current) hvalue hqueue
          hpending rfl

/-- An operation that does not read confirms nothing. -/
theorem System.confirmed_of_unread (h : ∀ now manual taskMissing current delivery,
    op = .probe now manual taskMissing current delivery → ¬ s.Reads manual taskMissing) :
    s.confirmed op = none := by
  cases op with
  | probe now manual taskMissing current delivery =>
      unfold System.confirmed
      dsimp only
      rw [if_neg]
      exact fun hc => h _ _ _ _ _ rfl hc.1
  | _ => rfl

/-- Only the end of the awaited run applies a value. -/
theorem System.appliedBy_of_other (h : ∀ now id status message,
    op = .finishRun now id status message → s.row.pendingRunId ≠ some id) : s.appliedBy s' op = none := by
  cases op with
  | finishRun now id status message =>
      unfold System.appliedBy
      dsimp only
      rw [if_neg]
      exact fun hc => h _ _ _ _ rfl hc.1
  | _ => rfl

end probe

/-- A run that the trigger starts is the last one dispatched. -/
theorem System.dispatched_append {context : TriggerContext V} {id : ℕ}
    (hid : s'.row.id = s.row.id) (hc : context.triggerStateId = s.row.id)
    (hruns : s'.runs.map WorkflowRun.origin =
      s.runs.map WorkflowRun.origin ++ [(id, .dataChange, some context)]) :
    s'.dispatched = s.dispatched ++ [context.pendingValue] := by
  unfold System.dispatched
  rw [hruns, List.filterMap_append, hid]
  simp [hc]

/-- The success of the awaited run applies its value and makes the next one pending. -/
theorem QueueInv.applied (h : QueueInv t) (hatomic : AtomicInv s') {now id : ℕ} {value : V}
    (hp : t.system.row.pendingRunId = some id) (hvalue : t.system.row.pendingValue = some value)
    (hrow : s'.row = t.system.row.applyRun now id value)
    (hruns : s'.runs.map WorkflowRun.origin = t.system.runs.map WorkflowRun.origin) :
    QueueInv { system := s', accepted := t.accepted, applied := t.applied ++ [value] } := by
  have hdispatched : s'.dispatched = t.system.dispatched :=
    System.dispatched_congr (by rw [hrow, TriggerRow.applyRun_id]) hruns
  have hpending : s'.row.pendingRunId = none := by
    rw [hrow, TriggerRow.applyRun_pendingRunId]
  obtain ⟨_, hsome, horder, happlied⟩ := h.inFlight hp
  rw [hvalue, Option.some.injEq] at hsome
  subst hsome
  refine ⟨hatomic, ?_, ?_, ?_, ?_⟩
  · rw [hrow, TriggerRow.applyRun_config]
    exact h.policy
  · rw [inOrder_iff]
    dsimp only
    rw [hpending, hdispatched]
    cases hq : t.system.row.pendingQueue with
    | nil =>
        obtain ⟨hnone, hnil⟩ := t.system.row.applyRun_pendingValue now id value hq
        rw [hvalue, if_pos rfl] at hnone
        rw [hrow, hnone, hnil]
        rw [hq] at horder
        exact ⟨horder, happlied⟩
    | cons next queue =>
        obtain ⟨hnext, htail⟩ := t.system.row.applyRun_pendingQueue now id value next queue hvalue hq
        rw [hrow, hnext, htail]
        rw [hq] at horder
        exact ⟨horder, happlied⟩
  · intro hnone
    rw [hrow] at hnone ⊢
    cases hq : t.system.row.pendingQueue with
    | nil => exact (t.system.row.applyRun_pendingValue now id value hq).2
    | cons next queue =>
        rw [(t.system.row.applyRun_pendingQueue now id value next queue hvalue hq).1] at hnone
        cases hnone
  · intro run _ hawait
    rw [hpending] at hawait
    cases hawait

/-- A probe that triggers dispatches the value it has read. -/
theorem QueueInv.dispatched (h : QueueInv t) (hatomic : AtomicInv s') {now : ℕ}
    (ho : t.system.probeOutcome now current = .trigger)
    (horder : t.system.dispatched ++ current :: t.system.row.pendingQueue = accepted ∧
      t.applied = t.system.dispatched) (hvalues : (t.system.recordProbe now current).row.SameValues s'.row)
    (hpending : s'.row.pendingRunId = some (t.system.nextId + 1))
    (hruns : s'.runs.map WorkflowRun.origin = t.system.runs.map WorkflowRun.origin ++
      [(t.system.nextId + 1, .dataChange, some (t.system.plannedDispatch current).context)]) :
    QueueInv { system := s', accepted := accepted, applied := t.applied } := by
  have hid : s'.row.id = t.system.row.id := hvalues.id.trans (TriggerRow.settle_id _ _ _ _ _)
  have hdispatched : s'.dispatched = t.system.dispatched ++ [current] :=
    System.dispatched_append hid rfl hruns
  have hvalue : s'.row.pendingValue = some current := by
    rw [hvalues.pending, t.system.recordProbe_pendingValue, ho]
    rfl
  have hqueue : s'.row.pendingQueue = t.system.row.pendingQueue := by
    rw [hvalues.queue, t.system.recordProbe_pendingQueue, ho]
    rfl
  refine ⟨hatomic, ?_, ?_, ?_, ?_⟩
  · rw [hvalues.config, t.system.recordProbe_config]
    exact h.policy
  · rw [inOrder_iff]
    dsimp only
    rw [hpending, hvalue, hqueue, hdispatched, ← horder.1, horder.2]
    simp
  · intro hnone
    rw [hvalue] at hnone
    cases hnone
  · intro run hr hawait context hc
    rw [hpending, Option.some.injEq] at hawait
    have hm : run.origin ∈ s'.runs.map WorkflowRun.origin := List.mem_map_of_mem hr
    rw [hruns, List.mem_append, List.mem_singleton] at hm
    cases hm with
    | inl hm =>
        obtain ⟨r, hr', he⟩ := List.mem_map.mp hm
        have hrid : r.id = run.id := congrArg Prod.fst he
        have := h.atomic.runsFresh r hr'
        omega
    | inr hm =>
        have hcontext : run.triggerContext = some (t.system.plannedDispatch current).context :=
          congrArg (fun o => o.2.2) hm
        rw [hc, Option.some.injEq] at hcontext
        rw [hvalue, hcontext]
        rfl

theorem QueueInv.step (h : QueueInv t) (hassumed : Assumed t op) (hsteady : Steady t op)
    (hstep : traceStep complete t op = some t') : QueueInv t' := by
  unfold traceStep at hstep
  obtain ⟨s', hop, rfl⟩ := Option.map_eq_some_iff.mp hstep
  obtain ⟨hatomic, heffect⟩ := h.atomic.operate hop
  cases heffect with
  | quiet hother hunread hvalues hpending hruns _ =>
      rw [System.confirmed_of_unread hunread, System.appliedBy_of_other hother, Option.toList_none,
        List.append_nil, List.append_nil]
      exact h.of_frame hatomic hvalues.id hvalues.config hvalues.pending hvalues.queue hpending hruns
  | observed hreads ho heq =>
      rw [heq, System.appliedBy_of_other (by simp), Option.toList_none, List.append_nil]
      exact h.observed hreads hassumed hsteady ho
  | @takenBack now manual taskMissing current delivery hreads ho hvalues hpending hruns =>
      have hidle : t.system.row.pendingRunId = none :=
        TriggerRow.pendingRunId_of_trigger (t.system.row.observe now current) now ho
      rw [System.appliedBy_of_other (by simp), Option.toList_none, List.append_nil,
        System.confirmed_idle hreads (by rw [ho]; rfl) hidle]
      refine h.of_confirm hatomic hidle (hsteady hreads hidle) rfl ?_ ?_ ?_ ?_ hpending
        (hruns hassumed.1)
      · exact hvalues.id.trans (TriggerRow.settle_id _ _ _ _ _)
      · rw [hvalues.config, t.system.recordProbe_config]
      · rw [hvalues.pending, t.system.recordProbe_pendingValue, ho]
        rfl
      · rw [hvalues.queue, t.system.recordProbe_pendingQueue, ho]
        rfl
  | @dispatched now manual taskMissing current delivery hreads ho hvalues hpending hruns _ =>
      have hidle : t.system.row.pendingRunId = none :=
        TriggerRow.pendingRunId_of_trigger (t.system.row.observe now current) now ho
      rw [System.appliedBy_of_other (by simp), Option.toList_none, List.append_nil,
        System.confirmed_idle hreads (by rw [ho]; rfl) hidle]
      exact h.dispatched hatomic ho (h.confirm hidle (hsteady hreads hidle) rfl) hvalues hpending
        hruns
  | @applied now id run context message hp hr hid hc hrow hruns =>
      have hvalue := h.awaited run hr (by rw [hp, hid]) context hc
      have happlied : t.system.appliedBy s' (.finishRun now id .succeeded message) =
          some context.pendingValue := by
        unfold System.appliedBy
        dsimp only
        rw [if_pos ⟨hp, rfl⟩, hrow, TriggerRow.applyRun_appliedValue]
      rw [happlied]
      simpa [System.confirmed] using h.applied hatomic hp hvalue hrow hruns
  | kept hp hfailed _ _ => exact absurd (hassumed hp) hfailed
  | rebuilt _ _ => exact absurd hassumed id

/-! ### First in, first out -/

/-- The values confirmed stay distinct. -/
theorem accepted_nodup_step (h : t.accepted.Nodup) (hassumed : Assumed t op)
    (hstep : traceStep complete t op = some t') : t'.accepted.Nodup := by
  unfold traceStep at hstep
  obtain ⟨s', _, rfl⟩ := Option.map_eq_some_iff.mp hstep
  have hnew : ∀ value, t.system.confirmed op = some value → value ∉ t.accepted := by
    intro value hvalue hm
    cases op with
    | probe now manual taskMissing current delivery =>
        apply hassumed.2.1
        rw [hvalue]
        exact List.mem_map_of_mem hm
    | _ => cases hvalue
  cases hc : t.system.confirmed op with
  | none => simpa [hc] using h
  | some value =>
      rw [Option.toList_some]
      refine h.append (List.nodup_singleton _) ?_
      rw [List.disjoint_singleton]
      exact hnew value hc

/-- With the policy `queue`: when every probe that finds a pending value without a run in flight
reads this value, the confirmed values are dispatched and applied in the order in which they were
confirmed, each once. -/
theorem queue_inOrder {s₀ : System V} {ops : List (Operation V)} (hstart : s₀.Initial)
    (hpolicy : s₀.row.config.overlapPolicy = .queue)
    (h : Run (traceStep complete) (fun t op => Assumed t op ∧ Steady t op) { system := s₀ } ops t) :
    InOrder t ∧ t.accepted.Nodup := by
  have hinv : QueueInv t :=
    h.invariant (QueueInv.of_initial hstart hpolicy)
      (fun _ _ _ hok hs hi => hi.step hok.1 hok.2 hs)
  have hnodup : t.accepted.Nodup :=
    h.invariant (I := fun t => t.accepted.Nodup) List.nodup_nil
      (fun _ _ _ hok hs hi => accepted_nodup_step hi hok.1 hs)
  exact ⟨hinv.order, hnodup⟩

def queuedStart : System ℕ :=
  { countedStart with
    row := { countedStart.row with config := { everyChange with overlapPolicy := .queue } } }

/-- While run `3` is in flight for `11` the value `12` is queued; it is dispatched next. -/
theorem queue_twelve : ∃ t, Run (traceStep (fun _ => false)) (fun t op => Assumed t op ∧ Steady t op)
    { system := queuedStart }
    [.probe 0 false false 10 ⟨none, none⟩, .probe 300 false false 11 ⟨some countedVersion, none⟩,
      .probe 600 false false 12 ⟨none, none⟩, .finishRun 700 3 .succeeded "",
      .probe 900 false false 12 ⟨some countedVersion, none⟩] t ∧
    (InOrder t ∧ t.accepted.Nodup) ∧ t.system.dispatched = [11, 12] ∧ t.applied = [11] := by
  obtain ⟨t, h, ht⟩ : ∃ t, Run (traceStep (fun _ => false)) (fun t op => Assumed t op ∧ Steady t op)
      { system := queuedStart }
      [.probe 0 false false 10 ⟨none, none⟩, .probe 300 false false 11 ⟨some countedVersion, none⟩,
        .probe 600 false false 12 ⟨none, none⟩, .finishRun 700 3 .succeeded "",
        .probe 900 false false 12 ⟨some countedVersion, none⟩] t ∧
      t.system.dispatched = [11, 12] ∧ t.applied = [11] := exists_run (by decide)
  have hstart : queuedStart.Initial := ⟨rfl, rfl, rfl, rfl, rfl, rfl, by decide⟩
  exact ⟨t, h, queue_inOrder hstart rfl h, ht⟩

/-- The values `12` and `13` are queued behind `11`.  The probe after the success of the run reads
`14` and dispatches it in the place of `12`. -/
theorem queue_overtaken : ∃ t, Run (traceStep (fun _ => false)) Assumed { system := queuedStart }
    [.probe 0 false false 10 ⟨none, none⟩, .probe 300 false false 11 ⟨some countedVersion, none⟩,
      .probe 600 false false 12 ⟨none, none⟩, .probe 900 false false 13 ⟨none, none⟩,
      .finishRun 1000 3 .succeeded "", .probe 1200 false false 14 ⟨some countedVersion, none⟩] t ∧
    t.accepted = [11, 12, 13, 14] ∧ t.system.dispatched = [11, 14] ∧ ¬ InOrder t := by
  refine exists_run ?_
  decide

end RecoveryService.ChangeTrigger
