import RecoveryService.ApprovalAuthorization.Runs

/-! # What a scan may conclude from the logs

A success log of `import_permissions` says that a run went through all steps before it, unless a step test
wrote it (`Inv.logs`); but a step may have succeeded without a log.  So the scans do right as long as they
take up an application only where the logs tell what was done. -/

set_option linter.unusedSectionVars false

namespace RecoveryService.ApprovalAuthorization

open Runs

variable {α : Type} [DecidableEq α]

/-! ### What is promised -/

/-- The steps that grant something. -/
def granting : List Step := [.internalGrant, .apiAdd, .importPermissions]

/-- A step was right at its time: a run that is no step test updates the audit status only with the option and
for an authorized application, and a scan grants nothing where the permissions had been imported. -/
def Right (e : Executed α) (before : List (Executed α)) : Prop :=
  (e.byTest = false → e.step = .auditStatusUpdate →
    e.update = true ∧ ∃ id, e.applyFlowId = some id ∧ Authorized before id) ∧
  (e.autoWatch = true → e.step ∈ granting → e.again = false)

/-- All steps were right. -/
def Rightful (executed : List (Executed α)) : Prop :=
  ∀ later e before, executed = later ++ e :: before → Right e before

/-- The scan takes up an application only where the logs tell what was done: a success log of
`import_permissions` is that of a run and the option is set, and without one nothing was imported. -/
def Told (s : State α) : Action α → Prop
  | .take i id => ∀ row ∈ s.runs[i]?, row.autoWatch = true →
      ¬ (row.config.autoWatchSkipStatusUpdated = true ∧ s.logged id .auditStatusUpdate) →
        if s.logged id .importPermissions then
          row.config.updateAuditStatusAfterSuccess = true ∧
            ∃ l ∈ s.logs, l.applyFlowId = some id ∧ l.step = .importPermissions ∧ l.byTest = false
        else ¬ Imported s.executed id
  | _ => True

instance (s : State α) : ∀ a, Decidable (Told s a)
  | .take i id =>
      match h : s.runs[i]? with
      | none => .isTrue fun row hrow => by rw [h] at hrow; cases hrow
      | some row => decidable_of_iff (row.autoWatch = true →
          ¬ (row.config.autoWatchSkipStatusUpdated = true ∧ s.logged id .auditStatusUpdate) →
            if s.logged id .importPermissions then
              row.config.updateAuditStatusAfterSuccess = true ∧
                ∃ l ∈ s.logs, l.applyFlowId = some id ∧ l.step = .importPermissions ∧ l.byTest = false
            else ¬ Imported s.executed id)
          ⟨fun hrow r hr => by rw [h] at hr; exact Option.some.inj hr ▸ hrow, fun hall => hall row h⟩
  | .edit _ | .startScan | .startFull _ | .perform _ _ | .finish _ | .die _ | .test _ _ _ => .isTrue trivial

/-! ### The invariant -/

/-- A run is at an application rightly. -/
structure FlowOk (executed : List (Executed α)) (row : RunRow α) (f : Flow α) : Prop where
  steps : f.steps = [.auditStatusUpdate] ∧ row.config.updateAuditStatusAfterSuccess = true ∧
      Authorized executed f.applyFlowId ∨
    f.steps = applyFlow row.config.updateAuditStatusAfterSuccess ∧
      (8 < f.position → Authorized executed f.applyFlowId) ∧ (row.autoWatch = true → f.again = false)

structure Inv (s : State α) : Prop where
  logs : ∀ l ∈ s.logs, l.byTest = false → l.step = .importPermissions →
    ∀ id, l.applyFlowId = some id → Authorized s.executed id
  flows : ∀ row ∈ s.runs, ∀ f ∈ row.flow, FlowOk s.executed row f
  rightful : Rightful s.executed

variable {s s' : State α} {row : RunRow α} {f : Flow α} {outcome : Outcome} {step : Step} {id : α}
variable {executed : List (Executed α)}

theorem Authorized.cons (e : Executed α) (h : Authorized executed id) : Authorized (e :: executed) id := by
  obtain ⟨d, hd, h⟩ := h
  exact ⟨d, List.mem_cons_of_mem e hd, h⟩

theorem FlowOk.cons (e : Executed α) (h : FlowOk executed row f) : FlowOk (e :: executed) row f := by
  rcases h.steps with ⟨hsteps, hupdate, hauthorized⟩ | ⟨hsteps, hauthorized, hagain⟩
  · exact ⟨.inl ⟨hsteps, hupdate, hauthorized.cons e⟩⟩
  · exact ⟨.inr ⟨hsteps, fun h => (hauthorized h).cons e, hagain⟩⟩

theorem Rightful.cons {e : Executed α} (h : Rightful executed) (he : Right e executed) : Rightful (e :: executed) := by
  intro later d before heq
  cases later with
  | nil =>
      rw [List.nil_append, List.cons.injEq] at heq
      rw [← heq.1, ← heq.2]
      exact he
  | cons d' later =>
      rw [List.cons_append, List.cons.injEq] at heq
      exact h later d before heq.2

/-- Where `import_permissions` stands, and what comes before and behind it. -/
theorem applyFlow_import {update : Bool} {k : ℕ} (h : (applyFlow update)[k]? = some .importPermissions) : k = 8 := by
  have hlt := (List.getElem?_eq_some_iff.mp h).1
  have hk : k < 10 := lt_of_lt_of_le hlt (by cases update <;> decide)
  revert h
  cases update <;> interval_cases k <;> decide

theorem applyFlow_audit {update : Bool} {k : ℕ} (h : (applyFlow update)[k]? = some .auditStatusUpdate) :
    update = true ∧ k = 9 := by
  have hlt := (List.getElem?_eq_some_iff.mp h).1
  have hk : k < 10 := lt_of_lt_of_le hlt (by cases update <;> decide)
  revert h
  cases update <;> interval_cases k <;> decide

theorem applyFlow_before (update : Bool) :
    [Step.detail, .dataList, .tableSchemaLookup, .internalGrant, .apiAdd].Sublist ((applyFlow update).take 8) := by
  cases update <;> decide

/-! ### Steps -/

/-- A run that imports the permissions has done all steps before. -/
theorem record_authorized (hf : FlowOk s.executed row f) (hstep : f.steps[f.position]? = some .importPermissions)
    (houtcome : outcome ≠ .failed) :
    Authorized (row.record f .importPermissions outcome :: s.executed) f.applyFlowId := by
  rcases hf.steps with ⟨hsteps, -, hauthorized⟩ | ⟨hsteps, -, -⟩
  · exact hauthorized.cons _
  · refine ⟨_, List.mem_cons_self, rfl, rfl, decide_eq_true houtcome, rfl, ?_⟩
    rw [hsteps] at hstep
    change List.Sublist _ (f.steps.take f.position)
    rw [hsteps, applyFlow_import hstep]
    exact applyFlow_before _

theorem record_right (hf : FlowOk s.executed row f) (hstep : f.steps[f.position]? = some step) :
    Right (row.record f step outcome) s.executed := by
  rcases hf.steps with ⟨hsteps, hupdate, hauthorized⟩ | ⟨hsteps, hauthorized, hagain⟩
  · refine ⟨fun _ _ => ⟨hupdate, _, rfl, hauthorized⟩, fun _ hgranting => ?_⟩
    rw [hsteps] at hstep
    obtain rfl := List.mem_singleton.mp (List.mem_of_getElem? hstep)
    have hnot : Step.auditStatusUpdate ∉ granting := by decide
    exact (hnot hgranting).elim
  · refine ⟨fun _ haudit => ?_, fun hauto _ => hagain hauto⟩
    rw [hsteps, show step = .auditStatusUpdate from haudit] at hstep
    obtain ⟨hupdate, hposition⟩ := applyFlow_audit hstep
    exact ⟨hupdate, _, rfl, hauthorized (by omega)⟩

/-- The run goes on with its application, or leaves it. -/
theorem next_flowOk (hf : FlowOk s.executed row f) (hstep : f.steps[f.position]? = some step)
    {g : Flow α} (hg : g ∈ (row.next f outcome).flow) :
    FlowOk (row.record f step outcome :: s.executed) (row.next f outcome) g := by
  unfold RunRow.next at hg
  simp only at hg
  split at hg
  · rename_i hdone
    obtain rfl := Option.some.inj hg
    rcases hf.steps with ⟨hsteps, -, -⟩ | ⟨hsteps, hauthorized, hagain⟩
    · rw [hsteps] at hdone
      exact absurd hdone.2 (by simp)
    · refine ⟨.inr ⟨hsteps, fun hposition => ?_, hagain⟩⟩
      by_cases hbehind : 8 < f.position
      · exact (hauthorized hbehind).cons _
      · have heq : f.position = 8 := by
          change 8 < f.position + 1 at hposition
          omega
        have himport : step = .importPermissions := by
          rw [hsteps, heq] at hstep
          have hget : (applyFlow row.config.updateAuditStatusAfterSuccess)[8]? = some .importPermissions := by
            cases row.config.updateAuditStatusAfterSuccess <;> rfl
          exact Option.some.inj (hstep.symm.trans hget)
        subst himport
        exact record_authorized hf hstep (by rw [hdone.1]; decide)
  · cases hg

theorem mem_log {l : StepLog α} {id : Option α} {byTest : Bool} (h : l ∈ s.log id step byTest outcome) :
    l ∈ s.logs ∨ outcome = .done ∧ l = ⟨id, step, byTest⟩ := by
  unfold State.log at h
  split at h
  · rename_i hdone
    rcases List.mem_cons.mp h with rfl | h
    · exact .inr ⟨hdone, rfl⟩
    · exact .inl h
  · exact .inl h

theorem inv_execute {i : ℕ} (hs : Inv s) (hrow : s.runs[i]? = some row) (hf : row.flow = some f)
    (hstep : f.steps[f.position]? = some step) : Inv (s.execute i row f step outcome) := by
  have hflow := hs.flows row (List.mem_of_getElem? hrow) f hf
  refine ⟨fun l hl hrun himport id hid => ?_, fun r hr g hg => ?_, hs.rightful.cons (record_right hflow hstep)⟩
  · rcases mem_log hl with hl | ⟨hdone, rfl⟩
    · exact (hs.logs l hl hrun himport id hid).cons _
    · obtain rfl := Option.some.inj hid
      obtain rfl : step = .importPermissions := himport
      exact record_authorized hflow hstep (by rw [hdone]; decide)
  · rcases List.mem_or_eq_of_mem_set hr with hr | rfl
    · exact (hs.flows r hr g hg).cons _
    · exact next_flowOk hflow hstep hg

theorem inv_testStep {id : Option α} (hs : Inv s) : Inv (s.testStep step id outcome) := by
  refine ⟨fun l hl hrun himport id hid => ?_, fun r hr g hg => (hs.flows r hr g hg).cons _,
    hs.rightful.cons ⟨fun h => (by cases h), fun h => (by cases h)⟩⟩
  rcases mem_log hl with hl | ⟨-, rfl⟩
  · exact (hs.logs l hl hrun himport id hid).cons _
  · cases hrun

/-- What a run takes up is right where the logs tell what was done. -/
theorem flow_flowOk {i : ℕ} (hs : Inv s) (hrow : s.runs[i]? = some row) (htold : Told s (.take i id))
    (hf : f ∈ s.flow row id) : FlowOk s.executed row f := by
  unfold State.flow at hf
  simp only at hf
  split at hf
  · cases hf
  · rename_i hskip
    have htold (hauto : row.autoWatch = true) := htold row hrow hauto fun h => hskip ⟨hauto, h⟩
    split at hf
    · rename_i hretry
      obtain rfl := Option.some.inj hf
      have hlog := htold hretry.1
      rw [if_pos hretry.2] at hlog
      obtain ⟨hupdate, l, hl, hid, himport, hrun⟩ := hlog
      exact ⟨.inl ⟨rfl, hupdate, hs.logs l hl hrun himport id hid⟩⟩
    · rename_i hretry
      obtain rfl := Option.some.inj hf
      refine ⟨.inr ⟨rfl, fun h => absurd h (by simp), fun hauto => ?_⟩⟩
      have hnone := htold hauto
      rw [if_neg fun h => hretry ⟨hauto, h⟩] at hnone
      exact decide_eq_false hnone

/-- Replacing a run whose new application is right keeps the invariant. -/
theorem inv_set {i : ℕ} {r : RunRow α} (hs : Inv s) (hr : ∀ f ∈ r.flow, FlowOk s.executed r f) :
    Inv { s with runs := s.runs.set i r } := by
  refine ⟨hs.logs, fun row hrow f hf => ?_, hs.rightful⟩
  rcases List.mem_or_eq_of_mem_set hrow with hrow | rfl
  · exact hs.flows row hrow f hf
  · exact hr f hf

theorem inv_start (hs : Inv s) (autoWatch : Bool) : Inv (s.start autoWatch) := by
  refine ⟨hs.logs, fun row hrow f hf => ?_, hs.rightful⟩
  rcases List.mem_append.mp hrow with hrow | hrow
  · exact hs.flows row hrow f hf
  · rw [List.mem_singleton.mp hrow] at hf
    cases hf

theorem inv_step {a : Action α} (hs : Inv s) (htold : Told s a) (h : s.step a = some s') : Inv s' := by
  cases a with
  | edit config =>
      rw [← Option.some.inj h]
      exact ⟨hs.logs, hs.flows, hs.rightful⟩
  | startScan =>
      simp only [State.step] at h
      split at h
      · cases h
      · rw [← Option.some.inj h]
        exact inv_start hs true
  | startFull autoWatch =>
      rw [← Option.some.inj h]
      exact inv_start hs autoWatch
  | take i id =>
      obtain ⟨row, hrow, h⟩ := Option.bind_eq_some_iff.mp h
      split at h
      · rw [← Option.some.inj h]
        refine inv_set hs fun f hf => ?_
        obtain ⟨hsteps⟩ := flow_flowOk hs hrow htold hf
        exact ⟨hsteps⟩
      · cases h
  | perform i outcome =>
      obtain ⟨row, hrow, h⟩ := Option.bind_eq_some_iff.mp h
      obtain ⟨f, hf, h⟩ := Option.bind_eq_some_iff.mp h
      obtain ⟨step, hstep, h⟩ := Option.bind_eq_some_iff.mp h
      split at h
      · rw [← Option.some.inj h]
        exact inv_execute hs hrow hf hstep
      · cases h
  | finish i =>
      obtain ⟨row, hrow, h⟩ := Option.bind_eq_some_iff.mp h
      split at h
      · rename_i hidle
        rw [← Option.some.inj h]
        refine inv_set hs fun f hf => ?_
        rw [hidle.2] at hf
        cases hf
      · cases h
  | die i =>
      obtain ⟨row, hrow, h⟩ := Option.bind_eq_some_iff.mp h
      split at h
      · rw [← Option.some.inj h]
        exact inv_set hs fun f hf => by cases hf
      · cases h
  | test step id outcome =>
      rw [← Option.some.inj h]
      exact inv_testStep hs

/-- Where every application is taken up on logs that tell what was done, every step of every run is right. -/
theorem told_rightful {config : Config} {as : List (Action α)}
    (hrun : Run State.step Told (State.fresh config) as s) : Rightful s.executed := by
  have hstart : Inv (State.fresh config : State α) := by
    refine ⟨fun l hl => (by cases hl), fun row hrow => (by cases hrow), fun later e before h => ?_⟩
    cases later <;> cases h
  exact (hrun.invariant hstart fun s a s' htold hs h => inv_step h htold hs).rightful

/-! ### Runs on logs that tell something else -/

/-- A full run without the option; a scan finds its imported permissions and updates the audit status. -/
theorem scan_updates_without_option :
    ∃ s : State ℕ, (∃ as, Run State.step Free (State.fresh ⟨false, true⟩) as s) ∧ ¬ Rightful s.executed := by
  have hrun : perform State.step Free (State.fresh ⟨false, true⟩)
      ([.startFull false, .take 0 7] ++ List.replicate 9 (.perform 0 .done) ++
        [.finish 0, .startScan, .take 1 7, .perform 1 .done]) = some (_ : State ℕ) := rfl
  refine ⟨_, ⟨_, perform_iff.mp hrun⟩, fun h => ?_⟩
  obtain ⟨hupdate, -⟩ := (h [] _ _ rfl).1 rfl rfl
  cases hupdate

/-- A scan whose audit update fails and a second one that makes up for it. -/
theorem retried_rightful : ∃ s : State ℕ, s.executed.length = 11 ∧ Rightful s.executed := by
  have hrun : perform State.step Told (State.fresh ⟨true, true⟩)
      ([.startScan, .take 0 7] ++ List.replicate 9 (.perform 0 .done) ++
        [.perform 0 .failed, .finish 0, .startScan, .take 1 7, .perform 1 .done]) = some (_ : State ℕ) := rfl
  exact ⟨_, rfl, told_rightful (perform_iff.mp hrun)⟩

end RecoveryService.ApprovalAuthorization
