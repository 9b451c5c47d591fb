import RecoveryService.DataAutomation.Operations

/-! # What the operations respect

Each operation either leaves a batch that only a batch that is free may be brought to, or one that
nothing goes on with, or sets it back to the stage that was remembered; the three cases are the
lemmas on `Respected` below. -/

namespace RecoveryService.DataAutomation

open Checks Runs

namespace Respected

variable {before after : Standing}

/-- A batch brought somewhere else has to be free. -/
theorem iff_free (hcompleted : after.completed = false)
    (hcurrent : before.busy = true → after.current ≠ before.current) (hsettled : after.settled = true) :
    Respected before after ↔ before.Free := by
  constructor
  · intro h
    refine ⟨Bool.eq_false_iff.mpr fun hbefore => ?_, Bool.eq_false_iff.mpr fun hbusy => ?_⟩
    · rw [h.completed hbefore] at hcompleted
      cases hcompleted
    · exact hcurrent hbusy (h.consumed hbusy)
  · rintro ⟨hbefore, hbusy⟩
    refine ⟨fun h => ?_, fun h => ?_, hsettled⟩
    · rw [hbefore] at h
      cases h
    · rw [hbusy] at h
      cases h

/-- A batch that is completed may have been completed before. -/
theorem iff_idle (hcompleted : after.completed = true)
    (hcurrent : before.busy = true → after.current ≠ before.current)
    (hsettled : after.settled = true) : Respected before after ↔ before.busy = false := by
  constructor
  · exact fun h => Bool.eq_false_iff.mpr fun hbusy => hcurrent hbusy (h.consumed hbusy)
  · refine fun hbusy => ⟨fun _ => hcompleted, fun h => ?_, hsettled⟩
    rw [hbusy] at h
    cases h

/-- A batch that stays as it is has to be settled. -/
theorem iff_settled : Respected before before ↔ before.settled = true :=
  ⟨fun h => h.settled, fun h => ⟨id, fun _ => rfl, h⟩⟩

theorem false_of_unsettled (h : after.settled = false) : ¬ Respected before after := by
  intro hr
  rw [hr.settled] at h
  cases h

end Respected

namespace Flow

variable {casefold : String → String}
  {securityContractHash : CoverageContract → String → ℕ → String} {env : Surroundings} {w w' : Flow}

theorem isSome_of_busy (h : w.standing.busy = true) : w.standing.current.isSome = true := by
  obtain ⟨child, hchild, -⟩ := (Option.any_eq_true _ _).mp h
  show w.currentChild.isSome = true
  rw [hchild]
  rfl

/-- A batch that waits for no child has been taken away from the one it waited for. -/
theorem current_ne_of_none {after : Standing} (hafter : after.current = none)
    (hbusy : w.standing.busy = true) : after.current ≠ w.standing.current := by
  intro heq
  have hsome := isSome_of_busy hbusy
  rw [← heq, hafter] at hsome
  cases hsome

variable {child : ChildKind × ℕ}

/-- So has one that waits for a new child. -/
theorem current_ne_of_new {after : Standing} (hafter : after.current = some child)
    (hnew : w.executing child = false) (hbusy : w.standing.busy = true) : after.current ≠ w.standing.current := by
  intro heq
  obtain ⟨current, hcurrent, hexecuting⟩ := (Option.any_eq_true _ _).mp hbusy
  have hsame : some child = some current := by
    rw [← hafter, heq]
    exact hcurrent
  rw [← Option.some.inj hsame, hnew] at hexecuting
  cases hexecuting

theorem not_settled_of {batch : Batch} (h : batch.state = .pathMatched ∨
    batch.state = .awaitingConfirmation) : ¬ Settled batch := by
  unfold Settled Handled InRestore InSync InStandardize
  obtain h | h := h <;> simp [h, BatchState.isTerminal]

theorem settled_of_terminal {b : Batch} (h : b.state.isTerminal = true) : decide (Settled b) = true :=
  decide_eq_true (Or.inl h)

theorem settled_of_handled {b : Batch} (h : Handled b) : decide (Settled b) = true :=
  decide_eq_true (Or.inr (Or.inr h))

theorem respected_matchBlueprint_iff (level : BlueprintMatch) :
    Respected w.standing (w.matchBlueprint level).standing ↔
      (Owned.ordinary w).Admits (.matchBlueprint (some level)) := by
  have hunsettled : ∀ state, state = .pathMatched ∨ state = .awaitingConfirmation →
      ¬ Respected w.standing (w.setState state).standing := fun state hstate =>
    Respected.false_of_unsettled (decide_eq_false (not_settled_of hstate))
  cases level with
  | noCandidate | medium => exact iff_of_false (hunsettled _ (.inr rfl)) id
  | high autoExecute =>
      cases autoExecute with
      | true => exact iff_of_false (hunsettled _ (.inl rfl)) id
      | false => exact iff_of_false (hunsettled _ (.inr rfl)) id
  | low =>
      exact Respected.iff_free rfl (current_ne_of_none rfl)
        (settled_of_terminal (b := (w.setState .blocked).batch) rfl)

theorem executing_restore_length : w.executing (.restore, w.restoreTasks.length) = false := by
  simp [executing]

theorem executing_sync_length : w.executing (.sync, w.syncRuns.length) = false := by
  simp [executing]

theorem executing_standardize_length : w.executing (.standardize, w.standardRuns.length) = false := by
  simp [executing]

theorem kind_encrypt_iff (h : w.currentChild = some child) :
    child.1 = .encrypt ↔ w.batch.state = .encrypting := by
  unfold currentChild at h
  cases hstate : w.batch.state <;> rw [hstate] at h <;>
    first
      | cases h
      | (obtain ⟨id, -, rfl⟩ := Option.map_eq_some_iff.mp h; simp)

/-- The child of a batch that is set back to a stage that is not started again. -/
theorem kind_encrypt_of_stage (hstage : w.batch.state ∉ restartStages) (h : w.currentChild = some child) :
    w.batch.state = .encrypting := by
  unfold currentChild at h
  unfold restartStages at hstage
  cases hstate : w.batch.state <;> rw [hstate] at h hstage <;>
    first
      | rfl
      | cases h
      | exact absurd (by simp) hstage

theorem currentChild_of_state (h : w.resumeStage = w.batch.state) :
    ((w.setState w.resumeStage).setResume none).currentChild = w.currentChild := by
  unfold currentChild
  rw [setResume_state, setState_state, h]
  rfl

/-- Set back to such a stage, a batch waits for the same child only where it was there. -/
theorem state_eq_of_current {t : Flow} (hstage : t.batch.state ∉ restartStages)
    (hcurrent : t.currentChild = w.currentChild) (hsome : w.currentChild.isSome = true) :
    t.batch.state = w.batch.state := by
  obtain ⟨child, hchild⟩ := Option.isSome_iff_exists.mp hsome
  rw [hchild] at hcurrent
  have hafter := kind_encrypt_of_stage hstage hcurrent
  rw [hafter, (kind_encrypt_iff hchild).mp ((kind_encrypt_iff hcurrent).mpr hafter)]

theorem respected_resumeBatch_iff (h : w.resumeBatch casefold securityContractHash env = .ok w') :
    Respected w.standing w'.standing ↔ w.MayResume := by
  unfold MayResume
  cases resumeBatch_resumes h with
  | restore hstage =>
      rw [if_pos (by unfold restartStages; simp only [List.mem_cons] at hstage ⊢; tauto)]
      exact Respected.iff_free rfl (current_ne_of_new rfl executing_restore_length)
        (settled_of_handled (b := w.queueRestore.batch) (.inl ⟨rfl, by simp⟩))
  | sync hstage =>
      rw [if_pos (by unfold restartStages; simp only [List.mem_cons] at hstage ⊢; tauto)]
      exact Respected.iff_free rfl (current_ne_of_new rfl executing_sync_length)
        (settled_of_handled (b := (w.queueSync.setResume none).batch) (.inr (.inl ⟨rfl, by simp⟩)))
  | standardize run hstage _ =>
      rw [if_pos (by unfold restartStages; simp only [List.mem_cons] at hstage ⊢; tauto)]
      exact Respected.iff_free rfl (current_ne_of_new rfl executing_standardize_length)
        (settled_of_handled (b := ((w.queueRun run).setResume none).batch)
          (.inr (.inr (.inl ⟨rfl, by simp⟩))))
  | stage hstage =>
      rw [if_neg hstage]
      refine ⟨fun hr => ⟨fun hcompleted => ?_, fun hbusy => ?_, of_decide_eq_true hr.settled⟩,
        fun ⟨hcompleted, hbusy, hsettled⟩ => ⟨fun h => ?_, fun h => ?_, decide_eq_true hsettled⟩⟩
      · exact of_decide_eq_true (hr.completed (decide_eq_true hcompleted))
      · exact state_eq_of_current (t := (w.setState w.resumeStage).setResume none) hstage
          (hr.consumed hbusy) (isSome_of_busy hbusy)
      · exact decide_eq_true (hcompleted (of_decide_eq_true h))
      · exact currentChild_of_state (hbusy h)

/-- What `activate_security_orchestration_access` does to a batch, by its SM4 job. -/
inductive Activated (w : Flow) (job : Sm4State) : Flow → Prop
  | waits : job ∈ [Sm4State.queued, .reserved, .running] → Activated w job w
  | fails (stage : BatchState) : job ∉ [Sm4State.queued, .reserved, .running] →
      job.hasSucceeded = false → Activated w job (w.halt .failed stage)
  | completes (ids : List ℕ) : job ∉ [Sm4State.queued, .reserved, .running] →
      job.hasSucceeded = true → w.batch.isProtected = false →
      Activated w job (w.secured ids).markCompleted
  | standardizes (ids : List ℕ) (run : StandardRun) :
      job ∉ [Sm4State.queued, .reserved, .running] → job.hasSucceeded = true →
      w.batch.isProtected = true →
      Activated w job (((w.secured ids).setState .securityAccessActive).queueRun run)

theorem afterEncryption_activated {pipeline : Pipeline} {job : Sm4State} {ids : List ℕ}
    (hwaits : job ∉ [Sm4State.queued, .reserved, .running]) (hsucceeded : job.hasSucceeded = true)
    (hpipeline : env.pipeline = some pipeline)
    (h : Except.map (fun _ => ((w.secured ids).afterEncryption casefold securityContractHash env
        pipeline).flow) ((w.secured ids).afterEncryption casefold securityContractHash env
          pipeline).result = .ok w') : Activated w job w' := by
  unfold afterEncryption at h
  split_ifs at h with hprotected
  · cases hqueue : ((w.secured ids).setState .securityAccessActive).queueStandardization casefold
        securityContractHash env pipeline "data_automation_protected" with
    | error text =>
        rw [hqueue] at h
        cases h
    | ok w₁ =>
        rw [hqueue] at h
        cases h
        obtain ⟨run, rfl, -⟩ := queueStandardization_ok hpipeline hqueue
        exact .standardizes ids run hwaits hsucceeded hprotected
  · cases h
    exact .completes ids hwaits hsucceeded (Bool.eq_false_iff.mpr hprotected)

theorem activateAccess_activated {confirm : Bool}
    (h : w.activateAccess casefold securityContractHash env confirm = .ok w') :
    ∃ job, w.job = some job ∧ Activated w job w' := by
  unfold activateAccess at h
  obtain ⟨_, -, h⟩ := bind_eq_ok.mp h
  cases hpipeline : env.pipeline with
  | none =>
      rw [hpipeline] at h
      cases h
  | some pipeline =>
      rw [hpipeline] at h
      simp only [completeSecurityEncryption] at h
      cases hjob : w.batch.encryptionBatchId.bind (w.sm4Jobs[·]?) with
      | none =>
          rw [hjob] at h
          cases h
      | some job =>
          rw [hjob] at h
          refine ⟨job, hjob, ?_⟩
          dsimp only at h
          split_ifs at h with hwaits hsucceeded hprotected
          · cases h
            exact .waits hwaits
          · cases h
            exact .fails _ hwaits hsucceeded
          · cases h
            exact .fails _ hwaits hsucceeded
          · rw [Bool.not_eq_false] at hsucceeded
            cases hviews : activateViews env pipeline with
            | error text =>
                rw [hviews] at h
                cases h
            | ok _ =>
                rw [hviews] at h
                exact afterEncryption_activated hwaits hsucceeded hpipeline h

theorem respected_activateAccess_iff {confirm : Bool}
    (h : w.activateAccess casefold securityContractHash env confirm = .ok w') :
    Respected w.standing w'.standing ↔ (Owned.ordinary w).MayActivate := by
  obtain ⟨job, hjob, hactivated⟩ := activateAccess_activated h
  have hmay : (Owned.ordinary w).MayActivate ↔
      (if job ∈ [Sm4State.queued, .reserved, .running] then w.standing.settled = true
        else if job.hasSucceeded = true then
          w.standing.busy = false ∧ (w.batch.isProtected = true → w.standing.completed = false)
        else w.standing.Free) := by
    have hjob' : (Owned.ordinary w).job = some job := hjob
    unfold Owned.MayActivate
    rw [hjob']
    rfl
  rw [hmay]
  cases hactivated with
  | waits hwaits =>
      rw [if_pos hwaits]
      exact Respected.iff_settled
  | fails stage hwaits hsucceeded =>
      rw [if_neg hwaits, if_neg (by rw [hsucceeded]; exact Bool.false_ne_true)]
      exact Respected.iff_free rfl (current_ne_of_none rfl)
        (settled_of_terminal (b := (w.halt .failed stage).batch) rfl)
  | completes ids hwaits hsucceeded hprotected =>
      rw [if_neg hwaits, if_pos hsucceeded, hprotected]
      rw [Respected.iff_idle rfl (current_ne_of_none rfl)
        (settled_of_terminal (b := (w.secured ids).markCompleted.batch) rfl)]
      exact ⟨fun hbusy => ⟨hbusy, fun h => by cases h⟩, fun h => h.1⟩
  | standardizes ids run hwaits hsucceeded hprotected =>
      rw [if_neg hwaits, if_pos hsucceeded]
      rw [Respected.iff_free rfl (current_ne_of_new rfl executing_standardize_length)
        (settled_of_handled
          (b := (((w.secured ids).setState .securityAccessActive).queueRun run).batch)
          (.inr (.inr (.inl ⟨rfl, by simp⟩))))]
      exact ⟨fun hfree => ⟨hfree.2, fun _ => hfree.1⟩, fun h => ⟨h.2 hprotected, h.1⟩⟩

end Flow

namespace Assisted

variable {env : Surroundings} {a a' : Assisted}

theorem current_ne_of_none {after : Standing} (hafter : after.current = none)
    (hbusy : a.standing.busy = true) : after.current ≠ a.standing.current := by
  intro heq
  obtain ⟨child, hchild, -⟩ := (Option.any_eq_true _ _).mp hbusy
  have hcurrent : a.standing.current = some child := hchild
  rw [← heq, hafter] at hcurrent
  cases hcurrent

theorem respected_matchBlueprint_iff (level : Flow.BlueprintMatch) :
    Respected a.standing (a.matchBlueprint level).standing ↔
      (Owned.assistant a).Admits (.matchBlueprint (some level)) := by
  cases level with
  | noCandidate | medium => exact iff_of_false (Respected.false_of_unsettled rfl) id
  | high autoExecute =>
      cases autoExecute with
      | true | false => exact iff_of_false (Respected.false_of_unsettled rfl) id
  | low => exact Respected.iff_free rfl (current_ne_of_none rfl) rfl

theorem respected_activateAccess_iff {confirm : Bool} (h : a.activateAccess env confirm = .ok a') :
    Respected a.standing a'.standing ↔ (Owned.assistant a).MayActivate := by
  unfold activateAccess at h
  obtain ⟨_, -, h⟩ := bind_eq_ok.mp h
  cases hpipeline : env.pipeline with
  | none =>
      rw [hpipeline] at h
      cases h
  | some pipeline =>
      rw [hpipeline] at h
      dsimp only at h
      unfold completeSecurityEncryption at h
      cases hjob : a.sm4Job with
      | none =>
          rw [hjob] at h
          cases h
      | some row =>
          obtain ⟨id', job⟩ := row
          rw [hjob] at h
          have hmay : (Owned.assistant a).MayActivate ↔
              (if job ∈ [Sm4State.queued, .reserved, .running] then a.standing.settled = true
                else if job.hasSucceeded = true then
                  a.standing.busy = false ∧ (false = true → a.standing.completed = false)
                else a.standing.Free) := by
            have hjob' : (Owned.assistant a).job = some job := by
              show a.sm4Job.map (·.2) = some job
              rw [hjob]
              rfl
            unfold Owned.MayActivate
            rw [hjob']
            rfl
          rw [hmay]
          dsimp only at h
          split_ifs at h with hwaits hsucceeded
          · cases h
            rw [if_pos hwaits]
            exact Respected.iff_settled
          · cases h
            rw [if_neg hwaits, if_neg (by rw [hsucceeded]; exact Bool.false_ne_true)]
            exact Respected.iff_free rfl (current_ne_of_none rfl) rfl
          · rw [Bool.not_eq_false] at hsucceeded
            rw [if_neg hwaits, if_pos hsucceeded]
            cases hviews : Flow.activateViews env pipeline with
            | error text =>
                rw [hviews] at h
                cases h
            | ok _ =>
                rw [hviews] at h
                cases h
                rw [Respected.iff_idle rfl (current_ne_of_none rfl) rfl]
                exact ⟨fun hbusy => ⟨hbusy, fun h => by cases h⟩, fun h => h.1⟩

end Assisted

/-! ### Every operation -/

variable {casefold : String → String}
  {securityContractHash : CoverageContract → String → ℕ → String} {env : Surroundings}

/-- An operation that goes through respects the batch exactly when the batch admits it. -/
theorem operation_respected_iff {operation : Operation} {b b' : Owned}
    (h : operate casefold securityContractHash env operation b = .ok b') :
    Respected b.standing b'.standing ↔ b.Admits operation := by
  cases operation with
  | matchBlueprint level =>
      cases level with
      | none => cases h
      | some level =>
          cases b with
          | ordinary w =>
              cases h
              exact Flow.respected_matchBlueprint_iff level
          | assistant a =>
              cases h
              exact Assisted.respected_matchBlueprint_iff level
  | confirmBlueprint found =>
      cases found with
      | false => cases h
      | true =>
          cases b with
          | ordinary w =>
              cases h
              exact Flow.respected_matchBlueprint_iff (.high true)
          | assistant a =>
              cases h
              exact Assisted.respected_matchBlueprint_iff (.high true)
  | resumeBatch =>
      cases b with
      | ordinary w =>
          obtain ⟨w', hw', rfl⟩ := map_eq_ok.mp h
          exact Flow.respected_resumeBatch_iff hw'
      | assistant a => cases h
  | activateAccess confirm =>
      cases b with
      | ordinary w =>
          obtain ⟨w', hw', rfl⟩ := map_eq_ok.mp h
          exact Flow.respected_activateAccess_iff hw'
      | assistant a =>
          obtain ⟨a', ha', rfl⟩ := map_eq_ok.mp h
          exact Assisted.respected_activateAccess_iff ha'

/-- The batch of a plan whose job has succeeded is completed. -/
theorem encrypted_plan_respected : Respected (Owned.assistant
        { state := .own (.queued .encryption), sm4Job := some (0, .succeeded) }).standing
      (Owned.assistant { state := .own .completed, sm4Job := some (0, .succeeded) }).standing := by
  have h : operate id (fun _ _ _ => "") { pipeline := some Flow.fullPipeline } (.activateAccess true)
      (.assistant { state := .own (.queued .encryption), sm4Job := some (0, .succeeded) }) =
      .ok (.assistant { state := .own .completed, sm4Job := some (0, .succeeded) }) := rfl
  refine (operation_respected_iff h).mpr ?_
  simp [Owned.Admits, Owned.MayActivate, Owned.job, Sm4State.hasSucceeded, Owned.isProtected]
  rfl

/-- A blueprint is confirmed while the restore of the batch runs. -/
theorem confirmed_while_restoring : ∃ (as : List Flow.Action) (w w' : Flow),
    Run (Flow.step id fun _ _ _ => "") Free (Flow.discover 1 Flow.fullPipeline) as w ∧
      operate id (fun _ _ _ => "") { pipeline := some Flow.fullPipeline } (.confirmBlueprint true)
        (.ordinary w) = .ok (.ordinary w') ∧
      ¬ Respected (Owned.ordinary w).standing (Owned.ordinary w').standing := by
  obtain ⟨w, hrun, hbusy⟩ : ∃ w : Flow, Run (Flow.step id fun _ _ _ => "") Free
      (Flow.discover 1 Flow.fullPipeline)
      [.scan { pipeline := some Flow.fullPipeline } true true] w ∧ w.standing.busy = true :=
    exists_run (by decide +kernel)
  exact ⟨_, w, w.confirmBlueprint, hrun, rfl, fun h =>
    Flow.current_ne_of_none rfl hbusy (h.consumed hbusy)⟩

end RecoveryService.DataAutomation
