import RecoveryService.DataAutomation.Moves

/-! # Resuming a batch

`resume_batch` starts the row of a stage again, or sets the batch back to the stage that was
remembered and leaves the rest to `_advance_one`.  What is remembered is the state in which
`_advance_one` raised, and a stage may raise between two of its assignments: `restored`, `raw_ready`
and `security_access_active` are such states, and `asset_registered` is remembered for a restore
without a schema.  `_advance_one` has no branch for any of them, so a batch that is resumed there
stays there (`resumed_handled_iff`). -/

namespace RecoveryService.DataAutomation

open Checks Runs

namespace Flow

variable (casefold : String → String) (securityContractHash : CoverageContract → String → ℕ → String)

/-- `_advance_one` has a branch for the batch. -/
def Handled (batch : Batch) : Prop :=
  InRestore batch ∨ InSync batch ∨ InStandardize batch ∨ batch.state = .encryptionReady ∨
    (batch.encryptionBatchId.isSome ∧ batch.state = .encrypting) ∨ batch.state = .standardReady

instance (batch : Batch) : Decidable (Handled batch) := by
  unfold Handled InRestore InSync InStandardize
  infer_instance

/-- The stages a resumed batch can leave. -/
def handledStages : List BatchState :=
  restartStages ++ [.encryptionReady, .encrypting, .standardReady]

/-- A batch that is encrypting, or is resumed there, has its job. -/
def JobLinked (w : Flow) : Prop :=
  w.batch.state = .encrypting ∨ w.batch.resumeFromStage = some .encrypting →
    w.batch.encryptionBatchId.isSome

variable {casefold securityContractHash} {w w' : Flow} {env : Surroundings} {pipeline : Pipeline}

theorem isSome_of_job {j : Sm4State} (h : w.job = some j) : w.batch.encryptionBatchId.isSome := by
  unfold job at h
  obtain ⟨id, hid, -⟩ := Option.bind_eq_some_iff.mp h
  rw [hid]
  rfl

theorem JobLinked.raises {w₁ : Flow} (h : JobLinked w) (hr : Raises w w₁) : JobLinked w₁.failStage := by
  have hresume : w₁.batch.resumeFromStage = w.batch.resumeFromStage ∧
      w₁.batch.encryptionBatchId = w.batch.encryptionBatchId ∧
        (w₁.batch.state = .encrypting → w.batch.state = .encrypting) := by
    cases hr <;> exact ⟨rfl, rfl, fun h => by first | exact h | cases h⟩
  obtain ⟨hstage, hjob, hstate⟩ := hresume
  rintro (hfailed | hstage')
  · cases hfailed
  · show w₁.batch.encryptionBatchId.isSome
    rw [hjob]
    refine h ?_
    have hget : w₁.batch.resumeFromStage.getD w₁.batch.state = .encrypting := Option.some.inj hstage'
    rw [hstage] at hget
    cases hremembered : w.batch.resumeFromStage with
    | none =>
        rw [hremembered] at hget
        exact .inl (hstate hget)
    | some s =>
        rw [hremembered] at hget
        exact .inr (congrArg some hget)

/-- The stage of a resume, by what is remembered. -/
theorem resumeStage_eq {s : BatchState} (h : w.resumeStage = s) :
    w.batch.resumeFromStage = some s ∨ w.batch.state = s := by
  unfold resumeStage at h
  cases hremembered : w.batch.resumeFromStage with
  | none =>
      rw [hremembered] at h
      exact .inr h
  | some stage =>
      rw [hremembered] at h
      exact .inl (congrArg some h)

theorem JobLinked.step {a : Action} (h : JobLinked w)
    (hm : Moves casefold securityContractHash w a w') : JobLinked w' := by
  cases hm with
  | works hw =>
      unfold JobLinked
      rw [hw.batch]
      exact h
  | raised w₁ hr => exact h.raises hr
  | jobQueued => exact fun _ => rfl
  | jobFailed j hjob => exact fun _ => isSome_of_job hjob
  | secured ids run _ hjob | encrypted ids hjob =>
      obtain ⟨j, hj, -⟩ := hjob
      exact fun _ => isSome_of_job hj
  | restoring s _ hs | syncing s _ hs | standardizing s _ hs | rated s hs =>
      rintro (hstate | hstage)
      · have hs' : s = .encrypting := hstate
        rw [hs'] at hs
        simp at hs
      · exact h (.inr hstage)
  | restoreFailed | targetMissing | syncFailed | standardizeFailed | standardBlocked ids
  | restoreStarted =>
      rintro (hstate | hstage)
      · cases hstate
      · cases hstage
  | restoredOnly schema | syncQueued schema | synced ids | syncPlanned ids id
  | standardQueued ids run | standardCompleted ids | standardReady ids | standardPlanned ids id
  | finished | discovered | prepared id =>
      rintro (hstate | hstage)
      · cases hstate
      · exact h (.inr hstage)
  | resumed hr =>
      cases hr with
      | restore | sync | standardize run => rintro (hstate | hnone) <;> first | cases hstate | cases hnone
      | stage =>
          rintro (hstate | hnone)
          · exact h (resumeStage_eq hstate).symm
          · cases hnone

theorem jobLinked_created (h : Created w) : JobLinked w := by
  cases h <;> rintro (hstate | hstage) <;> first | cases hstate | cases hstage

theorem JobLinked.run {as : List Action} {w₀ : Flow} (h₀ : Created w₀)
    (hrun : Run (Flow.step casefold securityContractHash) Free w₀ as w) : JobLinked w :=
  hrun.invariant (jobLinked_created h₀) fun _ _ _ _ hs h => h.step (step_moves hs)

/-- A stage that is set without a row. -/
theorem handled_of_stage {s : BatchState} (hnot : s ∉ restartStages) (hs : w.batch.state = s)
    (hlinked : s = .encrypting → w.batch.encryptionBatchId.isSome) : Handled w.batch ↔ s ∈ handledStages := by
  have hrestart : ∀ stages, stages ⊆ restartStages → w.batch.state ∉ stages := by
    intro stages hsub hmem
    rw [hs] at hmem
    exact hnot (hsub hmem)
  constructor
  · rintro (⟨-, hstage⟩ | ⟨-, hstage⟩ | ⟨-, hstage⟩ | hready | ⟨-, hencrypting⟩ | hstandard)
    · exact absurd hstage (hrestart _ (by decide))
    · exact absurd hstage (hrestart _ (by decide))
    · exact absurd hstage (hrestart _ (by decide))
    · rw [← hs, hready]
      decide
    · rw [← hs, hencrypting]
      decide
    · rw [← hs, hstandard]
      decide
  · intro hmem
    obtain hstage | hstage := List.mem_append.mp hmem
    · exact absurd hstage hnot
    · simp only [List.mem_cons, List.not_mem_nil, or_false] at hstage
      obtain rfl | rfl | rfl := hstage
      · exact .inr (.inr (.inr (.inl hs)))
      · exact .inr (.inr (.inr (.inr (.inl ⟨hlinked rfl, hs⟩))))
      · exact .inr (.inr (.inr (.inr (.inr hs))))

/-- A batch that remembers a stage and is resumed can go on exactly when the stage is one of
`handledStages`. -/
theorem resumed_handled_iff {w₀ : Flow} {as : List Action} {s : BatchState} (h₀ : Created w₀)
    (hrun : Run (Flow.step casefold securityContractHash) Free w₀ as w)
    (hstage : w.batch.resumeFromStage = some s)
    (hresume : w.resumeBatch casefold securityContractHash env = .ok w') :
    Handled w'.batch ↔ s ∈ handledStages := by
  have hresumed : w.resumeStage = s := by
    unfold resumeStage
    rw [hstage]
    rfl
  have hrestarted : ∀ stages, stages ⊆ restartStages → w.resumeStage ∈ stages → s ∈ handledStages := by
    intro stages hsub hmem
    rw [hresumed] at hmem
    exact List.mem_append_left _ (hsub hmem)
  cases resumeBatch_resumes hresume with
  | restore hs =>
      exact ⟨fun _ => hrestarted _ (by decide) hs, fun _ => .inl ⟨rfl, by simp [queueRestore]⟩⟩
  | sync hs =>
      exact ⟨fun _ => hrestarted _ (by decide) hs,
        fun _ => .inr (.inl ⟨rfl, by simp [queueSync, setResume]⟩)⟩
  | standardize run hs =>
      exact ⟨fun _ => hrestarted _ (by decide) hs,
        fun _ => .inr (.inr (.inl ⟨rfl, by simp [queueRun, setResume]⟩))⟩
  | stage hnot =>
      rw [hresumed] at hnot ⊢
      refine handled_of_stage hnot rfl fun hencrypting => ?_
      have hlinked : JobLinked w := JobLinked.run h₀ hrun
      rw [hencrypting] at hstage
      exact hlinked (.inr hstage)

/-- A pipeline with all four stages. -/
def fullPipeline : Pipeline :=
  { id := 1, restoreTemplateTaskId := some 2, dataSyncNodeId := some 3
    standardWorkflowVersionId := some 4, sm4TaskDefinitionId := some 5
    config := { autoEncryptionEnabled := true } }

/-- A restore that fails, and is resumed. -/
theorem resumed_restore :
    ∃ w w' : Flow, w.resumeBatch id (fun _ _ _ => "") { pipeline := some fullPipeline } = .ok w' ∧
      Handled w'.batch := by
  obtain ⟨w, hrun, hstage, hok⟩ : ∃ w : Flow, Run (Flow.step id fun _ _ _ => "") Free
      (discover 1 fullPipeline)
      [.scan { pipeline := some fullPipeline } true true, .restoreProgress 0 { state := .failed },
        .advance { pipeline := some fullPipeline }] w ∧
      w.batch.resumeFromStage = some .restoreQueued ∧
        (w.resumeBatch id (fun _ _ _ => "") { pipeline := some fullPipeline }).toOption.isSome :=
    exists_run (by decide +kernel)
  obtain ⟨w', hw'⟩ := Option.isSome_iff_exists.mp hok
  have hresume := toOption_eq_some.mp hw'
  exact ⟨w, w', hresume, (resumed_handled_iff (.discover _ _) hrun hstage hresume).mpr (by decide)⟩

/-- A batch whose restore names no schema is blocked, and stays where it is resumed. -/
theorem resumed_stuck : ∃ (as : List Action) (w w' : Flow), Run (Flow.step id fun _ _ _ => "") Free
      (discover 1 fullPipeline) as w ∧
        w.batch.state = .blocked ∧ w.batch.resumeFromStage = some .assetRegistered ∧
          w.resumeBatch id (fun _ _ _ => "") { pipeline := some fullPipeline } = .ok w' ∧
            w'.batch.state.isTerminal = false ∧ ¬ Handled w'.batch := by
  obtain ⟨w, hrun, hstate, hstage, hok⟩ : ∃ w : Flow, Run (Flow.step id fun _ _ _ => "") Free
      (discover 1 fullPipeline)
      [.scan { pipeline := some fullPipeline } true true, .restoreProgress 0 { state := .succeeded },
        .advance { pipeline := some fullPipeline }] w ∧
      w.batch.state = .blocked ∧ w.batch.resumeFromStage = some .assetRegistered ∧
        (w.resumeBatch id (fun _ _ _ => "") { pipeline := some fullPipeline }).toOption.any (fun w' =>
          decide (w'.batch.state.isTerminal = false ∧ ¬ Handled w'.batch)) = true :=
    exists_run (by decide +kernel)
  obtain ⟨w', hw', hstuck⟩ := (Option.any_eq_true _ _).mp hok
  exact ⟨_, w, w', hrun, hstate, hstage, toOption_eq_some.mp hw', of_decide_eq_true hstuck⟩

end Flow

end RecoveryService.DataAutomation
