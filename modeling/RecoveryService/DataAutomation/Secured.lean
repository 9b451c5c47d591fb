import RecoveryService.DataAutomation.Resumable

/-! # Batches that are to be encrypted

A batch owes an encryption once a plan was made for it, or once its standardisation blocked it
because the plan was not ready or there were several assets to encrypt.  What is remembered for a
blocked batch, and for one whose SM4 job has failed, is `standard_ready`, which is also the last
stage of a batch that has nothing to encrypt: resumed there, the batch is completed.  Where no batch
is resumed so, every batch that owes an encryption is completed with its assets secured
(`completed_secured`). -/

namespace RecoveryService.DataAutomation

open Checks Runs

namespace Flow

variable (casefold : String → String) (securityContractHash : CoverageContract → String → ℕ → String)

/-- A plan was made for the batch, or it was blocked for want of one. -/
def Owes (w : Flow) : Prop :=
  w.batch.context.encryptionStandardAssetId.isSome ∨ w.blockedUnencrypted = true

instance (w : Flow) : Decidable w.Owes := by
  unfold Owes
  infer_instance

/-- An SM4 job of the batch has succeeded and its secured assets are recorded. -/
def Encrypted (w : Flow) : Prop :=
  (∃ j ∈ w.sm4Jobs, j.hasSucceeded = true) ∧ w.batch.context.securedAssetIds.isSome

instance (w : Flow) : Decidable w.Encrypted := by
  unfold Encrypted
  infer_instance

/-- A batch that owes an encryption is not resumed as one that has nothing to encrypt. -/
def KeepsPlan (w : Flow) (a : Action) : Prop :=
  match a with
  | .resume _ => w.Owes → w.resumeStage = .standardReady → w.Encrypted
  | _ => True

instance (w : Flow) (a : Action) : Decidable (w.KeepsPlan a) := by
  unfold KeepsPlan
  split <;> infer_instance

/-- The states of a batch that owes an encryption. -/
def owingStates : List BatchState :=
  [.encryptionReady, .encrypting, .failed, .blocked, .pathMatched, .awaitingConfirmation]

/-- The states in which a stage may be remembered. -/
def haltedStates : List BatchState := [.failed, .blocked, .pathMatched, .awaitingConfirmation]

structure PlanInv (w : Flow) : Prop where
  recorded : w.batch.context.securedAssetIds.isSome → ∃ j ∈ w.sm4Jobs, j.hasSucceeded = true
  halted : w.batch.context.securedAssetIds = none → w.batch.resumeFromStage ≠ none →
    w.batch.state ∈ haltedStates
  owing : w.batch.context.securedAssetIds = none → w.Owes → w.batch.state ∈ owingStates ∧
    ∀ s ∈ w.batch.resumeFromStage, s ∈ BatchState.standardReady :: owingStates

variable {casefold securityContractHash} {w w' : Flow} {env : Surroundings} {pipeline : Pipeline}

theorem PlanInv.honest (h : PlanInv w) (hstate : w.batch.state = .completed) (howes : w.Owes) :
    w.Encrypted := by
  cases hsecured : w.batch.context.securedAssetIds with
  | none =>
      have hmem := (h.owing hsecured howes).1
      rw [hstate] at hmem
      exact absurd hmem (by decide)
  | some ids =>
      have hsome : w.batch.context.securedAssetIds.isSome := by rw [hsecured]; rfl
      exact ⟨h.recorded hsome, hsome⟩

variable {a : Action}

/-- The rows of the batch only grow, and its jobs that have succeeded stay. -/
theorem jobs_kept (hm : Moves casefold securityContractHash w a w') :
    (∃ j ∈ w.sm4Jobs, j.hasSucceeded = true) → ∃ j ∈ w'.sm4Jobs, j.hasSucceeded = true := by
  rintro ⟨j, hj, hsucceeded⟩
  cases hm with
  | works hw =>
      obtain ⟨id, hid⟩ := List.mem_iff_getElem?.mp hj
      exact ⟨j, List.mem_iff_getElem?.mpr ⟨id, hw.succeeded id j hid hsucceeded⟩, hsucceeded⟩
  | jobQueued => exact ⟨j, List.mem_append_left _ hj, hsucceeded⟩
  | raised w₁ hr | resumed hr => cases hr <;> exact ⟨j, hj, hsucceeded⟩
  | _ => exact ⟨j, hj, hsucceeded⟩

theorem mem_of_job {j : Sm4State} (h : w.job = some j) : j ∈ w.sm4Jobs := by
  unfold job at h
  obtain ⟨id, -, hid⟩ := Option.bind_eq_some_iff.mp h
  exact List.mem_iff_getElem?.mpr ⟨id, hid⟩

/-- Secured assets are recorded for a job that has succeeded. -/
theorem PlanInv.recorded_step (h : PlanInv w) (hm : Moves casefold securityContractHash w a w')
    (hsome : w'.batch.context.securedAssetIds.isSome) : ∃ j ∈ w'.sm4Jobs, j.hasSucceeded = true := by
  have hkept := jobs_kept hm
  cases hm with
  | works hw =>
      rw [hw.batch] at hsome
      exact hkept (h.recorded hsome)
  | secured ids run _ hjob | encrypted ids hjob =>
      obtain ⟨j, hj, hsucceeded⟩ := hjob
      exact ⟨j, mem_of_job hj, hsucceeded⟩
  | raised w₁ hr =>
      cases hr with
      | secured ids _ hjob | activated ids _ hjob =>
          obtain ⟨j, hj, hsucceeded⟩ := hjob
          exact ⟨j, mem_of_job hj, hsucceeded⟩
      | _ => exact hkept (h.recorded hsome)
  | resumed hr => cases hr <;> exact hkept (h.recorded hsome)
  | _ => exact hkept (h.recorded hsome)

/-- Outside the states in which a stage may be remembered, none is. -/
theorem PlanInv.unhalted (h : PlanInv w) (hnone : w.batch.context.securedAssetIds = none)
    {states : List BatchState} (hs : w.batch.state ∈ states)
    (hstates : ∀ s ∈ states, s ∉ haltedStates) : w.batch.resumeFromStage = none := by
  by_contra hresume
  exact hstates _ hs (h.halted hnone hresume)

/-- Outside the states of a batch that owes an encryption, none is owed. -/
theorem PlanInv.not_owes (h : PlanInv w) (hnone : w.batch.context.securedAssetIds = none)
    {states : List BatchState} (hs : w.batch.state ∈ states)
    (hstates : ∀ s ∈ states, s ∉ owingStates) : ¬ w.Owes := by
  intro howes
  exact hstates _ hs (h.owing hnone howes).1

theorem PlanInv.halted_step (h : PlanInv w) (hm : Moves casefold securityContractHash w a w')
    (hnone : w'.batch.context.securedAssetIds = none) (hresume : w'.batch.resumeFromStage ≠ none) :
    w'.batch.state ∈ haltedStates := by
  cases hm with
  | works hw =>
      rw [hw.batch] at hnone hresume ⊢
      exact h.halted hnone hresume
  | restoring s hin | restoredOnly schema hin | syncQueued schema hin | syncing s hin | synced ids hin
  | syncPlanned ids id hin | standardQueued ids run hin | standardizing s hin | standardCompleted ids hin
  | standardReady ids hin | standardPlanned ids id hin =>
      exact absurd (h.unhalted hnone hin.2 (by decide)) hresume
  | jobQueued hs | finished hs | discovered hs | prepared id hs =>
      exact absurd (h.unhalted hnone (List.mem_singleton.mpr hs) (by decide)) hresume
  | restoreFailed | syncFailed | standardizeFailed | jobFailed j | raised w₁ =>
      exact (by decide : BatchState.failed ∈ haltedStates)
  | targetMissing | standardBlocked ids => exact (by decide : BatchState.blocked ∈ haltedStates)
  | secured ids run | encrypted ids => cases hnone
  | restoreStarted => exact absurd rfl hresume
  | resumed hr => cases hr <;> exact absurd rfl hresume
  | rated s hs => exact (by decide : ∀ s ∈ [BatchState.pathMatched, .awaitingConfirmation, .blocked],
      s ∈ haltedStates) s hs

theorem PlanInv.resumeStage_mem (h : PlanInv w) (howes : w.Owes)
    (hnone : w.batch.context.securedAssetIds = none) :
    w.resumeStage ∈ BatchState.standardReady :: owingStates := by
  obtain ⟨hstate, hremembered⟩ := h.owing hnone howes
  unfold resumeStage
  cases hresume : w.batch.resumeFromStage with
  | none => exact List.mem_cons_of_mem _ hstate
  | some stage => exact hremembered stage hresume

/-- A stage that raises is remembered, or the one remembered before. -/
theorem PlanInv.raised_step {w₁ : Flow} (h : PlanInv w) (hr : Raises w w₁)
    (hnone : w₁.batch.context.securedAssetIds = none) (howes : w₁.Owes) :
    ∀ s ∈ w₁.failStage.batch.resumeFromStage, s ∈ BatchState.standardReady :: owingStates := by
  intro s hs
  have hs' : s = w₁.batch.resumeFromStage.getD w₁.batch.state := (Option.some.inj hs).symm
  cases hr with
  | here =>
      rw [hs']
      exact h.resumeStage_mem howes hnone
  | restored schema hin | rawReady ids hin | classifying ids hin | planning ids hin =>
      exact absurd howes (h.not_owes hnone hin.2 (by decide))
  | secured ids | activated ids => cases hnone

theorem PlanInv.owing_step (h : PlanInv w) (hok : w.KeepsPlan a)
    (hm : Moves casefold securityContractHash w a w') (hnone : w'.batch.context.securedAssetIds = none)
    (howes : w'.Owes) : w'.batch.state ∈ owingStates ∧
      ∀ s ∈ w'.batch.resumeFromStage, s ∈ BatchState.standardReady :: owingStates := by
  cases hm with
  | works hw =>
      rw [hw.batch] at hnone ⊢
      refine h.owing hnone ?_
      unfold Owes at howes ⊢
      rwa [hw.batch, hw.blocked] at howes
  | restoring s hin | restoredOnly schema hin | syncQueued schema hin | syncing s hin | synced ids hin
  | standardQueued ids run hin | standardizing s hin | standardCompleted ids hin
  | standardReady ids hin | restoreFailed hin | targetMissing hin | syncFailed hin
  | standardizeFailed hin =>
      exact absurd howes (h.not_owes hnone hin.2 (by decide))
  | finished hs | discovered hs | restoreStarted hs =>
      exact absurd howes (h.not_owes hnone (List.mem_singleton.mpr hs) (by decide))
  | syncPlanned ids id hin | standardPlanned ids id hin =>
      refine ⟨(by decide : BatchState.encryptionReady ∈ owingStates), fun s hs => ?_⟩
      have hs' : w.batch.resumeFromStage = some s := hs
      rw [h.unhalted hnone hin.2 (by decide)] at hs'
      cases hs'
  | prepared id hs =>
      refine ⟨(by decide : BatchState.encryptionReady ∈ owingStates), fun s hs' => ?_⟩
      have hs'' : w.batch.resumeFromStage = some s := hs'
      rw [h.unhalted hnone (List.mem_singleton.mpr hs) (by decide)] at hs''
      cases hs''
  | standardBlocked ids hin =>
      refine ⟨(by decide : BatchState.blocked ∈ owingStates), fun s hs => ?_⟩
      cases hs
      decide
  | jobQueued hs =>
      exact ⟨(by decide : BatchState.encrypting ∈ owingStates), (h.owing hnone howes).2⟩
  | jobFailed j =>
      refine ⟨(by decide : BatchState.failed ∈ owingStates), fun s hs => ?_⟩
      have hs' : (if w.batch.isProtected then BatchState.encryptionReady else .standardReady) = s :=
        Option.some.inj hs
      rw [← hs']
      split_ifs <;> decide
  | secured ids run | encrypted ids => cases hnone
  | raised w₁ hr =>
      exact ⟨(by decide : BatchState.failed ∈ owingStates), h.raised_step hr hnone howes⟩
  | resumed hr =>
      have hstage : w.Owes → w.batch.context.securedAssetIds = none →
          w.resumeStage ∈ BatchState.standardReady :: owingStates := h.resumeStage_mem
      cases hr with
      | restore hs | sync hs | standardize run hs =>
          exact absurd (hstage howes hnone)
            ((by decide : ∀ s ∈ restartStages, s ∉ BatchState.standardReady :: owingStates) _
              (List.Subset.trans (List.Subset.refl _) (by decide) hs))
      | stage =>
          refine ⟨?_, fun s hs => by cases hs⟩
          obtain hstandard | hmem := List.mem_cons.mp (hstage howes hnone)
          · have hsecured := (hok howes hstandard).2
            rw [show w.batch.context.securedAssetIds = none from hnone] at hsecured
            cases hsecured
          · exact hmem
  | rated s hs =>
      refine ⟨?_, (h.owing hnone howes).2⟩
      exact (by decide : ∀ s ∈ [BatchState.pathMatched, .awaitingConfirmation, .blocked],
        s ∈ owingStates) s hs

theorem PlanInv.step (h : PlanInv w) (hok : w.KeepsPlan a) (hm : Moves casefold securityContractHash w a w') :
    PlanInv w' where
  recorded := h.recorded_step hm
  halted := h.halted_step hm
  owing := h.owing_step hok hm

theorem planInv_created (h : Created w) : PlanInv w := by
  cases h with
  | discover id pipeline =>
      refine ⟨fun hs => (by cases hs), fun _ hr => absurd rfl hr, fun _ howes => ?_⟩
      obtain hplan | hblocked := howes
      · cases hplan
      · cases hblocked
  | backfill id pipeline source standardAssetId =>
      refine ⟨fun hs => (by cases hs), fun _ hr => absurd rfl hr, fun _ _ => ⟨?_, fun s hs => (by cases hs)⟩⟩
      exact (by decide : BatchState.encryptionReady ∈ owingStates)

/-- A batch that owes an encryption is completed with its assets secured, in a run that never
resumes one as if it had nothing to encrypt. -/
theorem completed_secured {w₀ : Flow} {as : List Action} (h₀ : Created w₀)
    (hrun : Run (Flow.step casefold securityContractHash) KeepsPlan w₀ as w)
    (hstate : w.batch.state = .completed) (howes : w.Owes) : w.Encrypted := by
  have hinv : PlanInv w :=
    hrun.invariant (planInv_created h₀) fun _ _ _ hok hs h => h.step hok (step_moves hs)
  exact hinv.honest hstate howes

/-- One phone number to encrypt. -/
def phoneCatalog : Catalog :=
  { assets :=
      [{ id := 10, connectionId := none, engine := "doris", database := "dwd", tableName := "customer"
         layer := "standard", schemaSignature := "s"
         classification := [{ field := "phone", protectionAction := "sm4", autoApply := true }] },
       { id := 11, connectionId := some 7, engine := "doris", database := "ods", tableName := "customer"
         layer := "raw", schemaSignature := "r" }]
    edges :=
      [{ sourceAssetId := 11, sourceField := some "phone", targetAssetId := 10
         targetField := some "phone", transformationType := "direct", workflowVersionId := some 4
         reviewRequired := false }]
    definitions :=
      [{ id := 5, revision := 1, connectionId := 7, database := "ods", tables := []
         coverageContracts := [] }]
    profiles := [7] }

/-- A batch that is encrypted. -/
theorem completed_secured_phone : ∃ w : Flow, w.batch.state = .completed ∧ w.Owes ∧ w.Encrypted := by
  obtain ⟨w, hrun, hstate, howes⟩ : ∃ w : Flow, Run (Flow.step id fun _ _ _ => "") KeepsPlan
      (backfill 1 fullPipeline { id := 2 } 10)
      [.advance { pipeline := some fullPipeline, catalog := phoneCatalog }, .jobProgress 0 .succeeded,
        .advance { pipeline := some fullPipeline, catalog := phoneCatalog }] w ∧
      w.batch.state = .completed ∧ w.Owes := exists_run (by decide +kernel)
  exact ⟨w, hstate, howes, completed_secured (.backfill _ _ _ _) hrun hstate howes⟩

/-- A batch whose encryption fails, and is resumed: it is completed and nothing is encrypted. -/
theorem completed_unencrypted : ∃ (as : List Action) (w : Flow), Run (Flow.step id fun _ _ _ => "") Free
      (backfill 1 fullPipeline { id := 2 } 10) as w ∧
        w.batch.state = .completed ∧ w.Owes ∧ ¬ w.Encrypted := by
  refine ⟨[.advance { pipeline := some fullPipeline, catalog := phoneCatalog }, .jobProgress 0 .failed,
    .advance { pipeline := some fullPipeline, catalog := phoneCatalog },
    .resume { pipeline := some fullPipeline },
    .advance { pipeline := some fullPipeline, catalog := phoneCatalog }], ?_⟩
  exact exists_run (by decide +kernel)

end Flow

end RecoveryService.DataAutomation
