import RecoveryService.DataAutomation.Secured

/-! # Protected batches

A batch whose frozen context says `ods_protected` is standardised only after its encryption.  There
are three places that prepare a workflow run; each of them validates the frozen contract, and the
one in `resume_batch` starts a stage again that such a batch reaches only with an SM4 job that has
succeeded (`protected_run_prepared`). -/

namespace RecoveryService.DataAutomation

open Checks Runs

namespace Flow

variable (casefold : String → String) (securityContractHash : CoverageContract → String → ℕ → String)

/-- What a step reads apart from the flow. -/
def Action.surroundings : Action → Option Surroundings
  | .scan env _ _ | .advance env | .resume env | .submit env _ | .activate env _ => some env
  | _ => none

/-- The run has the frozen snapshot, and is not a trusted one. -/
def RunsProtected (snapshot : Option Snapshot) (context : TriggerContext) : Prop :=
  context.securityAccessMode = some "protected_etl" ∧ context.securityOrchestration = snapshot

/-- The stages of the standardisation. -/
def standardStages : List BatchState := [.standardizeQueued, .standardizing]

/-- The states of a protected batch that may remember a stage of the standardisation. -/
def lateStates : List BatchState :=
  [.failed, .blocked, .pathMatched, .awaitingConfirmation, .completed, .standardizeQueued,
    .standardizing]

/-- The SM4 job of the batch has succeeded. -/
def JobSucceeded (w : Flow) : Prop := ∃ j ∈ w.job, j.hasSucceeded = true

instance (w : Flow) : Decidable w.JobSucceeded := by
  unfold JobSucceeded
  infer_instance

/-- The invariant of a protected batch with the frozen snapshot. -/
structure ProtectedInv (snapshot : Option Snapshot) (w : Flow) : Prop where
  mode : w.batch.context.flowMode = .odsProtected
  frozen : w.batch.context.securityOrchestration = snapshot
  active : snapshot.isSome
  stage : w.batch.state ∈ standardStages → w.JobSucceeded
  remembered : ∀ s ∈ w.batch.resumeFromStage, s ∈ standardStages →
    w.JobSucceeded ∧ w.batch.state ∈ lateStates
  runs : ∀ context ∈ w.standardRuns.map StandardRun.triggerContext, RunsProtected snapshot context

variable {casefold securityContractHash} {w w' : Flow} {env : Surroundings} {pipeline : Pipeline}
  {snapshot : Option Snapshot}

theorem ProtectedInv.isProtected (h : ProtectedInv snapshot w) : w.batch.isProtected = true := by
  unfold Batch.isProtected
  rw [h.mode, h.frozen, h.active]
  rfl

theorem ProtectedInv.not_unprotected (h : ProtectedInv snapshot w) : w.batch.isProtected ≠ false := by
  rw [h.isProtected]
  decide

/-- Before the encryption no stage of the standardisation is remembered. -/
theorem ProtectedInv.unremembered (h : ProtectedInv snapshot w) {states : List BatchState}
    (hs : w.batch.state ∈ states) (hstates : ∀ s ∈ states, s ∉ lateStates) :
    ∀ s ∈ w.batch.resumeFromStage, s ∉ standardStages := by
  intro s hmem hstage
  exact hstates _ hs (h.remembered s hmem hstage).2

variable {a : Action}

/-- The frozen context stays. -/
theorem context_kept (hm : Moves casefold securityContractHash w a w') :
    w'.batch.context.flowMode = w.batch.context.flowMode ∧
      w'.batch.context.securityOrchestration = w.batch.context.securityOrchestration := by
  cases hm with
  | works hw =>
      rw [hw.batch]
      exact ⟨rfl, rfl⟩
  | raised w₁ hr | resumed hr => cases hr <;> exact ⟨rfl, rfl⟩
  | _ => exact ⟨rfl, rfl⟩

/-- Only a new job takes the place of a job that has succeeded. -/
theorem JobSucceeded.kept (h : w.JobSucceeded) (hm : Moves casefold securityContractHash w a w')
    (hstate : w.batch.state ≠ .encryptionReady) : w'.JobSucceeded := by
  cases hm with
  | works hw =>
      obtain ⟨j, hj, hsucceeded⟩ := h
      obtain ⟨id, hid, hj⟩ := Option.bind_eq_some_iff.mp hj
      refine ⟨j, ?_, hsucceeded⟩
      show w'.batch.encryptionBatchId.bind (w'.sm4Jobs[·]?) = some j
      rw [hw.batch, hid]
      exact hw.succeeded id j hj hsucceeded
  | jobQueued hs => exact absurd hs hstate
  | raised w₁ hr | resumed hr => cases hr <;> exact h
  | _ => exact h

theorem ProtectedInv.stage_step (h : ProtectedInv snapshot w) (hm : Moves casefold securityContractHash w a w')
    (hs : w'.batch.state ∈ standardStages) : w'.JobSucceeded := by
  cases hm with
  | works hw =>
      have hs' := hs
      rw [hw.batch] at hs'
      refine (h.stage hs').kept (Moves.works hw : Moves casefold securityContractHash w a w') ?_
      intro hready
      rw [hready] at hs'
      exact absurd hs' (by decide)
  | standardizing s hin => exact h.stage hin.2
  | secured ids run _ hjob => exact hjob
  | standardQueued ids run _ hunprotected => exact absurd hunprotected h.not_unprotected
  | resumed hr =>
      cases hr with
      | restore | sync => simp [standardStages] at hs
      | standardize run hstage =>
          obtain hremembered | hstate := resumeStage_eq (rfl : w.resumeStage = w.resumeStage)
          · exact (h.remembered _ hremembered hstage).1
          · exact h.stage (by rwa [hstate])
      | stage hnot =>
          exact absurd ((by decide : standardStages ⊆ restartStages) hs) hnot
  | restoring s _ hmem | syncing s _ hmem | rated s hmem =>
      rw [setState_state] at hs
      simp only [List.mem_cons, List.not_mem_nil, or_false] at hmem
      obtain rfl | rfl | rfl := hmem <;> simp [standardStages] at hs
  | _ => simp [standardStages] at hs

/-- A stage of the standardisation that raises, or was remembered before, has its job. -/
theorem ProtectedInv.raised_step {w₁ : Flow} {s : BatchState} (h : ProtectedInv snapshot w)
    (hr : Raises w w₁) (hs : s ∈ w₁.failStage.batch.resumeFromStage) (hstage : s ∈ standardStages) :
    w.JobSucceeded := by
  rw [failStage_resume, Option.mem_some_iff] at hs
  have hgetD : ∀ state, (w.batch.resumeFromStage.getD state = s) →
      (state = s → w.JobSucceeded) → w.JobSucceeded := by
    intro state hget hstate
    cases hresume : w.batch.resumeFromStage with
    | none =>
        rw [hresume] at hget
        exact hstate hget
    | some stage =>
        rw [hresume] at hget
        exact (h.remembered s (by rw [hresume, ← hget]; rfl) hstage).1
  cases hr with
  | here | classifying ids =>
      refine hgetD w.batch.state hs fun hstate => ?_
      rw [← hstate] at hstage
      exact h.stage hstage
  | planning ids _ hunprotected => exact absurd hunprotected h.not_unprotected
  | secured ids hencrypting hjob | activated ids hencrypting hjob => exact hjob
  | restored schema | rawReady ids =>
      refine hgetD _ hs fun hstate => ?_
      rw [← hstate] at hstage
      simp [standardStages] at hstage

theorem ProtectedInv.remembered_step {s : BatchState} (h : ProtectedInv snapshot w)
    (hm : Moves casefold securityContractHash w a w') (hs : s ∈ w'.batch.resumeFromStage)
    (hstage : s ∈ standardStages) : w'.JobSucceeded ∧ w'.batch.state ∈ lateStates := by
  cases hm with
  | works hw =>
      have hs' := hs
      rw [hw.batch] at hs' ⊢
      obtain ⟨hjob, hlate⟩ := h.remembered s hs' hstage
      refine ⟨hjob.kept (Moves.works hw : Moves casefold securityContractHash w a w') ?_, hlate⟩
      intro hready
      rw [hready] at hlate
      exact absurd hlate (by decide)
  | restoring s' hin | restoredOnly schema hin | syncQueued schema hin | syncing s' hin | synced ids hin
  | syncPlanned ids id hin | standardQueued ids run hin =>
      exact absurd hstage (h.unremembered hin.2 (by decide) s hs)
  | jobQueued hstate | finished hstate | discovered hstate | prepared id hstate =>
      exact absurd hstage (h.unremembered (List.mem_singleton.mpr hstate) (by decide) s hs)
  | standardizing s' hin hs' =>
      refine ⟨(h.remembered s hs hstage).1, ?_⟩
      exact (by decide : standardStages ⊆ lateStates) hs'
  | standardCompleted ids hin =>
      exact ⟨(h.remembered s hs hstage).1, (by decide : BatchState.completed ∈ lateStates)⟩
  | standardizeFailed hin => exact ⟨h.stage hin.2, (by decide : BatchState.failed ∈ lateStates)⟩
  | standardReady ids _ hunprotected | standardPlanned ids id _ hunprotected
  | standardBlocked ids _ hunprotected | encrypted ids _ hunprotected =>
      exact absurd hunprotected h.not_unprotected
  | jobFailed j =>
      rw [halt_resume, if_pos h.isProtected, Option.mem_some_iff] at hs
      rw [← hs] at hstage
      simp [standardStages] at hstage
  | secured ids run _ hjob =>
      exact ⟨hjob, (by decide : BatchState.standardizeQueued ∈ lateStates)⟩
  | raised w₁ hr =>
      refine ⟨?_, (by decide : BatchState.failed ∈ lateStates)⟩
      have hjob := h.raised_step hr hs hstage
      cases hr <;> exact hjob
  | resumed hr => cases hr <;> cases hs
  | rated s' hs' =>
      refine ⟨(h.remembered s hs hstage).1, ?_⟩
      exact (by decide : [BatchState.pathMatched, .awaitingConfirmation, .blocked] ⊆ lateStates) hs'
  | restoreFailed | targetMissing | syncFailed =>
      rw [halt_resume, Option.mem_some_iff] at hs
      rw [← hs] at hstage
      simp [standardStages] at hstage
  | restoreStarted => cases hs

/-- What a step adds to the runs of a protected batch. -/
theorem ProtectedInv.runs_step (h : ProtectedInv snapshot w) (hm : Moves casefold securityContractHash w a w') :
    w'.standardRuns.map StandardRun.triggerContext = w.standardRuns.map StandardRun.triggerContext ∨
      ∃ env run, a.surroundings = some env ∧ w'.standardRuns = w.standardRuns ++ [run] ∧
        w.JobSucceeded ∧ RunFor casefold securityContractHash env w run := by
  cases hm with
  | works hw => exact .inl hw.runs
  | standardQueued ids run _ hunprotected => exact absurd hunprotected h.not_unprotected
  | @secured a env ids run ha hjob _ hrun =>
      refine .inr ⟨env, run, ?_, rfl, hjob, hrun⟩
      obtain rfl | ⟨c, rfl⟩ := ha <;> rfl
  | raised w₁ hr => cases hr <;> exact .inl rfl
  | @resumed env _ hr =>
      cases hr with
      | restore | sync | stage => exact .inl rfl
      | standardize run hstage hrun =>
          refine .inr ⟨env, run, rfl, rfl, ?_, hrun⟩
          obtain hremembered | hstate := resumeStage_eq (rfl : w.resumeStage = w.resumeStage)
          · exact (h.remembered _ hremembered hstage).1
          · exact h.stage (by rwa [hstate])
  | _ => exact .inl rfl

theorem ProtectedInv.step (h : ProtectedInv snapshot w) (hm : Moves casefold securityContractHash w a w') :
    ProtectedInv snapshot w' where
  mode := (context_kept hm).1.trans h.mode
  frozen := (context_kept hm).2.trans h.frozen
  active := h.active
  stage := h.stage_step hm
  remembered := fun _ hs hstage => h.remembered_step hm hs hstage
  runs := by
    intro context hcontext
    obtain hsame | ⟨env, run, -, hruns, -, hrun⟩ := h.runs_step hm
    · rw [hsame] at hcontext
      exact h.runs context hcontext
    · rw [hruns, List.map_append, List.mem_append] at hcontext
      obtain hold | hnew := hcontext
      · exact h.runs context hold
      · rw [List.map_singleton, List.mem_singleton] at hnew
        obtain ⟨-, hmode, hsnapshot⟩ := hrun h.isProtected
        rw [hnew]
        exact ⟨hmode, hsnapshot.trans h.frozen⟩

theorem protectedInv_created (h : Created w) (hmode : w.batch.context.flowMode = .odsProtected) :
    ProtectedInv w.batch.context.securityOrchestration w := by
  cases h with
  | discover id pipeline =>
      refine ⟨hmode, rfl, ?_, fun hs => ?_, fun s hs => (by cases hs), fun context hc => (by cases hc)⟩
      · by_contra hnone
        unfold discover at hmode hnone
        dsimp only at hmode hnone
        rw [if_neg hnone] at hmode
        cases hmode
      · exact absurd hs (by decide : BatchState.stabilizing ∉ standardStages)
  | backfill id pipeline source standardAssetId => cases hmode

/-- A standardisation of a batch whose frozen context is `ods_protected` is prepared only when its
SM4 job has succeeded and its contract holds in the same step; all its runs are protected ones with
the frozen snapshot. -/
theorem protected_run_prepared {w₀ : Flow} {as : List Action} {a : Action} (h₀ : Created w₀)
    (hmode : w₀.batch.context.flowMode = .odsProtected)
    (hrun : Run (Flow.step casefold securityContractHash) Free w₀ as w)
    (hstep : w.step casefold securityContractHash a = some w') : (∀ run ∈ w'.standardRuns,
      run.triggerContext.securityAccessMode = some "protected_etl" ∧
        run.triggerContext.securityOrchestration = w₀.batch.context.securityOrchestration) ∧
    (w.standardRuns.length < w'.standardRuns.length →
      w.JobSucceeded ∧ ∃ env ∈ a.surroundings, ∃ pipeline ∈ env.pipeline, ∃ standardId,
        validateProtectedBatch casefold securityContractHash env.catalog pipeline w.batch =
          .ok standardId) := by
  have hinv : ProtectedInv w₀.batch.context.securityOrchestration w :=
    hrun.invariant (protectedInv_created h₀ hmode) fun _ _ _ _ hs h => h.step (step_moves hs)
  have hmoves := step_moves hstep
  constructor
  · intro run hmem
    exact (hinv.step hmoves).runs _ (List.mem_map_of_mem hmem)
  · intro hgrow
    obtain hsame | ⟨env, run, henv, -, hjob, hfor⟩ := hinv.runs_step hmoves
    · have hlength := congrArg List.length hsame
      rw [List.length_map, List.length_map] at hlength
      omega
    · obtain ⟨⟨pipeline, hpipeline, standardId, hvalid⟩, -⟩ := hfor hinv.isProtected
      exact ⟨hjob, env, henv, pipeline, hpipeline, standardId, hvalid⟩

/-- `fullPipeline` with the contract of `phoneContracts` frozen. -/
def frozenPipeline : Pipeline :=
  { fullPipeline with
    config :=
      { securityAccessEnabled := true
        autoEncryptionEnabled := true
        securityOrchestration := some
          { enabled := true, mode := "ods_protected", standardAssetId := some 10
            standardSchemaSignature := "s", standardWorkflowVersionId := some 4
            sm4TaskDefinitionId := some 5, sm4TaskRevision := 1, requiredStandardFields := ["phone"]
            sourceAssets :=
              [{ assetId := 11, database := "ods", tableName := "customer", schemaSignature := "r" }]
            fieldContracts :=
              [{ standardField := "phone", sourceAssetId := 11, sourceField := some "phone"
                 accessDatabase := "sec", accessTable := "customer", contractHash := "" }] } } }

/-- `phoneCatalog` with the contract of the phone number. -/
def phoneContracts : Catalog :=
  { phoneCatalog with
    definitions :=
      [{ id := 5, revision := 1, connectionId := 7, database := "ods"
         tables := [{ tableName := "customer", columns := ["phone"] }]
         coverageContracts :=
          [{ standardDatabase := "dwd", standardTable := "customer", standardField := "phone"
             sourceDatabase := "ods", sourceTable := "customer", sourceField := "phone"
             accessDatabase := "sec", accessTable := "customer" }] }] }

def frozenSurroundings : Surroundings :=
  { pipeline := some frozenPipeline, catalog := phoneContracts, syncAssets := .ok [11] }

/-- A protected batch up to its standardisation. -/
theorem protected_run_prepared_phone :
    ∃ w w' : Flow, w.standardRuns.length < w'.standardRuns.length ∧ w.JobSucceeded ∧
      ∀ run ∈ w'.standardRuns, run.triggerContext.securityAccessMode = some "protected_etl" := by
  obtain ⟨w, w', hrun, hlast, hgrow⟩ : ∃ w w' : Flow, Run (Flow.step id fun _ _ _ => "") Free
      (discover 1 frozenPipeline)
      [.scan frozenSurroundings true true,
        .restoreProgress 0 { state := .succeeded, schema := some "HR" }, .advance frozenSurroundings,
        .syncProgress 0 .succeeded, .advance frozenSurroundings, .advance frozenSurroundings,
        .jobProgress 0 .succeeded] w ∧
      Run (Flow.step id fun _ _ _ => "") Free w [.advance frozenSurroundings] w' ∧
        w.standardRuns.length < w'.standardRuns.length := exists_run_run (by decide +kernel)
  cases hlast with
  | step _ hstep hrest =>
      cases hrest
      obtain ⟨hruns, hprepared⟩ := protected_run_prepared (.discover _ _) rfl hrun hstep
      exact ⟨w, w', hgrow, (hprepared hgrow).1, fun run hmem => (hruns run hmem).1⟩

end Flow

end RecoveryService.DataAutomation
