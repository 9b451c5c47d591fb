import RecoveryService.DataAutomation.Advance

/-! # The steps of a batch

`step` is one operation on a batch, or a change of one of its rows by the worker that executes it.
`Moves` says once what an operation can do to the flow; the invariants of the batch are proved by
cases on it. -/

namespace RecoveryService.DataAutomation

open Checks Runs

namespace Flow

variable (casefold : String → String) (securityContractHash : CoverageContract → String → ℕ → String)

inductive Action
  /-- The workers; a row that is terminal stays so. -/
  | restoreProgress (id : ℕ) (task : RestoreTask)
  | syncProgress (id : ℕ) (status : RunStatus)
  | runProgress (id : ℕ) (status : RunStatus)
  | jobProgress (id : ℕ) (job : Sm4State)
  /-- The operations on the batch. -/
  | scan (env : Surroundings) (dispatch stable : Bool)
  | advance (env : Surroundings)
  | resume (env : Surroundings)
  | submit (env : Surroundings) (confirm : Bool)
  | activate (env : Surroundings) (confirm : Bool)
  | matched (level : BlueprintMatch)
  | confirmed
  | prepared (standardAssetId : ℕ)

/-- A request that raises is rolled back. -/
def request (w : Flow) (result : Except String Flow) : Flow :=
  match result with
  | .ok w' => w'
  | .error _ => w

/-- One step; `none` where it cannot happen. -/
def step (w : Flow) (action : Action) : Option Flow :=
  match action with
  | .restoreProgress id task =>
      if w.restoreTasks[id]?.any (fun t => t.state.isTerminal = false) then
        some { w with restoreTasks := w.restoreTasks.set id task }
      else none
  | .syncProgress id status =>
      if w.syncRuns[id]?.any (fun s => s.isTerminal = false) then
        some { w with syncRuns := w.syncRuns.set id status }
      else none
  | .runProgress id status =>
      if w.standardRuns[id]?.any (fun r => r.status.isTerminal = false) then
        some { w with standardRuns := w.standardRuns.modify id (fun r => { r with status := status }) }
      else none
  | .jobProgress id job =>
      if w.sm4Jobs[id]?.any (fun j => j.isTerminal = false) then
        some { w with sm4Jobs := w.sm4Jobs.set id job }
      else none
  | .scan env dispatch stable => some (w.request (w.scanBatch env dispatch stable))
  | .advance env =>
      if w.batch.state.isTerminal then none
      else some (w.advance casefold securityContractHash env)
  | .resume env => some (w.request (w.resumeBatch casefold securityContractHash env))
  | .submit env confirm =>
      some (w.request (w.submitEncryption casefold securityContractHash env confirm))
  | .activate env confirm =>
      some (w.request (w.activateAccess casefold securityContractHash env confirm))
  | .matched level => some (w.matchBlueprint level)
  | .confirmed => some w.confirmBlueprint
  | .prepared standardAssetId => some (w.prepareOrchestration standardAssetId)

/-- A batch as it is created. -/
inductive Created : Flow → Prop
  | discover (id : ℕ) (pipeline : Pipeline) : Created (discover id pipeline)
  | backfill (id : ℕ) (pipeline : Pipeline) (source : Batch) (standardAssetId : ℕ) :
      Created (backfill id pipeline source standardAssetId)

/-! ### What a step can do -/

/-- The batch is in a stage that `_advance_one` looks after. -/
def InRestore (batch : Batch) : Prop :=
  batch.restoreTaskId.isSome ∧ batch.state ∈ [BatchState.restoreQueued, .restoring]

def InSync (batch : Batch) : Prop :=
  batch.syncRunId.isSome ∧ batch.state ∈ [BatchState.syncQueued, .syncing]

def InStandardize (batch : Batch) : Prop :=
  batch.standardRunId.isSome ∧ batch.state ∈ [BatchState.standardizeQueued, .standardizing]

/-- The SM4 job of the batch. -/
def job (w : Flow) : Option Sm4State := w.batch.encryptionBatchId.bind (w.sm4Jobs[·]?)

/-- The stages `resume_batch` starts again with a new row. -/
def restartStages : List BatchState :=
  [.restoreQueued, .restoring, .discovered, .syncQueued, .syncing, .standardizeQueued, .standardizing]

/-- A worker changes a row, and not the row of a job that has succeeded. -/
structure Works (w w' : Flow) : Prop where
  batch : w'.batch = w.batch
  blocked : w'.blockedUnencrypted = w.blockedUnencrypted
  jobs : w'.sm4Jobs.length = w.sm4Jobs.length
  succeeded : ∀ (id : ℕ) (j : Sm4State), w.sm4Jobs[id]? = some j → j.hasSucceeded = true →
    w'.sm4Jobs[id]? = some j
  runs : w'.standardRuns.map StandardRun.triggerContext = w.standardRuns.map StandardRun.triggerContext

/-- The run is one for the batch: where the batch is protected its contract holds, and the run has
the frozen snapshot. -/
def RunFor (env : Surroundings) (w : Flow) (run : StandardRun) : Prop :=
  w.batch.isProtected = true →
    (∃ pipeline ∈ env.pipeline, ∃ standardId,
      validateProtectedBatch casefold securityContractHash env.catalog pipeline w.batch = .ok standardId) ∧
    run.triggerContext.securityAccessMode = some "protected_etl" ∧
    run.triggerContext.securityOrchestration = w.batch.context.securityOrchestration

/-- The flow as it stands when `_advance_one` raises. -/
inductive Raises (w : Flow) : Flow → Prop
  | here : Raises w w
  | restored (schema : String) : InRestore w.batch → Raises w (w.restored schema)
  | rawReady (ids : List ℕ) : InSync w.batch → Raises w (w.rawReady ids)
  | classifying (ids : List ℕ) : InStandardize w.batch → Raises w (w.standardTargets ids)
  | planning (ids : List ℕ) : InStandardize w.batch → w.batch.isProtected = false →
      Raises w ((w.standardTargets ids).setState .standardReady)
  | secured (ids : List ℕ) : w.batch.state = .encrypting → (∃ j ∈ w.job, j.hasSucceeded = true) →
      Raises w (w.secured ids)
  | activated (ids : List ℕ) : w.batch.state = .encrypting → (∃ j ∈ w.job, j.hasSucceeded = true) →
      w.batch.isProtected = true → Raises w ((w.secured ids).setState .securityAccessActive)

/-- What `resume_batch` does to the flow. -/
inductive Resumes (env : Surroundings) (w : Flow) : Flow → Prop
  | restore : w.resumeStage ∈ [BatchState.restoreQueued, .restoring, .discovered] →
      Resumes env w w.queueRestore
  | sync : w.resumeStage ∈ [BatchState.syncQueued, .syncing] →
      Resumes env w (w.queueSync.setResume none)
  | standardize (run : StandardRun) :
      w.resumeStage ∈ [BatchState.standardizeQueued, .standardizing] →
      RunFor casefold securityContractHash env w run →
      Resumes env w ((w.queueRun run).setResume none)
  | stage : w.resumeStage ∉ restartStages →
      Resumes env w ((w.setState w.resumeStage).setResume none)

/-- The steps of a flow. -/
inductive Moves (w : Flow) : Action → Flow → Prop
  | works {a w'} : Works w w' → Moves w a w'
  | restoring {a} (s : BatchState) : InRestore w.batch → s ∈ [BatchState.restoreQueued, .restoring] →
      Moves w a (w.setState s)
  | restoreFailed {a} : InRestore w.batch → Moves w a (w.halt .failed .restoreQueued)
  | targetMissing {a} : InRestore w.batch → Moves w a (w.halt .blocked .assetRegistered)
  | restoredOnly {a} (schema : String) : InRestore w.batch →
      Moves w a ((w.restored schema).setState .rawReady)
  | syncQueued {env} (schema : String) : InRestore w.batch →
      Moves w (.advance env) (w.restored schema).queueSync
  | syncing {a} (s : BatchState) : InSync w.batch → s ∈ [BatchState.syncQueued, .syncing] →
      Moves w a (w.setState s)
  | syncFailed {a} : InSync w.batch → Moves w a (w.halt .failed .syncQueued)
  | synced {a} (ids : List ℕ) : InSync w.batch → w.batch.isProtected = false →
      Moves w a (w.rawReady ids)
  | syncPlanned {a} (ids : List ℕ) (id : ℕ) : InSync w.batch → w.batch.isProtected = true →
      Moves w a ((w.rawReady ids).plan id)
  | standardQueued {env} (ids : List ℕ) (run : StandardRun) : InSync w.batch →
      w.batch.isProtected = false → Moves w (.advance env) ((w.rawReady ids).queueRun run)
  | standardizing {a} (s : BatchState) : InStandardize w.batch →
      s ∈ [BatchState.standardizeQueued, .standardizing] → Moves w a (w.setState s)
  | standardizeFailed {a} : InStandardize w.batch → Moves w a (w.halt .failed .standardizeQueued)
  | standardCompleted {a} (ids : List ℕ) : InStandardize w.batch → w.batch.isProtected = true →
      Moves w a ((w.standardTargets ids).setState .standardReady).markCompleted
  | standardReady {a} (ids : List ℕ) : InStandardize w.batch → w.batch.isProtected = false →
      Moves w a ((w.standardTargets ids).setState .standardReady)
  | standardPlanned {a} (ids : List ℕ) (id : ℕ) : InStandardize w.batch →
      w.batch.isProtected = false →
      Moves w a (((w.standardTargets ids).setState .standardReady).plan id)
  | standardBlocked {a} (ids : List ℕ) : InStandardize w.batch → w.batch.isProtected = false →
      Moves w a ((w.standardTargets ids).setState .standardReady).blockUnencrypted
  | jobQueued {a} : w.batch.state = .encryptionReady → Moves w a w.queueJob
  | jobFailed {a} (j : Sm4State) : w.job = some j → j ∉ [Sm4State.queued, .reserved, .running] →
      j.hasSucceeded = false →
      Moves w a (w.halt .failed (if w.batch.isProtected then .encryptionReady else .standardReady))
  | secured {a env} (ids : List ℕ) (run : StandardRun) : a = .advance env ∨ (∃ c, a = .activate env c) →
      (∃ j ∈ w.job, j.hasSucceeded = true) → w.batch.isProtected = true →
      RunFor casefold securityContractHash env w run →
      Moves w a (((w.secured ids).setState .securityAccessActive).queueRun run)
  | encrypted {a} (ids : List ℕ) : (∃ j ∈ w.job, j.hasSucceeded = true) →
      w.batch.isProtected = false → Moves w a (w.secured ids).markCompleted
  | finished {a} : w.batch.state = .standardReady → Moves w a w.markCompleted
  | raised {env} (w₁ : Flow) : Raises w w₁ → Moves w (.advance env) w₁.failStage
  | restoreStarted {env dispatch stable} : w.batch.state = .stabilizing →
      Moves w (.scan env dispatch stable) w.queueRestore
  | discovered {a} : w.batch.state = .stabilizing → Moves w a (w.setState .discovered)
  | resumed {env w'} : Resumes casefold securityContractHash env w w' → Moves w (.resume env) w'
  | rated {a} (s : BatchState) : s ∈ [BatchState.pathMatched, .awaitingConfirmation, .blocked] →
      Moves w a (w.setState s)
  | prepared {a} (id : ℕ) : w.batch.state = .standardReady → Moves w a (w.plan id)

variable {casefold securityContractHash} {w w' : Flow} {env : Surroundings} {pipeline : Pipeline}

theorem Works.refl (w : Flow) : Works w w := ⟨rfl, rfl, rfl, fun _ _ h _ => h, rfl⟩

variable {a : Action}

theorem moves_rest : Moves casefold securityContractHash w a w := .works (.refl w)

/-- What an outcome says of a step: it is one, or the flow is left as a stage leaves it. -/
def Settles (casefold : String → String)
    (securityContractHash : CoverageContract → String → ℕ → String) (w : Flow) (a : Action)
    (outcome : Outcome) (inStage : Prop) : Prop :=
  match outcome.result with
  | .ok _ => Moves casefold securityContractHash w a outcome.flow
  | .error _ => inStage → Raises w outcome.flow

abbrev Advances (casefold : String → String)
    (securityContractHash : CoverageContract → String → ℕ → String) (w : Flow) (env : Surroundings)
    (outcome : Outcome) : Prop :=
  Settles casefold securityContractHash w (.advance env) outcome True

theorem advances_orRaises {w₁ : Flow} {next : Except String Flow}
    (hok : ∀ w', next = .ok w' → Moves casefold securityContractHash w (.advance env) w')
    (herror : Raises w w₁) : Advances casefold securityContractHash w env (w₁.orRaises next) := by
  unfold orRaises
  cases hnext : next with
  | ok w' => exact hok w' hnext
  | error text => exact fun _ => herror

theorem prepareWorkflowRun_ok {run : StandardRun} (h : w.prepareWorkflowRun env run = .ok w') :
    w' = w.queueRun run := by
  unfold prepareWorkflowRun at h
  obtain ⟨_, -, h⟩ := bind_eq_ok.mp h
  obtain ⟨_, -, h⟩ := bind_eq_ok.mp h
  cases h
  rfl

theorem triggerContext_ok {context : TriggerContext}
    (h : w.triggerContext casefold securityContractHash env pipeline = .ok context) :
    w.batch.isProtected = true →
      (∃ standardId, validateProtectedBatch casefold securityContractHash env.catalog pipeline w.batch =
        .ok standardId) ∧ context.securityAccessMode = some "protected_etl" ∧
      context.securityOrchestration = w.batch.context.securityOrchestration := by
  intro hprotected
  unfold triggerContext at h
  dsimp only at h
  rw [if_pos hprotected] at h
  obtain ⟨standardId, hvalid, h⟩ := bind_eq_ok.mp h
  cases h
  exact ⟨⟨standardId, hvalid⟩, rfl, rfl⟩

theorem queueStandardization_ok {triggerType : String} (hpipeline : env.pipeline = some pipeline)
    (h : w.queueStandardization casefold securityContractHash env pipeline triggerType = .ok w') :
    ∃ run, w' = w.queueRun run ∧ RunFor casefold securityContractHash env w run := by
  unfold queueStandardization at h
  cases hversion : pipeline.standardWorkflowVersionId with
  | none =>
      rw [hversion] at h
      cases h
  | some versionId =>
      rw [hversion] at h
      obtain ⟨context, hcontext, h⟩ := bind_eq_ok.mp h
      refine ⟨_, prepareWorkflowRun_ok h, fun hprotected => ?_⟩
      obtain ⟨hvalid, hmode, hsnapshot⟩ := triggerContext_ok hcontext hprotected
      exact ⟨⟨pipeline, hpipeline, hvalid⟩, hmode, hsnapshot⟩

theorem advanceRestore_advances (h : InRestore w.batch) :
    Advances casefold securityContractHash w env (w.advanceRestore env pipeline) := by
  unfold advanceRestore
  cases w.batch.restoreTaskId.bind (w.restoreTasks[·]?) with
  | none => exact fun _ => .here
  | some task =>
      dsimp only
      split
      · exact Moves.restoring .restoreQueued h (by decide)
      split
      · exact Moves.restoring .restoring h (by decide)
      split
      · exact Moves.restoreFailed h
      cases task.schema with
      | none => exact Moves.targetMissing h
      | some schema =>
          dsimp only
          split
          · refine advances_orRaises ?_ (.restored schema h)
            intro w' hw'
            cases hcomponent : env.componentRun with
            | error text =>
                rw [hcomponent] at hw'
                cases hw'
            | ok _ =>
                rw [hcomponent] at hw'
                cases hw'
                exact .syncQueued schema h
          · exact Moves.restoredOnly schema h

theorem afterSync_advances {ids : List ℕ} (h : InSync w.batch) (hpipeline : env.pipeline = some pipeline) :
    Advances casefold securityContractHash w env
      ((w.rawReady ids).afterSync casefold securityContractHash env pipeline) := by
  unfold afterSync
  split_ifs with hprotected
  · refine advances_orRaises ?_ (.rawReady ids h)
    intro w' hw'
    cases hvalid : validateProtectedBatch casefold securityContractHash env.catalog pipeline
        (w.rawReady ids).batch with
    | error text =>
        rw [hvalid] at hw'
        cases hw'
    | ok id =>
        rw [hvalid] at hw'
        cases hw'
        exact .syncPlanned ids id h hprotected
  · refine advances_orRaises ?_ (.rawReady ids h)
    intro w' hw'
    obtain ⟨run, rfl, -⟩ := queueStandardization_ok hpipeline hw'
    exact .standardQueued ids run h (Bool.eq_false_iff.mpr hprotected)
  · exact Moves.synced ids h (Bool.eq_false_iff.mpr hprotected)

theorem advanceSync_advances (h : InSync w.batch) (hpipeline : env.pipeline = some pipeline) :
    Advances casefold securityContractHash w env
      (w.advanceSync casefold securityContractHash env pipeline) := by
  unfold advanceSync
  cases w.batch.syncRunId.bind (w.syncRuns[·]?) with
  | none => exact fun _ => .here
  | some status =>
      dsimp only
      split
      · exact Moves.syncing .syncQueued h (by decide)
      split
      · exact Moves.syncing .syncing h (by decide)
      split
      · exact Moves.syncFailed h
      cases env.syncAssets with
      | error text => exact fun _ => .here
      | ok ids => exact afterSync_advances h hpipeline

theorem planEncryption_advances {ids : List ℕ} (h : InStandardize w.batch)
    (hprotected : w.batch.isProtected = false) : Advances casefold securityContractHash w env
      (((w.standardTargets ids).setState .standardReady).planEncryption casefold env pipeline ids) := by
  unfold planEncryption
  split
  · cases ids.filter (reversePlan env.catalog) with
    | nil => exact Moves.standardReady ids h hprotected
    | cons id rest =>
        cases rest with
        | nil =>
            dsimp only
            split
            · cases buildSecurityAccessPlan casefold env.catalog (some pipeline) id with
              | error text => exact fun _ => .planning ids h hprotected
              | ok accessPlan =>
                  dsimp only
                  split
                  · exact Moves.standardPlanned ids id h hprotected
                  · exact Moves.standardBlocked ids h hprotected
            · exact Moves.standardPlanned ids id h hprotected
        | cons _ _ => exact Moves.standardBlocked ids h hprotected
  · exact Moves.standardReady ids h hprotected

theorem advanceStandardize_advances (h : InStandardize w.batch) :
    Advances casefold securityContractHash w env (w.advanceStandardize casefold env pipeline) := by
  unfold advanceStandardize
  cases w.batch.standardRunId.bind (w.standardRuns[·]?) with
  | none => exact fun _ => .here
  | some run =>
      dsimp only
      split
      · exact Moves.standardizing .standardizeQueued h (by decide)
      split
      · exact Moves.standardizing .standardizing h (by decide)
      split
      · exact Moves.standardizeFailed h
      cases env.standardAssets with
      | error text => exact fun _ => .here
      | ok ids =>
          dsimp only
          cases env.classification with
          | error text => exact fun _ => .classifying ids h
          | ok _ =>
              dsimp only [afterStandardize]
              split_ifs with hprotected
              · exact Moves.standardCompleted ids h hprotected
              · exact planEncryption_advances h (Bool.eq_false_iff.mpr hprotected)

theorem submitSecurityEncryption_ok
    (h : w.submitSecurityEncryption casefold securityContractHash env pipeline = .ok w') : w' = w.queueJob := by
  unfold submitSecurityEncryption at h
  obtain ⟨_, -, h⟩ := bind_eq_ok.mp h
  obtain ⟨_, -, h⟩ := bind_eq_ok.mp h
  obtain ⟨_, -, h⟩ := bind_eq_ok.mp h
  cases h
  rfl

theorem afterEncryption_settles {ids : List ℕ} (hpipeline : env.pipeline = some pipeline)
    (ha : a = .advance env ∨ ∃ c, a = .activate env c) (h : ∃ j ∈ w.job, j.hasSucceeded = true) :
    Settles casefold securityContractHash w a
      ((w.secured ids).afterEncryption casefold securityContractHash env pipeline)
      (w.batch.state = .encrypting) := by
  unfold afterEncryption
  split_ifs with hprotected
  · unfold orRaises
    cases hqueue : ((w.secured ids).setState .securityAccessActive).queueStandardization casefold
        securityContractHash env pipeline "data_automation_protected" with
    | error text => exact fun hstate => .activated ids hstate h hprotected
    | ok w' =>
        obtain ⟨run, rfl, hrun⟩ := queueStandardization_ok hpipeline hqueue
        exact Moves.secured ids run ha h hprotected hrun
  · exact Moves.encrypted ids h (Bool.eq_false_iff.mpr hprotected)

/-- What `_complete_security_encryption` does, whoever calls it. -/
theorem completeSecurityEncryption_settles (hpipeline : env.pipeline = some pipeline)
    (ha : a = .advance env ∨ ∃ c, a = .activate env c) : Settles casefold securityContractHash w a
      (w.completeSecurityEncryption casefold securityContractHash env pipeline)
      (w.batch.state = .encrypting) := by
  unfold completeSecurityEncryption
  cases hjob : w.batch.encryptionBatchId.bind (w.sm4Jobs[·]?) with
  | none => exact fun _ => .here
  | some j =>
      dsimp only
      split
      · exact moves_rest
      · rename_i hactive
        split
        · rename_i hfailed
          exact Moves.jobFailed j hjob hactive hfailed
        · rename_i hfailed
          have hsucceeded : ∃ j ∈ w.job, j.hasSucceeded = true :=
            ⟨j, hjob, eq_true_of_ne_false hfailed⟩
          cases activateViews env pipeline with
          | error text => exact fun hstate => .secured env.securedAssets hstate hsucceeded
          | ok _ => exact afterEncryption_settles hpipeline ha hsucceeded

theorem advanceOne_advances :
    Advances casefold securityContractHash w env (w.advanceOne casefold securityContractHash env) := by
  unfold advanceOne
  cases hpipeline : env.pipeline with
  | none => exact fun _ => .here
  | some pipeline =>
      dsimp only
      split_ifs with hrestore hsync hstandardize hready hencrypting hstandard
      · exact advanceRestore_advances hrestore
      · exact advanceSync_advances hsync hpipeline
      · exact advanceStandardize_advances hstandardize
      · refine advances_orRaises ?_ .here
        intro w' hw'
        rw [submitSecurityEncryption_ok hw']
        exact .jobQueued hready
      · have hsettles : Settles casefold securityContractHash w (.advance env)
            (w.completeSecurityEncryption casefold securityContractHash env pipeline)
            (w.batch.state = .encrypting) :=
          completeSecurityEncryption_settles hpipeline (.inl rfl)
        unfold Advances Settles at *
        cases hresult : (w.completeSecurityEncryption casefold securityContractHash env pipeline).result with
        | ok _ =>
            rw [hresult] at hsettles
            exact hsettles
        | error _ =>
            rw [hresult] at hsettles
            exact fun _ => hsettles hencrypting.2
      · exact Moves.finished hstandard
      · exact moves_rest

theorem moves_request {result : Except String Flow}
    (h : ∀ w', result = .ok w' → Moves casefold securityContractHash w a w') :
    Moves casefold securityContractHash w a (w.request result) := by
  unfold request
  cases hresult : result with
  | ok w' => exact h w' hresult
  | error text => exact moves_rest

theorem scanBatch_moves {dispatch stable : Bool} (h : w.scanBatch env dispatch stable = .ok w') :
    Moves casefold securityContractHash w (.scan env dispatch stable) w' := by
  unfold scanBatch at h
  cases hpipeline : env.pipeline with
  | none =>
      rw [hpipeline] at h
      cases h
  | some pipeline =>
      rw [hpipeline] at h
      obtain ⟨_, -, h⟩ := bind_eq_ok.mp h
      split_ifs at h with hstable hdispatch <;> cases h
      · exact .restoreStarted hstable.1
      · exact .discovered hstable.1
      · exact moves_rest

theorem resumeBatch_resumes (h : w.resumeBatch casefold securityContractHash env = .ok w') :
    Resumes casefold securityContractHash env w w' := by
  unfold resumeBatch at h
  cases hpipeline : env.pipeline with
  | none =>
      rw [hpipeline] at h
      cases h
  | some pipeline =>
      rw [hpipeline] at h
      obtain ⟨_, -, h⟩ := bind_eq_ok.mp h
      split_ifs at h with hrestore hsync hstandardize
      · cases h
        exact .restore hrestore
      · obtain ⟨_, -, h⟩ := bind_eq_ok.mp h
        obtain ⟨_, -, h⟩ := bind_eq_ok.mp h
        cases h
        exact .sync hsync
      · cases hversion : pipeline.standardWorkflowVersionId with
        | none =>
            rw [hversion] at h
            cases h
        | some versionId =>
            rw [hversion] at h
            obtain ⟨context, hcontext, h⟩ := bind_eq_ok.mp h
            obtain ⟨w₁, hrun, h⟩ := bind_eq_ok.mp h
            cases h
            rw [prepareWorkflowRun_ok hrun]
            refine .standardize _ hstandardize fun hprotected => ?_
            obtain ⟨hvalid, hmode, hsnapshot⟩ := triggerContext_ok hcontext hprotected
            exact ⟨⟨pipeline, hpipeline, hvalid⟩, hmode, hsnapshot⟩
      · cases h
        refine .stage fun hmem => ?_
        unfold restartStages at hmem
        simp only [List.mem_cons, List.not_mem_nil, or_false] at hrestore hsync hstandardize hmem
        tauto

theorem submitEncryption_moves {confirm : Bool}
    (h : w.submitEncryption casefold securityContractHash env confirm = .ok w') :
    Moves casefold securityContractHash w (.submit env confirm) w' := by
  unfold submitEncryption at h
  obtain ⟨_, -, h⟩ := bind_eq_ok.mp h
  cases hpipeline : env.pipeline with
  | none =>
      rw [hpipeline] at h
      cases h
  | some pipeline =>
      rw [hpipeline] at h
      obtain ⟨_, hstate, h⟩ := bind_eq_ok.mp h
      obtain ⟨_, -, h⟩ := bind_eq_ok.mp h
      rw [submitSecurityEncryption_ok h]
      exact .jobQueued (not_not.mp (raiseIf_eq_ok.mp hstate))

theorem activateAccess_moves {confirm : Bool}
    (h : w.activateAccess casefold securityContractHash env confirm = .ok w') :
    Moves casefold securityContractHash w (.activate env confirm) w' := by
  unfold activateAccess at h
  obtain ⟨_, -, h⟩ := bind_eq_ok.mp h
  cases hpipeline : env.pipeline with
  | none =>
      rw [hpipeline] at h
      cases h
  | some pipeline =>
      rw [hpipeline] at h
      dsimp only at h
      have hsettles : Settles casefold securityContractHash w (.activate env confirm)
          (w.completeSecurityEncryption casefold securityContractHash env pipeline)
          (w.batch.state = .encrypting) :=
        completeSecurityEncryption_settles hpipeline (.inr ⟨confirm, rfl⟩)
      unfold Settles at hsettles
      cases hresult : (w.completeSecurityEncryption casefold securityContractHash env pipeline).result with
      | ok _ =>
          rw [hresult] at hsettles h
          cases h
          exact hsettles
      | error text =>
          rw [hresult] at h
          cases h

theorem advance_moves :
    Moves casefold securityContractHash w (.advance env) (w.advance casefold securityContractHash env) := by
  have hadvances : Advances casefold securityContractHash w env
      (w.advanceOne casefold securityContractHash env) := advanceOne_advances
  unfold Advances Settles at hadvances
  unfold advance
  dsimp only
  cases hresult : (w.advanceOne casefold securityContractHash env).result with
  | ok _ =>
      rw [hresult] at hadvances
      exact hadvances
  | error text =>
      rw [hresult] at hadvances
      exact .raised _ (hadvances trivial)

theorem Sm4State.isTerminal_of_hasSucceeded {j : Sm4State} (h : j.hasSucceeded = true) :
    j.isTerminal = true := by
  cases j <;> first | rfl | cases h

theorem map_triggerContext_modify (id : ℕ) (status : RunStatus) :
    (w.standardRuns.modify id (fun r => { r with status := status })).map StandardRun.triggerContext =
      w.standardRuns.map StandardRun.triggerContext := by
  refine List.ext_getElem? fun i => ?_
  rw [List.getElem?_map, List.getElem?_map, List.getElem?_modify]
  cases w.standardRuns[i]? with
  | none => rfl
  | some run =>
      by_cases hid : id = i
      · simp [hid]
      · simp [hid]

theorem works_jobProgress {id : ℕ} {j j' : Sm4State} (h : w.sm4Jobs[id]? = some j)
    (hactive : j.isTerminal = false) : Works w { w with sm4Jobs := w.sm4Jobs.set id j' } := by
  refine ⟨rfl, rfl, List.length_set, ?_, rfl⟩
  intro id' k hk hsucceeded
  rw [← hk]
  refine List.getElem?_set_ne ?_
  rintro rfl
  rw [h, Option.some.injEq] at hk
  rw [hk, Sm4State.isTerminal_of_hasSucceeded hsucceeded] at hactive
  cases hactive

/-- A step of a flow is a move. -/
theorem step_moves (h : w.step casefold securityContractHash a = some w') :
    Moves casefold securityContractHash w a w' := by
  unfold step at h
  cases a with
  | restoreProgress id task | syncProgress id status =>
      dsimp only at h
      split_ifs at h
      cases h
      exact .works ⟨rfl, rfl, rfl, fun _ _ hj _ => hj, rfl⟩
  | runProgress id status =>
      dsimp only at h
      split_ifs at h
      cases h
      refine .works ⟨rfl, rfl, rfl, fun _ _ hj _ => hj, ?_⟩
      exact map_triggerContext_modify id status
  | jobProgress id job =>
      dsimp only at h
      split_ifs at h with hactive
      cases h
      obtain ⟨j, hj, hterminal⟩ := (Option.any_eq_true _ _).mp hactive
      exact .works (works_jobProgress hj (of_decide_eq_true hterminal))
  | scan env dispatch stable =>
      cases h
      exact moves_request fun w' => scanBatch_moves
  | advance env =>
      dsimp only at h
      split_ifs at h
      cases h
      exact advance_moves
  | resume env =>
      cases h
      exact moves_request fun w' hw' => .resumed (resumeBatch_resumes hw')
  | submit env confirm =>
      cases h
      exact moves_request fun w' => submitEncryption_moves
  | activate env confirm =>
      cases h
      exact moves_request fun w' => activateAccess_moves
  | matched level =>
      cases h
      unfold matchBlueprint
      split <;> exact .rated _ (by decide)
  | confirmed =>
      cases h
      exact .rated .pathMatched (by decide)
  | prepared standardAssetId =>
      cases h
      unfold prepareOrchestration
      split_ifs with hstate
      · exact .prepared standardAssetId hstate
      · exact moves_rest

end Flow

end RecoveryService.DataAutomation
