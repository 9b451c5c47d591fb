import RecoveryService.AssistantExecution.Advance
import RecoveryService.DataAutomation.Resumable

/-! # What users do to a batch

`match_batch_blueprint`, `confirm_batch_blueprint`, `resume_batch` and
`activate_security_orchestration_access` assign the state of a batch without a look at the one it
has, whether the batch is one of a scan or of an assistant plan.  An operation should keep a
batch completed, should not take a batch away from a child that still runs, and should leave a
batch that is not over where `_advance_one` or `scan_pipeline` go on with it (`Respected`).
`operation_respected_iff` says for which batches each operation does. -/

namespace RecoveryService.DataAutomation

open Checks Runs

variable (casefold : String → String) (securityContractHash : CoverageContract → String → ℕ → String)
  (env : Surroundings)

/-! ### Batches of assistant plans -/

/-- The states of the batch of a plan: its own, and those the operations write. -/
inductive AssistedState
  | own (state : AssistantExecution.BatchState)
  | awaitingConfirmation
  | pathMatched
  | blocked
deriving DecidableEq

/-- The batch of a plan, with the children its row names. -/
structure Assisted where
  state : AssistedState
  restoreTask : Option (ℕ × RestoreState) := none
  syncRun : Option (ℕ × RunStatus) := none
  standardRun : Option (ℕ × RunStatus) := none
  sm4Job : Option (ℕ × Sm4State) := none

namespace Assisted

/-- `match_batch_blueprint`. -/
def matchBlueprint (a : Assisted) (level : Flow.BlueprintMatch) : Assisted :=
  match level with
  | .high true => { a with state := .pathMatched }
  | .noCandidate | .high false | .medium => { a with state := .awaitingConfirmation }
  | .low => { a with state := .blocked }

/-- `confirm_batch_blueprint`. -/
def confirmBlueprint (a : Assisted) : Assisted := { a with state := .pathMatched }

/-- `_complete_security_encryption`; the context of a plan has no flow mode, so that the batch is not
protected. -/
def completeSecurityEncryption (a : Assisted) (pipeline : Pipeline) : Except String Assisted :=
  match a.sm4Job with
  | none => .error "关联 SM4 加密批次不存在。"
  | some (_, job) =>
      if job ∈ [.queued, .reserved, .running] then .ok a
      else if job.hasSucceeded = false then .ok { a with state := .own .failed }
      else (Flow.activateViews env pipeline).map fun _ => { a with state := .own .completed }

/-- `activate_security_orchestration_access`. -/
def activateAccess (a : Assisted) (confirm : Bool) : Except String Assisted := do
  raiseIf (confirm = false) "激活安全访问会切换 Doris 下游账号的逻辑访问别名，必须显式确认。"
  match env.pipeline with
  | none => .error "业务数据批次或流水线不存在。"
  | some pipeline => a.completeSecurityEncryption env pipeline

end Assisted

/-! ### The operations -/

/-- A batch of a scan or of a plan. -/
inductive Owned
  | ordinary (w : Flow)
  | assistant (a : Assisted)

/-- `level` is `none` where the batch has no schema, `found` whether the batch and the blueprint
belong together. -/
inductive Operation
  | matchBlueprint (level : Option Flow.BlueprintMatch)
  | confirmBlueprint (found : Bool)
  | resumeBatch
  | activateAccess (confirm : Bool)

/-- An operation, which is rolled back when it raises. -/
def operate : Operation → Owned → Except String Owned
  | .matchBlueprint none, _ => .error "批次尚无可用于路径匹配的 Schema 结构。"
  | .matchBlueprint (some level), .ordinary w => .ok (.ordinary (w.matchBlueprint level))
  | .matchBlueprint (some level), .assistant a => .ok (.assistant (a.matchBlueprint level))
  | .confirmBlueprint false, _ => .error "批次或蓝图不存在。"
  | .confirmBlueprint true, .ordinary w => .ok (.ordinary w.confirmBlueprint)
  | .confirmBlueprint true, .assistant a => .ok (.assistant a.confirmBlueprint)
  | .resumeBatch, .ordinary w =>
      (w.resumeBatch casefold securityContractHash env).map .ordinary
  | .resumeBatch, .assistant _ =>
      .error "助手批次请从智能助手核对后继续，不能绕过计划确认。"
  | .activateAccess confirm, .ordinary w =>
      (w.activateAccess casefold securityContractHash env confirm).map .ordinary
  | .activateAccess confirm, .assistant a => (a.activateAccess env confirm).map .assistant

/-! ### Where a batch stands -/

inductive ChildKind
  | restore
  | sync
  | standardize
  | encrypt

/-- `current` is the child whose outcome `_advance_one` waits for, `busy` whether that has not
ended, and `settled` whether the batch is over or some function goes on with it. -/
structure Standing where
  completed : Bool
  current : Option (ChildKind × ℕ)
  busy : Bool
  settled : Bool

/-- What an operation has to respect. -/
structure Respected (before after : Standing) : Prop where
  completed : before.completed = true → after.completed = true
  consumed : before.busy = true → after.current = before.current
  settled : after.settled = true

/-- The batch is neither completed nor waits for a child. -/
def Standing.Free (standing : Standing) : Prop :=
  standing.completed = false ∧ standing.busy = false

instance (standing : Standing) : Decidable standing.Free :=
  inferInstanceAs (Decidable (_ ∧ _))

namespace Flow

variable (w : Flow)

/-- The child `_advance_one` looks at. -/
def currentChild : Option (ChildKind × ℕ) :=
  match w.batch.state with
  | .restoreQueued | .restoring => w.batch.restoreTaskId.map (.restore, ·)
  | .syncQueued | .syncing => w.batch.syncRunId.map (.sync, ·)
  | .standardizeQueued | .standardizing => w.batch.standardRunId.map (.standardize, ·)
  | .encrypting => w.batch.encryptionBatchId.map (.encrypt, ·)
  | _ => none

/-- The child is there and has not ended. -/
def executing : ChildKind × ℕ → Bool
  | (.restore, id) => w.restoreTasks[id]?.any fun task => !task.state.isTerminal
  | (.sync, id) => w.syncRuns[id]?.any fun status => !status.isTerminal
  | (.standardize, id) => w.standardRuns[id]?.any fun run => !run.status.isTerminal
  | (.encrypt, id) => w.sm4Jobs[id]?.any fun job => !job.isTerminal

/-- The batch is over, `scan_pipeline` waits for its files, or `_advance_one` has a branch for it. -/
def Settled (batch : Batch) : Prop :=
  batch.state.isTerminal = true ∨ batch.state = .stabilizing ∨ Handled batch

instance (batch : Batch) : Decidable (Settled batch) :=
  inferInstanceAs (Decidable (_ ∨ _ ∨ _))

def standing : Standing :=
  { completed := w.batch.state = .completed
    current := w.currentChild
    busy := w.currentChild.any w.executing
    settled := Settled w.batch }

/-- The batches that may be resumed: where a stage is started again, those that are free; where
the batch is set back to a stage, those for which that is one to go on from. -/
def MayResume : Prop :=
  if w.resumeStage ∈ restartStages then w.standing.Free
  else (w.batch.state = .completed → w.resumeStage = .completed) ∧
    (w.standing.busy = true → w.resumeStage = w.batch.state) ∧
      Settled { w.batch with state := w.resumeStage }

instance : Decidable w.MayResume := by
  unfold MayResume
  infer_instance

end Flow

namespace Assisted

variable (a : Assisted)

def currentChild : Option (ChildKind × ℕ) :=
  match a.state with
  | .own (.queued .restore) => a.restoreTask.map (.restore, ·.1)
  | .own (.queued .sync) => a.syncRun.map (.sync, ·.1)
  | .own (.queued .standard) => a.standardRun.map (.standardize, ·.1)
  | .own (.queued .encryption) => a.sm4Job.map (.encrypt, ·.1)
  | _ => none

def executing : ChildKind × ℕ → Bool
  | (.restore, _) => a.restoreTask.any fun task => !task.2.isTerminal
  | (.sync, _) => a.syncRun.any fun run => !run.2.isTerminal
  | (.standardize, _) => a.standardRun.any fun run => !run.2.isTerminal
  | (.encrypt, _) => a.sm4Job.any fun job => !job.2.isTerminal

/-- The batch is over, or `advance` has a branch for it; a stage whose submission is not known to
have succeeded has none. -/
def Settled : AssistedState → Prop
  | .own (.ready _) | .own (.queued _) | .own .failed | .own .completed | .blocked => True
  | .own (.submitting _) | .awaitingConfirmation | .pathMatched => False

instance : (state : AssistedState) → Decidable (Settled state)
  | .own (.ready _) | .own (.queued _) | .own .failed | .own .completed | .blocked => .isTrue trivial
  | .own (.submitting _) | .awaitingConfirmation | .pathMatched => .isFalse id

def standing : Standing :=
  { completed := a.state = .own .completed
    current := a.currentChild
    busy := a.currentChild.any a.executing
    settled := Settled a.state }

end Assisted

namespace Owned

def standing : Owned → Standing
  | ordinary w => w.standing
  | assistant a => a.standing

/-- The SM4 job the row names. -/
def job : Owned → Option Sm4State
  | ordinary w => w.job
  | assistant a => a.sm4Job.map (·.2)

def isProtected : Owned → Bool
  | ordinary w => w.batch.isProtected
  | assistant _ => false

/-- The batches whose access may be activated, by their SM4 job. -/
def MayActivate (b : Owned) : Prop :=
  match b.job with
  | none => True
  | some job =>
      if job ∈ [.queued, .reserved, .running] then b.standing.settled = true
      else if job.hasSucceeded = true then
        b.standing.busy = false ∧ (b.isProtected = true → b.standing.completed = false)
      else b.standing.Free

/-- The batches an operation does no harm to. -/
def Admits (b : Owned) : Operation → Prop
  | .matchBlueprint (some .low) => b.standing.Free
  | .matchBlueprint _ => False
  | .confirmBlueprint _ => False
  | .resumeBatch =>
      match b with
      | ordinary w => w.MayResume
      | assistant _ => False
  | .activateAccess _ => b.MayActivate

end Owned

end RecoveryService.DataAutomation
