import RecoveryService.AssistantExecution.Advance
import RecoveryService.DataAutomation.Batch

/-! # The batches of a pipeline

`confirm_plan` creates the batch of a plan when no batch of the pipeline is in flight, `resume`
takes a failed batch of a plan up again, and `scan_pipeline` creates a batch for every group of
files it has not seen.  A `Pipeline` is all the batches of one pipeline with the plans made for
it.

A confirmation locks its plan before it reads anything else.  What it reads of the batches is as
of its first read: the lock on the pipeline, which it takes later, does not bring that snapshot up
to date under repeatable reads, the level the database runs at. -/

namespace RecoveryService.AssistantExecution

open Runs

variable {F : Type} [DecidableEq F]

/-- What is done for a batch: the stages of a plan, or those of `_advance_one`. -/
inductive Work
  | assistant (plan : ℕ) (execution : Sys)
  | ordinary (state : DataAutomation.BatchState)

/-- `DataAutomationBatch`: the fingerprint of its files, and what is done for it. -/
structure Batch (F : Type) where
  fingerprint : F
  work : Work

/-- The state is not one of those in which nothing is in flight. -/
def BatchState.inFlight : BatchState → Bool
  | .failed | .completed => false
  | _ => true

namespace Work

/-- The state is none of `completed`, `failed`, `blocked`, `partial` and `cancelled`. -/
def inFlight : Work → Bool
  | assistant _ execution => execution.row.state.inFlight
  | ordinary state => !state.isTerminal

/-- `assistant_plan_id` of the context. -/
def plan? : Work → Option ℕ
  | assistant plan _ => some plan
  | ordinary _ => none

/-- A plan is in flight. -/
def assistantInFlight (work : Work) : Bool := work.plan?.isSome && work.inFlight

end Work

/-- `AssistantPlan`; `view` is what the transaction that has locked the plan sees of the batches. -/
structure Plan (F : Type) where
  fingerprint : F
  batch : Option ℕ := none
  view : Option (List (Batch F)) := none

/-- `entries` records, for every batch of a plan that was confirmed or resumed, whether no other
batch was in flight then. -/
structure Pipeline (F : Type) where
  plans : ℕ → Option (Plan F)
  batches : List (Batch F)
  entries : List Bool

inductive PipelineAction (F : Type)
  | prepare (plan : ℕ) (fingerprint : F)
  | lock (plan : ℕ)
  | abort (plan : ℕ)
  | confirm (plan : ℕ)
  | scan (fingerprint : F) (dispatch : Bool)
  | advance (i : ℕ) (state : DataAutomation.BatchState)
  | resumeBatch (i : ℕ) (state : DataAutomation.BatchState)
  | execute (i : ℕ) (action : Action)
  | resume (i : ℕ)

namespace Pipeline

variable (s : Pipeline F)

def setPlan (plan : ℕ) (value : Plan F) : Pipeline F :=
  { s with plans := fun other => if other = plan then some value else s.plans other }

/-- What is done for the `i`-th batch becomes `work`. -/
def setWork (i : ℕ) (work : Work) : Pipeline F :=
  { s with batches := s.batches.modify i fun batch => { batch with work := work } }

/-- No batch but the `i`-th is in flight. -/
def OthersIdle (i : ℕ) : Prop := ∀ batch ∈ s.batches.eraseIdx i, batch.work.inFlight = false

instance (i : ℕ) : Decidable (s.OthersIdle i) :=
  inferInstanceAs (Decidable (∀ batch ∈ s.batches.eraseIdx i, batch.work.inFlight = false))

/-- A batch of the pipeline has the fingerprint. -/
def Known (fingerprint : F) : Prop := fingerprint ∈ s.batches.map Batch.fingerprint

instance (fingerprint : F) : Decidable (s.Known fingerprint) :=
  inferInstanceAs (Decidable (fingerprint ∈ s.batches.map Batch.fingerprint))

end Pipeline

/-- The checks of `confirm_plan`: no batch is in flight, and none has the fingerprint. -/
def Admitted (view : List (Batch F)) (fingerprint : F) : Prop :=
  (∀ batch ∈ view, batch.work.inFlight = false) ∧ fingerprint ∉ view.map Batch.fingerprint

instance (view : List (Batch F)) (fingerprint : F) : Decidable (Admitted view fingerprint) :=
  inferInstanceAs (Decidable ((∀ batch ∈ view, batch.work.inFlight = false) ∧ _))

namespace Pipeline

variable (s : Pipeline F)

/-- The end of `confirm_plan`; `uq_data_automation_source` rejects a second batch for the same
files, and an error leaves the plan as it was. -/
def confirm (plan : ℕ) : Option (Pipeline F) :=
  match s.plans plan with
  | some ⟨fingerprint, none, some view⟩ =>
      if Admitted view fingerprint ∧ ¬ s.Known fingerprint then
        some { s.setPlan plan ⟨fingerprint, some s.batches.length, none⟩ with
          batches := s.batches ++ [⟨fingerprint, .assistant plan Sys.start⟩]
          entries := decide (s.OthersIdle s.batches.length) :: s.entries }
      else some (s.setPlan plan ⟨fingerprint, none, none⟩)
  | _ => none

/-- `scan_pipeline` for one group of files, whose batch it creates or finds stable. -/
def scan (fingerprint : F) (dispatch : Bool) : Pipeline F :=
  match s.batches.findIdx? fun batch => batch.fingerprint = fingerprint with
  | none => { s with batches := s.batches ++ [⟨fingerprint, .ordinary .stabilizing⟩] }
  | some i =>
      match s.batches[i]? with
      | some ⟨_, .ordinary .stabilizing⟩ =>
          s.setWork i (.ordinary (if dispatch then .restoreQueued else .discovered))
      | _ => s

/-- A batch without a plan goes to another state. -/
def move (i : ℕ) (state : DataAutomation.BatchState) : Option (Pipeline F) :=
  match s.batches[i]? with
  | some ⟨_, .ordinary _⟩ => some (s.setWork i (.ordinary state))
  | _ => none

/-- A transaction of the processes that advance the `i`-th batch, which is one of a plan. -/
def execute (i : ℕ) (action : Action) : Option (Pipeline F) :=
  match s.batches[i]? with
  | some ⟨_, .assistant plan execution⟩ =>
      if action = .resume then none
      else (step execution action).map fun execution => s.setWork i (.assistant plan execution)
  | _ => none

/-- `resume` of the plan of the `i`-th batch. -/
def resume (i : ℕ) : Option (Pipeline F) :=
  match s.batches[i]? with
  | some ⟨_, .assistant plan execution⟩ =>
      execution.resume.map fun execution =>
        { s.setWork i (.assistant plan execution) with
          entries := decide (s.OthersIdle i) :: s.entries }
  | _ => none

end Pipeline

/-- One transaction, or the first half of a confirmation. -/
def pipelineStep (s : Pipeline F) : PipelineAction F → Option (Pipeline F)
  | .prepare plan fingerprint =>
      match s.plans plan with
      | none => some (s.setPlan plan { fingerprint := fingerprint })
      | some _ => none
  | .lock plan =>
      match s.plans plan with
      | some ⟨fingerprint, none, none⟩ =>
          some (s.setPlan plan ⟨fingerprint, none, some s.batches⟩)
      | _ => none
  | .abort plan =>
      match s.plans plan with
      | some ⟨fingerprint, none, some _⟩ => some (s.setPlan plan ⟨fingerprint, none, none⟩)
      | _ => none
  | .confirm plan => s.confirm plan
  | .scan fingerprint dispatch => some (s.scan fingerprint dispatch)
  | .advance i state => s.move i state
  | .resumeBatch i state => s.move i state
  | .execute i action => s.execute i action
  | .resume i => s.resume i

/-- A pipeline without batches. -/
def Pipeline.start : Pipeline F := ⟨fun _ => none, [], []⟩

/-! ### What a pipeline promises -/

/-- The `i`-th batch is one of a plan, and in flight. -/
def Pipeline.Active (s : Pipeline F) (i : ℕ) : Prop :=
  ∃ batch, s.batches[i]? = some batch ∧ batch.work.assistantInFlight = true

/-- The `i`-th batch is one of the plan. -/
def Pipeline.Of (s : Pipeline F) (plan i : ℕ) : Prop :=
  ∃ batch, s.batches[i]? = some batch ∧ batch.work.plan? = some plan

/-- `single`: at most one batch of a plan is in flight; `alone`: a batch of a plan is confirmed or
resumed when no other batch is in flight; `planned`: a plan has at most one batch; `distinct`: no
two batches have the same files. -/
structure Pipeline.Exclusive (s : Pipeline F) : Prop where
  single : ∀ i j, s.Active i → s.Active j → i = j
  alone : ∀ entry ∈ s.entries, entry = true
  planned : ∀ plan i j, s.Of plan i → s.Of plan j → i = j
  distinct : (s.batches.map Batch.fingerprint).Nodup

/-- The action writes a state in flight whatever the row holds: the link of a child or the state
after a dispatch that raised. -/
def Sys.Overwrites (s : Sys) : Action → Prop
  | .submit p _ outcome =>
      (s.process p).pc = .claimed .restore ∧ outcome ≠ .refused ∧
        (s.process p).batch.state ≠ .queued .restore
  | .link p =>
      match (s.process p).pc with
      | .submitted stage _ => (s.process p).batch.state ≠ .queued stage
      | _ => False
  | .undo p => (s.process p).batch.state ≠ .submitting .restore
  | _ => False

namespace Pipeline

/-- Since the confirmation has read the batches, none has come into flight. -/
def Settled (s : Pipeline F) (view : List (Batch F)) : Prop :=
  ∀ i (h : i < s.batches.length), s.batches[i].work.inFlight = true →
    (view[i]?.any fun batch => batch.work.inFlight) = true

/-- No batch of a plan but the `i`-th is in flight. -/
def NoOther (s : Pipeline F) (i : ℕ) : Prop :=
  ∀ batch ∈ s.batches.eraseIdx i, batch.work.assistantInFlight = false

/-- What the confirmation of the plan has read is settled, if it goes through. -/
def ReadsSettled (s : Pipeline F) : Option (Plan F) → Prop
  | some ⟨fingerprint, none, some view⟩ =>
      Admitted view fingerprint ∧ ¬ s.Known fingerprint → s.Settled view
  | _ => True

/-- A batch of a plan that has ended is not written over while another is in flight. -/
def KeepsEnded (s : Pipeline F) (i : ℕ) (action : Action) : Option (Batch F) → Prop
  | some ⟨_, .assistant _ execution⟩ =>
      execution.row.state.inFlight = false → execution.Overwrites action → s.NoOther i
  | _ => True

end Pipeline

/-- No batch is resumed while another is in flight; a confirmation that goes through has read the
batches as they are; and a process that advances a batch does not overwrite that it has ended
while another batch of a plan is in flight. -/
def Orderly (s : Pipeline F) : PipelineAction F → Prop
  | .resume i => s.OthersIdle i
  | .confirm plan => s.ReadsSettled (s.plans plan)
  | .execute i action => s.KeepsEnded i action s.batches[i]?
  | _ => True

/-! ### Deciding it -/

section Decidable

variable (s : Pipeline F)

instance (i : ℕ) : Decidable (s.Active i) :=
  decidable_of_iff ((s.batches[i]?.any fun batch => batch.work.assistantInFlight) = true)
    (by rw [Option.any_eq_true]; rfl)

instance (i : ℕ) : Decidable (s.NoOther i) :=
  inferInstanceAs (Decidable (∀ batch ∈ s.batches.eraseIdx i,
    batch.work.assistantInFlight = false))

instance (view : List (Batch F)) : Decidable (s.Settled view) :=
  inferInstanceAs (Decidable (∀ i (_ : i < s.batches.length), _))

instance (execution : Sys) : (action : Action) → Decidable (execution.Overwrites action)
  | .submit p _ outcome =>
      inferInstanceAs (Decidable ((execution.process p).pc = .claimed .restore ∧
        outcome ≠ .refused ∧ (execution.process p).batch.state ≠ .queued .restore))
  | .link p =>
      match h : (execution.process p).pc with
      | .submitted stage _ =>
          decidable_of_iff ((execution.process p).batch.state ≠ .queued stage)
            (by rw [Sys.Overwrites, h])
      | .idle => .isFalse (by rw [Sys.Overwrites, h]; exact id)
      | .claimed _ => .isFalse (by rw [Sys.Overwrites, h]; exact id)
      | .linked _ => .isFalse (by rw [Sys.Overwrites, h]; exact id)
      | .dispatching _ => .isFalse (by rw [Sys.Overwrites, h]; exact id)
      | .refreshed => .isFalse (by rw [Sys.Overwrites, h]; exact id)
  | .undo p =>
      inferInstanceAs (Decidable ((execution.process p).batch.state ≠ .submitting .restore))
  | .read _ => .isFalse id
  | .claim _ => .isFalse id
  | .prepare _ _ => .isFalse id
  | .refresh _ => .isFalse id
  | .dispatched _ => .isFalse id
  | .offline _ => .isFalse id
  | .consume _ => .isFalse id
  | .raises _ => .isFalse id
  | .crash _ => .isFalse id
  | .resume => .isFalse id
  | .progress _ _ => .isFalse id

instance : (plan : Option (Plan F)) → Decidable (s.ReadsSettled plan)
  | some ⟨fingerprint, none, some view⟩ =>
      inferInstanceAs (Decidable (Admitted view fingerprint ∧ ¬ s.Known fingerprint →
        s.Settled view))
  | some ⟨_, none, none⟩ => .isTrue trivial
  | some ⟨_, some _, _⟩ => .isTrue trivial
  | none => .isTrue trivial

instance (i : ℕ) (action : Action) : (batch : Option (Batch F)) →
    Decidable (s.KeepsEnded i action batch)
  | some ⟨_, .assistant _ execution⟩ =>
      inferInstanceAs (Decidable (execution.row.state.inFlight = false →
        execution.Overwrites action → s.NoOther i))
  | some ⟨_, .ordinary _⟩ => .isTrue trivial
  | none => .isTrue trivial

instance : (a : PipelineAction F) → Decidable (Orderly s a)
  | .resume i => inferInstanceAs (Decidable (s.OthersIdle i))
  | .confirm plan => inferInstanceAs (Decidable (s.ReadsSettled (s.plans plan)))
  | .execute i action => inferInstanceAs (Decidable (s.KeepsEnded i action s.batches[i]?))
  | .prepare _ _ => .isTrue trivial
  | .lock _ => .isTrue trivial
  | .abort _ => .isTrue trivial
  | .scan _ _ => .isTrue trivial
  | .advance _ _ => .isTrue trivial
  | .resumeBatch _ _ => .isTrue trivial

end Decidable

end RecoveryService.AssistantExecution
