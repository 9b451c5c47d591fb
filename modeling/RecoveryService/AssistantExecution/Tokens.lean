import RecoveryService.AssistantExecution.Advance

/-! # Who may go on with the batch

At any time at most one party may go on with the batch at one stage: the row, when its state is
ready or waits for a child or can be resumed, or the process that has claimed the stage and has
not written the state after the submission yet (`Inv`).  The party knows that the earlier stages
have succeeded, that the later ones have not begun and which child of its stage may run
(`Holds`).  A transaction hands this on, or loses it, unless it writes over a row it has not
read; hence a batch that is only treated so keeps its promises (`Sound`). -/

namespace RecoveryService.AssistantExecution

open Runs

namespace Sys

/-- The stage has no child that has not ended. -/
def Quiet (s : Sys) (stage : Stage) : Prop := ∀ id, ¬ s.Running stage id

/-- What is known where the batch goes on at a stage: of its children only those of `own` may
run, and it may be submitted while it was submitted at most `more` times beyond its resumes. -/
structure Holds (s : Sys) (stage : Stage) (own : ℕ → Prop) (more : ℕ) : Prop where
  earlier : ∀ other, other.rank < stage.rank → s.succeeded other = true ∧ s.Quiet other
  later : ∀ other, stage.rank < other.rank → s.submitted other = 0 ∧ s.Quiet other
  own : ∀ id, s.Running stage id → own id
  bounded : s.submitted stage ≤ s.resumed stage + more

/-- The batch goes on from its row. -/
structure RowHolds (s : Sys) : Prop where
  ready : ∀ stage, s.row.state = .ready stage → s.Holds stage (fun _ => False) 0
  queued : ∀ stage, s.row.state = .queued stage →
    s.Holds stage (fun id => s.row.child stage = some id) 1
  failed : ∀ stage, s.row.FailedAt stage → s.Holds stage (fun _ => False) 1

/-- The batch goes on in a process. -/
structure ProcessHolds (s : Sys) (p : ℕ) : Prop where
  claimed : ∀ stage, (s.process p).pc = .claimed stage →
    s.Holds stage (fun _ => False) 0 ∧ (s.process p).batch.state = .submitting stage
  linked : ∀ id, (s.process p).pc = .linked id → s.Holds .standard (fun _ => False) 0 ∧
    s.row.child .standard = some id ∧ (s.process p).batch.state = .submitting .standard
  submitted : ∀ stage id, (s.process p).pc = .submitted stage id → s.Holds stage (· = id) 1 ∧
    (stage = .standard → s.row.child .standard = some id) ∧
      (s.process p).batch.state = .submitting stage

end Sys

/-- The process may go on with the batch. -/
def Pc.Holding : Pc → Prop
  | .claimed _ | .linked _ | .submitted _ _ => True
  | .idle | .dispatching _ | .refreshed => False

/-- The row does not let the batch go on. -/
def Row.Loose (row : Row) : Prop :=
  (∃ stage, row.state = .submitting stage) ∨ row.state = .failed ∧ ∀ stage, ¬ row.FailedAt stage

/-- The batch keeps its promises, and at most one party may go on with it. -/
structure Inv (s : Sys) : Prop extends s.Sound where
  rowHolds : s.RowHolds
  processHolds : ∀ p, s.ProcessHolds p
  exclusive : ∀ p, (s.process p).pc.Holding →
    s.row.Loose ∧ ∀ q, (s.process q).pc.Holding → q = p

/-! ### Small facts -/

variable {s s' : Sys} {p : ℕ} {stage : Stage} {own : ℕ → Prop} {more : ℕ}

namespace Row

variable {row : Row}

theorem Loose.not_ready (h : row.Loose) (stage : Stage) : row.state ≠ .ready stage := by
  obtain ⟨_, h⟩ | ⟨h, -⟩ := h <;> simp [h]

theorem Loose.not_queued (h : row.Loose) (stage : Stage) : row.state ≠ .queued stage := by
  obtain ⟨_, h⟩ | ⟨h, -⟩ := h <;> simp [h]

theorem Loose.not_completed (h : row.Loose) : row.state ≠ .completed := by
  obtain ⟨_, h⟩ | ⟨h, -⟩ := h <;> simp [h]

theorem Loose.not_failedAt (h : row.Loose) (stage : Stage) : ¬ row.FailedAt stage := by
  obtain ⟨_, h⟩ | ⟨-, h⟩ := h
  · intro hf
    rw [hf.1] at h
    cases h
  · exact h stage

end Row

namespace Stage

theorem rank_lt_of_next {next : Stage} (h : stage.next = some next) : stage.rank < next.rank := by
  cases stage <;> cases h <;> decide

/-- Nothing lies between a stage and the next one. -/
theorem rank_lt_next_iff {next : Stage} (h : stage.next = some next) (other : Stage) :
    other.rank < next.rank ↔ other = stage ∨ other.rank < stage.rank := by
  cases stage <;> cases h <;> (revert other; decide)

theorem rank_le_of_next_none (h : stage.next = none) (other : Stage) :
    other = stage ∨ other.rank < stage.rank := by
  obtain rfl : stage = .encryption := by
    cases stage <;> first | rfl | cases h
  cases other <;> decide

theorem rank_previous {previous : Stage} (h : stage.previous = some previous) : previous.rank < stage.rank := by
  cases stage <;> cases h <;> decide

end Stage

namespace Sys

@[simp] theorem set_process_same (s : Sys) (p : ℕ) (x : Process) : (s.set p x).process p = x := by
  simp [set]

theorem set_process_ne (s : Sys) {p q : ℕ} (x : Process) (h : q ≠ p) : (s.set p x).process q = s.process q := by
  simp [set, h]

theorem set_process_pc (s : Sys) (p : ℕ) (x : Process) : ((s.set p x).process p).pc = x.pc := by
  simp

@[simp] theorem set_row (s : Sys) (p : ℕ) (x : Process) : (s.set p x).row = s.row := rfl

theorem succeeded_iff : s.succeeded stage = true ↔
    ∃ id c, s.row.child stage = some id ∧ s.children id = some c ∧ c.status = .succeeded := by
  unfold succeeded
  rw [Option.any_eq_true]
  constructor
  · rintro ⟨c, hc, hs⟩
    obtain ⟨id, hid, hc⟩ := Option.bind_eq_some_iff.mp hc
    exact ⟨id, c, hid, hc, by simpa using hs⟩
  · rintro ⟨id, c, hid, hc, hs⟩
    exact ⟨c, by rw [hid]; exact hc, by simpa using hs⟩

/-- Children may have ended; the row records the same ones, and nothing else has happened. -/
structure Frame (s s' : Sys) : Prop where
  child : s'.row.child = s.row.child
  succeeded : ∀ stage, s.succeeded stage = true → s'.succeeded stage = true
  running : ∀ stage id, s'.Running stage id → s.Running stage id
  submissions : s'.submissions = s.submissions
  resumes : s'.resumes = s.resumes

namespace Frame

theorem of_children (hchild : s'.row.child = s.row.child) (hchildren : s'.children = s.children)
    (hsubmissions : s'.submissions = s.submissions) (hresumes : s'.resumes = s.resumes) : Frame s s' := by
  refine ⟨hchild, fun stage h => ?_, fun stage id h => ?_, hsubmissions, hresumes⟩
  · unfold Sys.succeeded
    rw [hchild, hchildren]
    exact h
  · unfold Sys.Running at h ⊢
    rw [hchildren] at h
    exact h

variable (h : Frame s s')

include h

theorem submitted (stage : Stage) : s'.submitted stage = s.submitted stage := by
  unfold Sys.submitted
  rw [h.submissions]

theorem resumed (stage : Stage) : s'.resumed stage = s.resumed stage := by
  unfold Sys.resumed
  rw [h.resumes]

theorem quiet (hs : s.Quiet stage) : s'.Quiet stage := fun id hid => hs id (h.running stage id hid)

theorem holds (hs : s.Holds stage own more) : s'.Holds stage own more := by
  constructor
  · intro other hother
    obtain ⟨hsucceeded, hquiet⟩ := hs.earlier other hother
    exact ⟨h.succeeded other hsucceeded, h.quiet hquiet⟩
  · intro other hother
    rw [h.submitted]
    obtain ⟨hnone, hquiet⟩ := hs.later other hother
    exact ⟨hnone, h.quiet hquiet⟩
  · intro id hid
    exact hs.own id (h.running stage id hid)
  · rw [h.submitted, h.resumed]
    exact hs.bounded

theorem sound (hs : s.Sound) (hcompleted : s'.row.state = .completed →
    ∀ stage, s.succeeded stage = true) : s'.Sound := by
  constructor
  · intro stage
    rw [h.submitted, h.resumed]
    exact hs.bounded stage
  · rw [h.submissions]
    exact hs.ordered
  · intro hstate stage
    exact h.succeeded stage (hcompleted hstate stage)
  · intro stage id id' hid hid'
    exact hs.single stage id id' (h.running stage id hid) (h.running stage id' hid')

theorem rowHolds (hrow : s'.row = s.row) (hs : s.RowHolds) : s'.RowHolds := by
  constructor
  · intro stage hstate
    rw [hrow] at hstate
    exact h.holds (hs.ready stage hstate)
  · intro stage hstate
    rw [hrow] at hstate ⊢
    exact h.holds (hs.queued stage hstate)
  · intro stage hfailed
    rw [hrow] at hfailed
    exact h.holds (hs.failed stage hfailed)

theorem processHolds {q : ℕ} (hprocess : s'.process q = s.process q) (hs : s.ProcessHolds q) :
    s'.ProcessHolds q := by
  constructor
  · intro stage hpc
    rw [hprocess] at hpc ⊢
    exact ⟨h.holds (hs.claimed stage hpc).1, (hs.claimed stage hpc).2⟩
  · intro id hpc
    rw [hprocess] at hpc ⊢
    rw [h.child]
    exact ⟨h.holds (hs.linked id hpc).1, (hs.linked id hpc).2⟩
  · intro stage id hpc
    rw [hprocess] at hpc ⊢
    rw [h.child]
    exact ⟨h.holds (hs.submitted stage id hpc).1, (hs.submitted stage id hpc).2⟩

end Frame

theorem Holds.set (h : s.Holds stage own more) (p : ℕ) (x : Process) : (s.set p x).Holds stage own more :=
  ⟨h.earlier, h.later, h.own, h.bounded⟩

/-- A process that does not hold the batch knows nothing about it. -/
theorem ProcessHolds.of_not_holding (h : ¬ (s.process p).pc.Holding) : s.ProcessHolds p := by
  constructor
  · intro stage hpc
    rw [hpc] at h
    exact absurd trivial h
  · intro id hpc
    rw [hpc] at h
    exact absurd trivial h
  · intro stage id hpc
    rw [hpc] at h
    exact absurd trivial h

/-- A loose row holds nothing. -/
theorem RowHolds.of_loose (h : s.row.Loose) : s.RowHolds :=
  ⟨fun stage hstate => absurd hstate (h.not_ready stage),
    fun stage hstate => absurd hstate (h.not_queued stage),
    fun stage hfailed => absurd hfailed (h.not_failedAt stage)⟩

end Sys

/-! ### Handing the batch on -/

namespace Inv

theorem start : Inv Sys.start := by
  have hquiet : ∀ stage, Sys.start.Quiet stage := by
    intro stage id hid
    cases hid
  constructor
  · constructor
    · exact fun stage => Nat.zero_le _
    · exact fun submission hs => absurd hs List.not_mem_nil
    · exact fun hstate => absurd hstate (by decide)
    · exact fun stage id _ hid _ => absurd hid (hquiet stage id)
  · constructor
    · intro stage hstate
      obtain rfl : Stage.restore = stage := by simpa [Sys.start, Row.confirmed] using hstate
      refine ⟨fun other hother => absurd hother (by simp [Stage.rank]),
        fun other _ => ⟨rfl, hquiet other⟩, fun id hid => hquiet .restore id hid, Nat.zero_le _⟩
    · exact fun stage hstate => absurd hstate (by simp [Sys.start, Row.confirmed])
    · exact fun stage hfailed => absurd hfailed.1 (by simp [Sys.start, Row.confirmed])
  · exact fun p => Sys.ProcessHolds.of_not_holding (fun h => h)
  · exact fun p hp => absurd hp (fun h => h)

/-- A row that is not loose leaves no process the batch. -/
theorem not_holding (h : Inv s) (hrow : ¬ s.row.Loose) (q : ℕ) : ¬ (s.process q).pc.Holding :=
  fun hq => hrow (h.exclusive q hq).1

variable {x : Process}

/-- A process changes its copy, or drops the batch. -/
theorem release (h : Inv s) (hx : ¬ x.pc.Holding) : Inv (s.set p x) := by
  have hframe : Sys.Frame s (s.set p x) := .of_children rfl rfl rfl rfl
  have hne : ∀ q, ((s.set p x).process q).pc.Holding → q ≠ p := by
    rintro q hq rfl
    rw [Sys.set_process_same] at hq
    exact hx hq
  refine ⟨hframe.sound h.toSound fun hstate => h.completed hstate,
    hframe.rowHolds rfl h.rowHolds, fun q => ?_, fun q hq => ?_⟩
  · by_cases hq : q = p
    · refine Sys.ProcessHolds.of_not_holding ?_
      rw [hq, Sys.set_process_same]
      exact hx
    · exact hframe.processHolds (Sys.set_process_ne s x hq) (h.processHolds q)
  · have hqp := hne q hq
    rw [Sys.set_process_ne s x hqp] at hq
    refine ⟨(h.exclusive q hq).1, fun q' hq' => ?_⟩
    have hqp' := hne q' hq'
    rw [Sys.set_process_ne s x hqp'] at hq'
    exact (h.exclusive q hq).2 q' hq'

/-- The row is written so that it does not let the batch go on. -/
theorem loosen (h : Inv s) {row : Row} (hchild : row.child = s.row.child) (hloose : row.Loose)
    (hx : ¬ x.pc.Holding) : Inv ({ s with row := row }.set p x) := by
  refine release (s := { s with row := row }) ?_ hx
  have hframe : Sys.Frame s { s with row := row } := .of_children hchild rfl rfl rfl
  exact ⟨hframe.sound h.toSound fun hstate => absurd hstate hloose.not_completed,
    Sys.RowHolds.of_loose hloose, fun q => hframe.processHolds rfl (h.processHolds q),
    fun q hq => ⟨hloose, (h.exclusive q hq).2⟩⟩

/-- The row is written so that it lets the batch go on, and no other process may. -/
theorem toRow {t : Sys} (hx : ¬ x.pc.Holding) (honly : ∀ q, (t.process q).pc.Holding → q = p) (hsound : t.Sound)
    (hholds : t.RowHolds) : Inv (t.set p x) := by
  have hnone : ∀ q, ¬ ((t.set p x).process q).pc.Holding := by
    intro q hq
    by_cases hqp : q = p
    · rw [hqp, Sys.set_process_same] at hq
      exact hx hq
    · rw [Sys.set_process_ne t x hqp] at hq
      exact hqp (honly q hq)
  have hframe : Sys.Frame t (t.set p x) := .of_children rfl rfl rfl rfl
  exact ⟨hframe.sound hsound hsound.completed, hframe.rowHolds rfl hholds,
    fun q => Sys.ProcessHolds.of_not_holding (hnone q), fun q hq => absurd hq (hnone q)⟩

/-- The process may go on with the batch, and nothing else may. -/
theorem toProcess {t : Sys} (honly : ∀ q, (t.process q).pc.Holding → q = p) (hsound : t.Sound)
    (hloose : t.row.Loose) (hholds : (t.set p x).ProcessHolds p) : Inv (t.set p x) := by
  have hq : ∀ q, ((t.set p x).process q).pc.Holding → q = p := by
    intro q hq
    by_cases hqp : q = p
    · exact hqp
    · rw [Sys.set_process_ne t x hqp] at hq
      exact honly q hq
  have hframe : Sys.Frame t (t.set p x) := .of_children rfl rfl rfl rfl
  refine ⟨hframe.sound hsound hsound.completed, Sys.RowHolds.of_loose hloose, fun q => ?_,
    fun q hheld => ⟨hloose, fun q' hheld' => (hq q' hheld').trans (hq q hheld).symm⟩⟩
  by_cases hheld : ((t.set p x).process q).pc.Holding
  · rw [hq q hheld]
    exact hholds
  · exact Sys.ProcessHolds.of_not_holding hheld

end Inv

/-! ### Submitting and linking -/

namespace Sys

theorem record_submitted (s : Sys) (stage other : Stage) :
    (s.record stage).submitted other = s.submitted other + if stage = other then 1 else 0 := by
  unfold submitted record
  rw [List.countP_cons]
  congr 1
  by_cases h : stage = other <;> simp [h]

theorem create_running {id : ℕ} (other : Stage) (i : ℕ) :
    (s.create id stage).Running other i ↔ i = id ∧ other = stage ∨ i ≠ id ∧ s.Running other i := by
  unfold Running create
  by_cases h : i = id <;> simp [h, eq_comm]

theorem create_succeeded {id : ℕ} (hfresh : s.children id = none) {other : Stage}
    (h : s.succeeded other = true) : (s.create id stage).succeeded other = true := by
  obtain ⟨i, c, hi, hc, hs⟩ := succeeded_iff.mp h
  refine succeeded_iff.mpr ⟨i, c, hi, ?_, hs⟩
  have hne : i ≠ id := by
    rintro rfl
    rw [hfresh] at hc
    cases hc
  simp only [create, if_neg hne]
  exact hc

theorem Holds.record (h : s.Holds stage own more) : (s.record stage).Holds stage own (more + 1) := by
  have hbounded := h.bounded
  refine ⟨h.earlier, fun other hother => ?_, h.own, ?_⟩
  · have hne : stage ≠ other := by
      rintro rfl
      omega
    rw [record_submitted, if_neg hne]
    exact h.later other hother
  · rw [record_submitted, if_pos rfl]
    show s.submitted stage + 1 ≤ s.resumed stage + (more + 1)
    omega

theorem Sound.record (h : s.Sound) (hholds : s.Holds stage own 0) : (s.record stage).Sound := by
  have hbounded := hholds.bounded
  refine ⟨fun other => ?_, fun submission hs => ?_, h.completed, h.single⟩
  · rw [record_submitted]
    show _ ≤ 1 + s.resumed other
    by_cases hother : stage = other
    · subst hother
      rw [if_pos rfl]
      omega
    · rw [if_neg hother]
      exact h.bounded other
  · obtain rfl | hs := List.mem_cons.mp hs
    · show stage.previous.all s.succeeded = true
      cases hprevious : stage.previous with
      | none => rfl
      | some previous => exact (hholds.earlier previous (Stage.rank_previous hprevious)).1
    · exact h.ordered submission hs

theorem Holds.create {id : ℕ} (h : s.Holds stage (fun _ => False) more)
    (hfresh : s.children id = none) : (s.create id stage).Holds stage (· = id) more := by
  have hquiet : ∀ other, other.rank ≠ stage.rank → s.Quiet other →
      (s.create id stage).Quiet other := by
    intro other hne hother i hi
    obtain ⟨-, rfl⟩ | ⟨-, hi⟩ := (create_running other i).mp hi
    · exact hne rfl
    · exact hother i hi
  refine ⟨fun other hother => ?_, fun other hother => ?_, fun i hi => ?_, h.bounded⟩
  · obtain ⟨hs, hq⟩ := h.earlier other hother
    exact ⟨create_succeeded hfresh hs, hquiet other (by omega) hq⟩
  · obtain ⟨hnone, hq⟩ := h.later other hother
    exact ⟨hnone, hquiet other (by omega) hq⟩
  · obtain ⟨hi, -⟩ | ⟨-, hi⟩ := (create_running stage i).mp hi
    · exact hi
    · exact (h.own i hi).elim

theorem Sound.create {id : ℕ} (h : s.Sound) (hquiet : s.Quiet stage)
    (hfresh : s.children id = none) : (s.create id stage).Sound := by
  refine ⟨h.bounded, h.ordered, fun hstate other => ?_, fun other i i' hi hi' => ?_⟩
  · exact create_succeeded hfresh (h.completed hstate other)
  · rw [create_running] at hi hi'
    obtain ⟨rfl, rfl⟩ | ⟨hne, hi⟩ := hi
    · obtain ⟨rfl, -⟩ | ⟨-, hi'⟩ := hi'
      · rfl
      · exact absurd hi' (hquiet i')
    · obtain ⟨rfl, rfl⟩ | ⟨-, hi'⟩ := hi'
      · exact absurd hi (hquiet i)
      · exact h.single other i i' hi hi'

/-- Linking a child of the stage keeps what is known there. -/
theorem Holds.link {row : Row} (h : s.Holds stage own more)
    (hchild : ∀ other, other ≠ stage → row.child other = s.row.child other) :
    Sys.Holds { s with row := row } stage own more := by
  refine ⟨fun other hother => ?_, h.later, h.own, h.bounded⟩
  have hne : other ≠ stage := by
    rintro rfl
    omega
  obtain ⟨hs, hq⟩ := h.earlier other hother
  refine ⟨?_, hq⟩
  show ((row.child other).bind s.children).any (fun c => c.status = .succeeded) = true
  rw [hchild other hne]
  exact hs

theorem Sound.write {row : Row} (h : s.Sound) (hstate : row.state ≠ .completed) :
    Sys.Sound { s with row := row } :=
  ⟨h.bounded, h.ordered, fun hcompleted => absurd hcompleted hstate, h.single⟩

end Sys

namespace Inv

variable {id : ℕ}

/-- The process that holds a stage submits it. -/
theorem submitTo (h : Inv s) (hholding : (s.process p).pc.Holding)
    (hholds : s.Holds stage (fun _ => False) 0) (hfresh : s.children id = none)
    (hlinked : stage = .standard → s.row.child .standard = some id)
    (hbatch : (s.process p).batch.state = .submitting stage) (outcome : Outcome) :
    Inv (s.submitTo p stage id outcome) := by
  obtain ⟨hloose, honly⟩ := h.exclusive p hholding
  have hsound := h.toSound.record hholds
  have hquiet : (s.record stage).Quiet stage := fun i hi => hholds.own i hi
  cases outcome with
  | refused =>
      refine toProcess honly hsound hloose (Sys.ProcessHolds.of_not_holding ?_)
      rw [Sys.set_process_same]
      exact fun hheld => hheld
  | lost =>
      refine toProcess honly (hsound.create hquiet hfresh) hloose
        (Sys.ProcessHolds.of_not_holding ?_)
      rw [Sys.set_process_same]
      exact fun hheld => hheld
  | taken =>
      refine toProcess honly (hsound.create hquiet hfresh) hloose ⟨?_, ?_, ?_⟩
      · intro other hpc
        simp at hpc
      · intro other hpc
        simp at hpc
      · intro other i hpc
        rw [Sys.set_process_same] at hpc ⊢
        obtain ⟨rfl, rfl⟩ := Pc.submitted.inj hpc
        have hcreated : ((s.record stage).create id stage).Holds stage (· = id) 1 :=
          hholds.record.create hfresh
        exact ⟨hcreated.set _ _, hlinked, hbatch⟩

/-- The process that has submitted a stage writes the row. -/
theorem linkTo (h : Inv s) (hpc : (s.process p).pc = .submitted stage id) {pc : Pc}
    (hidle : ¬ pc.Holding) (resumeFromStage : Option ResumeFrom) :
    Inv (s.linkTo p pc stage id resumeFromStage) := by
  obtain ⟨hholds, hlinked, hbatch⟩ := (h.processHolds p).submitted stage id hpc
  have hholding : (s.process p).pc.Holding := by
    rw [hpc]
    trivial
  obtain ⟨-, honly⟩ := h.exclusive p hholding
  have hstate : written (s.process p).batch.state (.queued stage) s.row.state = .queued stage := by
    refine written_of_ne ?_ _
    rw [hbatch]
    exact fun heq => by cases heq
  -- The row as it is written.
  obtain ⟨row, hrow⟩ : ∃ row, row = (s.row.linkSubmitted stage id).commit (s.process p).batch
    (.queued stage) resumeFromStage := ⟨_, rfl⟩
  have hqueued : row.state = .queued stage := by
    rw [hrow]
    show written _ _ (s.row.linkSubmitted stage id).state = _
    rw [Row.linkSubmitted_state, hstate]
  have hchild : row.child stage = some id := by
    rw [hrow]
    exact Row.linkSubmitted_child_same s.row hlinked
  have hother : ∀ other, other ≠ stage → row.child other = s.row.child other := by
    intro other hne
    rw [hrow]
    exact Row.linkSubmitted_child_ne s.row hne
  have hinv : Inv ({ s with row := row }.set p ⟨pc, { (s.process p).batch.linkSubmitted stage id with
      state := .queued stage
      resumeFromStage := resumeFromStage }⟩) := by
    refine toRow hidle honly (h.toSound.write ?_) ⟨fun other ht => ?_, fun other ht => ?_,
      fun other ht => ?_⟩
    · rw [hqueued]
      exact fun heq => by cases heq
    · rw [show ({ s with row := row } : Sys).row = row from rfl, hqueued] at ht
      cases ht
    · rw [show ({ s with row := row } : Sys).row = row from rfl, hqueued] at ht
      cases ht
      have hheld := hholds.link hother
      refine ⟨hheld.earlier, hheld.later, fun i hi => ?_, hheld.bounded⟩
      obtain rfl := hheld.own i hi
      exact hchild
    · have hfailed : row.state = .failed := ht.1
      rw [hqueued] at hfailed
      cases hfailed
  rw [hrow] at hinv
  exact hinv

/-- The process that has claimed the standard stage records the run it will submit. -/
theorem prepare (h : Inv s) (hpc : (s.process p).pc = .claimed .standard) :
    Inv ({ s with row := s.row.linkChild .standard id }.set p
      ⟨.linked id, (s.process p).batch.linkChild .standard id⟩) := by
  obtain ⟨hholds, hbatch⟩ := (h.processHolds p).claimed .standard hpc
  have hholding : (s.process p).pc.Holding := by
    rw [hpc]
    trivial
  obtain ⟨hloose, honly⟩ := h.exclusive p hholding
  have hchildren : ∀ other, other ≠ .standard →
      (s.row.linkChild .standard id).child other = s.row.child other :=
    fun other hother => s.row.linkChild_child_ne hother
  have hlinked := hholds.link hchildren
  refine toProcess honly (h.toSound.write hloose.not_completed) hloose ⟨?_, ?_, ?_⟩
  · intro other hpc'
    simp at hpc'
  · intro i hpc'
    rw [Sys.set_process_same] at hpc' ⊢
    cases hpc'
    exact ⟨hlinked.set _ _, Row.linkChild_child_same _ _ _, hbatch⟩
  · intro other i hpc'
    simp at hpc'

/-- A claim: the row is ready, so that no process holds the batch. -/
theorem claim (h : Inv s) (stage : Stage) :
    Inv (s.claim p (.ready stage) (.submitting stage) (.claimed stage)) := by
  unfold Sys.claim
  split_ifs with hstate
  · have hnone := h.not_holding fun hloose => hloose.not_ready stage hstate
    have hframe : Sys.Frame s { s with row := { s.row with state := .submitting stage } } :=
      Sys.Frame.of_children rfl rfl rfl rfl
    refine toProcess (fun q hq => absurd hq (hnone q)) (h.toSound.write fun heq => by cases heq)
      (Or.inl ⟨stage, rfl⟩) ⟨?_, ?_, ?_⟩
    · intro other hpc'
      rw [Sys.set_process_same] at hpc' ⊢
      cases hpc'
      exact ⟨(hframe.holds (h.rowHolds.ready stage hstate)).set _ _, rfl⟩
    · intro i hpc'
      simp at hpc'
    · intro other i hpc'
      simp at hpc'
  · exact h.release fun hheld => hheld

end Inv

/-! ### Consuming an outcome -/

namespace Sys

/-- The recorded child of the stage has succeeded, so none of its children runs. -/
theorem Holds.succeeded {id : ℕ} {c : Child} (h : s.Holds stage (fun i => s.row.child stage = some i) more)
    (hchild : s.row.child stage = some id) (hc : s.children id = some c)
    (hstatus : c.status = .succeeded) : s.succeeded stage = true ∧ s.Quiet stage := by
  refine ⟨succeeded_iff.mpr ⟨id, c, hchild, hc, hstatus⟩, fun i hi => ?_⟩
  have heq := h.own i hi
  rw [hchild, Option.some.injEq] at heq
  subst heq
  rw [Running, hc, Option.some.injEq] at hi
  rw [hi] at hstatus
  cases hstatus

theorem Holds.mono {more' : ℕ} (h : s.Holds stage own more) (hle : more ≤ more') : s.Holds stage own more' :=
  ⟨h.earlier, h.later, h.own, h.bounded.trans (Nat.add_le_add_left hle _)⟩

/-- The stage has succeeded: the batch goes on at the next one, or is completed. -/
theorem Holds.next {next : Stage} (h : s.Holds stage own more)
    (hstage : s.succeeded stage = true ∧ s.Quiet stage) (hnext : stage.next = some next) :
    s.Holds next (fun _ => False) 0 := by
  have hlt := Stage.rank_lt_of_next hnext
  refine ⟨fun other hother => ?_, fun other hother => h.later other (hlt.trans hother),
    fun id hid => (h.later next hlt).2 id hid, ?_⟩
  · obtain rfl | hother := (Stage.rank_lt_next_iff hnext other).mp hother
    · exact hstage
    · exact h.earlier other hother
  · rw [(h.later next hlt).1]
    exact Nat.zero_le _

theorem Holds.last (h : s.Holds stage own more) (hstage : s.succeeded stage = true)
    (hnext : stage.next = none) (other : Stage) : s.succeeded other = true := by
  obtain rfl | hother := Stage.rank_le_of_next_none hnext other
  · exact hstage
  · exact (h.earlier other hother).1

/-- The recorded child does not run. -/
theorem Holds.quiet (h : s.Holds stage (fun i => s.row.child stage = some i) more)
    (hnot : ∀ id, s.row.child stage = some id → ¬ s.Running stage id) : s.Holds stage (fun _ => False) more :=
  ⟨h.earlier, h.later, fun i hi => hnot i (h.own i hi) hi, h.bounded⟩

theorem consumed_eq_some {id : ℕ} {status : Status} (h : s.consumed p = some (stage, id, status)) :
    (s.process p).batch.state = .queued stage ∧ (s.process p).batch.child stage = some id ∧
      ∃ c, s.children id = some c ∧ c.status = status := by
  unfold consumed at h
  split at h
  · rename_i st hstate
    obtain ⟨i, hi, hc⟩ := Option.bind_eq_some_iff.mp h
    obtain ⟨c, hc', heq⟩ := Option.map_eq_some_iff.mp hc
    obtain ⟨rfl, rfl, rfl⟩ : st = stage ∧ i = id ∧ c.status = status := by simpa using heq
    exact ⟨hstate, hi, c, hc', rfl⟩
  · cases h

end Sys

namespace Inv

variable {id : ℕ}

/-- The claim of the state after a stage, by a process that has read a child that succeeded. -/
theorem claimNext (h : Inv s) {c : Child} (hc : s.children id = some c) (hstatus : c.status = .succeeded)
    (hcurrent : s.row.state = .queued stage → s.row.child stage = some id) :
    Inv (s.claim p (.queued stage) (Row.stateAfter stage) .idle) := by
  unfold Sys.claim
  split_ifs with hstate
  · have hnone := h.not_holding fun hloose => hloose.not_queued stage hstate
    have hholds := h.rowHolds.queued stage hstate
    have hstage := hholds.succeeded (hcurrent hstate) hc hstatus
    have hframe : Sys.Frame s { s with row := { s.row with state := Row.stateAfter stage } } :=
      Sys.Frame.of_children rfl rfl rfl rfl
    refine toRow (fun hheld => hheld) (fun q hq => absurd hq (hnone q)) ?_ ?_
    · refine hframe.sound h.toSound fun hcompleted => ?_
      cases hnext : stage.next with
      | none => exact hholds.last hstage.1 hnext
      | some next =>
          have hready : Row.stateAfter stage = .completed := hcompleted
          rw [Row.stateAfter, hnext] at hready
          cases hready
    · cases hnext : stage.next with
      | none =>
          have hafter : Row.stateAfter stage = .completed := by rw [Row.stateAfter, hnext]
          rw [hafter]
          exact ⟨fun _ ht => (by cases ht), fun _ ht => (by cases ht), fun _ ht => (by cases ht.1)⟩
      | some next =>
          have hafter : Row.stateAfter stage = .ready next := by rw [Row.stateAfter, hnext]
          rw [hafter] at hframe ⊢
          refine ⟨fun other ht => ?_, fun _ ht => (by cases ht), fun _ ht => (by cases ht.1)⟩
          cases ht
          exact hframe.holds (hholds.next hstage hnext)
  · exact h.release fun hheld => hheld

/-- The batch is failed over the row the process has read. -/
theorem failOver (h : Inv s) (hrow : s.row = (s.process p).batch)
    (honly : ∀ q, (s.process q).pc.Holding → q = p) (hholds : s.Holds stage (fun _ => False) 1)
    {batch : Row} (hstate : batch.state = .failed)
    (hresume : batch.resumeFromStage = some (.stage stage)) : Inv (s.commit p .idle batch) := by
  unfold Sys.commit Row.commit
  rw [← hrow, hstate, hresume, written_self, written_self]
  have hframe : Sys.Frame s { s with row := { s.row with
      state := .failed
      resumeFromStage := some (.stage stage) } } := Sys.Frame.of_children rfl rfl rfl rfl
  refine toRow (fun hheld => hheld) honly (h.toSound.write fun heq => by cases heq)
    ⟨fun _ ht => (by cases ht), fun _ ht => (by cases ht), fun other ht => ?_⟩
  obtain rfl : stage = other := by simpa using ht.2
  exact hframe.holds hholds

/-- The batch is failed once more where it has been failed already. -/
theorem failAgain (h : Inv s) (hrow : s.row.FailedAt stage) {batch : Row}
    (hstate : batch.state = .failed) (hresume : batch.resumeFromStage = some (.stage stage)) :
    Inv (s.commit p .idle batch) := by
  unfold Sys.commit Row.commit
  rw [hstate, hresume, ← hrow.1, ← hrow.2, written_same, written_same]
  exact h.release fun hheld => hheld

/-- `_failed` at a stage. -/
theorem failed (h : Inv s) (hcurrent : s.row = (s.process p).batch ∨ s.row.FailedAt stage)
    (hholds : s.row = (s.process p).batch → ¬ s.row.Loose ∧ s.Holds stage (fun _ => False) 1) :
    Inv (s.commit p .idle ((s.process p).batch.failed stage)) := by
  obtain hrow | hrow := hcurrent
  · obtain ⟨hloose, hholds⟩ := hholds hrow
    exact h.failOver hrow (fun q hq => absurd hq (h.not_holding hloose q)) hholds rfl rfl
  · exact h.failAgain hrow rfl rfl

theorem consume (h : Inv s) (hcareful : s.Current p (s.consumed p)) (hs : s.consume p = some s') : Inv s' := by
  unfold Sys.consume at hs
  split at hs
  · obtain rfl := Option.some.inj hs
    exact h
  · rename_i stage id hconsumed
    rw [hconsumed] at hcareful
    obtain ⟨-, -, c, hc, hstatus⟩ := Sys.consumed_eq_some hconsumed
    obtain rfl := Option.some.inj hs
    exact h.claimNext hc hstatus hcareful
  · rename_i stage id status hrunning hsucceeded hconsumed
    obtain ⟨hstate, hchild, c, hc, hstatus⟩ := Sys.consumed_eq_some hconsumed
    obtain rfl := Option.some.inj hs
    refine h.failed ?_ fun hrow => ?_
    · rw [hconsumed] at hcareful
      cases status with
      | running => exact absurd rfl hrunning
      | succeeded => exact absurd rfl hsucceeded
      | failed | unnamed => exact hcareful
    · rw [← hrow] at hstate hchild
      refine ⟨fun hloose => hloose.not_queued stage hstate,
        (h.rowHolds.queued stage hstate).quiet fun i hi hrun => ?_⟩
      rw [hchild, Option.some.injEq] at hi
      subst hi
      rw [Sys.Running, hc, Option.some.injEq] at hrun
      rw [hrun] at hstatus
      exact hrunning hstatus.symm
  · cases hs

/-- A row that waits at a stage, with no child of it running, may as well be failed there. -/
theorem rowAt (h : Inv s) (hfailed : s.row.state ≠ .failed)
    (hsubmitting : ∀ stage, s.row.state ≠ .submitting stage) (hstage : s.row.state.stage? = some stage)
    (hnot : ∀ id, s.row.child stage = some id → ¬ s.Running stage id) :
    ¬ s.row.Loose ∧ s.Holds stage (fun _ => False) 1 := by
  refine ⟨?_, ?_⟩
  · rintro (⟨other, hstate⟩ | ⟨hstate, -⟩)
    · exact hsubmitting other hstate
    · exact hfailed hstate
  · cases hstate : s.row.state with
    | ready other =>
        rw [hstate] at hstage
        obtain rfl : other = stage := Option.some.inj hstage
        exact (h.rowHolds.ready other hstate).mono (Nat.zero_le 1)
    | submitting other => exact absurd hstate (hsubmitting other)
    | queued other =>
        rw [hstate] at hstage
        obtain rfl : other = stage := Option.some.inj hstage
        exact (h.rowHolds.queued other hstate).quiet hnot
    | failed => exact absurd hstate hfailed
    | completed =>
        rw [hstate] at hstage
        cases hstage

/-- The handler of `advance_batches`. -/
theorem raises (h : Inv s) (hraising : Sys.Raising (s.process p)) (hcareful : Careful s (.raises p)) :
    Inv (s.commit p .idle (s.process p).batch.stageFailed) := by
  have hstate : (s.process p).batch.state ≠ .failed := by
    obtain hpc | ⟨-, hstate, -⟩ := hraising
    · rw [((h.processHolds p).claimed .standard hpc).2]
      exact fun heq => by cases heq
    · exact hstate
  have hfailed : written (s.process p).batch.state .failed s.row.state = .failed :=
    written_of_ne (Ne.symm hstate) _
  by_cases hstage : ∃ stage, written (s.process p).batch.resumeFromStage
      (s.process p).batch.stageFailed.resumeFromStage s.row.resumeFromStage = some (.stage stage)
  · -- Nothing was written, so that the row and the copy name the stage.
    obtain ⟨stage, hstage⟩ := hstage
    cases hloaded : (s.process p).batch.resumeFromStage with
    | none =>
        rw [Row.stageFailed, hloaded, Option.none_or, written_of_ne (by simp)] at hstage
        cases hstage
    | some loaded =>
        have hkept : (s.process p).batch.stageFailed.resumeFromStage = some loaded := by
          rw [Row.stageFailed, hloaded, Option.some_or]
        rw [hloaded, hkept, written_loaded] at hstage
        obtain ⟨hrow, hstate?, hnot⟩ := hcareful (by simp [hloaded]) stage hstage
        have hresume : (s.process p).batch.stageFailed.resumeFromStage = some (.stage stage) := by
          rw [hkept, ← hloaded, ← hrow, hstage]
        obtain hpc | ⟨-, -, hsubmitting⟩ := hraising
        · obtain ⟨hholds, hbatch⟩ := (h.processHolds p).claimed .standard hpc
          rw [hrow, hbatch] at hstate?
          obtain rfl : Stage.standard = stage := Option.some.inj hstate?
          refine h.failOver hrow (h.exclusive p ?_).2 (hholds.mono (Nat.zero_le 1)) rfl hresume
          rw [hpc]
          trivial
        · rw [← hrow] at hsubmitting hstate
          obtain ⟨hloose, hholds⟩ := h.rowAt hstate hsubmitting hstate? hnot
          exact h.failOver hrow (fun q hq => absurd hq (h.not_holding hloose q)) hholds rfl hresume
  · refine h.loosen ?_ (Or.inr ⟨hfailed, fun stage hrow => hstage ⟨stage, hrow.2⟩⟩) ?_
    · rfl
    · exact fun hheld => hheld

/-- After a dispatch that raised: the row is left `submitting`, or as it is when it was so. -/
theorem undo (h : Inv s) : Inv (s.commit p .idle
    { (s.process p).batch with state := .submitting .restore }) := by
  unfold Sys.commit Row.commit
  rw [written_loaded]
  by_cases hloaded : (s.process p).batch.state = .submitting .restore
  · rw [hloaded, written_loaded]
    exact h.release fun hheld => hheld
  · rw [written_of_ne (Ne.symm hloaded)]
    refine h.loosen ?_ (Or.inl ⟨.restore, rfl⟩) ?_
    · rfl
    · exact fun hheld => hheld

/-- A failed stage is made ready again. -/
theorem resume (h : Inv s) (hs : s.resume = some s') : Inv s' := by
  unfold Sys.resume at hs
  split at hs
  · rename_i stage hstate hresume
    obtain rfl := Option.some.inj hs
    have hrow : s.row.FailedAt stage := ⟨hstate, hresume⟩
    have hnone := h.not_holding fun hloose => hloose.not_failedAt stage hrow
    have hholds := h.rowHolds.failed stage hrow
    have hbounded := hholds.bounded
    refine ⟨⟨fun other => ?_, h.ordered, fun heq => (by cases heq), h.single⟩,
      ⟨fun other heq => ?_, fun _ heq => (by cases heq), fun _ heq => (by cases heq.1)⟩,
      fun q => .of_not_holding (hnone q), fun q hq => absurd hq (hnone q)⟩
    · have hother := h.bounded other
      have hle : s.resumed other ≤ (stage :: s.resumes).count other := List.count_le_count_cons
      show s.submitted other ≤ 1 + (stage :: s.resumes).count other
      omega
    · cases heq
      refine ⟨hholds.earlier, hholds.later, hholds.own, ?_⟩
      show s.submitted stage ≤ (stage :: s.resumes).count stage + 0
      rw [List.count_cons_self]
      exact hbounded
  · cases hs

/-- A child ends. -/
theorem progress {status : Status} (h : Inv s) (hs : s.progress id status = some s') : Inv s' := by
  unfold Sys.progress at hs
  split at hs
  · rename_i stage hc
    split_ifs at hs with hended
    obtain rfl := Option.some.inj hs
    have hframe : Sys.Frame s { s with
        children := fun i => if i = id then some ⟨stage, status⟩ else s.children i } := by
      refine ⟨rfl, fun other hother => ?_, fun other i hi => ?_, rfl, rfl⟩
      · obtain ⟨i, c, hi, hci, hstatus⟩ := Sys.succeeded_iff.mp hother
        refine Sys.succeeded_iff.mpr ⟨i, c, hi, ?_, hstatus⟩
        have hne : i ≠ id := by
          rintro rfl
          rw [hc, Option.some.injEq] at hci
          rw [← hci] at hstatus
          cases hstatus
        exact (if_neg hne).trans hci
      · unfold Sys.Running at hi
        by_cases hid : i = id
        · simp only [hid, if_pos, Option.some.injEq, Child.mk.injEq] at hi
          exact absurd hi.2 hended.1
        · simp only [if_neg hid] at hi
          exact hi
    exact ⟨hframe.sound h.toSound h.completed, hframe.rowHolds rfl h.rowHolds,
      fun q => hframe.processHolds rfl (h.processHolds q), h.exclusive⟩
  · cases hs

theorem submit {outcome : Outcome} (h : Inv s)
    (hs : AssistantExecution.step s (.submit p id outcome) = some s') : Inv s' := by
  simp only [AssistantExecution.step] at hs
  split_ifs at hs with hfresh
  split at hs
  · rename_i hpc
    obtain rfl := Option.some.inj hs
    obtain ⟨hholds, hbatch⟩ := (h.processHolds p).claimed .restore hpc
    have hholding : (s.process p).pc.Holding := by
      rw [hpc]
      trivial
    have hsubmit := h.submitTo hholding hholds hfresh (fun heq => by cases heq) hbatch .taken
    have hdispatching : ¬ (Pc.dispatching true).Holding := fun hheld => hheld
    have hsent := hsubmit.linkTo (Sys.set_process_pc _ _ _) hdispatching none
    cases outcome with
    | refused =>
        obtain ⟨hloose, honly⟩ := h.exclusive p hholding
        refine toProcess honly (h.toSound.record hholds) hloose (Sys.ProcessHolds.of_not_holding ?_)
        rw [Sys.set_process_same]
        exact fun hheld => hheld
    | lost | taken => exact hsent
  · cases hs
  · rename_i stage _ hstage hpc
    obtain rfl := Option.some.inj hs
    obtain ⟨hholds, hbatch⟩ := (h.processHolds p).claimed stage hpc
    refine h.submitTo ?_ hholds hfresh (fun heq => ?_) hbatch outcome
    · rw [hpc]
      trivial
    · exact absurd heq hstage
  · rename_i run hpc
    split_ifs at hs with hrun
    subst hrun
    obtain rfl := Option.some.inj hs
    obtain ⟨hholds, hlinked, hbatch⟩ := (h.processHolds p).linked run hpc
    refine h.submitTo ?_ hholds hfresh (fun _ => hlinked) hbatch outcome
    rw [hpc]
    trivial
  · cases hs

/-- A transaction of a careful run. -/
theorem step {a : Action} (h : Inv s) (hcareful : Careful s a)
    (hs : AssistantExecution.step s a = some s') : Inv s' := by
  cases a with
  | read p | dispatched p =>
      simp only [AssistantExecution.step] at hs
      split_ifs at hs
      obtain rfl := Option.some.inj hs
      exact h.release fun hheld => hheld
  | claim p =>
      simp only [AssistantExecution.step] at hs
      split at hs
      · obtain rfl := Option.some.inj hs
        exact h.claim _
      · cases hs
  | prepare p id =>
      simp only [AssistantExecution.step] at hs
      split_ifs at hs with hpc
      obtain rfl := Option.some.inj hs
      exact h.prepare hpc.1
  | submit p id outcome => exact h.submit hs
  | link p =>
      simp only [AssistantExecution.step] at hs
      split at hs
      · rename_i stage id hpc
        obtain rfl := Option.some.inj hs
        have hidle : ¬ Pc.idle.Holding := fun hheld => hheld
        exact h.linkTo hpc hidle _
      · cases hs
  | refresh p =>
      simp only [AssistantExecution.step] at hs
      split at hs
      · obtain rfl := Option.some.inj hs
        exact h.release fun hheld => hheld
      · cases hs
  | undo p =>
      simp only [AssistantExecution.step] at hs
      split_ifs at hs with hpc
      obtain rfl := Option.some.inj hs
      exact h.undo
  | offline p =>
      simp only [AssistantExecution.step] at hs
      split_ifs at hs with hready
      obtain rfl := Option.some.inj hs
      refine h.failed hcareful fun hrow => ?_
      rw [← hrow] at hready
      exact ⟨fun hloose => hloose.not_ready .standard hready.2,
        (h.rowHolds.ready .standard hready.2).mono (Nat.zero_le 1)⟩
  | consume p =>
      simp only [AssistantExecution.step] at hs
      split_ifs at hs
      exact h.consume hcareful hs
  | raises p =>
      simp only [AssistantExecution.step] at hs
      split_ifs at hs with hraising
      obtain rfl := Option.some.inj hs
      exact h.raises hraising hcareful
  | crash p =>
      obtain rfl := Option.some.inj hs
      exact h.release fun hheld => hheld
  | resume => exact h.resume hs
  | progress id status => exact h.progress hs

end Inv

/-! ### Every run -/

/-- A run whose steps are all careful keeps the promises of the batch. -/
theorem sound_of_careful {s : Sys} {actions : List Action}
    (h : Run step Careful Sys.start actions s) : s.Sound :=
  (h.invariant Inv.start fun _ _ _ hcareful hs hinv => hinv.step hcareful hs).toSound

/-- The run of one process whose standard stage fails once and is resumed, while another process
reads the failure too. -/
def resumedRun : List Action :=
  [.read 0, .claim 0, .submit 0 0 .taken, .dispatched 0, .progress 0 .succeeded,
    .read 0, .consume 0, .claim 0, .submit 0 1 .taken, .link 0, .progress 1 .succeeded,
    .read 0, .consume 0, .claim 0, .prepare 0 2, .submit 0 2 .taken, .link 0, .progress 2 .failed,
    .read 1, .read 0, .consume 0, .consume 1, .resume,
    .read 1, .claim 1, .prepare 1 3, .submit 1 3 .taken, .link 1, .progress 3 .succeeded,
    .consume 1, .claim 1, .submit 1 4 .taken, .link 1, .progress 4 .succeeded, .consume 1]

theorem resumedRun_completed : ∃ s, Run step Careful Sys.start resumedRun s ∧ s.Sound ∧
    s.row.state = .completed ∧ s.submitted .standard = 2 := by
  have hrun : ∃ s, Run step Careful Sys.start resumedRun s ∧
      s.row.state = .completed ∧ s.submitted .standard = 2 := exists_run (by decide)
  obtain ⟨s, hrun, hstate, hsubmitted⟩ := hrun
  exact ⟨s, hrun, sound_of_careful hrun, hstate, hsubmitted⟩

/-- The failure of a child is consumed over the row as it was read, so that it fails the batch
again after it was resumed: two restore tasks run at the same time. -/
theorem stale_failure_resubmits : ∃ actions s, Run step Free Sys.start actions s ∧ ¬ s.Sound := by
  have hrun : ∃ s, Run step Free Sys.start
      [.read 0, .claim 0, .submit 0 0 .taken, .dispatched 0, .progress 0 .failed, .read 1,
        .read 0, .consume 0, .resume, .read 0, .claim 0, .submit 0 1 .taken, .dispatched 0,
        .consume 1, .resume, .read 0, .claim 0, .submit 0 2 .taken] s ∧
      s.Running .restore 1 ∧ s.Running .restore 2 := exists_run (by decide)
  obtain ⟨s, hrun, hfirst, hsecond⟩ := hrun
  exact ⟨_, s, hrun, fun hsound => by cases hsound.single .restore 1 2 hfirst hsecond⟩

end RecoveryService.AssistantExecution
