import RecoveryService.AssistantExecution.Confirm

/-! # One batch of a plan at a time

Whatever the order of confirmations, scans, resumptions and executions, a plan has one batch and a
group of files has one (`Registered`).  That no more than one batch of a plan is in flight is kept
exactly by the transactions that are `Orderly`: `resume` does not look at the other batches, a
confirmation looks at a snapshot of them, and a process may write over a row that has ended. -/

namespace RecoveryService.AssistantExecution

open Runs

/-! ### A batch of a plan that has ended -/

section Ended

variable {s s' : Sys}

theorem written_inFlight {loaded new current : BatchState} (hend : current.inFlight = false)
    (hnew : new.inFlight = false) : (written loaded new current).inFlight = false := by
  unfold written
  split_ifs
  · exact hend
  · exact hnew

theorem written_inFlight_iff {loaded new current : BatchState} (hend : current.inFlight = false)
    (hnew : new.inFlight = true) : (written loaded new current).inFlight = true ↔ loaded ≠ new := by
  unfold written
  split_ifs with h
  · simp [hend, h]
  · simp [hnew, Ne.symm h]

theorem claim_inFlight {p : ℕ} {original next : BatchState} {pc : Pc}
    (hend : s.row.state.inFlight = false) (horiginal : original.inFlight = true) :
    (s.claim p original next pc).row.state.inFlight = false := by
  unfold Sys.claim
  rw [if_neg]
  · exact hend
  · rintro rfl
    rw [horiginal] at hend
    cases hend

theorem submitTo_row (s : Sys) (p : ℕ) (stage : Stage) (id : ℕ) (outcome : Outcome) :
    (s.submitTo p stage id outcome).row = s.row := by
  cases outcome <;> rfl

theorem submitTo_batch (s : Sys) (p : ℕ) (stage : Stage) (id : ℕ) (outcome : Outcome) :
    ((s.submitTo p stage id outcome).process p).batch = (s.process p).batch := by
  cases outcome <;> simp [Sys.submitTo, Sys.set]

theorem linkTo_inFlight_iff {p : ℕ} {pc : Pc} {stage : Stage} {id : ℕ}
    {resumeFromStage : Option ResumeFrom} (hend : s.row.state.inFlight = false) :
    (s.linkTo p pc stage id resumeFromStage).row.state.inFlight = true ↔
      (s.process p).batch.state ≠ .queued stage := by
  have hrow : (s.linkTo p pc stage id resumeFromStage).row.state =
      written (s.process p).batch.state (.queued stage) s.row.state := by
    show written _ _ (s.row.linkSubmitted stage id).state = _
    rw [Row.linkSubmitted_state]
  rw [hrow]
  exact written_inFlight_iff hend rfl

/-- What `advance` writes over a batch that has ended leaves it so, except where it writes the
state after a submission. -/
theorem inFlight_step_iff {a : Action} (hs : step s a = some s') (ha : a ≠ .resume)
    (hend : s.row.state.inFlight = false) : s'.row.state.inFlight = true ↔ s.Overwrites a := by
  -- The other transactions leave the batch as it has ended.
  have hother : s'.row.state.inFlight = false → ¬ s.Overwrites a →
      (s'.row.state.inFlight = true ↔ s.Overwrites a) := by
    intro hend' hnot
    rw [hend']
    exact iff_of_false (fun h => by cases h) hnot
  cases a with
  | read p | prepare p id' | dispatched p =>
      simp only [step] at hs
      split_ifs at hs
      obtain rfl := Option.some.inj hs
      exact hother hend id
  | claim p =>
      simp only [step] at hs
      split at hs
      · obtain rfl := Option.some.inj hs
        exact hother (claim_inFlight hend rfl) id
      · cases hs
  | submit p id' outcome =>
      simp only [step] at hs
      split_ifs at hs
      split at hs
      · rename_i hpc
        obtain rfl := Option.some.inj hs
        have hsent : ((s.submitTo p .restore id' .taken).linkTo p (.dispatching true) .restore id'
            none).row.state.inFlight = true ↔ _ := linkTo_inFlight_iff hend
        rw [submitTo_batch] at hsent
        cases outcome with
        | refused => exact hother hend fun h => h.2.1 rfl
        | lost | taken => exact hsent.trans ⟨fun h => ⟨hpc, by decide, h⟩, fun h => h.2.2⟩
      · cases hs
      · rename_i stage hrestore _ hpc
        obtain rfl := Option.some.inj hs
        refine hother ?_ ?_
        · rw [submitTo_row]
          exact hend
        · rintro ⟨hpc', -⟩
          rw [hpc] at hpc'
          exact hrestore (Pc.claimed.inj hpc')
      · rename_i run hpc
        split_ifs at hs
        obtain rfl := Option.some.inj hs
        refine hother ?_ ?_
        · rw [submitTo_row]
          exact hend
        · rintro ⟨hpc', -⟩
          rw [hpc] at hpc'
          cases hpc'
      · cases hs
  | link p =>
      simp only [step] at hs
      split at hs
      · rename_i stage id' hpc
        obtain rfl := Option.some.inj hs
        rw [linkTo_inFlight_iff hend, Sys.Overwrites, hpc]
      · cases hs
  | refresh p =>
      simp only [step] at hs
      split at hs
      · obtain rfl := Option.some.inj hs
        exact hother hend id
      · cases hs
  | undo p =>
      simp only [step] at hs
      split_ifs at hs
      obtain rfl := Option.some.inj hs
      exact written_inFlight_iff hend rfl
  | offline p | raises p =>
      simp only [step] at hs
      split_ifs at hs
      obtain rfl := Option.some.inj hs
      exact hother (written_inFlight hend rfl) id
  | consume p =>
      simp only [step] at hs
      split_ifs at hs
      unfold Sys.consume at hs
      split at hs
      · obtain rfl := Option.some.inj hs
        exact hother hend id
      · obtain rfl := Option.some.inj hs
        exact hother (claim_inFlight hend rfl) id
      · obtain rfl := Option.some.inj hs
        exact hother (written_inFlight hend rfl) id
      · cases hs
  | crash p =>
      obtain rfl := Option.some.inj hs
      exact hother hend id
  | resume => exact absurd rfl ha
  | progress id' status =>
      simp only [step] at hs
      unfold Sys.progress at hs
      split at hs
      · split_ifs at hs
        obtain rfl := Option.some.inj hs
        exact hother hend id
      · cases hs

end Ended

/-! ### Lists of batches -/

section Lists

variable {α : Type} {p : α → Prop} {l : List α}

theorem exists_getElem?_concat {x : α} {j : ℕ} : (∃ b, (l ++ [x])[j]? = some b ∧ p b) ↔
      (∃ b, l[j]? = some b ∧ p b) ∨ j = l.length ∧ p x := by
  rw [List.getElem?_append]
  split_ifs with hj
  · simp [hj.ne]
  · rw [List.getElem?_eq_none (not_lt.mp hj)]
    by_cases h : j = l.length
    · simp [h]
    · have hpos : j - l.length ≠ 0 := by omega
      obtain ⟨k, hk⟩ := Nat.exists_eq_succ_of_ne_zero hpos
      simp [h, hk]

theorem exists_getElem?_modify {f : α → α} {i j : ℕ} : (∃ b, (l.modify i f)[j]? = some b ∧ p b) ↔
      ∃ b, l[j]? = some b ∧ p (if i = j then f b else b) := by
  rw [List.getElem?_modify]
  cases l[j]? with
  | none => simp
  | some x => by_cases h : i = j <;> simp [h]

end Lists

/-! ### What every run keeps -/

variable {F : Type} {s s' : Pipeline F}

/-- The batches have different files, and a plan with a batch names it. -/
structure Registered (s : Pipeline F) : Prop where
  distinct : (s.batches.map Batch.fingerprint).Nodup
  recorded : ∀ plan i, s.Of plan i → ∃ x, s.plans plan = some x ∧ x.batch = some i

namespace Registered

theorem exclusive (h : Registered s) (hsingle : ∀ i j, s.Active i → s.Active j → i = j)
    (halone : ∀ entry ∈ s.entries, entry = true) : s.Exclusive := by
  refine ⟨hsingle, halone, fun plan i j hi hj => ?_, h.distinct⟩
  obtain ⟨x, hx, hbatch⟩ := h.recorded plan i hi
  obtain ⟨x', hx', hbatch'⟩ := h.recorded plan j hj
  rw [hx, Option.some.injEq] at hx'
  rw [← hx', hbatch, Option.some.injEq] at hbatch'
  exact hbatch'

/-- A plan without a batch changes. -/
theorem setPlan (h : Registered s) {plan : ℕ} {value : Plan F}
    (hnone : ∀ x, s.plans plan = some x → x.batch = none) : Registered (s.setPlan plan value) := by
  refine ⟨h.distinct, fun other i hi => ?_⟩
  obtain ⟨x, hx, hbatch⟩ := h.recorded other i hi
  have hne : other ≠ plan := by
    rintro rfl
    rw [hnone x hx] at hbatch
    cases hbatch
  exact ⟨x, (if_neg hne).trans hx, hbatch⟩

end Registered

namespace Pipeline

variable {i : ℕ} {b : Batch F}

/-- The plan and the files of a batch stay as they are. -/
theorem of_setWork_iff {work : Work} (hb : s.batches[i]? = some b) (hplan : work.plan? = b.work.plan?)
    (plan j : ℕ) : (s.setWork i work).Of plan j ↔ s.Of plan j := by
  unfold Of setWork
  rw [exists_getElem?_modify (p := fun batch : Batch F => batch.work.plan? = some plan)]
  by_cases hij : i = j
  · subst hij
    simp [hb, hplan]
  · simp [hij]

theorem active_setWork_iff {work : Work} (hb : s.batches[i]? = some b) (j : ℕ) : (s.setWork i work).Active j ↔
      j = i ∧ work.assistantInFlight = true ∨ j ≠ i ∧ s.Active j := by
  unfold Active setWork
  rw [exists_getElem?_modify (p := fun batch : Batch F => batch.work.assistantInFlight = true)]
  by_cases hij : i = j
  · subst hij
    simp [hb]
  · simp [hij, Ne.symm hij]

theorem noOther_iff : s.NoOther i ↔ ∀ j, j ≠ i → ¬ s.Active j := by
  unfold NoOther Active
  simp only [List.mem_eraseIdx_iff_getElem?]
  constructor
  · rintro h j hj ⟨b, hb, hactive⟩
    rw [h b ⟨j, hj, hb⟩] at hactive
    cases hactive
  · rintro h b ⟨j, hj, hb⟩
    rw [← Bool.not_eq_true]
    exact fun hactive => h j hj ⟨b, hb, hactive⟩

theorem OthersIdle.noOther (h : s.OthersIdle i) : s.NoOther i := by
  intro b hb
  rw [Work.assistantInFlight, h b hb, Bool.and_false]

theorem othersIdle_length_iff : s.OthersIdle s.batches.length ↔ ∀ b ∈ s.batches, b.work.inFlight = false := by
  unfold OthersIdle
  rw [List.eraseIdx_of_length_le (le_refl _)]

/-- Where no batch of a plan is in flight, only an appended one may be. -/
theorem eq_length_of_active {plans : ℕ → Option (Plan F)} {entries : List Bool}
    (hnot : ∀ j, j ≠ s.batches.length → ¬ s.Active j)
    (hi : Pipeline.Active ⟨plans, s.batches ++ [b], entries⟩ i) : i = s.batches.length := by
  obtain hi | ⟨hi, -⟩ := exists_getElem?_concat.mp hi
  · exact Classical.byContradiction fun hne => hnot i hne hi
  · exact hi

end Pipeline

theorem Registered.setWork (h : Registered s) {i : ℕ} {work : Work} {b : Batch F}
    (hb : s.batches[i]? = some b) (hplan : work.plan? = b.work.plan?) : Registered (s.setWork i work) := by
  refine ⟨?_, fun plan j hj => ?_⟩
  · have hmap : (s.setWork i work).batches.map Batch.fingerprint =
        s.batches.map Batch.fingerprint := by
      unfold Pipeline.setWork
      refine List.ext_getElem? fun k => ?_
      rw [List.getElem?_map, List.getElem?_map, List.getElem?_modify]
      cases s.batches[k]? with
      | none => rfl
      | some batch => by_cases hk : i = k <;> simp [hk]
    rw [hmap]
    exact h.distinct
  · exact h.recorded plan j ((Pipeline.of_setWork_iff hb hplan plan j).mp hj)

/-- A batch for files that are new. -/
theorem Registered.concat (h : Registered s) {b : Batch F} (hnew : ¬ s.Known b.fingerprint)
    {plans : ℕ → Option (Plan F)}
    (hplans : ∀ plan x, s.plans plan = some x → x.batch.isSome → plans plan = some x)
    (hb : ∀ plan, b.work.plan? = some plan →
      ∃ x, plans plan = some x ∧ x.batch = some s.batches.length) {entries : List Bool} :
    Registered ⟨plans, s.batches ++ [b], entries⟩ := by
  refine ⟨?_, fun plan i hi => ?_⟩
  · show ((s.batches ++ [b]).map Batch.fingerprint).Nodup
    rw [List.map_append, List.nodup_append]
    refine ⟨h.distinct, List.nodup_singleton _, fun x hx y hy => ?_⟩
    obtain rfl : y = b.fingerprint := by simpa using hy
    rintro rfl
    exact hnew hx
  · obtain hi | ⟨rfl, hplan⟩ := exists_getElem?_concat.mp hi
    · obtain ⟨x, hx, hbatch⟩ := h.recorded plan i hi
      exact ⟨x, hplans plan x hx (by simp [hbatch]), hbatch⟩
    · exact hb plan hplan

/-! ### One transaction -/

section Step

/-- What one transaction keeps. -/
def Kept [DecidableEq F] (s s' : Pipeline F) (a : PipelineAction F) : Prop :=
  Registered s' ∧ (s.Exclusive → (s'.Exclusive ↔ Orderly s a))

variable {a : PipelineAction F}

/-- No batch of a plan comes into flight. -/
theorem Kept.of_active [DecidableEq F] (hr : Registered s') (hactive : ∀ i, s'.Active i → s.Active i)
    (hentries : s'.entries = s.entries) (ha : Orderly s a) : Kept s s' a := by
  refine ⟨hr, fun hE => iff_of_true (hr.exclusive (fun i j hi hj => ?_) ?_) ha⟩
  · exact hE.single i j (hactive i hi) (hactive j hj)
  · rw [hentries]
    exact hE.alone

variable [DecidableEq F]

/-- A batch is confirmed: the transaction sees that nothing else is in flight. -/
theorem kept_confirm {plan : ℕ} (h : Registered s)
    (hs : s.confirm plan = some s') : Kept s s' (.confirm plan) := by
  unfold Pipeline.confirm at hs
  split at hs
  · rename_i fingerprint view hplan
    have hnone : ∀ x, s.plans plan = some x → x.batch = none := by
      intro x hx
      rw [hplan, Option.some.injEq] at hx
      rw [← hx]
    split_ifs at hs with hadmitted
    · obtain rfl := Option.some.inj hs
      have hr : Registered { s.setPlan plan ⟨fingerprint, some s.batches.length, none⟩ with
          batches := s.batches ++ [⟨fingerprint, .assistant plan Sys.start⟩]
          entries := decide (s.OthersIdle s.batches.length) :: s.entries } := by
        refine h.concat hadmitted.2 (fun other x hx hsome => ?_) fun other hother => ?_
        · have hne : other ≠ plan := by
            rintro rfl
            rw [hnone x hx] at hsome
            cases hsome
          exact (if_neg hne).trans hx
        · obtain rfl : plan = other := Option.some.inj hother
          exact ⟨_, if_pos rfl, rfl⟩
      refine ⟨hr, fun hE => ?_⟩
      have horderly : Orderly s (.confirm plan) ↔ s.Settled view := by
        show s.ReadsSettled (s.plans plan) ↔ _
        rw [hplan]
        exact ⟨fun hset => hset hadmitted, fun hset _ => hset⟩
      rw [horderly]
      constructor
      · intro hE'
        have hidle := of_decide_eq_true (hE'.alone _ List.mem_cons_self)
        rw [Pipeline.othersIdle_length_iff] at hidle
        intro i hi hflight
        rw [hidle _ (List.getElem_mem hi)] at hflight
        cases hflight
      · intro hsettled
        have hidle : ∀ b ∈ s.batches, b.work.inFlight = false := by
          intro b hb
          obtain ⟨i, hi, rfl⟩ := List.getElem_of_mem hb
          rw [← Bool.not_eq_true]
          intro hflight
          have hseen := hsettled i hi hflight
          rw [Option.any_eq_true] at hseen
          obtain ⟨b', hb', hflight'⟩ := hseen
          rw [hadmitted.1.1 b' (List.mem_of_getElem? hb')] at hflight'
          cases hflight'
        have hothers := Pipeline.othersIdle_length_iff.mpr hidle
        have hnot := Pipeline.noOther_iff.mp hothers.noOther
        refine hr.exclusive (fun i j hi hj => ?_) fun entry hentry => ?_
        · rw [Pipeline.eq_length_of_active hnot hi, Pipeline.eq_length_of_active hnot hj]
        · obtain rfl | hentry := List.mem_cons.mp hentry
          · exact decide_eq_true hothers
          · exact hE.alone entry hentry
    · obtain rfl := Option.some.inj hs
      refine Kept.of_active (h.setPlan hnone) (fun i hi => hi) rfl ?_
      show s.ReadsSettled (s.plans plan)
      rw [hplan]
      exact fun hyes => absurd hyes hadmitted
  · cases hs

/-- A batch without a plan changes or is created. -/
theorem kept_move {i : ℕ} {fingerprint : F} {old state : DataAutomation.BatchState} (h : Registered s)
    (hb : s.batches[i]? = some ⟨fingerprint, .ordinary old⟩) (ha : Orderly s a) :
    Kept s (s.setWork i (.ordinary state)) a := by
  refine Kept.of_active (h.setWork hb rfl) (fun j hj => ?_) rfl ha
  obtain ⟨-, hj⟩ | ⟨-, hj⟩ := (Pipeline.active_setWork_iff hb j).mp hj
  · cases hj
  · exact hj

theorem kept_scan (h : Registered s) (fingerprint : F) (dispatch : Bool) :
    Kept s (s.scan fingerprint dispatch) (.scan fingerprint dispatch) := by
  unfold Pipeline.scan
  split
  · rename_i hnew
    rw [List.findIdx?_eq_none_iff] at hnew
    have hunknown : ¬ s.Known fingerprint := by
      intro hknown
      obtain ⟨b, hb, hfingerprint⟩ := List.mem_map.mp hknown
      simpa [hfingerprint] using hnew b hb
    refine Kept.of_active ?_ (fun i hi => ?_) rfl trivial
    · exact h.concat hunknown (fun _ _ hx _ => hx) fun _ hplan => by cases hplan
    · obtain hi | ⟨-, hi⟩ := exists_getElem?_concat.mp hi
      · exact hi
      · cases hi
  · split
    · rename_i hb
      exact kept_move h hb trivial
    · exact Kept.of_active h (fun _ hi => hi) rfl trivial

/-- A batch of a plan is advanced. -/
theorem kept_execute {i : ℕ} {action : Action} (h : Registered s)
    (hs : s.execute i action = some s') : Kept s s' (.execute i action) := by
  unfold Pipeline.execute at hs
  split at hs
  · rename_i fingerprint plan execution hb
    split_ifs at hs with haction
    obtain ⟨execution', hstep, rfl⟩ := Option.map_eq_some_iff.mp hs
    have hr : Registered (s.setWork i (.assistant plan execution')) := h.setWork hb rfl
    have hactive : ∀ j, (s.setWork i (.assistant plan execution')).Active j ↔ _ :=
      Pipeline.active_setWork_iff hb
    have horderly : Orderly s (.execute i action) ↔ (execution.row.state.inFlight = false →
        execution.Overwrites action → s.NoOther i) := by
      show s.KeepsEnded i action s.batches[i]? ↔ _
      rw [hb]
      exact Iff.rfl
    refine ⟨hr, fun hE => ?_⟩
    rw [horderly]
    cases hflight : execution.row.state.inFlight with
    | true =>
        -- The batch was in flight already, so no other one of a plan is.
        have hi : s.Active i := ⟨_, hb, hflight⟩
        refine iff_of_true (hr.exclusive (fun j k hj hk => ?_) hE.alone) fun hend => by cases hend
        have honly : ∀ j, (s.setWork i (.assistant plan execution')).Active j → j = i := by
          intro j hj
          obtain ⟨hj, -⟩ | ⟨-, hj⟩ := (hactive j).mp hj
          · exact hj
          · exact hE.single j i hj hi
        rw [honly j hj, honly k hk]
    | false =>
        have hwrites := inFlight_step_iff hstep haction hflight
        rw [Pipeline.noOther_iff]
        constructor
        · intro hE' _ hoverwrites j hj hj'
          exact hj (hE'.single j i ((hactive j).mpr (Or.inr ⟨hj, hj'⟩))
            ((hactive i).mpr (Or.inl ⟨rfl, hwrites.mpr hoverwrites⟩)))
        · intro hcareful
          refine hr.exclusive (fun j k hj hk => ?_) hE.alone
          obtain ⟨rfl, hover⟩ | ⟨hji, hj'⟩ := (hactive j).mp hj
          · have hnot := hcareful rfl (hwrites.mp hover)
            obtain ⟨rfl, -⟩ | ⟨hki, hk⟩ := (hactive k).mp hk
            · rfl
            · exact absurd hk (hnot k hki)
          · obtain ⟨rfl, hover⟩ | ⟨-, hk⟩ := (hactive k).mp hk
            · exact absurd hj' (hcareful rfl (hwrites.mp hover) j hji)
            · exact hE.single j k hj' hk
  · cases hs

/-- A batch of a plan is resumed, whatever the other batches do. -/
theorem kept_resume {i : ℕ} (h : Registered s) (hs : s.resume i = some s') : Kept s s' (.resume i) := by
  unfold Pipeline.resume at hs
  split at hs
  · rename_i fingerprint plan execution hb
    obtain ⟨execution', hresume, rfl⟩ := Option.map_eq_some_iff.mp hs
    have hr : Registered { s.setWork i (.assistant plan execution') with
        entries := decide (s.OthersIdle i) :: s.entries } := by
      have hset : Registered (s.setWork i (.assistant plan execution')) := h.setWork hb rfl
      exact ⟨hset.distinct, hset.recorded⟩
    have hactive : ∀ j, (s.setWork i (.assistant plan execution')).Active j ↔ _ :=
      Pipeline.active_setWork_iff hb
    have horderly : Orderly s (.resume i) ↔ s.OthersIdle i := Iff.rfl
    refine ⟨hr, fun hE => ?_⟩
    rw [horderly]
    refine ⟨fun hE' => of_decide_eq_true (hE'.alone _ List.mem_cons_self), fun hidle => ?_⟩
    have hnot := Pipeline.noOther_iff.mp hidle.noOther
    have honly : ∀ j, (s.setWork i (.assistant plan execution')).Active j → j = i := by
      intro j hj
      obtain ⟨hj, -⟩ | ⟨hne, hj⟩ := (hactive j).mp hj
      · exact hj
      · exact absurd hj (hnot j hne)
    refine hr.exclusive (fun j k hj hk => ?_) fun entry hentry => ?_
    · rw [honly j hj, honly k hk]
    · obtain rfl | hentry := List.mem_cons.mp hentry
      · exact decide_eq_true hidle
      · exact hE.alone entry hentry
  · cases hs

theorem kept_step (h : Registered s) (hs : pipelineStep s a = some s') : Kept s s' a := by
  cases a with
  | prepare plan fingerprint =>
      simp only [pipelineStep] at hs
      split at hs
      · rename_i hplan
        obtain rfl := Option.some.inj hs
        refine Kept.of_active (h.setPlan fun x hx => ?_) (fun _ hi => hi) rfl trivial
        rw [hplan] at hx
        cases hx
      · cases hs
  | lock plan | abort plan =>
      simp only [pipelineStep] at hs
      split at hs
      · rename_i hplan
        obtain rfl := Option.some.inj hs
        refine Kept.of_active (h.setPlan fun x hx => ?_) (fun _ hi => hi) rfl trivial
        rw [hplan, Option.some.injEq] at hx
        rw [← hx]
      · cases hs
  | confirm plan => exact kept_confirm h hs
  | scan fingerprint dispatch =>
      obtain rfl := Option.some.inj hs
      exact kept_scan h fingerprint dispatch
  | advance i state | resumeBatch i state =>
      simp only [pipelineStep, Pipeline.move] at hs
      split at hs
      · rename_i hb
        obtain rfl := Option.some.inj hs
        exact kept_move h hb trivial
      · cases hs
  | execute i action => exact kept_execute h hs
  | resume i => exact kept_resume h hs

end Step

/-! ### Every run -/

theorem Registered.start : Registered (Pipeline.start : Pipeline F) := by
  refine ⟨List.nodup_nil, fun plan i hi => ?_⟩
  obtain ⟨b, hb, -⟩ := hi
  cases hb

theorem exclusive_start : (Pipeline.start : Pipeline F).Exclusive :=
  Registered.start.exclusive (fun _ _ ⟨_, hb, _⟩ => by cases hb) fun _ h => by cases h

variable [DecidableEq F]

/-- Batches of plans exclude each other throughout a run exactly when all its transactions are
orderly. -/
theorem exclusive_throughout_iff {actions : List (PipelineAction F)} {s : Pipeline F}
    (h : Run pipelineStep Free Pipeline.start actions s) :
    Throughout pipelineStep Pipeline.Exclusive Pipeline.start actions ↔
      Run pipelineStep Orderly Pipeline.start actions s :=
  h.throughout_iff Registered.start exclusive_start fun _ _ _ hI hE hs =>
    ⟨(kept_step hI hs).1, (kept_step hI hs).2 hE⟩

/-- The restore of the first batch fails. -/
def restoreFails : List (PipelineAction ℕ) :=
  [.execute 0 (.read 0), .execute 0 (.claim 0), .execute 0 (.submit 0 0 .taken),
    .execute 0 (.dispatched 0), .execute 0 (.progress 0 .failed), .execute 0 (.consume 0)]

/-- A batch of a plan is resumed after the batch of a scan, created meanwhile, was completed. -/
def resumedAlone : List (PipelineAction ℕ) :=
  [.prepare 0 0, .lock 0, .confirm 0] ++ restoreFails ++ [.scan 1 true, .advance 1 .completed,
    .resume 0]

theorem resumedAlone_exclusive : Throughout pipelineStep Pipeline.Exclusive Pipeline.start resumedAlone ∧
      ∃ s, Run pipelineStep Free Pipeline.start resumedAlone s ∧ s.Active 0 := by
  have hrun : ∃ s, Run pipelineStep Orderly Pipeline.start resumedAlone s ∧
      s.Active 0 := exists_run (by decide)
  obtain ⟨s, horderly, hactive⟩ := hrun
  have hrun : Run pipelineStep Free Pipeline.start resumedAlone s :=
    horderly.mono fun _ _ _ => trivial
  exact ⟨(exclusive_throughout_iff hrun).mpr horderly, s, hrun, hactive⟩

/-- A second plan is confirmed after the first batch has failed, and the first batch resumed. -/
theorem resume_beside_confirmed : ∃ (actions : List (PipelineAction ℕ)) (s : Pipeline ℕ),
    Run pipelineStep Free Pipeline.start actions s ∧ ¬ s.Exclusive := by
  have hrun : ∃ s, Run pipelineStep Free Pipeline.start
      ([.prepare 0 0, .lock 0, .confirm 0] ++ restoreFails ++
        [.prepare 1 1, .lock 1, .confirm 1, .resume 0]) s ∧ s.Active 0 ∧ s.Active 1 :=
    exists_run (by decide)
  obtain ⟨s, hrun, hfirst, hsecond⟩ := hrun
  exact ⟨_, s, hrun, fun hexclusive => by cases hexclusive.single 0 1 hfirst hsecond⟩

end RecoveryService.AssistantExecution
