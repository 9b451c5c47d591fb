import RecoveryService.ResourcePermissions.Batch

/-! # Succeeded batches

The summary of an execution counts the succeeded and the failed rows and takes the batch for succeeded
when none has failed, so a row that was left in `running` by a dead worker, or that another execution
still runs, goes uncounted.  A retry that is late puts a row another execution runs back to `pending`.
In a run without these the batch is `succeeded` only with all its rows, and no import is repeated. -/

namespace RecoveryService.ResourcePermissions

open Runs

/-- The thread has the row. -/
def ThreadPlace.active : ThreadPlace → Bool
  | .ended | .submitted => false
  | _ => true

/-- The thread has found no import of the row and is about to make one. -/
def ThreadPlace.importing : ThreadPlace → Bool
  | .opening .importPermissions _ | .performing .importPermissions _ _ => true
  | _ => false

/-- The log of the step the thread is at. -/
def ThreadPlace.log : ThreadPlace → Option ℕ
  | .performing _ _ log | .logging _ _ log _ => some log
  | _ => none

/-- The rows a retry has read as failed are still failed when it stores; a thread that raises before it
has its row marks no row that was run by another; and rows are counted when none is pending or
running, or one has failed. -/
def Heeds (n : ℕ) (s : System) : Action → Prop
  | .retry t => ∀ r ∈ ((s.retries t).map Prod.snd).getD [], (s.rows r).isFailed = true
  | .threadError _ r => s.rows r ≠ .running ∧ s.rows r ≠ .succeeded
  | .count _ => (∀ r < n, (s.rows r).isFailed = false) →
      ∀ r < n, s.rows r ≠ .pending ∧ s.rows r ≠ .running
  | _ => True

instance (n : ℕ) (s : System) : ∀ a, Decidable (Heeds n s a)
  | .retry t => inferInstanceAs
      (Decidable (∀ r ∈ ((s.retries t).map Prod.snd).getD [], (s.rows r).isFailed = true))
  | .threadError _ r => inferInstanceAs (Decidable (s.rows r ≠ .running ∧ s.rows r ≠ .succeeded))
  | .count _ => inferInstanceAs (Decidable ((∀ r < n, (s.rows r).isFailed = false) →
      ∀ r < n, s.rows r ≠ .pending ∧ s.rows r ≠ .running))
  | .open_ _ | .begin_ _ | .list _ | .claim _ _ | .check _ _ | .openLog _ _ | .perform _ _ _ _
  | .closeLog _ _ | .raise _ _ | .succeed _ _ | .fail _ _ | .summarize _ | .die _ | .openRetry _ =>
      .isTrue trivial

/-- All rows of the batch have succeeded. -/
def AllSucceeded (n : ℕ) (s : System) : Prop := ∀ r < n, s.rows r = .succeeded

/-! ### The invariant -/

structure Inv (n : ℕ) (s : System) : Prop where
  running : ∀ e r, (s.threads e r).active = true → s.rows r = .running
  single : ∀ e e' r, (s.threads e r).active = true → (s.threads e' r).active = true → e = e'
  complete : s.batch.state = .succeeded → AllSucceeded n s
  counted : ∀ e seen new, s.executions e = .counted seen new → new.state = .succeeded →
    AllSucceeded n s
  retrying : ∀ t seen rows, s.retries t = some (seen, rows) → ∃ r ∈ rows, r < n
  fresh : ∀ log ∈ s.logs, log.id < s.nextLog
  logging : ∀ e r log, (s.threads e r).log = some log →
    log < s.nextLog ∧ ∀ l ∈ s.logs, l.id = log → l.row = r
  importing : ∀ e r, (s.threads e r).importing = true →
    s.stepAlreadyDone r .importPermissions = false
  once : ∀ x ∈ s.imports, x.2 = false

variable {n e r : ℕ} {s s' : System}

theorem initial_inv : Inv n {} where
  running _ _ h := by cases h
  single _ _ _ h := by cases h
  complete h := by cases h
  counted _ _ _ h := by cases h
  retrying _ _ _ h := by cases h
  fresh _ h := by cases h
  logging _ _ _ h := by cases h
  importing _ _ h := by cases h
  once _ h := by cases h

/-- The state of the batch and of the executions that have counted say that all rows succeeded. -/
def Claims (n : ℕ) (s : System) : Prop :=
  s.batch.state = .succeeded ∨ ∃ e seen new, s.executions e = .counted seen new ∧ new.state = .succeeded

theorem Inv.all (h : Inv n s) (hc : Claims n s) : AllSucceeded n s := by
  obtain hb | ⟨e, seen, new, he, hs⟩ := hc
  · exact h.complete hb
  · exact h.counted e seen new he hs

theorem threads_setThread (s : System) (e r : ℕ) (place : ThreadPlace) (e' r' : ℕ) :
    (s.setThread e r place).threads e' r' = if e' = e ∧ r' = r then place else s.threads e' r' := by
  unfold System.setThread
  by_cases he : e' = e
  · subst he
    simp only [Function.update_self, true_and]
    exact Function.update_apply _ _ _ _
  · simp only [Function.update_of_ne he, he, false_and, if_false]

/-- A thread goes on. -/
theorem Inv.setThread (h : Inv n s) (place : ThreadPlace) (hactive : place.active = true → s.rows r = .running ∧
      ∀ e', (s.threads e' r).active = true → e' = e)
    (hlog : ∀ log, place.log = some log → log < s.nextLog ∧ ∀ l ∈ s.logs, l.id = log → l.row = r)
    (himport : place.importing = true → s.stepAlreadyDone r .importPermissions = false) :
    Inv n (s.setThread e r place) := by
  refine { h with running := ?_, single := ?_, logging := ?_, importing := ?_ }
  · intro e' r' ha
    rw [threads_setThread] at ha
    split at ha
    · rename_i heq
      rw [heq.2]
      exact (hactive ha).1
    · exact h.running e' r' ha
  · intro e₁ e₂ r' h₁ h₂
    rw [threads_setThread] at h₁ h₂
    split at h₁
    · rename_i heq
      obtain ⟨rfl, rfl⟩ := heq
      split at h₂
      · rename_i heq
        exact heq.1.symm
      · exact ((hactive h₁).2 e₂ h₂).symm
    · split at h₂
      · rename_i heq
        obtain ⟨rfl, rfl⟩ := heq
        exact (hactive h₂).2 e₁ h₁
      · exact h.single e₁ e₂ r' h₁ h₂
  · intro e' r' log hl
    rw [threads_setThread] at hl
    split at hl
    · rename_i heq
      rw [heq.2]
      exact hlog log hl
    · exact h.logging e' r' log hl
  · intro e' r' hi
    rw [threads_setThread] at hi
    split at hi
    · rename_i heq
      rw [heq.2]
      exact himport hi
    · exact h.importing e' r' hi

/-- A thread that has its row goes on without a log and not to an import. -/
theorem Inv.goOn (h : Inv n s) (ha : (s.threads e r).active = true) (place : ThreadPlace)
    (hlog : place.log = none) (himport : place.importing = false) : Inv n (s.setThread e r place) := by
  apply h.setThread place (fun _ => ⟨h.running e r ha, fun e' he' => h.single e' e r he' ha⟩)
  · intro log hl
    rw [hlog] at hl
    cases hl
  · intro hi
    rw [himport] at hi
    cases hi

/-- A thread ends, or is submitted. -/
theorem Inv.leave (h : Inv n s) (place : ThreadPlace) (ha : place.active = false)
    (hlog : place.log = none) (himport : place.importing = false) : Inv n (s.setThread e r place) := by
  apply h.setThread place
  · intro ha'
    rw [ha] at ha'
    cases ha'
  · intro log hl
    rw [hlog] at hl
    cases hl
  · intro hi
    rw [himport] at hi
    cases hi

/-- The state of a row without a thread changes. -/
theorem Inv.setRow (h : Inv n s) (state : RowState) (hfree : ∀ e, (s.threads e r).active = false)
    (hall : Claims n s → r < n → state = .succeeded) : Inv n (s.setRow r state) := by
  have hrows : ∀ r', (s.setRow r state).rows r' = if r' = r then state else s.rows r' :=
    fun r' => Function.update_apply _ _ _ _
  have hkeep : Claims n s → AllSucceeded n (s.setRow r state) := by
    intro hc r' hr'
    rw [hrows]
    split
    · rename_i heq
      exact hall hc (heq ▸ hr')
    · exact h.all hc r' hr'
  refine { h with running := ?_, complete := ?_, counted := ?_ }
  · intro e' r' ha
    rw [hrows]
    split
    · rename_i heq
      have hidle : (s.threads e' r').active = false := heq ▸ hfree e'
      change (s.threads e' r').active = true at ha
      rw [hidle] at ha
      cases ha
    · exact h.running e' r' ha
  · exact fun hb => hkeep (Or.inl hb)
  · exact fun e seen new he hs => hkeep (Or.inr ⟨e, seen, new, he, hs⟩)

/-- The thread that has a row is the only one. -/
theorem Inv.free (h : Inv n s) (ha : (s.threads e r).active = true) (e' : ℕ) :
    ((s.setThread e r .ended).threads e' r).active = false := by
  rw [threads_setThread]
  split
  · rfl
  · rename_i hne
    by_contra hother
    rw [Bool.not_eq_false] at hother
    exact hne ⟨h.single e' e r hother ha, rfl⟩

/-! ### Steps of a thread -/

theorem Inv.claim (h : Inv n s) (hs : claim s e r = some s') : Inv n s' := by
  unfold ResourcePermissions.claim at hs
  split at hs
  · split at hs
    · rename_i hpending
      cases hs
      have hfree : ∀ e', (s.threads e' r).active = false := by
        intro e'
        by_contra ha
        rw [Bool.not_eq_false] at ha
        have hrun := h.running e' r ha
        rw [hpending] at hrun
        cases hrun
      have hrow : Inv n (s.setRow r .running) := by
        apply h.setRow _ hfree
        intro hc hr
        have hall := h.all hc r hr
        rw [hpending] at hall
        cases hall
      apply hrow.setThread
      · refine fun _ => ⟨Function.update_self _ _ _, fun e' ha => ?_⟩
        have ha' : (s.threads e' r).active = true := ha
        rw [hfree e'] at ha'
        cases ha'
      · exact fun _ hl => by cases hl
      · exact fun hi => by cases hi
    · cases hs
      exact h.leave .ended rfl rfl rfl
  · cases hs

theorem Inv.threadError (h : Inv n s) (hok : s.rows r ≠ .running ∧ s.rows r ≠ .succeeded)
    (hs : threadError s e r = some s') : Inv n s' := by
  unfold ResourcePermissions.threadError at hs
  split at hs
  · cases hs
    have hrow : Inv n (s.setRow r .failed) := by
      apply h.setRow
      · intro e'
        by_contra ha
        rw [Bool.not_eq_false] at ha
        exact hok.1 (h.running e' r ha)
      · exact fun hc hr => absurd (h.all hc r hr) hok.2
    exact hrow.leave .ended rfl rfl rfl
  · cases hs

theorem Inv.check (h : Inv n s) (hs : check s e r = some s') : Inv n s' := by
  unfold ResourcePermissions.check at hs
  split at hs
  · rename_i step left hplace
    have ha : (s.threads e r).active = true := by
      rw [hplace]
      rfl
    split at hs
    · cases hs
      exact h.goOn ha _ rfl rfl
    · rename_i hdone
      cases hs
      apply h.setThread _ (fun _ => ⟨h.running e r ha, fun e' he' => h.single e' e r he' ha⟩)
      · exact fun _ hl => by cases hl
      · intro hi
        cases step with
        | importPermissions => exact Bool.not_eq_true _ ▸ hdone
        | validate | lookupResource | complete => cases hi
  · cases hs

/-- A log that has just been added says that nothing is done. -/
theorem stepAlreadyDone_append (logs : List StepLog) (log : StepLog) (hlog : log.state = .running)
    (r : ℕ) (step : Step) :
    ((logs ++ [log]).any fun l => l.isDone r step) = logs.any fun l => l.isDone r step := by
  rw [List.any_append, List.any_cons, List.any_nil, Bool.or_false]
  have hnot : log.isDone r step = false := by
    unfold StepLog.isDone
    rw [hlog]
    simp
  rw [hnot, Bool.or_false]

theorem Inv.openLog (h : Inv n s) (hs : openLog s e r = some s') : Inv n s' := by
  unfold ResourcePermissions.openLog at hs
  split at hs
  · rename_i step left hplace
    cases hs
    have ha : (s.threads e r).active = true := by
      rw [hplace]
      rfl
    let log : StepLog := { id := s.nextLog, row := r, step := step
                           attempt := s.lastAttempt r step + 1, state := .running }
    have hadded : Inv n { s with logs := s.logs ++ [log], nextLog := s.nextLog + 1 } := by
      refine { h with fresh := ?_, logging := ?_, importing := ?_ }
      · intro l hl
        obtain hl | hl := List.mem_append.mp hl
        · exact Nat.lt_succ_of_lt (h.fresh l hl)
        · rw [List.mem_singleton.mp hl]
          exact Nat.lt_succ_self _
      · intro e' r' id hid
        obtain ⟨hlt, hrow⟩ := h.logging e' r' id hid
        refine ⟨Nat.lt_succ_of_lt hlt, fun l hl heq => ?_⟩
        obtain hl | hl := List.mem_append.mp hl
        · exact hrow l hl heq
        · rw [List.mem_singleton.mp hl] at heq
          change s.nextLog = id at heq
          omega
      · intro e' r' hi
        exact (stepAlreadyDone_append s.logs log rfl _ _).trans (h.importing e' r' hi)
    apply hadded.setThread
    · exact fun _ => ⟨h.running e r ha, fun e' he' => h.single e' e r he' ha⟩
    · intro id hid
      cases hid
      refine ⟨Nat.lt_succ_self _, fun l hl heq => ?_⟩
      obtain hl | hl := List.mem_append.mp hl
      · have := h.fresh l hl
        omega
      · rw [List.mem_singleton.mp hl]
    · intro hi
      refine (stepAlreadyDone_append s.logs log rfl _ _).trans (h.importing e r ?_)
      rw [hplace]
      cases step with
      | importPermissions => rfl
      | validate | lookupResource | complete => cases hi
  · cases hs

theorem Inv.perform {called : Bool} {outcome : LogState} (h : Inv n s)
    (hs : perform s e r called outcome = some s') : Inv n s' := by
  unfold ResourcePermissions.perform at hs
  split at hs
  · rename_i step left log hplace
    cases hs
    have ha : (s.threads e r).active = true := by
      rw [hplace]
      rfl
    have hlog := h.logging e r log (by rw [hplace]; rfl)
    have hgone : Inv n (s.setThread e r (.logging step left log outcome)) := by
      apply h.setThread _ (fun _ => ⟨h.running e r ha, fun e' he' => h.single e' e r he' ha⟩)
      · intro id hid
        cases hid
        exact hlog
      · exact fun hi => by cases hi
    refine { hgone with once := ?_ }
    intro x hx
    simp only at hx
    split at hx
    · rename_i himport
      obtain rfl | hx := List.mem_cons.mp hx
      · apply h.importing e r
        rw [hplace, himport.1]
        rfl
      · exact h.once x hx
    · exact h.once x hx
  · cases hs

theorem Inv.closeLog (h : Inv n s) (hs : closeLog s e r = some s') : Inv n s' := by
  unfold ResourcePermissions.closeLog at hs
  split at hs
  · rename_i step left log outcome hplace
    cases hs
    have ha : (s.threads e r).active = true := by
      rw [hplace]
      rfl
    obtain ⟨-, hrow⟩ := h.logging e r log (by rw [hplace]; rfl)
    have hclosed : Inv n { s with
        logs := s.logs.map fun l => if l.id = log then { l with state := outcome } else l } := by
      refine { h with fresh := ?_, logging := ?_, importing := ?_ }
      · intro l hl
        obtain ⟨l', hl', rfl⟩ := List.mem_map.mp hl
        split
        · exact h.fresh l' hl'
        · exact h.fresh l' hl'
      · intro e' r' id hid
        obtain ⟨hlt, hrow'⟩ := h.logging e' r' id hid
        refine ⟨hlt, fun l hl heq => ?_⟩
        obtain ⟨l', hl', rfl⟩ := List.mem_map.mp hl
        split at heq
        · rename_i hlog
          rw [if_pos hlog]
          exact hrow' l' hl' heq
        · rename_i hlog
          rw [if_neg hlog]
          exact hrow' l' hl' heq
      · -- the thread with the log is the only one of its row
        intro e' r' hi
        have hdone := h.importing e' r' hi
        have hne : r ≠ r' := by
          rintro rfl
          have ha' : (s.threads e' r).active = true := by
            change (s.threads e' r).importing = true at hi
            cases hp : s.threads e' r with
            | ended | submitted => rw [hp] at hi; cases hi
            | _ => rfl
          have heq := h.single e' e r ha' ha
          subst heq
          change (s.threads e' r).importing = true at hi
          rw [hplace] at hi
          cases hi
        change List.any (s.logs.map _) _ = false
        unfold System.stepAlreadyDone at hdone
        rw [List.any_eq_false] at hdone ⊢
        intro l hl
        obtain ⟨l', hl', rfl⟩ := List.mem_map.mp hl
        split
        · rename_i hlog
          have hr' : l'.row = r := hrow l' hl' hlog
          unfold StepLog.isDone
          simp [hr', hne]
        · exact hdone l' hl'
    apply hclosed.goOn
    · exact ha
    · split <;> rfl
    · split <;> rfl
  · cases hs

theorem Inv.raiseError (h : Inv n s) (hs : raiseError s e r = some s') : Inv n s' := by
  have hgo : (s.threads e r).active = true → Inv n (s.setThread e r (.failing .failed)) :=
    fun ha => h.goOn ha _ rfl rfl
  unfold ResourcePermissions.raiseError at hs
  split at hs
  all_goals cases hs
  all_goals
    rename_i hplace
    apply hgo
    rw [hplace]
    rfl

theorem Inv.succeed (h : Inv n s) (hs : succeed s e r = some s') : Inv n s' := by
  unfold ResourcePermissions.succeed at hs
  split at hs
  · rename_i hplace
    cases hs
    have ha : (s.threads e r).active = true := by
      rw [hplace]
      rfl
    have hended : Inv n (s.setThread e r .ended) := h.leave .ended rfl rfl rfl
    exact hended.setRow .succeeded (h.free ha) fun _ _ => rfl
  · cases hs

theorem Inv.fail (h : Inv n s) (hs : fail s e r = some s') : Inv n s' := by
  unfold ResourcePermissions.fail at hs
  split at hs
  · rename_i state hplace
    cases hs
    have ha : (s.threads e r).active = true := by
      rw [hplace]
      rfl
    have hended : Inv n (s.setThread e r .ended) := h.leave .ended rfl rfl rfl
    apply hended.setRow state (h.free ha)
    intro hc hr
    have hall := h.all hc r hr
    rw [h.running e r ha] at hall
    cases hall
  · cases hs

/-! ### Steps of an execution -/

/-- An execution goes on to a place without counts. -/
theorem Inv.goto (h : Inv n s) (place : ExecutionPlace)
    (hcounted : ∀ seen new, place = .counted seen new → new.state = .succeeded → AllSucceeded n s) :
    Inv n (s.goto e place) := by
  refine { h with counted := ?_ }
  intro e' seen new he' hnew
  change Function.update s.executions e place e' = .counted seen new at he'
  rw [Function.update_apply] at he'
  split at he'
  · exact hcounted seen new he' hnew
  · exact h.counted e' seen new he' hnew

/-- The batch is stored. -/
theorem Inv.storeBatch (h : Inv n s) (seen new : Batch) (hnew : new.state = .succeeded → AllSucceeded n s) :
    Inv n { s with batch := s.batch.store seen new } := by
  refine { h with complete := ?_ }
  intro hstate
  change column s.batch.state seen.state new.state = .succeeded at hstate
  unfold column at hstate
  split at hstate
  · exact h.complete hstate
  · exact hnew hstate

theorem Inv.openBatch (h : Inv n s) (hs : openBatch s e = some s') : Inv n s' := by
  unfold ResourcePermissions.openBatch at hs
  split at hs
  · cases hs
    exact h.goto _ fun _ _ he => by cases he
  · cases hs

theorem Inv.beginBatch (h : Inv n s) (hs : beginBatch s e = some s') : Inv n s' := by
  unfold ResourcePermissions.beginBatch at hs
  split at hs
  · rename_i seen hplace
    cases hs
    have hgone : Inv n (s.goto e .begun) := h.goto _ fun _ _ he => by cases he
    exact hgone.storeBatch seen _ fun hnew => by cases hnew
  · cases hs

/-- The threads of an execution are replaced by threads without rows. -/
theorem Inv.setThreads (h : Inv n s) (places : ℕ → ThreadPlace)
    (hplaces : ∀ r, places r = .submitted ∨ places r = .ended) :
    Inv n { s with threads := Function.update s.threads e places } := by
  have hactive : ∀ e' r, (Function.update s.threads e places e' r).active = true →
      (s.threads e' r).active = true := by
    intro e' r ha
    rw [Function.update_apply] at ha
    split at ha
    · obtain hp | hp := hplaces r
      · rw [hp] at ha
        cases ha
      · rw [hp] at ha
        cases ha
    · exact ha
  refine { h with running := ?_, single := ?_, logging := ?_, importing := ?_ }
  · exact fun e' r ha => h.running e' r (hactive e' r ha)
  · exact fun e₁ e₂ r h₁ h₂ => h.single e₁ e₂ r (hactive e₁ r h₁) (hactive e₂ r h₂)
  · intro e' r log hl
    change (Function.update s.threads e places e' r).log = some log at hl
    rw [Function.update_apply] at hl
    split at hl
    · obtain hp | hp := hplaces r
      · rw [hp] at hl
        cases hl
      · rw [hp] at hl
        cases hl
    · exact h.logging e' r log hl
  · intro e' r hi
    change (Function.update s.threads e places e' r).importing = true at hi
    rw [Function.update_apply] at hi
    split at hi
    · obtain hp | hp := hplaces r
      · rw [hp] at hi
        cases hi
      · rw [hp] at hi
        cases hi
    · exact h.importing e' r hi

theorem Inv.listRows (h : Inv n s) (hs : listRows n s e = some s') : Inv n s' := by
  unfold ResourcePermissions.listRows at hs
  split at hs
  · cases hs
    have hgone : Inv n (s.goto e .running) := h.goto _ fun _ _ he => by cases he
    apply hgone.setThreads
    intro r
    split
    · exact Or.inl rfl
    · exact Or.inr rfl
  · cases hs

theorem Inv.die (h : Inv n s) (hs : die s e = some s') : Inv n s' := by
  cases hs
  have hgone : Inv n (s.goto e .done) := h.goto _ fun _ _ he => by cases he
  exact hgone.setThreads _ fun _ => Or.inr rfl

/-- A summary that says `succeeded` has counted no failed row. -/
theorem summary_succeeded {seen : Batch} (h : (summary n s seen).state = .succeeded) :
    ∀ r < n, (s.rows r).isFailed = false := by
  unfold summary at h
  simp only at h
  split at h
  · rename_i hzero
    unfold countRows at hzero
    rw [List.countP_eq_zero] at hzero
    intro r hr
    exact Bool.not_eq_true _ ▸ hzero r (List.mem_range.mpr hr)
  · split at h <;> cases h

theorem Inv.count (h : Inv n s) (hok : Heeds n s (.count e)) (hs : count n s e = some s') : Inv n s' := by
  unfold ResourcePermissions.count at hs
  split at hs
  · split at hs
    · cases hs
      apply h.goto
      intro seen new he hnew r hr
      cases he
      have hfailed := summary_succeeded hnew
      obtain ⟨hpending, hrunning⟩ := hok hfailed r hr
      have hnot := hfailed r hr
      cases hrow : s.rows r with
      | pending => exact absurd hrow hpending
      | running => exact absurd hrow hrunning
      | succeeded => rfl
      | failed | conflict =>
          rw [hrow] at hnot
          cases hnot
    · cases hs
  · cases hs

theorem Inv.summarize (h : Inv n s) (hs : summarize s e = some s') : Inv n s' := by
  unfold ResourcePermissions.summarize at hs
  split at hs
  · rename_i seen new hplace
    cases hs
    have hgone : Inv n (s.goto e .done) := h.goto _ fun _ _ he => by cases he
    exact hgone.storeBatch seen new fun hnew => h.counted e seen new hplace hnew
  · cases hs

/-! ### Retries -/

theorem Inv.openRetry {t : ℕ} (h : Inv n s) (hs : openRetry n s t = some s') : Inv n s' := by
  unfold ResourcePermissions.openRetry at hs
  simp only at hs
  split at hs
  · cases hs
  · rename_i hne
    cases hs
    refine { h with retrying := ?_ }
    intro t' seen rows ht'
    change Function.update s.retries t _ t' = some (seen, rows) at ht'
    rw [Function.update_apply] at ht'
    split at ht'
    · cases ht'
      obtain ⟨r, hr⟩ := List.exists_mem_of_ne_nil _ hne
      exact ⟨r, hr, List.mem_range.mp (List.mem_filter.mp hr).1⟩
    · exact h.retrying t' seen rows ht'

theorem Inv.retry {t : ℕ} (h : Inv n s) (hok : Heeds n s (.retry t)) (hs : retry s t = some s') : Inv n s' := by
  unfold ResourcePermissions.retry at hs
  split at hs
  · rename_i seen rows hretry
    cases hs
    have hfailed : ∀ r ∈ rows, (s.rows r).isFailed = true := by
      change ∀ r ∈ ((s.retries t).map Prod.snd).getD [], _ at hok
      rw [hretry] at hok
      exact hok
    -- a row is still failed, so nothing says that all have succeeded
    have hclaims : ¬ Claims n s := by
      intro hc
      obtain ⟨r, hr, hlt⟩ := h.retrying t seen rows hretry
      have hrow := hfailed r hr
      rw [h.all hc r hlt] at hrow
      cases hrow
    refine { h with running := ?_, complete := ?_, counted := ?_, retrying := ?_ }
    · intro e r ha
      have hrun := h.running e r ha
      simp only
      split
      · rename_i hr
        have hrow := hfailed r hr
        rw [hrun] at hrow
        cases hrow
      · exact hrun
    · intro hstate
      change column s.batch.state seen.state .pending = .succeeded at hstate
      unfold column at hstate
      split at hstate
      · exact absurd (Or.inl hstate) hclaims
      · cases hstate
    · exact fun e seen new he hs => absurd (Or.inr ⟨e, seen, new, he, hs⟩) hclaims
    · intro t' seen' rows' ht'
      change Function.update s.retries t none t' = some (seen', rows') at ht'
      rw [Function.update_apply] at ht'
      split at ht'
      · cases ht'
      · exact h.retrying t' seen' rows' ht'
  · cases hs

/-! ### Runs -/

variable {a : Action}

theorem step_inv (h : Inv n s) (hok : Heeds n s a) (hs : step n s a = some s') : Inv n s' := by
  cases a with
  | open_ e => exact h.openBatch hs
  | begin_ e => exact h.beginBatch hs
  | list e => exact h.listRows hs
  | claim e r => exact h.claim hs
  | threadError e r => exact h.threadError hok hs
  | check e r => exact h.check hs
  | openLog e r => exact h.openLog hs
  | perform e r called outcome => exact h.perform hs
  | closeLog e r => exact h.closeLog hs
  | raise e r => exact h.raiseError hs
  | succeed e r => exact h.succeed hs
  | fail e r => exact h.fail hs
  | count e => exact h.count hok hs
  | summarize e => exact h.summarize hs
  | die e => exact h.die hs
  | openRetry t => exact h.openRetry hs
  | retry t => exact h.retry hok hs

theorem run_inv {as : List Action} (hrun : Run (step n) (Heeds n) {} as s) : Inv n s :=
  hrun.invariant initial_inv fun _ _ _ hok hs h => step_inv h hok hs

/-- In every state of such a run a succeeded batch has only succeeded rows, and no import was called
for a row behind a successful or skipped one that was logged. -/
theorem permissions_heeded {as : List Action} (hrun : Run (step n) (Heeds n) {} as s) :
    (s.batch.state = .succeeded → AllSucceeded n s) ∧ ∀ x ∈ s.imports, x.2 = false :=
  ⟨(run_inv hrun).complete, (run_inv hrun).once⟩

/-- The steps of one row that succeeds. -/
def rowSteps (e r : ℕ) : List Action :=
  .claim e r :: (steps.flatMap fun _ =>
    [.check e r, .openLog e r, .perform e r true .succeeded, .closeLog e r]) ++ [.succeed e r]

/-- A batch of one row is run. -/
theorem permissions_heeded_one : ∃ s, Run (step 1) (Heeds 1) {}
    ([.open_ 0, .begin_ 0, .list 0] ++ rowSteps 0 0 ++ [.count 0, .summarize 0]) s ∧
    s.batch.state = .succeeded ∧ s.imports.length = 1 ∧ AllSucceeded 1 s ∧
      ∀ x ∈ s.imports, x.2 = false := by
  obtain ⟨s, hrun, hstate, himports⟩ : ∃ s, Run (step 1) (Heeds 1) {}
      ([.open_ 0, .begin_ 0, .list 0] ++ rowSteps 0 0 ++ [.count 0, .summarize 0]) s ∧
      s.batch.state = .succeeded ∧ s.imports.length = 1 := exists_run (by decide +kernel)
  have h := permissions_heeded hrun
  exact ⟨s, hrun, hstate, himports, h.1 hstate, h.2⟩

/-- A worker dies in the middle of a row; the task is delivered again and finds no pending row. -/
theorem permissions_uncounted : ∃ s, Run (step 1) Free {}
    [.open_ 0, .begin_ 0, .list 0, .claim 0 0, .die 0, .open_ 1, .begin_ 1, .list 1, .count 1,
      .summarize 1] s ∧ s.batch.state = .succeeded ∧ s.rows 0 = .running :=
  exists_run (by decide +kernel)

end RecoveryService.ResourcePermissions
