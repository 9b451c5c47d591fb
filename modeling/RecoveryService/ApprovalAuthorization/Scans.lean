import RecoveryService.ApprovalAuthorization.Runs

/-! # How far the scans of the todo list get

A scan of the automatic watch cuts the todo list to `auto_watch_max_items_per_scan` entries and then skips
those whose status was written back.  Applications that are done and still listed in front therefore take the
places of others: as many are attempted as there can be exactly when none is kept out by them. -/

namespace RecoveryService.ApprovalAuthorization

open Runs

variable {α : Type} [DecidableEq α]

/-- The counters of `_run_full_sync`, and the applications it has attempted. -/
structure Scan (α : Type) where
  state : State α
  attempted : List α := []
  successCount : ℕ := 0
  failedCount : ℕ := 0
  skippedCount : ℕ := 0

/-- The first `n` steps for an application succeed and are logged. -/
def State.attempt (s : State α) (f : Flow α) (n : ℕ) : State α :=
  (f.steps.take n).foldl (fun s step => { s with logs := s.log (some f.applyFlowId) step false .done }) s

section

variable (row : RunRow α)

/-- The body of the loop; the step behind the first `n` raises, if there is one. -/
def Scan.process (t : Scan α) (id : α) (n : ℕ) : Scan α :=
  match t.state.flow row id with
  | none => { t with skippedCount := t.skippedCount + 1 }
  | some f =>
      { t with
        state := t.state.attempt f n
        attempted := t.attempted ++ [id]
        successCount := if f.steps.length ≤ n then t.successCount + 1 else t.successCount
        failedCount := if f.steps.length ≤ n then t.failedCount else t.failedCount + 1 }

/-- The loop; `outcome` has the number of steps that succeed for each entry. -/
def scanLoop (outcome : ℕ → ℕ) : ℕ → List α → Scan α → Scan α
  | _, [], t => t
  | i, id :: rest, t => scanLoop outcome (i + 1) rest (t.process row id (outcome i))

/-- `_run_full_sync` on a todo list. -/
def scan (maxItems : ℕ) (s : State α) (todo : List α) (outcome : ℕ → ℕ) : Scan α :=
  scanLoop row outcome 0 (todo.take maxItems) { state := s }

/-! ### What is promised -/

/-- The applications on the list that are not completed yet. -/
def pending (s : State α) (todo : List α) : Finset α :=
  todo.toFinset.filter fun id => ¬ s.logged id .auditStatusUpdate

/-- No open application is behind the entries that are looked at, or as many of them are different open ones as
a scan may take. -/
def Unobstructed (maxItems : ℕ) (s : State α) (todo : List α) : Prop :=
  pending s todo ⊆ (todo.take maxItems).toFinset ∨ (pending s (todo.take maxItems)).card = maxItems

/-- An application for which all steps succeed is completed. -/
def Completing (s : State α) (ids : List α) : Prop :=
  row.config.updateAuditStatusAfterSuccess = true ∨
    ∀ id ∈ ids, s.logged id .auditStatusUpdate ∨ s.logged id .importPermissions

/-- A scan without failures of a list that shows the applications of `todo` that are left, and any number of
completed ones. -/
structure Meets (maxItems : ℕ) (todo : List α) (s : State α) (a : List α × (ℕ → ℕ)) : Prop where
  shows : pending s a.1 = pending s todo
  succeeds : (scan row maxItems s a.1 a.2).failedCount = 0
  unobstructed : Unobstructed maxItems s a.1
  completing : Completing row s (a.1.take maxItems)

def scanStep (maxItems : ℕ) (s : State α) (a : List α × (ℕ → ℕ)) : Option (State α) :=
  some (scan row maxItems s a.1 a.2).state

end

variable {row : RunRow α} {s : State α} {t : Scan α} {id : α}

omit [DecidableEq α] in
theorem logged_attempt (s : State α) (f : Flow α) (n : ℕ) {step : Step} :
    (s.attempt f n).logged id step ↔ s.logged id step ∨ (id = f.applyFlowId ∧ step ∈ f.steps.take n) := by
  unfold State.attempt
  generalize f.steps.take n = steps
  induction steps generalizing s with
  | nil => simp
  | cons first steps ih =>
      rw [List.foldl_cons, ih]
      simp only [State.logged, State.log, if_true, List.mem_cons, exists_eq_or_imp, Option.some.injEq]
      constructor
      · rintro ((⟨rfl, rfl⟩ | h) | ⟨rfl, h⟩)
        · exact .inr ⟨rfl, .inl rfl⟩
        · exact .inl h
        · exact .inr ⟨rfl, .inr h⟩
      · rintro (h | ⟨rfl, rfl | h⟩)
        · exact .inl (.inr h)
        · exact .inl (.inl ⟨rfl, rfl⟩)
        · exact .inr ⟨rfl, h⟩

/-- What a scan does with an application: it is skipped, or attempted. -/
theorem flow_cases (hwatch : row.autoWatch = true) (hskip : row.config.autoWatchSkipStatusUpdated = true)
    (s : State α) (id : α) : (s.logged id .auditStatusUpdate ∧ s.flow row id = none) ∨
    (¬ s.logged id .auditStatusUpdate ∧ ∃ f, s.flow row id = some f ∧ f.applyFlowId = id ∧
      (row.config.updateAuditStatusAfterSuccess = true ∨ s.logged id .importPermissions →
        .auditStatusUpdate ∈ f.steps)) := by
  unfold State.flow
  by_cases hdone : s.logged id .auditStatusUpdate
  · exact .inl ⟨hdone, by simp [hwatch, hskip, hdone]⟩
  · refine .inr ⟨hdone, ?_⟩
    by_cases himported : s.logged id .importPermissions
    · simp [hwatch, hdone, himported]
    · simp only [hwatch, hdone, himported, and_false, if_false, or_false]
      exact ⟨_, rfl, rfl, fun hupdate => by simp [applyFlow, hupdate]⟩

theorem counts_process (t : Scan α) (id : α) (n : ℕ) :
    (t.process row id n).successCount + (t.process row id n).failedCount + (t.process row id n).skippedCount =
      t.successCount + t.failedCount + t.skippedCount + 1 ∧ t.failedCount ≤ (t.process row id n).failedCount := by
  unfold Scan.process
  split <;> dsimp only
  · omega
  · split_ifs <;> omega

/-- Every entry is counted once. -/
theorem counts_scanLoop (outcome : ℕ → ℕ) (i : ℕ) (ids : List α) (t : Scan α) :
    (scanLoop row outcome i ids t).successCount + (scanLoop row outcome i ids t).failedCount +
        (scanLoop row outcome i ids t).skippedCount =
      t.successCount + t.failedCount + t.skippedCount + ids.length ∧
    t.failedCount ≤ (scanLoop row outcome i ids t).failedCount := by
  induction ids generalizing i t with
  | nil => exact ⟨rfl, le_rfl⟩
  | cons first ids ih =>
      have hfirst := @counts_process _ _ row t first (outcome i)
      have hrest := ih (i + 1) (t.process row first (outcome i))
      rw [scanLoop, List.length_cons]
      omega

theorem mem_pending {todo : List α} : id ∈ pending s todo ↔ id ∈ todo ∧ ¬ s.logged id .auditStatusUpdate := by
  rw [pending, Finset.mem_filter, List.mem_toFinset]

section

variable (hwatch : row.autoWatch = true) (hskip : row.config.autoWatchSkipStatusUpdated = true)
include hwatch hskip

theorem attempted_scanLoop (outcome : ℕ → ℕ) (i : ℕ) (ids : List α) (t : Scan α) :
    id ∈ (scanLoop row outcome i ids t).attempted ↔
      id ∈ t.attempted ∨ (id ∈ ids ∧ ¬ t.state.logged id .auditStatusUpdate) := by
  induction ids generalizing i t with
  | nil => simp [scanLoop]
  | cons first ids ih =>
      rw [scanLoop, ih]
      unfold Scan.process
      obtain ⟨hdone, hflow⟩ | ⟨hopen, f, hflow, rfl, -⟩ := flow_cases hwatch hskip t.state first
      · rw [hflow]
        simp only [List.mem_cons]
        exact or_congr_right ⟨fun h => ⟨.inr h.1, h.2⟩, fun h => ⟨h.1.resolve_left fun he => h.2 (he ▸ hdone), h.2⟩⟩
      · rw [hflow]
        simp only [List.mem_append, List.mem_cons, List.not_mem_nil, or_false, logged_attempt]
        by_cases he : id = f.applyFlowId
        · simp [he, hopen]
        · simp [he]

/-- Where every attempt succeeds and completes its application, the whole list is completed. -/
theorem logged_scanLoop (outcome : ℕ → ℕ) (i : ℕ) (ids : List α) (t : Scan α)
    (hfailed : (scanLoop row outcome i ids t).failedCount = 0) (hcompleting : Completing row t.state ids) :
    (scanLoop row outcome i ids t).state.logged id .auditStatusUpdate ↔
      t.state.logged id .auditStatusUpdate ∨ id ∈ ids := by
  induction ids generalizing i t with
  | nil => simp [scanLoop]
  | cons first ids ih =>
      rw [scanLoop] at hfailed ⊢
      have hlater : ∀ t' : Scan α, (∀ id step, t.state.logged id step → t'.state.logged id step) →
          Completing row t'.state ids := fun t' hkept => hcompleting.imp_right fun h id hid =>
        (h id (List.mem_cons_of_mem _ hid)).imp (hkept id _) (hkept id _)
      obtain ⟨hdone, hflow⟩ | ⟨hopen, f, hflow, rfl, hlast⟩ := flow_cases hwatch hskip t.state first
      · have hprocess : t.process row first (outcome i) = { t with skippedCount := t.skippedCount + 1 } := by
          unfold Scan.process
          rw [hflow]
        rw [hprocess] at hfailed ⊢
        rw [ih _ _ hfailed (hlater _ fun _ _ h => h), List.mem_cons]
        exact ⟨Or.imp_right .inr, fun h => h.elim .inl fun h => h.elim (fun he => .inl (he ▸ hdone)) .inr⟩
      · have hstate : (t.process row f.applyFlowId (outcome i)).state = t.state.attempt f (outcome i) := by
          unfold Scan.process
          rw [hflow]
        have hall : f.steps.length ≤ outcome i := by
          by_contra hfew
          have hcount : (t.process row f.applyFlowId (outcome i)).failedCount = t.failedCount + 1 := by
            unfold Scan.process
            rw [hflow]
            exact if_neg hfew
          have := (@counts_scanLoop _ _ row outcome (i + 1) ids (t.process row f.applyFlowId (outcome i))).2
          omega
        have hmem : .auditStatusUpdate ∈ f.steps :=
          hlast (hcompleting.imp_right fun h => (h _ List.mem_cons_self).resolve_left hopen)
        rw [ih _ _ hfailed (hlater _ fun id step h => by rw [hstate, logged_attempt]; exact .inl h), hstate,
          logged_attempt, List.take_of_length_le hall, List.mem_cons, and_iff_left hmem, or_assoc]

theorem attempted_scan (maxItems : ℕ) (s : State α) (todo : List α) (outcome : ℕ → ℕ) :
    (scan row maxItems s todo outcome).attempted.toFinset = pending s (todo.take maxItems) := by
  ext id
  rw [List.mem_toFinset, scan, attempted_scanLoop hwatch hskip, mem_pending]
  exact or_iff_right List.not_mem_nil

end

theorem pending_take_subset (s : State α) (todo : List α) (m : ℕ) : pending s (todo.take m) ⊆ pending s todo :=
  fun _ h => mem_pending.mpr ((mem_pending.mp h).imp_left List.mem_of_mem_take)

theorem card_pending_take_iff (m : ℕ) (s : State α) (todo : List α) :
    (pending s (todo.take m)).card = min m (pending s todo).card ↔ Unobstructed m s todo := by
  have hle : (pending s (todo.take m)).card ≤ (pending s todo).card :=
    Finset.card_le_card (pending_take_subset s todo m)
  have hcard : (pending s (todo.take m)).card ≤ m :=
    (Finset.card_filter_le _ _).trans ((List.toFinset_card_le _).trans (List.length_take_le m todo))
  have hall : pending s todo ⊆ (todo.take m).toFinset ↔ pending s (todo.take m) = pending s todo := by
    constructor
    · intro hsub
      refine (pending_take_subset s todo m).antisymm fun id hid => ?_
      exact mem_pending.mpr ⟨List.mem_toFinset.mp (hsub hid), (mem_pending.mp hid).2⟩
    · intro heq
      rw [← heq]
      exact Finset.filter_subset _ _
  rw [Unobstructed, hall]
  constructor
  · intro h
    rcases le_total (pending s todo).card m with hm | hm
    · exact .inl (Finset.eq_of_subset_of_card_le (pending_take_subset s todo m) (by omega))
    · exact .inr (by omega)
  · rintro (heq | hm)
    · rw [heq] at hcard ⊢
      exact (min_eq_right hcard).symm
    · omega

/-- Each scan takes `maxItems` applications off those that are left. -/
theorem card_pending_run (hwatch : row.autoWatch = true) (hskip : row.config.autoWatchSkipStatusUpdated = true)
    {maxItems : ℕ} {todo : List α} {scans : List (List α × (ℕ → ℕ))} {s' : State α}
    (h : Run (scanStep row maxItems) (Meets row maxItems todo) s scans s') :
    (pending s' todo).card = (pending s todo).card - scans.length * maxItems := by
  induction h with
  | refl => simp
  | @step s s₁ s₂ a as hok hs _ ih =>
      cases hs
      have hset : pending (scan row maxItems s a.1 a.2).state todo =
          pending s a.1 \ pending s (a.1.take maxItems) := by
        rw [hok.shows]
        ext id
        have hlogged := @logged_scanLoop _ _ row id hwatch hskip a.2 0 (a.1.take maxItems) { state := s }
          hok.succeeds hok.completing
        rw [Finset.mem_sdiff, mem_pending, mem_pending, mem_pending, scan, hlogged]
        tauto
      rw [ih, hset, Finset.card_sdiff_of_subset (pending_take_subset _ _ _),
        (card_pending_take_iff maxItems s a.1).mpr hok.unobstructed, hok.shows, List.length_cons, Nat.succ_mul]
      omega

/-- Every entry a scan looks at is counted once, it attempts as many applications as it can exactly when none
is kept out, and then the scans complete the list in time. -/
theorem scans_complete_iff (row : RunRow α) (hwatch : row.autoWatch = true)
    (hskip : row.config.autoWatchSkipStatusUpdated = true) (maxItems : ℕ) :
    (∀ s todo outcome, let t := scan row maxItems s todo outcome
      t.successCount + t.failedCount + t.skippedCount = (todo.take maxItems).length ∧
      (t.attempted.toFinset.card = min maxItems (pending s todo).card ↔ Unobstructed maxItems s todo)) ∧
    ∀ s todo scans s', Run (scanStep row maxItems) (Meets row maxItems todo) s scans s' →
      (pending s todo).card ≤ scans.length * maxItems → pending s' todo = ∅ := by
  refine ⟨fun s todo outcome => ⟨?_, ?_⟩, fun s todo scans s' h hlong => ?_⟩
  · simpa [scan] using (@counts_scanLoop _ _ row outcome 0 (todo.take maxItems) { state := s }).1
  · rw [attempted_scan hwatch hskip]
    exact card_pending_take_iff maxItems s todo
  · rw [← Finset.card_eq_zero, card_pending_run hwatch hskip h]
    omega

/-- A configuration that updates the status and skips what was updated. -/
def watching : RunRow ℕ := { autoWatch := true, config := ⟨true, true⟩ }

/-- The first of two applications is completed and still listed. -/
def firstCompleted : State ℕ := { config := ⟨true, true⟩, logs := [⟨some 1, .auditStatusUpdate, false⟩] }

/-- A scan of one item attempts none of them, though the second one is open. -/
theorem scan_starves : ¬ (∀ (s : State ℕ) todo outcome,
    (scan watching 1 s todo outcome).attempted.toFinset.card = min 1 (pending s todo).card) := by
  intro h
  exact absurd (h firstCompleted [1, 2] fun _ => 10) (by decide +kernel)

theorem scans_complete_two : ∃ s', pending s' [1, 2] = ∅ ∧
    Run (scanStep watching 1) (Meets watching 1 [1, 2]) (State.fresh ⟨true, true⟩)
      [([1, 2], fun _ => 10), ([2, 1], fun _ => 10)] s' := by
  have hrun : Run (scanStep watching 1) (Meets watching 1 [1, 2]) (State.fresh ⟨true, true⟩)
      [([1, 2], fun _ => 10), ([2, 1], fun _ => 10)] _ :=
    .step ⟨rfl, rfl, .inr (by decide +kernel), .inl rfl⟩ rfl
      (.step ⟨by decide +kernel, rfl, .inr (by decide +kernel), .inl rfl⟩ rfl (.refl _))
  exact ⟨_, (scans_complete_iff watching rfl rfl 1).2 _ _ _ _ hrun (by decide +kernel), hrun⟩

/-! ### A scan is a run of the system -/

variable {u : State α} {i : ℕ}

/-- What a run writes for an application, the latest first. -/
def written (id : α) (steps : List Step) : List (StepLog α) := (steps.map fun step => ⟨some id, step, false⟩).reverse

omit [DecidableEq α] in
theorem attempt_logs (s : State α) (f : Flow α) (n : ℕ) :
    (s.attempt f n).logs = written f.applyFlowId (f.steps.take n) ++ s.logs := by
  unfold State.attempt written
  generalize f.steps.take n = steps
  induction steps generalizing s with
  | nil => rfl
  | cons step steps ih =>
      rw [List.foldl_cons, ih]
      simp [State.log]

theorem performed (halive : row.alive = true) {f : Flow α} (hrow : u.runs[i]? = some { row with flow := some f })
    (hf : f.position < f.steps.length) (outcome : Outcome) : ∃ v, u.step (.perform i outcome) = some v ∧
      v.runs[i]? = some (RunRow.next { row with flow := some f } f outcome) ∧
      v.logs = u.log (some f.applyFlowId) f.steps[f.position] false outcome := by
  refine ⟨u.execute i { row with flow := some f } f f.steps[f.position] outcome, ?_, ?_, rfl⟩
  · simp [State.step, hrow, List.getElem?_eq_getElem hf, halive]
  · exact List.getElem?_set_self (List.getElem?_eq_some_iff.mp hrow).1

/-- The steps of a run for its application, the last one with an exception unless all succeed. -/
theorem performs (halive : row.alive = true) (hidle : row.flow = none) (n : ℕ) {f : Flow α}
    (hrow : u.runs[i]? = some { row with flow := some f }) (hf : f.position < f.steps.length) :
    ∃ as u', Run State.step Free u as u' ∧ u'.runs[i]? = some row ∧
      u'.logs = written f.applyFlowId ((f.steps.drop f.position).take n) ++ u.logs := by
  have hback : { row with flow := none } = row := by rw [← hidle]
  induction n generalizing f u with
  | zero =>
      obtain ⟨v, hstep, hnext, hlogs⟩ := performed halive hrow hf .failed
      exact ⟨[.perform i .failed], v, .step trivial hstep (.refl v), hnext.trans (congrArg some hback), hlogs⟩
  | succ n ih =>
      obtain ⟨v, hstep, hnext, hlogs⟩ := performed halive hrow hf .done
      rw [List.drop_eq_getElem_cons hf, List.take_succ_cons]
      by_cases hlast : f.position + 1 < f.steps.length
      · rw [RunRow.next, if_pos ⟨rfl, hlast⟩] at hnext
        obtain ⟨as, u', hrun, hrow', hlogs'⟩ := ih hnext hlast
        refine ⟨.perform i .done :: as, u', .step trivial hstep hrun, hrow', ?_⟩
        rw [hlogs', hlogs]
        simp [written, State.log]
      · rw [RunRow.next, if_neg fun h => hlast h.2] at hnext
        refine ⟨[.perform i .done], v, .step trivial hstep (.refl v), hnext.trans (congrArg some hback), ?_⟩
        rw [List.drop_eq_nil_of_le (Nat.not_lt.mp hlast), List.take_nil]
        exact hlogs

/-- The flows of two states with the same log differ in what is remembered of earlier imports only. -/
theorem flow_of_logs {v : State α} (hlogs : u.logs = v.logs) (id : α) :
    (u.flow row id = none ∧ v.flow row id = none) ∨ ∃ f g, u.flow row id = some f ∧ v.flow row id = some g ∧
      f.applyFlowId = g.applyFlowId ∧ f.steps = g.steps ∧ f.position = 0 ∧ 0 < f.steps.length := by
  have hlogged : ∀ step, u.logged id step ↔ v.logged id step := fun step => by
    rw [State.logged, State.logged, hlogs]
  by_cases hdone : row.autoWatch = true ∧ row.config.autoWatchSkipStatusUpdated = true ∧ v.logged id .auditStatusUpdate
  · exact .inl ⟨if_pos (by rwa [hlogged]), if_pos hdone⟩
  have hopen : ¬(row.autoWatch = true ∧ row.config.autoWatchSkipStatusUpdated = true ∧
      u.logged id .auditStatusUpdate) := by rwa [hlogged]
  by_cases himported : row.autoWatch = true ∧ v.logged id .importPermissions
  · exact .inr ⟨_, _, (if_neg hopen).trans (if_pos (by rwa [hlogged])), (if_neg hdone).trans (if_pos himported),
      rfl, rfl, rfl, Nat.one_pos⟩
  · exact .inr ⟨_, _, (if_neg hopen).trans (if_neg (by rwa [hlogged])), (if_neg hdone).trans (if_neg himported),
      rfl, rfl, rfl, Nat.succ_pos _⟩

/-- A turn of the loop is a run that takes the application and goes through its steps. -/
theorem process_is_run (halive : row.alive = true) (hidle : row.flow = none) (hrow : u.runs[i]? = some row)
    (hlogs : u.logs = t.state.logs) (id : α) (n : ℕ) : ∃ as m, Run State.step Free u as m ∧
      m.runs[i]? = some row ∧ m.logs = (t.process row id n).state.logs := by
  have htake : u.step (.take i id) = some { u with runs := u.runs.set i { row with flow := u.flow row id } } := by
    simp [State.step, hrow, halive, hidle]
  have hset : (u.runs.set i { row with flow := u.flow row id })[i]? = some { row with flow := u.flow row id } :=
    List.getElem?_set_self (List.getElem?_eq_some_iff.mp hrow).1
  unfold Scan.process
  rcases flow_of_logs hlogs id with ⟨hu, ht⟩ | ⟨f, g, hu, ht, hid, hsteps, hposition, hlength⟩
  · rw [ht]
    refine ⟨[.take i id], _, .step trivial htake (.refl _), ?_, hlogs⟩
    rw [hset, hu, ← hidle]
  · rw [ht]
    rw [hu] at htake hset
    obtain ⟨as, m, hrun, hrow', hlogs'⟩ := performs (u := { u with runs := u.runs.set i { row with flow := some f } })
      halive hidle n hset (hposition ▸ hlength)
    refine ⟨.take i id :: as, m, .step trivial htake hrun, hrow', ?_⟩
    rw [hlogs', hposition, List.drop_zero, hid, hsteps, attempt_logs, ← hlogs]

theorem loop_is_run (halive : row.alive = true) (hidle : row.flow = none) (outcome : ℕ → ℕ) (k : ℕ) (ids : List α)
    (hrow : u.runs[i]? = some row) (hlogs : u.logs = t.state.logs) : ∃ as u', Run State.step Free u as u' ∧
      u'.runs[i]? = some row ∧ u'.logs = (scanLoop row outcome k ids t).state.logs := by
  induction ids generalizing k t u with
  | nil => exact ⟨[], u, .refl u, hrow, hlogs⟩
  | cons id ids ih =>
      obtain ⟨as, m, hrun, hrow', hlogs'⟩ := process_is_run halive hidle hrow hlogs id (outcome k)
      obtain ⟨bs, u', hrun', hend⟩ := ih (k + 1) hrow' hlogs'
      exact ⟨as ++ bs, u', hrun.trans hrun', hend⟩

/-- What a scan logs is what a run of the system logs that goes through the list, and the run is ready for the
next application. -/
theorem scan_is_run (halive : row.alive = true) (hidle : row.flow = none) (hrow : s.runs[i]? = some row)
    (maxItems : ℕ) (todo : List α) (outcome : ℕ → ℕ) : ∃ as s', Run State.step Free s as s' ∧
      s'.runs[i]? = some row ∧ s'.logs = (scan row maxItems s todo outcome).state.logs :=
  loop_is_run halive hidle outcome 0 (todo.take maxItems) hrow rfl

theorem scan_is_run_two : ∃ as s', Run State.step Free { config := ⟨true, true⟩, runs := [watching] } as s' ∧
    s'.runs[0]? = some watching ∧
    s'.logs = (scan watching 2 { config := ⟨true, true⟩, runs := [watching] } [1, 2] fun n => 9 + n).state.logs :=
  scan_is_run rfl rfl rfl 2 [1, 2] fun n => 9 + n

end RecoveryService.ApprovalAuthorization
