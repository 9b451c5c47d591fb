import RecoveryService.Sm4Batch.BatchRun

/-! # Runs that leave their job settled

A job is settled when its state and all entries of its results are terminal and its counters count the
tables that succeeded and failed.  Until its last slot a run has results that begin with the tables it is
through with, and go on with those it has not finished; where the run is cut off, these are what the
exception handler leaves and the recovery fails. -/

namespace RecoveryService.Sm4Batch

open Program JobState

structure Settled (row : Row) : Prop where
  state : row.state.isTerminal = true
  results : ∀ x ∈ row.results, x.isTerminal = true
  success : row.successCount = row.results.count .succeeded
  failed : row.failedCount = row.results.count .failed

/-! ### The condition -/

section condition

variable (env : RunEnv) (n : ℕ)

/-- The slot a run over `n` tables ends at, if nothing cuts it off. -/
def lastSlot : ℕ :=
  if env.profile = false then 1
  else match env.stop with
    | none => 4 + 2 * n
    | some c =>
        if c ≤ 2 then 2
        else if 4 + 2 * n ≤ c then 4 + 2 * n
        else if c % 2 = 1 ∧ (c = 3 ∨ env.tableSucceeds ((c - 5) / 2) = true) then c + 1
        else c

/-- The run is cut off at the slot `x`, but its job is settled: only the last write raises, or the
recovery finds no table that succeeded. -/
def CutWell (x : ℕ) : Cut → Prop
  | .raises handled => handled = true ∧ x = 4 + 2 * n
  | .killed => env.recoverActiveJobsOnStartup = true ∧
      ∀ k, 5 + 2 * k < x → env.tableSucceeds k = false

/-- There is a connection profile, and a stop request comes neither before the worker has read the job
nor in a table that raises with tables behind it. -/
structure StopWell : Prop where
  profile : env.profile = true
  loaded : env.stop ≠ some 1 ∧ env.stop ≠ some 2
  table : ∀ k, env.stop = some (5 + 2 * k) → k + 1 < n → env.tableSucceeds k = true

def EndsWell : Prop :=
  match env.cut with
  | some (x, cut) => if x ≤ lastSlot env n then CutWell env n x cut else StopWell env n
  | none => StopWell env n

/-- The worker claims a job in the given state. -/
structure Claims (state : JobState) : Prop where
  reserved : state = .reserved
  stop : env.stop ≠ some 0
  cut : ∀ cut, env.cut ≠ some (0, cut)

end condition

variable {env : RunEnv} {n k m x : ℕ} {cut : Cut} {done rest : List TableState} {row : Row}
  {w : RunWorld}

theorem endsWell_cut (hcut : env.cut = some (x, cut)) (hx : x ≤ lastSlot env n) :
    EndsWell env n ↔ CutWell env n x cut := by
  unfold EndsWell
  rw [hcut]
  simp only [hx, if_true]

theorem endsWell_uncut (hcut : ∀ x cut, env.cut = some (x, cut) → lastSlot env n < x) :
    EndsWell env n ↔ StopWell env n := by
  unfold EndsWell
  split
  · next x cut h => rw [if_neg (Nat.not_le.mpr (hcut x cut h))]
  · rfl

/-! ### Columns -/

theorem column_self {α : Type} [DecidableEq α] (seen new : α) : column seen seen new = new := by
  unfold column
  split
  · next h => exact h.symm
  · rfl

theorem column_kept {α : Type} [DecidableEq α] (stored seen : α) : column stored seen seen = stored :=
  if_pos rfl

theorem store_self (seen new : Row) : seen.store seen new = new := by
  simp only [Row.store, column_self]

theorem commit_refresh (f : Row → Row) : w.refresh.commit f = { w with row := f w.row, copy := f w.row } := by
  simp only [RunWorld.commit, RunWorld.refresh, store_self]

variable {state : JobState}

/-- A write of the state, of which the worker has seen `running`. -/
theorem commit_state (hcopy : w.copy = { w.row with state := .running }) (hne : state ≠ .running) :
    (w.commit fun job => { job with state := state }).row = { w.row with state := state } := by
  simp only [RunWorld.commit, Row.store, hcopy, column_self]
  simp [column, hne]

/-- A write of the results and counters leaves the state as it is by then. -/
theorem commit_saveProgress (hcopy : w.copy = { w.row with state := .running }) (p : Progress) :
    (w.commit (saveProgress p)).row = saveProgress p w.row ∧
      (w.commit (saveProgress p)).copy = { saveProgress p w.row with state := .running } := by
  simp only [RunWorld.commit, Row.store, saveProgress, hcopy, column_self, column_kept, and_self]

/-! ### A job that is under way -/

/-- The worker is through with `done`, and `rest` is not finished. -/
structure Underway (n : ℕ) (done rest : List TableState) (row : Row) : Prop where
  state : row.state = .running ∨ row.state = .stopping
  results : row.results = done ++ rest
  total : row.totalCount = n
  length : done.length + rest.length = n
  success : row.successCount = done.count .succeeded
  failed : row.failedCount = done.count .failed
  ended : ∀ x ∈ done, x = .succeeded ∨ x = .failed
  waiting : ∀ x ∈ rest, x.isTerminal = false

namespace Underway

theorem left (h : Underway n done rest row) : ¬ Settled row := fun hsettled => by
  have hterminal := hsettled.state
  rcases h.state with hstate | hstate <;> rw [hstate] at hterminal <;> cases hterminal

/-- The results are settled exactly when nothing is left. -/
theorem settled_iff (h : Underway n done rest row) {state : JobState} (hstate : state.isTerminal = true) :
    Settled { row with state := state } ↔ rest = [] := by
  constructor
  · intro hsettled
    refine List.eq_nil_iff_forall_not_mem.mpr fun y hy => ?_
    have hterminal := hsettled.results y (by
      rw [show ({ row with state := state } : Row).results = done ++ rest from h.results]
      exact List.mem_append_right _ hy)
    rw [h.waiting y hy] at hterminal
    cases hterminal
  · rintro rfl
    have hresults : row.results = done := by rw [h.results, List.append_nil]
    refine ⟨hstate, fun y hy => ?_, ?_, ?_⟩
    · rcases h.ended y (hresults ▸ hy) with rfl | rfl <;> rfl
    · rw [show ({ row with state := state } : Row).results = done from hresults]
      exact h.success
    · rw [show ({ row with state := state } : Row).results = done from hresults]
      exact h.failed

/-- Every table the worker is through with has succeeded or failed. -/
theorem counts (h : Underway n done rest row) : done.count .succeeded + done.count .failed = done.length := by
  have hended := h.ended
  clear h
  induction done with
  | nil => rfl
  | cons y done ih =>
      have hrest := ih fun z hz => hended z (List.mem_cons_of_mem y hz)
      rcases hended y List.mem_cons_self with rfl | rfl
      · simp only [List.count_cons, List.length_cons]
        simp
        omega
      · simp only [List.count_cons, List.length_cons]
        simp
        omega

/-- What the recovery makes of the results. -/
theorem interrupted (h : Underway n done rest row) :
    row.results.map (fun x => if x.isTerminal = true then x else .failed) =
      done ++ List.replicate rest.length .failed := by
  rw [h.results, List.map_append]
  congr 1
  · refine (List.map_congr_left fun y hy => ?_).trans (List.map_id done)
    rcases h.ended y hy with rfl | rfl <;> rfl
  · refine List.eq_replicate_iff.mpr ⟨List.length_map _, fun y hy => ?_⟩
    obtain ⟨z, hz, rfl⟩ := List.mem_map.mp hy
    rw [if_neg (by rw [h.waiting z hz]; nofun)]

theorem recovered (h : Underway n done rest row) (hn : 0 < n) (recover : Bool) :
    Settled (row.recovered recover) ↔ recover = true ∧ done.count .succeeded = 0 := by
  have hreserved : row.state ≠ .reserved := by
    rcases h.state with hstate | hstate <;> rw [hstate] <;> nofun
  unfold Row.recovered
  rw [if_neg hreserved]
  cases recover with
  | false =>
      rw [if_neg (by simp)]
      exact ⟨fun hsettled => absurd hsettled h.left, fun hfalse => by cases hfalse.1⟩
  | true =>
      rw [if_pos ⟨rfl, h.state⟩, h.interrupted, h.total, if_neg (by omega)]
      have hsucceeded : (done ++ List.replicate rest.length TableState.failed).count .succeeded =
          done.count .succeeded := by
        rw [List.count_append, List.count_replicate]
        simp
      have hfailed : (done ++ List.replicate rest.length TableState.failed).count .failed =
          done.count .failed + rest.length := by
        rw [List.count_append, List.count_replicate_self]
      have hcounts := h.counts
      have hlength := h.length
      constructor
      · intro hsettled
        have hsuccess : 0 = _ := hsettled.success
        rw [hsucceeded] at hsuccess
        exact ⟨rfl, hsuccess.symm⟩
      · rintro ⟨-, hzero⟩
        refine ⟨rfl, fun y hy => ?_, ?_, ?_⟩
        · rcases List.mem_append.mp hy with hy | hy
          · rcases h.ended y hy with rfl | rfl <;> rfl
          · rw [List.eq_of_mem_replicate hy]
            rfl
        · rw [hsucceeded, hzero]
        · rw [hfailed]
          show n = _
          omega

theorem stopRequested_eq (h : Underway n done rest row) :
    row.stopRequested = { row with state := .stopping } := by
  unfold Row.stopRequested
  rcases h.state with hstate | hstate <;> simp [hstate, isTerminal]

theorem stopRequested (h : Underway n done rest row) : Underway n done rest row.stopRequested := by
  rw [h.stopRequested_eq]
  exact ⟨.inr rfl, h.results, h.total, h.length, h.success, h.failed, h.ended, h.waiting⟩

end Underway

/-! ### Slots -/

/-- How a run that has come to a result is left: by the exception handler, or the recovery. -/
def concluded (env : RunEnv) (run : Except Cut Unit × RunWorld) : Row :=
  (leaves env (match run with
    | (.ok u, w) => (.ok u, w)
    | (.error cut, w) => (handleCut cut).elim (.error cut, w) fun handler => handler w)).row

theorem concluded_ok (u : Unit) (w : RunWorld) : concluded env (.ok u, w) = w.row := rfl

theorem concluded_raises (w : RunWorld) :
    concluded env (.error (.raises true), w) = { w.row with state := .failed } := by
  show (w.refresh.commit fun job => { job with state := .failed }).row = _
  rw [commit_refresh]

theorem concluded_lost (w : RunWorld) : concluded env (.error (.raises false), w) = w.row := rfl

theorem concluded_killed (w : RunWorld) :
    concluded env (.error .killed, w) = w.row.recovered env.recoverActiveJobsOnStartup := rfl

/-- The world a slot begins with: a stop request that is due is carried out. -/
def entered (env : RunEnv) (t : ℕ) (w : RunWorld) : RunWorld :=
  if env.stop = some t then { w with row := w.row.stopRequested } else w

variable {t : ℕ} {f : RunWorld → RunWorld}

theorem slot_cut (h : env.cut = some (t, cut)) : slot env t f w = (.error cut, entered env t w) := by
  unfold slot
  rw [h]
  simp only [if_true]
  rfl

theorem slot_done (h : ∀ cut, env.cut ≠ some (t, cut)) : slot env t f w = (.ok (), f (entered env t w)) := by
  unfold slot
  cases hcut : env.cut with
  | none => rfl
  | some pair =>
      obtain ⟨x, cut⟩ := pair
      have hne : x ≠ t := fun heq => h cut (heq ▸ hcut)
      simp only [hne, if_false]
      rfl

theorem Underway.entered (h : Underway n done rest w.row) : Underway n done rest (entered env t w).row := by
  unfold Sm4Batch.entered
  split
  · exact h.stopRequested
  · exact h

theorem entered_none (h : env.stop ≠ some t) : entered env t w = w := if_neg h

theorem Underway.entered_stop (h : Underway n done rest w.row) (hstop : env.stop = some t) :
    Sm4Batch.entered env t w = { w with row := { w.row with state := .stopping } } := by
  unfold Sm4Batch.entered
  rw [if_pos hstop, h.stopRequested_eq]

/-- The run is cut off at `x`, with `k` tables behind it. -/
theorem Underway.cutOff (h : Underway n done rest w.row) (hn : 0 < n) (hrest : rest = [] ↔ x = 4 + 2 * n)
    (hdone : done.count .succeeded = 0 ↔ ∀ k, 5 + 2 * k < x → env.tableSucceeds k = false) :
    Settled (concluded env (.error cut, w)) ↔ CutWell env n x cut := by
  cases cut with
  | raises handled =>
      cases handled with
      | true =>
          rw [concluded_raises, h.settled_iff rfl, hrest]
          simp [CutWell]
      | false =>
          rw [concluded_lost]
          simp [CutWell, h.left]
  | killed =>
      rw [concluded_killed, h.recovered hn, hdone]
      rfl

/-! ### The table loop -/

/-- The run comes to the slot before table `k` with the tables `done` behind it. -/
structure At (env : RunEnv) (n k : ℕ) (done : List TableState) (w : RunWorld) : Prop where
  underway : Underway n done (List.replicate (n - k) .queued) w.row
  length : done.length = k
  ended : done.count .succeeded = 0 ↔ ∀ i < k, env.tableSucceeds i = false
  copy : w.copy = { w.row with state := .running }
  stop : (w.row.state = .running ∧ ∀ c, env.stop = some c → 4 + 2 * k ≤ c) ∨
    (w.row.state = .stopping ∧ env.stop = some (3 + 2 * k) ∧
      (k = 0 ∨ env.tableSucceeds (k - 1) = true))
  cut : ∀ x cut, env.cut = some (x, cut) → 4 + 2 * k ≤ x
  bound : k ≤ n

theorem At.lt_lastSlot (h : At env n k done w) (hprofile : env.profile = true) :
    4 + 2 * k ≤ lastSlot env n := by
  have hbound := h.bound
  unfold lastSlot
  rw [if_neg (by simp [hprofile])]
  rcases h.stop with ⟨-, hstop⟩ | ⟨-, hstop, hlast⟩
  · cases hc : env.stop with
    | none =>
        simp only
        omega
    | some c =>
        have hle := hstop c hc
        simp only
        split_ifs <;> omega
  · rw [hstop]
    have hodd : (3 + 2 * k) % 2 = 1 := by omega
    have hsucceeds : 3 + 2 * k = 3 ∨ env.tableSucceeds ((3 + 2 * k - 5) / 2) = true := by
      rcases hlast with rfl | hlast
      · exact .inl rfl
      · rcases Nat.eq_zero_or_pos k with rfl | hk
        · exact .inl rfl
        · rw [show (3 + 2 * k - 5) / 2 = k - 1 by omega]
          exact .inr hlast
    simp only [hodd, hsucceeds, and_self, if_true]
    split_ifs <;> omega

/-- The worker looks before a table, or is through with the last one. -/
theorem At.endsWell_cut (h : At env n k done w) (hprofile : env.profile = true) (hn : 0 < n)
    (hcut : env.cut = some (4 + 2 * k, cut)) {run : RunWorld}
    (hrow : Underway n done (List.replicate (n - k) .queued) run.row) :
    Settled (concluded env (.error cut, run)) ↔ EndsWell env n := by
  rw [Sm4Batch.endsWell_cut hcut (h.lt_lastSlot hprofile)]
  refine hrow.cutOff hn ?_ ?_
  · have hbound := h.bound
    rw [List.replicate_eq_nil_iff]
    omega
  · rw [h.ended]
    refine forall_congr' fun i => ?_
    rw [show (5 + 2 * i < 4 + 2 * k) = (i < k) by simp only [eq_iff_iff]; omega]

theorem lastSlot_le : lastSlot env n ≤ 4 + 2 * n := by
  unfold lastSlot
  split
  · omega
  · split
    · exact le_rfl
    · split_ifs <;> omega

/-- The variables of the loop with the tables `done` behind it. -/
def progressOf (n : ℕ) (done : List TableState) : Progress where
  results := done ++ List.replicate (n - done.length) .queued
  success := done.count .succeeded
  failure := done.count .failed

theorem set_results (h : done.length < n) (y : TableState) :
    (done ++ List.replicate (n - done.length) TableState.queued).set done.length y =
      done ++ y :: List.replicate (n - (done.length + 1)) TableState.queued := by
  have hlength : n - done.length = (n - (done.length + 1)) + 1 := by omega
  rw [hlength, List.replicate_succ, List.set_append_right _ _ le_rfl, Nat.sub_self, List.set_cons_zero]

theorem starts_progressOf (h : done.length < n) : ((progressOf n done).starts done.length).results =
      done ++ .running :: List.replicate (n - (done.length + 1)) .queued :=
  set_results h _

theorem succeeds_progressOf (h : done.length < n) :
    ((progressOf n done).starts done.length).succeeds done.length =
      progressOf n (done ++ [.succeeded]) := by
  unfold Progress.succeeds Progress.starts progressOf
  rw [List.set_set, set_results h]
  simp only [List.append_assoc, List.singleton_append, List.length_append, List.length_singleton,
    List.count_append]
  simp

theorem fails_progressOf (h : done.length < n) : ((progressOf n done).starts done.length).fails done.length =
      progressOf n (done ++ [.failed]) := by
  unfold Progress.fails Progress.starts progressOf
  rw [List.set_set, set_results h]
  simp only [List.append_assoc, List.singleton_append, List.length_append, List.length_singleton,
    List.count_append]
  simp

theorem outcome_terminal {success failure : ℕ} : (outcome success failure).isTerminal = true := by
  unfold outcome
  split_ifs <;> rfl

theorem outcome_ne {success failure : ℕ} : outcome success failure ≠ .running := by
  unfold outcome
  split_ifs <;> nofun

/-- Behind the last table. -/
theorem At.finish (h : At env n n done w) (hprofile : env.profile = true) (hn : 0 < n) :
    Settled (concluded env (finishBatch env n (progressOf n done) w)) ↔ EndsWell env n := by
  unfold finishBatch
  by_cases hcut : ∃ cut, env.cut = some (4 + 2 * n, cut)
  · obtain ⟨cut, hcut⟩ := hcut
    rw [slot_cut hcut]
    exact h.endsWell_cut hprofile hn hcut h.underway.entered
  · have hnot : ∀ cut, env.cut ≠ some (4 + 2 * n, cut) := fun cut hc => hcut ⟨cut, hc⟩
    rw [slot_done hnot, concluded_ok, endsWell_uncut fun x cut hc => ?_]
    · have hwell : StopWell env n := by
        refine ⟨hprofile, ?_, fun i hi hlt => ?_⟩
        · rcases h.stop with ⟨-, hstop⟩ | ⟨-, hstop, -⟩
          · constructor <;> intro hc <;> have hle := hstop _ hc <;> omega
          · rw [hstop]
            constructor <;> intro hc <;> injection hc <;> omega
        · rcases h.stop with ⟨-, hstop⟩ | ⟨-, hstop, -⟩
          · have hle := hstop _ hi
            omega
          · rw [hstop] at hi
            injection hi
            omega
      refine ⟨fun _ => hwell, fun _ => ?_⟩
      have hresults : ∀ state : JobState, state.isTerminal = true →
          Settled { w.row with state := state } := fun _ hstate =>
        (h.underway.settled_iff hstate).mpr (by rw [Nat.sub_self]; rfl)
      by_cases hstop : env.stop = some (4 + 2 * n)
      · rw [h.underway.entered_stop hstop]
        rw [commit_state (w := { w with row := { w.row with state := .stopping } }) h.copy outcome_ne]
        exact hresults _ outcome_terminal
      · rw [entered_none hstop, commit_state h.copy outcome_ne]
        exact hresults _ outcome_terminal
    · have hle := h.cut x cut hc
      have hlast : lastSlot env n ≤ 4 + 2 * n := lastSlot_le
      have hne : x ≠ 4 + 2 * n := fun heq => hnot cut (heq ▸ hc)
      omega

theorem stopRemaining_results (job : Row) (hjob : job.state = .stopping) :
    (stopRemaining (progressOf n done) done.length job).results =
      done ++ List.replicate (n - done.length) .stopped := by
  unfold stopRemaining progressOf
  simp only [hjob, reduceCtorEq, if_false]
  apply List.ext_getElem
  · simp
  · intro i h₁ h₂
    rw [List.getElem_mapIdx]
    rcases Nat.lt_or_ge i done.length with hi | hi
    · rw [if_neg (by omega), List.getElem_append_left hi, List.getElem_append_left hi]
    · rw [List.getElem_append_right hi, List.getElem_append_right hi, List.getElem_replicate,
        List.getElem_replicate, if_pos ⟨hi, rfl⟩]

/-- Tables behind which the others were stopped. -/
theorem Underway.stopped (h : Underway n done rest row) {stopped : List TableState}
    (hstopped : ∀ x ∈ stopped, x = .stopped) {job : Row} (hstate : job.state = .stopped)
    (hresults : job.results = done ++ stopped) (hsuccess : job.successCount = row.successCount)
    (hfailed : job.failedCount = row.failedCount) : Settled job := by
  have hcount : ∀ y : TableState, y ≠ .stopped → (done ++ stopped).count y = done.count y := by
    intro y hy
    rw [List.count_append, List.count_eq_zero.mpr fun hmem => hy (hstopped y hmem), Nat.add_zero]
  refine ⟨by rw [hstate]; rfl, fun y hy => ?_, ?_, ?_⟩
  · rw [hresults] at hy
    rcases List.mem_append.mp hy with hy | hy
    · rcases h.ended y hy with rfl | rfl <;> rfl
    · rw [hstopped y hy]
      rfl
  · rw [hsuccess, h.success, hresults, hcount .succeeded (by decide)]
  · rw [hfailed, h.failed, hresults, hcount .failed (by decide)]

/-- A stop request is seen before table `k`: it and the tables behind it are stopped. -/
theorem At.tail (h : At env n k done w) :
    Settled (stopRemaining (progressOf n done) k { w.row with state := .stopping }) := by
  have hlength := h.length
  subst hlength
  exact h.underway.stopped (fun x hx => List.eq_of_mem_replicate hx) rfl
    (stopRemaining_results _ rfl) rfl rfl

theorem At.tail_endsWell (h : At env n k done w) (hprofile : env.profile = true) (hlt : k < n)
    (hstop : env.stop = some (4 + 2 * k) ∨
      env.stop = some (3 + 2 * k) ∧ (k = 0 ∨ env.tableSucceeds (k - 1) = true))
    (hcut : ∀ cut, env.cut ≠ some (4 + 2 * k, cut)) : EndsWell env n := by
  have hlast : lastSlot env n = 4 + 2 * k := by
    refine le_antisymm ?_ (h.lt_lastSlot hprofile)
    unfold lastSlot
    rw [if_neg (by simp [hprofile])]
    rcases hstop with hstop | ⟨hstop, -⟩ <;> rw [hstop] <;> simp only <;> split_ifs <;> omega
  refine (endsWell_uncut fun x cut hc => ?_).mpr ⟨hprofile, ?_, fun i hi hbehind => ?_⟩
  · have hle := h.cut x cut hc
    have hne : x ≠ 4 + 2 * k := fun heq => hcut cut (heq ▸ hc)
    omega
  · rcases hstop with hstop | ⟨hstop, -⟩ <;> rw [hstop] <;> constructor <;> intro hc <;>
      injection hc <;> omega
  · rcases hstop with hstop | ⟨hstop, hlast⟩
    · rw [hstop] at hi
      injection hi
      omega
    · rw [hstop] at hi
      injection hi with hi
      have hk : k - 1 = i := by omega
      rw [← hk]
      exact hlast.resolve_left (by omega)

/-- A table is begun. -/
theorem At.starts (h : At env n k done w) (hlt : k < n) :
    Underway n done (.running :: List.replicate (n - (k + 1)) .queued)
      (saveProgress ((progressOf n done).starts k) w.row) := by
  have hlength := h.length
  subst hlength
  have hunder := h.underway
  refine ⟨hunder.state, starts_progressOf hlt, hunder.total, ?_, rfl, rfl, hunder.ended, ?_⟩
  · simp only [List.length_cons, List.length_replicate]
    omega
  · intro x hx
    rcases List.mem_cons.mp hx with rfl | hx
    · rfl
    · rw [List.eq_of_mem_replicate hx]
      rfl

/-- The run comes to the slot at the end of table `k`. -/
structure Within (env : RunEnv) (n k : ℕ) (done : List TableState) (w : RunWorld) : Prop where
  underway : Underway n done (.running :: List.replicate (n - (k + 1)) .queued) w.row
  length : done.length = k
  ended : done.count .succeeded = 0 ↔ ∀ i < k, env.tableSucceeds i = false
  copy : w.copy = { w.row with state := .running }
  seen : w.row.state = .running
  stop : ∀ c, env.stop = some c → 5 + 2 * k ≤ c
  cut : ∀ x cut, env.cut = some (x, cut) → 5 + 2 * k ≤ x
  bound : k < n

theorem Within.lt_lastSlot (h : Within env n k done w) (hprofile : env.profile = true) :
    5 + 2 * k ≤ lastSlot env n := by
  have hbound := h.bound
  unfold lastSlot
  rw [if_neg (by simp [hprofile])]
  cases hc : env.stop with
  | none =>
      simp only
      omega
  | some c =>
      have hle := h.stop c hc
      simp only
      split_ifs <;> omega

/-- The table is through: `x` is what came of it. -/
theorem Within.goes (h : Within env n k done w) {x : TableState} {w' : RunWorld}
    (hx : x = if env.tableSucceeds k = true then .succeeded else .failed)
    (hrow : w'.row = saveProgress (progressOf n (done ++ [x])) (entered env (5 + 2 * k) w).row)
    (hcopy : w'.copy = { w'.row with state := .running })
    (hstop : env.stop = some (5 + 2 * k) → env.tableSucceeds k = true)
    (hcut : ∀ cut, env.cut ≠ some (5 + 2 * k, cut)) : At env n (k + 1) (done ++ [x]) w' := by
  have hlength := h.length
  have hbound := h.bound
  have hunder : Underway n done (TableState.running :: List.replicate (n - (k + 1)) .queued)
      (Sm4Batch.entered env (5 + 2 * k) w).row := h.underway.entered
  have hended : x = .succeeded ∨ x = .failed := by
    rw [hx]
    split <;> simp
  constructor
  · rw [hrow]
    refine ⟨hunder.state, ?_, hunder.total, ?_, rfl, rfl, fun y hy => ?_, fun y hy => ?_⟩
    · simp [saveProgress, progressOf, hlength]
    · simp only [List.length_append, List.length_singleton, List.length_replicate]
      omega
    · rcases List.mem_append.mp hy with hy | hy
      · exact hunder.ended y hy
      · rw [List.mem_singleton.mp hy]
        exact hended
    · rw [List.eq_of_mem_replicate hy]
      rfl
  · rw [List.length_append, hlength, List.length_singleton]
  · rw [List.count_append, List.count_singleton]
    constructor
    · intro hzero i hi
      rcases Nat.lt_succ_iff_lt_or_eq.mp hi with hi | rfl
      · exact h.ended.mp (by omega) i hi
      · cases hsucceeds : env.tableSucceeds i with
        | false => rfl
        | true =>
            rw [hx, hsucceeds] at hzero
            simp at hzero
    · intro hall
      rw [h.ended.mpr fun i hi => hall i (by omega), hx, hall k (by omega)]
      rfl
  · exact hcopy
  · by_cases hc : env.stop = some (5 + 2 * k)
    · right
      refine ⟨?_, by rw [hc]; congr 1; omega, .inr ?_⟩
      · rw [hrow, h.underway.entered_stop hc]
        rfl
      · rw [Nat.add_sub_cancel]
        exact hstop hc
    · left
      refine ⟨?_, fun c hsome => ?_⟩
      · rw [hrow, entered_none hc]
        exact h.seen
      · have hle := h.stop c hsome
        have hne : c ≠ 5 + 2 * k := fun heq => hc (heq ▸ hsome)
        omega
  · intro y cut hc
    have hle := h.cut y cut hc
    have hne : y ≠ 5 + 2 * k := fun heq => hcut cut (heq ▸ hc)
    omega
  · omega

/-- The run is cut off at the end of the table. -/
theorem Within.endsWell_cut (h : Within env n k done w) (hprofile : env.profile = true) (hn : 0 < n)
    (hcut : env.cut = some (5 + 2 * k, cut)) :
    Settled (concluded env (.error cut, entered env (5 + 2 * k) w)) ↔ EndsWell env n := by
  rw [Sm4Batch.endsWell_cut hcut (h.lt_lastSlot hprofile)]
  refine h.underway.entered.cutOff hn ⟨nofun, fun heq => ?_⟩ ?_
  · have hbound := h.bound
    omega
  · rw [h.ended]
    refine forall_congr' fun i => ?_
    rw [show (5 + 2 * i < 5 + 2 * k) = (i < k) by simp only [eq_iff_iff]; omega]

/-- The table raises behind a stop request. -/
theorem Within.exits (h : Within env n k done w) (hprofile : env.profile = true)
    (hstop : env.stop = some (5 + 2 * k)) (hfails : env.tableSucceeds k = false)
    (hcut : ∀ cut, env.cut ≠ some (5 + 2 * k, cut)) {p : Progress}
    (hp : p = (progressOf n done).starts k) {job : Row}
    (hjob : job = { w.row with results := p.results.set k .stopped, state := .stopped }) :
    Settled job ↔ EndsWell env n := by
  have hlength := h.length
  have hbound := h.bound
  subst hlength
  have hlast : lastSlot env n = 5 + 2 * done.length := by
    unfold lastSlot
    have hindex : (5 + 2 * done.length - 5) / 2 = done.length := by omega
    rw [if_neg (by simp [hprofile]), hstop]
    simp only [hindex, hfails]
    have hnot : ¬ ((5 + 2 * done.length) % 2 = 1 ∧ (5 + 2 * done.length = 3 ∨ false = true)) := by
      rintro ⟨-, heq | heq⟩
      · omega
      · cases heq
    rw [if_neg (by omega), if_neg (by omega), if_neg hnot]
  have hends : EndsWell env n ↔ StopWell env n := endsWell_uncut fun x cut hc => by
    have hle := h.cut x cut hc
    have hne : x ≠ 5 + 2 * done.length := fun heq => hcut cut (heq ▸ hc)
    omega
  have hresults : job.results =
      (done ++ [TableState.stopped]) ++ List.replicate (n - (done.length + 1)) .queued := by
    rw [hjob, hp]
    show (((progressOf n done).starts done.length).results.set done.length _) = _
    unfold Progress.starts
    rw [List.set_set]
    show (done ++ List.replicate (n - done.length) TableState.queued).set done.length _ = _
    rw [set_results hbound, List.append_assoc, List.singleton_append]
  rw [hends]
  constructor
  · intro hsettled
    refine ⟨hprofile, ?_, fun i hi hbehind => ?_⟩
    · rw [hstop]
      constructor <;> intro hc <;> injection hc <;> omega
    · rw [hstop] at hi
      injection hi with hi
      have hqueued : TableState.queued ∈ job.results := by
        rw [hresults]
        exact List.mem_append_right _ (List.mem_replicate.mpr ⟨by omega, rfl⟩)
      have hterminal := hsettled.results _ hqueued
      cases hterminal
  · intro hwell
    have hnone : n = done.length + 1 := by
      by_contra hne
      have hsucceeds := hwell.table done.length hstop (by omega)
      rw [hfails] at hsucceeds
      cases hsucceeds
    have hstopped : ∀ x ∈ [TableState.stopped], x = .stopped := fun x hx => List.mem_singleton.mp hx
    refine h.underway.stopped hstopped (by rw [hjob]) ?_ (by rw [hjob]) (by rw [hjob])
    rw [hresults, hnone, Nat.sub_self, List.replicate_zero, List.append_nil]

/-- The look before a table sees the stop request, or that there is none so far. -/
theorem At.entered (h : At env n k done w) :
    ((Sm4Batch.entered env (4 + 2 * k) w).row = { w.row with state := .stopping } ∧
      (env.stop = some (4 + 2 * k) ∨
        env.stop = some (3 + 2 * k) ∧ (k = 0 ∨ env.tableSucceeds (k - 1) = true))) ∨
    (Sm4Batch.entered env (4 + 2 * k) w = w ∧ w.row.state = .running ∧
      ∀ c, env.stop = some c → 5 + 2 * k ≤ c) := by
  by_cases hnow : env.stop = some (4 + 2 * k)
  · left
    rw [h.underway.entered_stop hnow]
    exact ⟨rfl, .inl hnow⟩
  · rw [entered_none hnow]
    rcases h.stop with ⟨hstate, hlater⟩ | ⟨hstate, hbefore⟩
    · right
      refine ⟨rfl, hstate, fun c hc => ?_⟩
      have hle := hlater c hc
      have hne : c ≠ 4 + 2 * k := fun heq => hnow (heq ▸ hc)
      omega
    · left
      exact ⟨by rw [← hstate], .inr hbefore⟩

/-- The end of a table that was begun. -/
theorem Within.ends (h : Within env n k done w) (hprofile : env.profile = true)
    {p : Progress} (hp : p = (progressOf n done).starts k)
    (hcut : ∀ cut, env.cut ≠ some (5 + 2 * k, cut)) {w' : RunWorld}
    (hw' : w' = tableEnds env k p (entered env (5 + 2 * k) w)) :
    (env.tableSucceeds k = true → At env n (k + 1) (done ++ [.succeeded]) w') ∧
    (env.tableSucceeds k = false → w'.copy.state.isStop = true → (Settled w'.row ↔ EndsWell env n)) ∧
    (env.tableSucceeds k = false → w'.copy.state.isStop = false →
      At env n (k + 1) (done ++ [.failed]) w') := by
  have hlength := h.length
  have hbound := h.bound
  have hcopy : (entered env (5 + 2 * k) w).copy =
      { (entered env (5 + 2 * k) w).row with state := .running } := by
    by_cases hstop : env.stop = some (5 + 2 * k)
    · rw [h.underway.entered_stop hstop]
      exact h.copy
    · rw [entered_none hstop]
      exact h.copy
  have hsucceeds : p.succeeds k = progressOf n (done ++ [.succeeded]) := by
    subst hlength hp
    exact succeeds_progressOf hbound
  have hfails : p.fails k = progressOf n (done ++ [.failed]) := by
    subst hlength hp
    exact fails_progressOf hbound
  unfold tableEnds at hw'
  refine ⟨fun htable => ?_, fun htable hstopped => ?_, fun htable hgoes => ?_⟩
  · rw [if_pos htable, hsucceeds] at hw'
    obtain ⟨hrow, hcopy'⟩ := commit_saveProgress hcopy (progressOf n (done ++ [.succeeded]))
    refine h.goes (by rw [if_pos htable]) (hw' ▸ hrow) ?_ (fun _ => htable) hcut
    rw [hw', hcopy', hrow]
  · rw [if_neg (by simp [htable])] at hw'
    by_cases hstop : env.stop = some (5 + 2 * k)
    · rw [h.underway.entered_stop hstop] at hw'
      simp only [isStop, if_true] at hw'
      rw [commit_refresh] at hw'
      subst hw'
      exact h.exits hprofile hstop htable hcut hp rfl
    · rw [entered_none hstop] at hw'
      simp only [h.seen, isStop, Bool.false_eq_true, if_false] at hw'
      rw [commit_refresh] at hw'
      subst hw'
      simp [saveProgress, h.seen, isStop] at hstopped
  · rw [if_neg (by simp [htable])] at hw'
    by_cases hstop : env.stop = some (5 + 2 * k)
    · rw [h.underway.entered_stop hstop] at hw'
      simp only [isStop, if_true] at hw'
      rw [commit_refresh] at hw'
      subst hw'
      simp [isStop] at hgoes
    · have hentered : entered env (5 + 2 * k) w = w := entered_none hstop
      rw [hentered] at hw'
      simp only [h.seen, isStop, Bool.false_eq_true, if_false] at hw'
      rw [commit_refresh, hfails] at hw'
      subst hw'
      refine h.goes (by rw [htable]; rfl) (by rw [hentered]) ?_ (fun hs => absurd hs hstop) hcut
      show saveProgress _ w.row = { saveProgress _ w.row with state := .running }
      rw [← h.seen]
      rfl

/-- What the slots of a table leave. -/
theorem At.runTable (h : At env n k done w) (hprofile : env.profile = true) (hn : 0 < n) (hlt : k < n) :
    match runTable env k (progressOf n done) w with
    | (.error cut, w') => Settled (concluded env (.error cut, w')) ↔ EndsWell env n
    | (.ok none, w') => Settled w'.row ↔ EndsWell env n
    | (.ok (some p), w') => ∃ x, p = progressOf n (done ++ [x]) ∧ At env n (k + 1) (done ++ [x]) w' := by
  have hlength := h.length
  unfold Sm4Batch.runTable
  simp only [bind_apply]
  by_cases hcut : ∃ cut, env.cut = some (4 + 2 * k, cut)
  · obtain ⟨cut, hcut⟩ := hcut
    rw [slot_cut hcut]
    exact h.endsWell_cut hprofile hn hcut h.underway.entered
  have hnot : ∀ cut, env.cut ≠ some (4 + 2 * k, cut) := fun cut hc => hcut ⟨cut, hc⟩
  rw [slot_done hnot]
  rcases h.entered with ⟨hrow, hstop⟩ | ⟨hsame, hstate, hstop⟩
  · have hlook : lookBefore k (progressOf n done) (Sm4Batch.entered env (4 + 2 * k) w) = _ :=
      if_pos (by rw [hrow]; rfl)
    rw [hlook, commit_refresh]
    have hstopped : (stopRemaining (progressOf n done) k
        { w.row with state := .stopping }).state.isStop = true := rfl
    simp only [state_apply, hrow, hstopped, if_true, pure_apply]
    exact iff_of_true h.tail (h.tail_endsWell hprofile hlt hstop hnot)
  · have hlook : lookBefore k (progressOf n done) (Sm4Batch.entered env (4 + 2 * k) w) = _ :=
      if_neg (by rw [hsame, hstate]; nofun)
    rw [hlook, hsame]
    generalize hw₁ : w.refresh.commit (saveProgress ((progressOf n done).starts k)) = w₁
    rw [commit_refresh] at hw₁
    have hgoes : w₁.copy.state.isStop = false := by
      rw [← hw₁]
      show w.row.state.isStop = false
      rw [hstate]
      rfl
    simp only [state_apply, hgoes, Bool.false_eq_true, if_false, bind_apply]
    have hwithin : Within env n k done w₁ := by
      subst hw₁
      refine ⟨h.starts hlt, hlength, h.ended, ?_, hstate, hstop, fun x cut hc => ?_, hlt⟩
      · show saveProgress _ w.row = { saveProgress _ w.row with state := .running }
        rw [← hstate]
        rfl
      · have hle := h.cut x cut hc
        have hne : x ≠ 4 + 2 * k := fun heq => hnot cut (heq ▸ hc)
        omega
    by_cases hcut' : ∃ cut, env.cut = some (5 + 2 * k, cut)
    · obtain ⟨cut, hcut'⟩ := hcut'
      rw [slot_cut hcut']
      exact hwithin.endsWell_cut hprofile hn hcut'
    have hnot' : ∀ cut, env.cut ≠ some (5 + 2 * k, cut) := fun cut hc => hcut' ⟨cut, hc⟩
    rw [slot_done hnot']
    generalize hw₂ : tableEnds env k ((progressOf n done).starts k)
      (Sm4Batch.entered env (5 + 2 * k) w₁) = w₂
    obtain ⟨hsucceeds, hexits, hfails⟩ := hwithin.ends hprofile rfl hnot' hw₂.symm
    cases htable : env.tableSucceeds k with
    | true =>
        simp only [if_true, pure_apply]
        refine ⟨_, ?_, hsucceeds htable⟩
        rw [← succeeds_progressOf (hlength ▸ hlt), hlength]
    | false =>
        cases hseen : w₂.copy.state.isStop with
        | true =>
            simp only [hseen, Bool.false_eq_true, if_false, if_true, pure_apply]
            exact hexits htable hseen
        | false =>
            simp only [hseen, Bool.false_eq_true, if_false, pure_apply]
            refine ⟨_, ?_, hfails htable hseen⟩
            rw [← fails_progressOf (hlength ▸ hlt), hlength]

/-- The run from a table on. -/
theorem runTables_settled (hprofile : env.profile = true) (hn : 0 < n) (h : At env n k done w)
    (hm : k + m = n) : Settled (concluded env (runTables env m k (progressOf n done) w)) ↔ EndsWell env n := by
  induction m generalizing k done w with
  | zero =>
      obtain rfl : k = n := by omega
      exact h.finish hprofile hn
  | succ m ih =>
      have hturn := h.runTable hprofile hn (by omega)
      unfold runTables
      simp only [bind_apply]
      cases hrun : runTable env k (progressOf n done) w with
      | mk r w' =>
          rw [hrun] at hturn
          cases r with
          | error cut => exact hturn
          | ok next =>
              cases next with
              | none => exact hturn
              | some p =>
                  obtain ⟨x, rfl, hat⟩ := hturn
                  exact ih hat (by omega)

/-! ### The whole run -/

theorem leaves_attempt (x : BatchRun Unit) (w : RunWorld) :
    (leaves env (attempt x handleCut w)).row = concluded env (x w) := by
  rw [attempt_apply]
  unfold concluded
  cases x w with
  | mk r w' =>
      cases r with
      | ok u => rfl
      | error cut => cases cut with
        | killed => rfl
        | raises handled => cases handled <;> rfl

/-- The job is claimed, and nothing is done yet. -/
structure Begun (env : RunEnv) (n t : ℕ) (w : RunWorld) : Prop where
  underway : Underway n [] (List.replicate n .queued) w.row
  stop : (w.row.state = .running ∧ ∀ c, env.stop = some c → t ≤ c) ∨
    ∃ c, w.row.state = .stopping ∧ env.stop = some c ∧ 0 < c ∧ c < t
  cut : ∀ x cut, env.cut = some (x, cut) → t ≤ x

/-- A slot before the tables. -/
theorem Begun.entered (h : Begun env n t w) (ht : 0 < t) (hcut : ∀ cut, env.cut ≠ some (t, cut)) :
    Begun env n (t + 1) (Sm4Batch.entered env t w) := by
  refine ⟨h.underway.entered, ?_, fun x cut hc => ?_⟩
  · by_cases hstop : env.stop = some t
    · rw [h.underway.entered_stop hstop]
      exact .inr ⟨t, rfl, hstop, ht, Nat.lt_succ_self t⟩
    · rw [entered_none hstop]
      rcases h.stop with ⟨hstate, hlater⟩ | ⟨c, hstate, hc, hpos, hlt⟩
      · refine .inl ⟨hstate, fun c hc => ?_⟩
        have hle := hlater c hc
        have hne : c ≠ t := fun heq => hstop (heq ▸ hc)
        omega
      · exact .inr ⟨c, hstate, hc, hpos, by omega⟩
  · have hle := h.cut x cut hc
    have hne : x ≠ t := fun heq => hcut cut (heq ▸ hc)
    omega

/-- The run is cut off before the tables, under the exception handler. -/
theorem Begun.cutOff (h : Begun env n t w) (hn : 0 < n) (ht : t < 4) (hcut : env.cut = some (t, cut))
    (hlast : t ≤ lastSlot env n) :
    Settled (concluded env (.error cut, Sm4Batch.entered env t w)) ↔ EndsWell env n := by
  rw [endsWell_cut hcut hlast]
  refine h.underway.entered.cutOff hn ?_ ?_
  · rw [List.replicate_eq_nil_iff]
    omega
  · refine iff_of_true rfl fun k hk => ?_
    omega

theorem two_le_lastSlot (hprofile : env.profile = true) : 2 ≤ lastSlot env n := by
  unfold lastSlot
  rw [if_neg (by simp [hprofile])]
  cases hc : env.stop with
  | none =>
      simp only
      omega
  | some c =>
      simp only
      split_ifs <;> omega

theorem four_le_lastSlot (hprofile : env.profile = true) (hlater : ∀ c, env.stop = some c → 3 ≤ c) :
    4 ≤ lastSlot env n := by
  unfold lastSlot
  rw [if_neg (by simp [hprofile])]
  cases hc : env.stop with
  | none =>
      simp only
      omega
  | some c =>
      have hle := hlater c hc
      simp only
      split_ifs <;> omega

theorem Begun.refresh (h : Begun env n t w) : Begun env n t w.refresh :=
  ⟨h.underway, h.stop, h.cut⟩

/-- The tables begin. -/
theorem Begun.at (h : Begun env n 4 w) (hcopy : w.copy = { w.row with state := .running })
    (hlater : ∀ c, env.stop = some c → 3 ≤ c) : At env n 0 [] w := by
  refine ⟨h.underway, rfl, ⟨fun _ => nofun, fun _ => rfl⟩, hcopy, ?_, h.cut, Nat.zero_le n⟩
  rcases h.stop with hrunning | ⟨c, hstate, hstop, -, hlt⟩
  · exact .inl hrunning
  · have hle := hlater c hstop
    obtain rfl : c = 3 := by omega
    exact .inr ⟨hstate, hstop, .inl rfl⟩

/-- A job that was stopped before it was read is left as it is. -/
theorem Begun.stopped (h : Begun env n 3 w) (hn : 0 < n) {c : ℕ} (hstop : env.stop = some c)
    (hpos : 0 < c) (hlt : c < 3) (hprofile : env.profile = true) :
    Settled { w.row with state := .stopped } ↔ EndsWell env n := by
  have hlast : lastSlot env n = 2 := by
    unfold lastSlot
    rw [if_neg (by simp [hprofile]), hstop]
    simp only
    rw [if_pos (by omega)]
  rw [endsWell_uncut fun x cut hc => ?_, h.underway.settled_iff rfl, List.replicate_eq_nil_iff]
  · constructor
    · intro hzero
      omega
    · intro hwell
      obtain ⟨hone, htwo⟩ := hwell.loaded
      rcases (by omega : c = 1 ∨ c = 2) with rfl | rfl
      · exact absurd hstop hone
      · exact absurd hstop htwo
  · have hle := h.cut x cut hc
    omega

theorem Begun.runLocked (h : Begun env n 2 w) (hprofile : env.profile = true) (hn : 0 < n) :
    Settled (concluded env (runLocked env n w)) ↔ EndsWell env n := by
  unfold Sm4Batch.runLocked
  simp only [bind_apply]
  by_cases hcut : ∃ cut, env.cut = some (2, cut)
  · obtain ⟨cut, hcut⟩ := hcut
    rw [slot_cut hcut]
    exact h.cutOff hn (by omega) hcut (two_le_lastSlot hprofile)
  have hnot : ∀ cut, env.cut ≠ some (2, cut) := fun cut hc => hcut ⟨cut, hc⟩
  have hbegun := h.entered (by omega) hnot
  rw [slot_done hnot]
  generalize Sm4Batch.entered env 2 w = w₂ at hbegun
  rcases hbegun.stop with ⟨hstate, hlater⟩ | ⟨c, hstate, hstop, hpos, hlt⟩
  · have hload : loadJob w₂ = w₂.refresh := if_neg (by rw [hstate]; simp)
    have hgoes : w₂.refresh.copy.state.isStop = false := by
      show w₂.row.state.isStop = false
      rw [hstate]
      rfl
    rw [hload]
    simp only [state_apply, hgoes, Bool.false_eq_true, if_false, bind_apply]
    by_cases hcut' : ∃ cut, env.cut = some (3, cut)
    · obtain ⟨cut, hcut'⟩ := hcut'
      rw [slot_cut hcut']
      have hlast := four_le_lastSlot (n := n) hprofile hlater
      exact hbegun.refresh.cutOff hn (by omega) hcut' (by omega)
    have hnot' : ∀ cut, env.cut ≠ some (3, cut) := fun cut hc => hcut' ⟨cut, hc⟩
    have hready := hbegun.refresh.entered (by omega) hnot'
    rw [slot_done hnot']
    have hcopy : (Sm4Batch.entered env 3 w₂.refresh).copy =
        { (Sm4Batch.entered env 3 w₂.refresh).row with state := .running } := by
      by_cases hstop : env.stop = some 3
      · rw [hbegun.refresh.underway.entered_stop hstop]
        show w₂.row = { w₂.row with state := .running }
        rw [← hstate]
      · rw [entered_none hstop]
        show w₂.row = { w₂.row with state := .running }
        rw [← hstate]
    have hbegins : (Sm4Batch.entered env 3 w₂.refresh).commit
        (fun job => { job with state := .running }) = Sm4Batch.entered env 3 w₂.refresh := by
      simp only [RunWorld.commit, Row.store, hcopy, column_kept]
      rw [← hcopy]
    rw [hbegins]
    have hresults : w₂.row.results = (progressOf n []).results := hbegun.underway.results
    show Settled (concluded env (runTables env n 0 { results := w₂.row.results } _)) ↔ _
    rw [hresults]
    exact runTables_settled hprofile hn (hready.at hcopy hlater) (Nat.zero_add n)
  · have hload : loadJob w₂ = w₂.refresh.commit fun job => { job with state := .stopped } :=
      if_pos (.inl hstate)
    rw [hload, commit_refresh]
    simp only [state_apply, isStop]
    exact hbegun.stopped hn hstop hpos hlt hprofile

/-- The claimed job behind the slot of its connection profile. -/
theorem Begun.runClaimed (h : Begun env n 1 w) (hn : 0 < n) :
    Settled (leaves env (runClaimed env n w)).row ↔ EndsWell env n := by
  unfold Sm4Batch.runClaimed
  by_cases hcut : ∃ cut, env.cut = some (1, cut)
  · obtain ⟨cut, hcut⟩ := hcut
    have hwell : Settled (leaves env (.error cut, Sm4Batch.entered env 1 w)).row ↔ EndsWell env n := by
      have hlast : 1 ≤ lastSlot env n := by
        cases hprofile : env.profile with
        | false => exact (if_pos hprofile).ge
        | true => exact (Nat.le_succ 1).trans (two_le_lastSlot hprofile)
      rw [endsWell_cut hcut hlast]
      cases cut with
      | raises handled =>
          refine iff_of_false h.underway.entered.left ?_
          rintro ⟨-, heq⟩
          omega
      | killed =>
          show Settled ((Sm4Batch.entered env 1 w).row.recovered _) ↔ _
          rw [h.underway.entered.recovered hn]
          refine and_congr_right fun _ => iff_of_true rfl fun k hk => ?_
          omega
    split
    · rw [bind_apply, slot_cut hcut]
      exact hwell
    · rw [slot_cut hcut]
      exact hwell
  have hnot : ∀ cut, env.cut ≠ some (1, cut) := fun cut hc => hcut ⟨cut, hc⟩
  have hbegun := h.entered (by omega) hnot
  split
  · next hprofile =>
      rw [bind_apply, slot_done hnot]
      simp only [id_eq]
      rw [leaves_attempt]
      exact hbegun.runLocked hprofile hn
  · next hprofile =>
      rw [slot_done hnot, commit_refresh]
      have hlast : lastSlot env n = 1 := if_pos (by simpa using hprofile)
      rw [endsWell_uncut fun x cut hc => ?_]
      · refine iff_of_false (fun hsettled => ?_) fun hwell => hprofile hwell.profile
        have hnone := (hbegun.underway.settled_iff rfl).mp hsettled
        rw [List.replicate_eq_nil_iff] at hnone
        omega
      · have hle := hbegun.cut x cut hc
        omega

/-! ### The claim -/

theorem stopRequested_ne_reserved : row.stopRequested.state ≠ .reserved := by
  unfold Row.stopRequested
  split
  · next hterminal =>
      intro hstate
      rw [hstate] at hterminal
      cases hterminal
  · split <;> nofun

theorem keeps_slot (hf : ∀ w, w.claimed = true → (f w).claimed = true) :
    Keeps (fun w => w.claimed = true) (slot env t f) := by
  constructor
  intro w hw
  have hentered : (entered env t w).claimed = true := by
    unfold entered
    split <;> exact hw
  by_cases hcut : ∃ cut, env.cut = some (t, cut)
  · obtain ⟨cut, hcut⟩ := hcut
    rw [slot_cut hcut]
    exact hentered
  · rw [slot_done fun cut hc => hcut ⟨cut, hc⟩]
    exact hf _ hentered

theorem keeps_runTables (m k : ℕ) (p : Progress) : Keeps (fun w => w.claimed = true) (runTables env m k p) := by
  induction m generalizing k p with
  | zero => exact keeps_slot (f := fun w => w.commit _) fun _ hw => hw
  | succ m ih =>
      refine keeps_bind ?_ fun next => ?_
      · refine keeps_bind (keeps_slot fun w hw => ?_) fun _ => keeps_bind keeps_state fun _ =>
          keeps_ite (keeps_pure _) (keeps_bind (keeps_slot fun w hw => ?_) fun _ =>
            keeps_bind keeps_state fun _ => keeps_ite (keeps_pure _)
              (keeps_ite (keeps_pure _) (keeps_pure _)))
        · unfold lookBefore
          split <;> exact hw
        · unfold tableEnds
          split
          · exact hw
          · split <;> exact hw
      · cases next with
        | some p => exact ih (k + 1) p
        | none => exact keeps_pure ()

theorem keeps_runClaimed : Keeps (fun w => w.claimed = true) (runClaimed env n) := by
  refine keeps_ite (keeps_bind (keeps_slot fun _ hw => hw) fun _ => spec_attempt (keeps_bind
    (keeps_slot fun w hw => ?_) fun _ => keeps_bind keeps_state fun _ => keeps_ite (keeps_pure _)
      (keeps_bind (keeps_slot fun _ hw => hw) fun _ => keeps_runTables n 0 _)) (fun cut h hh => ?_)
        fun _ _ _ hw => hw) (keeps_slot fun _ hw => hw)
  · unfold loadJob
    split <;> exact hw
  · cases cut with
    | killed => cases hh
    | raises handled =>
        cases handled with
        | true =>
            cases hh
            exact keeps_update fun _ hw => hw
        | false =>
            cases hh
            exact keeps_pure ()

/-- The world behind the claim. -/
def begun (n : ℕ) : RunWorld where
  row := submitted n .running
  copy := submitted n .reserved
  claimed := true

theorem batchRun_eq (h : Claims env state) :
    batchRun env n state = leaves env (runClaimed env n (begun n)) := by
  obtain ⟨rfl, hstop, hcut⟩ := h
  unfold batchRun runSm4BatchJob
  rw [bind_apply, slot_done hcut, entered_none hstop]
  rfl

theorem leaves_claimed (run : Except Cut Unit × RunWorld) : (leaves env run).claimed = run.2.claimed := by
  obtain ⟨r, w⟩ := run
  cases r with
  | ok u => rfl
  | error cut => cases cut <;> rfl

theorem batchRun_unclaimed (h : ¬ Claims env state) : (batchRun env n state).claimed = false := by
  unfold batchRun runSm4BatchJob
  rw [leaves_claimed, bind_apply]
  by_cases hcut : ∃ cut, env.cut = some (0, cut)
  · obtain ⟨cut, hcut⟩ := hcut
    rw [slot_cut hcut]
    show (entered env 0 _).claimed = false
    unfold entered
    split <;> rfl
  · have hnot : ∀ cut, env.cut ≠ some (0, cut) := fun cut hc => hcut ⟨cut, hc⟩
    rw [slot_done hnot]
    have hclaim : claim (entered env 0 { row := submitted n state, copy := submitted n state }) =
        entered env 0 { row := submitted n state, copy := submitted n state } := by
      refine if_neg ?_
      by_cases hstop : env.stop = some 0
      · unfold entered
        rw [if_pos hstop]
        exact stopRequested_ne_reserved
      · rw [entered_none hstop]
        exact fun hstate => h ⟨hstate, hstop, hnot⟩
    have hclaimed : (entered env 0 { row := submitted n state, copy := submitted n state }).claimed =
        false := by
      unfold entered
      split <;> rfl
    rw [hclaim]
    simp only [bind_apply, state_apply, hclaimed, Bool.false_eq_true, if_false, pure_apply]

theorem begun_begun (h : Claims env .reserved) : Begun env n 1 (begun n) := by
  refine ⟨⟨.inl rfl, rfl, rfl, ?_, rfl, rfl, nofun, fun x hx => ?_⟩, .inl ⟨rfl, fun c hc => ?_⟩,
    fun x cut hc => ?_⟩
  · simp
  · rw [List.eq_of_mem_replicate hx]
    rfl
  · rcases Nat.eq_zero_or_pos c with rfl | hpos
    · exact absurd hc h.stop
    · exact hpos
  · rcases Nat.eq_zero_or_pos x with rfl | hpos
    · exact absurd hc (h.cut cut)
    · exact hpos

/-- Exactly the runs that claim the job have it as their claim. -/
theorem batchRun_claimed : (batchRun env n state).claimed = true ↔ Claims env state := by
  constructor
  · intro hclaimed
    by_contra h
    rw [batchRun_unclaimed h] at hclaimed
    cases hclaimed
  · intro h
    rw [batchRun_eq h, leaves_claimed]
    have hkeeps : Keeps (fun w => w.claimed = true) (runClaimed env n) := keeps_runClaimed
    have hends := hkeeps.ends (begun n) rfl
    revert hends
    cases runClaimed env n (begun n) with
    | mk r w => cases r <;> exact id

theorem batchRun_settled (hn : 0 < n) (h : Claims env state) :
    Settled (batchRun env n state).row ↔ EndsWell env n := by
  rw [batchRun_eq h]
  exact (begun_begun (h.reserved ▸ h)).runClaimed hn

/-- The job that a run has claimed is settled exactly when the run ends well. -/
theorem batchRun_settled_iff (hn : 0 < n) (state : JobState) :
    ((batchRun env n state).claimed = true → Settled (batchRun env n state).row) ↔
      (Claims env state → EndsWell env n) := by
  rw [batchRun_claimed]
  exact forall_congr' fun h => batchRun_settled hn h

/-- Of two tables the first fails, a stop request comes in the second, and that one raises. -/
theorem batchRun_settled_iff_stopped :
    ((batchRun { tableSucceeds := fun _ => false, stop := some 7 } 2 .reserved).claimed = true →
      Settled (batchRun { tableSucceeds := fun _ => false, stop := some 7 } 2 .reserved).row) ∧
    (batchRun { tableSucceeds := fun _ => false, stop := some 7 } 2 .reserved).row.results =
      [.failed, .stopped] := by
  refine ⟨(batchRun_settled_iff (by decide) .reserved).mpr fun _ => ⟨rfl, by decide, fun k hk hlt => ?_⟩, rfl⟩
  injection hk
  omega

/-- The guard of the database is refused: the claimed job stays running. -/
theorem guard_leaves_running : (batchRun { cut := some (1, .raises true) } 1 .reserved).claimed = true ∧
      ¬ Settled (batchRun { cut := some (1, .raises true) } 1 .reserved).row :=
  ⟨rfl, fun h => by cases h.state⟩

end RecoveryService.Sm4Batch
