import RecoveryService.DataSync.Delivered
import RecoveryService.DataSync.Schedule

/-! # The rows a task reports as loaded

A table adds up `int(stream_result.get("number_loaded_rows") or len(rows))` over its batches, and a
task adds up its tables.  `SentBatches` has the batches of a table with what Doris reported for each; the sums
agree when no batch was reported with zero rows. -/

namespace DataSync

open Program

/-! ### Batches and what was reported for them -/

/-- The rows of each batch, and those Doris reported as loaded. -/
abbrev BatchLoads := List (ℕ × ℤ)

def countedRows (loads : BatchLoads) : ℤ :=
  (loads.map fun load => if load.2 = 0 then (load.1 : ℤ) else load.2).sum

def reportedRows (loads : BatchLoads) : ℤ := (loads.map Prod.snd).sum

theorem reportedRows_le (loads : BatchLoads) : reportedRows loads ≤ countedRows loads := by
  induction loads with
  | nil => exact le_refl _
  | cons load loads ih =>
      unfold reportedRows countedRows at ih ⊢
      rw [List.map_cons, List.map_cons, List.sum_cons, List.sum_cons]
      split_ifs <;> omega

variable {loads : BatchLoads}

/-- Batches are not empty, so each one reported with zero rows makes the counted sum larger. -/
theorem countedRows_eq_iff (h : ∀ load ∈ loads, load.1 ≠ 0) :
    countedRows loads = reportedRows loads ↔ ∀ load ∈ loads, load.2 ≠ 0 := by
  induction loads with
  | nil => simp [countedRows, reportedRows]
  | cons load loads ih =>
      obtain ⟨hload, hloads⟩ := List.forall_mem_cons.mp h
      have hle := reportedRows_le loads
      have ih := ih hloads
      rw [List.forall_mem_cons, ← ih]
      unfold reportedRows countedRows at hle ⊢
      rw [List.map_cons, List.map_cons, List.sum_cons, List.sum_cons]
      split_ifs with hzero
      · constructor
        · intro heq
          omega
        · intro hne
          exact absurd hzero hne.1
      · constructor
        · intro heq
          exact ⟨hzero, by omega⟩
        · rintro ⟨-, heq⟩
          omega

/-- The arguments of a call of `_stream_load`, and its environment. -/
structure Call where
  http : Http
  database : String
  table : String
  columns : List String
  payload : String
  config : Dict
  batchIndex : ℕ

section

variable (py : Python) (calls : ℕ → Call)

def Call.run (call : Call) : Except Raised Dict × List Request :=
  streamLoad py call.http call.database call.table call.columns call.payload call.config
    call.batchIndex []

/-- The number of loaded rows in the last answer. -/
def Call.Reports (call : Call) (n : ℤ) : Prop :=
  ∃ body parsed, Answered call.http body (call.run py).2 ∧ parseBody call.http body = .ok parsed ∧
    readCount py parsed "NumberLoadedRows" "numberLoadedRows" 0 = .ok n

/-- The environment with these calls as its Stream SentBatches. -/
def Env.loading (env : Env) : Env := { env with streamLoad := fun k => ((calls k).run py).1 }

/-- The batches sent from the call number `k` on. -/
inductive SentBatches : ℕ → List (List Json) → BatchLoads → Prop
  | done (k : ℕ) : SentBatches k [] []
  | stop (k : ℕ) (rest : List (List Json)) : SentBatches k ([] :: rest) []
  | batch {k : ℕ} {rows : List Json} {rest : List (List Json)} {n : ℤ} {loads : BatchLoads}
      (hrows : rows ≠ []) (hreports : (calls (k + 2)).Reports py n) (hrest : SentBatches (k + 4) rest loads) :
      SentBatches k (rows :: rest) ((rows.length, n) :: loads)

/-- The result of a table with the batches `loads`, which are those of its query. -/
structure TableLoads (env : Env) (result : Dict) (loads : BatchLoads) : Prop where
  sent : ∃ k cursor, env.query k = .ok cursor ∧ SentBatches py calls (k + 1) cursor.batches loads
  counted : result.get "loaded_rows" = .num (countedRows loads)

end

variable {py : Python} {calls : ℕ → Call}

theorem SentBatches.nonempty {k : ℕ} {batches : List (List Json)} (h : SentBatches py calls k batches loads) :
    ∀ load ∈ loads, load.1 ≠ 0 := by
  induction h with
  | done | stop => exact nofun
  | batch hrows _ _ ih =>
      rw [List.forall_mem_cons]
      exact ⟨fun hlen => hrows (List.length_eq_zero_iff.mp hlen), ih⟩

variable {result : Dict}

theorem TableLoads.reported_iff {env : Env} (h : TableLoads py calls env result loads) :
    result.get "loaded_rows" = .num (reportedRows loads) ↔ ∀ load ∈ loads, load.2 ≠ 0 := by
  obtain ⟨k, cursor, -, hloads⟩ := h.sent
  rw [h.counted, Json.num.injEq]
  exact countedRows_eq_iff hloads.nonempty

theorem Call.reports {call : Call} (h : (call.run py).1 = .ok result) :
    ∃ n, call.Reports py n ∧ result.get "number_loaded_rows" = .num n := by
  have hspec := (streamLoadEnding_spec py call.http
    (fun n => exhaustedResult call.payload n) call.database call.table call.columns call.payload
    call.config call.batchIndex).ends [] rfl
  unfold Call.run streamLoad at h
  cases hrun : streamLoadEnding py call.http (exhaustedResult call.payload) call.database call.table
    call.columns call.payload call.config call.batchIndex [] with
  | mk r sent =>
      rw [hrun] at h hspec
      obtain rfl : r = .ok result := h
      obtain ⟨body, parsed, loadAttempt, hbody, hparsed, -, hresult⟩ := hspec.1
      unfold loadResult at hresult
      obtain ⟨totalRows, -, hresult⟩ := returns_bind hresult
      obtain ⟨n, hn, hresult⟩ := returns_bind hresult
      obtain ⟨loadBytes, -, hresult⟩ := returns_bind hresult
      cases hresult
      refine ⟨n, ⟨body, parsed, ?_, hparsed, hn⟩, rfl⟩
      unfold Call.run streamLoad
      rw [hrun]
      exact hbody

/-! ### One table -/

/-- A call of the environment has the number `k`. -/
def At (k : ℕ) (w : World) : Prop := w.clock = k

theorem ask_at {α : Type} (answer : ℕ → Except Raised α) (k : ℕ) :
    Spec (At k) (ask answer) (fun a w => At (k + 1) w ∧ answer k = .ok a) (fun _ _ => True) := by
  constructor
  rintro w rfl
  unfold ask
  cases answer w.clock with
  | ok v => exact ⟨rfl, rfl⟩
  | error exc => trivial

theorem addLog_at (env : Env) (log : Json) (k : ℕ) :
    Spec (At k) (addLog env log) (fun _ => At (k + 1)) (fun _ _ => True) := by
  unfold addLog emitEvent
  refine spec_bind (Q := fun _ => At k) ⟨fun w hw => hw⟩ fun _ => ?_
  exact (ask_at env.emit k).mono (fun _ h => h) (fun _ _ h => h.1) fun _ _ h => h

/-- What is counted for a batch. -/
theorem loadedRowsOf_reported (hint : ∀ n, py.int (.num n) = .ok n) {rows : List Json} {n m : ℤ}
    (hresult : result.get "number_loaded_rows" = .num n) (h : loadedRowsOf py result rows = .ok m) :
    m = if n = 0 then (rows.length : ℤ) else n := by
  unfold loadedRowsOf orElse at h
  rw [hresult] at h
  by_cases hn : n = 0
  · rw [hn, if_neg (by decide), hint] at h
    cases h
    rw [if_pos hn]
  · have htruthy : (Json.num n).truthy = true := by
      simpa [Json.truthy] using hn
    rw [if_pos htruthy, hint] at h
    cases h
    rw [if_neg hn]

theorem loadBatches_loads (hint : ∀ n, py.int (.num n) = .ok n) (env : Env) (args : TableArgs)
    (batches : List (List Json)) (k : ℕ) (done : Loaded) :
    Spec (At k) (loadBatches py (env.loading py calls) args batches done)
      (fun loaded _ => ∃ loads, SentBatches py calls k batches loads ∧
        loaded.rows = done.rows + countedRows loads) (fun _ _ => True) := by
  induction batches generalizing k done with
  | nil => exact spec_pure fun w _ => ⟨[], .done k, (add_zero _).symm⟩
  | cons rows rest ih =>
      cases rows with
      | nil => exact spec_pure fun w _ => ⟨[], .stop k rest, (add_zero _).symm⟩
      | cons row rows =>
          unfold loadBatches
          refine spec_bind (ask_at _ k) fun size => ?_
          refine spec_bind ((addLog_at _ _ (k + 1)).mono (fun _ h => h.1) (fun _ _ h => h)
            fun _ _ h => h) fun _ => ?_
          refine spec_bind (Q := fun _ => At (k + 2)) ⟨fun w hw => hw⟩ fun _ => ?_
          refine spec_bind (Q := fun result w => At (k + 3) w ∧ ((calls (k + 2)).run py).1 = .ok result)
            ?_ fun result => spec_and fun hrun => ?_
          · unfold sendWrite
            exact spec_bind (Q := fun _ => At (k + 2)) ⟨fun w hw => hw⟩ fun _ => ask_at _ (k + 2)
          · obtain ⟨n, hreports, hresult⟩ := Call.reports hrun
            refine spec_lift_bind (fun m hm => ?_) fun _ _ _ => trivial
            have hcount := loadedRowsOf_reported hint hresult hm
            refine spec_bind (addLog_at _ _ (k + 3)) fun _ => ?_
            refine (ih (k + 4) _).mono (fun _ h => h) ?_ fun _ _ h => h
            rintro loaded - ⟨loads, hloads, hrows⟩
            refine ⟨((row :: rows).length, n) :: loads,
              .batch (List.cons_ne_nil row rows) hreports hloads, ?_⟩
            rw [hrows, hcount]
            unfold countedRows
            rw [List.map_cons, List.sum_cons]
            ring

theorem streamTable_loads (hint : ∀ n, py.int (.num n) = .ok n) (env : Env) (args : TableArgs)
    (engine : Engine) (targetColumns selectItems : List String) :
    Spec (fun _ => True)
      (streamTable py (env.loading py calls) args engine targetColumns selectItems)
      (fun loaded _ => ∃ loads, (∃ k cursor, env.query k = .ok cursor ∧
        SentBatches py calls (k + 1) cursor.batches loads) ∧ loaded.rows = countedRows loads)
      (fun _ _ => True) := by
  unfold streamTable
  refine spec_bind (spec_true _) fun _ => spec_bind (spec_true _) fun _ =>
    spec_bind (spec_true _) fun _ => ?_
  refine spec_start fun w _ => ?_
  refine spec_bind ((ask_at _ w.clock).mono (fun _ h => h ▸ rfl) (fun _ _ h => h) fun _ _ h => h)
    fun cursor => spec_and fun hquery => ?_
  refine spec_bind (loadBatches_loads hint env args cursor.batches (w.clock + 1) {}) fun loaded => ?_
  cases cursor.broken with
  | some exc => exact spec_raise fun _ _ => trivial
  | none =>
      refine spec_pure fun _ h => ?_
      obtain ⟨loads, hloads, hrows⟩ := h
      refine ⟨loads, ⟨w.clock, cursor, hquery, hloads⟩, ?_⟩
      rw [hrows]
      exact zero_add _

/-- A table that was loaded by Stream Load counts its batches. -/
def Counts (py : Python) (calls : ℕ → Call) (env : Env) (result : Dict) : Prop :=
  result.get "sync_method" ≠ .str "insert_select" → ∃ loads, TableLoads py calls env result loads

variable (dorisType : Json → String) (engine : Engine) (config : Dict)

theorem executeOneTable_counts (hint : ∀ n, py.int (.num n) = .ok n) (env : Env) :
    Spec (fun _ => True) (executeOneTable py dorisType (env.loading py calls) engine config)
      (fun result _ => Counts py calls env result) (fun _ _ => True) := by
  unfold executeOneTable
  refine spec_bind (spec_true _) fun _ => spec_bind (spec_true _) fun _ =>
    spec_bind (spec_true _) fun _ => spec_bind (spec_true _) fun _ =>
    spec_bind (spec_true _) fun _ => spec_bind (spec_true _) fun w =>
    spec_bind (spec_true _) fun args => spec_bind (spec_true _) fun _ =>
    spec_bind (spec_true _) fun _ => spec_bind (spec_true _) fun _ =>
    spec_bind (spec_true _) fun _ => spec_bind (spec_true _) fun added =>
    spec_bind (spec_true _) fun _ => spec_bind (spec_true _) fun w =>
    spec_bind (spec_true _) fun items => ?_
  obtain ⟨selectItems, targetColumns⟩ := items
  simp only
  split_ifs
  · exact spec_raise fun _ _ => trivial
  refine spec_bind (spec_true _) fun _ => ?_
  refine spec_bind (Q := fun loaded _ => args.syncMethod ≠ "insert_select" →
    ∃ loads, (∃ k cursor, env.query k = .ok cursor ∧
      SentBatches py calls (k + 1) cursor.batches loads) ∧ loaded.rows = countedRows loads)
    ?_ fun loaded => ?_
  · unfold writeRows
    split_ifs with hmethod
    · exact (spec_true _).mono (fun _ _ => trivial) (fun _ _ _ hne => absurd hmethod hne)
        fun _ _ h => h
    · exact (streamTable_loads hint env args engine targetColumns selectItems).mono
        (fun _ h => h) (fun _ _ h _ => h) fun _ _ h => h
  · refine spec_start fun _ hloaded => ?_
    refine Spec.mono (P := fun _ => True) ?_ (fun _ _ => trivial) (fun _ _ h => h) fun _ _ h => h
    refine spec_bind (spec_true _) fun _ => spec_bind (spec_true _) fun w => spec_pure fun _ _ => ?_
    intro hmethod
    have hne : args.syncMethod ≠ "insert_select" := by
      intro heq
      apply hmethod
      rw [← heq]
      rfl
    obtain ⟨loads, hsent, hrows⟩ := hloaded hne
    refine ⟨loads, hsent, ?_⟩
    rw [← hrows]
    rfl

theorem tableLoads_of_run (hint : ∀ n, py.int (.num n) = .ok n) {env : Env} {w : World}
    (hrun : (executeOneTable py dorisType (env.loading py calls) engine config w).1 = .ok result)
    (hmethod : result.get "sync_method" ≠ .str "insert_select") :
    ∃ loads, TableLoads py calls env result loads := by
  have hends := (@executeOneTable_counts py calls dorisType engine config hint env).ends w trivial
  cases hpair : executeOneTable py dorisType (env.loading py calls) engine config w with
  | mk r w' =>
      rw [hpair] at hrun hends
      obtain rfl : r = .ok result := hrun
      exact hends hmethod

/-! ### The attempts of a table -/

/-- A result that says `succeeded` counts its batches. -/
def SucceededCounts (py : Python) (calls : ℕ → Call) (env : Env) (result : Dict) : Prop :=
  succeeded result = true → Counts py calls env result

variable (nowText : String)

theorem attemptTable_counts (hint : ∀ n, py.int (.num n) = .ok n) (env : Env) (attempt : ℕ) :
    Spec (fun _ => True)
      (attemptTable py dorisType (env.loading py calls) engine config nowText attempt)
      (fun result _ => Counts py calls env result) (fun _ _ => True) := by
  unfold attemptTable
  refine spec_bind (Q := fun result _ => Counts py calls env result) ?_ fun result => ?_
  · constructor
    intro w _
    have hbody : Spec (fun _ => True)
        (connectAndExecute py dorisType (env.loading py calls) engine config)
        (fun result _ => Counts py calls env result) (fun _ _ => True) := by
      unfold connectAndExecute
      exact spec_bind (spec_true _) fun _ => spec_bind (spec_true _) fun _ =>
        spec_bind (spec_true _) fun _ => spec_bind (spec_true _) fun _ =>
        executeOneTable_counts dorisType engine config hint env
    have hends := hbody.ends w trivial
    unfold closing
    cases hrun : connectAndExecute py dorisType (env.loading py calls) engine config w with
    | mk r w' =>
        rw [hrun] at hends
        simp only
        cases (env.loading py calls).close w'.clock with
        | error exc => trivial
        | ok _ =>
            cases r with
            | ok result => exact hends
            | error exc => trivial
  · refine spec_start fun _ hcounts => ?_
    refine Spec.mono (P := fun _ => True) ?_ (fun _ _ => trivial) (fun _ _ h => h) fun _ _ h => h
    refine spec_bind (spec_true _) fun _ => spec_bind (spec_true _) fun _ =>
      spec_bind (spec_true _) fun _ => spec_pure fun _ _ => ?_
    have hkept : ∀ key, key ≠ "status" → key ≠ "last_success_at" → key ≠ "connection_attempts" →
        (((Dict.set result "status" (.str "succeeded")).set "last_success_at" (.str nowText)).set
          "connection_attempts" (.num attempt)).get key = result.get key := by
      intro key hstatus hat hattempts
      rw [Dict.get_set_ne _ _ (Ne.symm hattempts), Dict.get_set_ne _ _ (Ne.symm hat),
        Dict.get_set_ne _ _ (Ne.symm hstatus)]
    intro hmethod
    rw [hkept _ (by decide) (by decide) (by decide)] at hmethod
    obtain ⟨loads, hloads⟩ := hcounts hmethod
    refine ⟨loads, hloads.sent, ?_⟩
    rw [hkept _ (by decide) (by decide) (by decide)]
    exact hloads.counted

/-- An attempt that returns a result has counted its batches. -/
def EndCounts (py : Python) (calls : ℕ → Call) (env : Env) (ended : AttemptEnd) : Prop :=
  ∀ result, ended = .returned result → Counts py calls env result

theorem handleFailure_failed (env : Env) (attempt maxAttempts : ℕ) (failureType : String)
    (exc : Raised) :
    Spec (fun _ => True) (handleFailure py env attempt maxAttempts failureType exc)
      (fun ended _ => ∀ result, ended ≠ .returned result) (fun _ _ => True) := by
  have hfailed : ∀ e ft stop, Spec (fun _ => True)
      (pure (.failed e ft stop) : Table AttemptEnd) (fun ended _ => ∀ result, ended ≠ .returned result)
      (fun _ _ => True) := fun _ _ _ => spec_pure fun _ _ => nofun
  unfold handleFailure
  split
  · exact hfailed _ _ _
  · refine spec_bind (spec_true _) fun w => ?_
    unfold recoverAndDecide
    refine spec_bind (spec_true _) fun _ => spec_bind (spec_true _) fun answer =>
      spec_bind (spec_true _) fun _ => ?_
    split
    · exact hfailed _ _ _
    split
    · exact hfailed _ _ _
    split
    · exact spec_bind (spec_true _) fun _ => spec_pure fun _ _ => nofun
    · exact hfailed _ _ _

theorem tryOnce_counts (hint : ∀ n, py.int (.num n) = .ok n) (env : Env) (attempt maxAttempts : ℕ)
    (failureType : String) :
    Spec (fun _ => True)
      (tryOnce py dorisType (env.loading py calls) engine config nowText attempt maxAttempts failureType)
      (fun ended _ => EndCounts py calls env ended) (fun _ _ => True) := by
  unfold tryOnce
  refine spec_bind (spec_true _) fun _ => spec_bind (spec_true _) fun ready => ?_
  obtain ⟨generation, unavailable⟩ := ready
  simp only
  split
  · exact spec_pure fun _ _ => nofun
  refine spec_bind (spec_true _) fun _ => ?_
  refine spec_attempt (E := fun _ _ => True) ?_ (fun exc handler hhandler => ?_) fun _ _ _ h => h
  · refine spec_bind (attemptTable_counts dorisType engine config nowText hint env attempt)
      fun result => spec_pure ?_
    rintro w hcounts _ ⟨⟩
    exact hcounts
  · split at hhandler
    · cases hhandler
    · cases hhandler
      exact (handleFailure_failed _ attempt maxAttempts failureType exc).mono (fun _ h => h)
        (fun _ _ h result hreturned => absurd hreturned (h result)) fun _ _ h => h

theorem attemptLoop_counts (hint : ∀ n, py.int (.num n) = .ok n) (env : Env)
    (maxAttempts remaining attempt : ℕ) (failureType : String) :
    Spec (fun _ => True)
      (attemptLoop py dorisType (env.loading py calls) engine config nowText maxAttempts remaining
        attempt failureType)
      (fun ended _ => EndCounts py calls env ended) (fun _ _ => True) := by
  induction remaining generalizing attempt failureType with
  | zero => exact spec_raise fun _ _ => trivial
  | succ remaining ih =>
      unfold attemptLoop
      refine spec_bind (tryOnce_counts dorisType engine config nowText hint env attempt maxAttempts
        failureType) fun ended => ?_
      cases ended with
      | again => exact (ih _ _).mono (fun _ _ => trivial) (fun _ _ h => h) fun _ _ h => h
      | returned result | failed exc failureType stopRemaining => exact spec_pure fun _ h => h

theorem executeMapping_counts (hint : ∀ n, py.int (.num n) = .ok n) (env : Env) :
    Spec (fun _ => True) (executeMapping py dorisType (env.loading py calls) engine config nowText)
      (fun result _ => SucceededCounts py calls env result) (fun _ _ => True) := by
  unfold executeMapping
  refine spec_bind (spec_true _) fun _ => spec_bind (spec_true _) fun _ =>
    spec_bind (spec_true _) fun maxAttempts => ?_
  refine spec_bind (attemptLoop_counts dorisType engine config nowText hint env _ _ _ _)
    fun ended => ?_
  cases ended with
  | again => exact spec_raise fun _ _ => trivial
  | returned result => exact spec_pure fun _ h _ => h result rfl
  | failed exc failureType stopRemaining =>
      refine Spec.mono (P := fun _ => True) ?_ (fun _ _ => trivial) (fun _ _ h => h) fun _ _ h => h
      unfold reportFailure
      refine spec_bind (spec_true _) fun _ => spec_bind (spec_true _) fun _ =>
        spec_bind (spec_true _) fun _ => spec_bind (spec_true _) fun _ =>
        spec_bind (spec_true _) fun _ => spec_pure fun _ _ => ?_
      intro hsucceeded
      have hstatus : ("failed" == "succeeded") = true := hsucceeded
      exact absurd hstatus (by decide)

/-! ### The total of a task -/

section

variable (outcomes : ℕ → Outcome)

/-- The tables that were processed and succeeded. -/
def Tally.loadedTables (t : Tally) : List ℕ :=
  t.processed.filter fun i => succeeded (outcomes i).result

/-- The total is that of the tables that succeeded. -/
def Adds (t : Tally) : Prop :=
  t.totalRows = ((t.loadedTables outcomes).map fun i => loadedRows (outcomes i).result).sum

end

variable {syncMethod : String} {outcomes : ℕ → Outcome} {t : Tally}

theorem Adds.process (h : Adds outcomes t) (i : ℕ) : Adds outcomes (t.process py i (outcomes i)) := by
  unfold Adds Tally.loadedTables at h ⊢
  rw [process_processed, List.filter_cons]
  unfold Tally.process
  by_cases hsucceeded : succeeded (outcomes i).result = true
  · simp only [if_pos hsucceeded, List.map_cons, List.sum_cons]
    rw [h, add_comm]
  · simp only [if_neg hsucceeded]
    exact h

theorem Adds.skipAll (h : Adds outcomes t) (indices : List ℕ) :
    Adds outcomes (t.skipAll py config syncMethod indices) := by
  unfold Tally.skipAll
  induction indices generalizing t with
  | nil => exact h
  | cons i indices ih => exact ih h

theorem Adds.runSequential (h : Adds outcomes t) (indices : List ℕ) :
    Adds outcomes (runSequential py config syncMethod outcomes indices t) := by
  induction indices generalizing t with
  | nil => exact h
  | cons i indices ih =>
      have hnext := @Adds.process py outcomes (t.start i) h i
      unfold DataSync.runSequential
      simp only
      split
      · exact hnext.skipAll config indices
      · exact ih hnext

theorem adds_submitNext {p : Pool} (h : Adds outcomes p.tally) (n : ℕ) :
    Adds outcomes (p.submitNext n).tally := by
  unfold Pool.submitNext
  split
  · exact h
  · exact h

theorem adds_fill {p : Pool} (h : Adds outcomes p.tally) (n k : ℕ) :
    Adds outcomes (Pool.fill n k p).tally := by
  induction k generalizing p with
  | zero => exact h
  | succ k ih => exact ih (adds_submitNext h n)

theorem adds_takeAll {p : Pool} (h : Adds outcomes p.tally) (n : ℕ) (done : List ℕ) :
    Adds outcomes (done.foldl (fun p i => p.take py config outcomes n i) p).tally := by
  induction done generalizing p with
  | nil => exact h
  | cons i done ih => exact ih (adds_submitNext (h.process i) n)

theorem adds_drain (completion : Completion) {p : Pool} (h : Adds outcomes p.tally) (n turns k : ℕ) :
    Adds outcomes (Pool.drain py config outcomes completion n turns k p).tally := by
  induction turns generalizing k p with
  | zero => exact h
  | succ turns ih =>
      unfold Pool.drain
      split
      · exact h
      · exact ih (adds_takeAll config h n _) _

theorem adds_runTables (completion : Completion) (parallelism n : ℕ) (mappings : ℕ → Dict) :
    Adds outcomes
      (runTables py config syncMethod outcomes completion parallelism n { mappings := mappings }) := by
  have hstart : Adds outcomes { mappings := mappings } := rfl
  unfold runTables
  split
  · exact hstart.runSequential config _
  · have hfilled := adds_fill (p := { tally := { mappings := mappings } }) hstart n (min parallelism n)
    have hdrained := @adds_drain py config outcomes completion _ hfilled n n 0
    unfold runParallel
    simp only
    split
    · exact hdrained.skipAll config _
    · exact hdrained

theorem sum_reported_le {l : List ℕ} (loads : ℕ → BatchLoads) :
    (l.map fun i => reportedRows (loads i)).sum ≤ (l.map fun i => countedRows (loads i)).sum := by
  induction l with
  | nil => exact le_refl _
  | cons i l ih =>
      have hle := reportedRows_le (loads i)
      rw [List.map_cons, List.map_cons, List.sum_cons, List.sum_cons]
      omega

theorem sum_counted_eq_iff {l : List ℕ} {loads : ℕ → BatchLoads}
    (h : ∀ i ∈ l, ∀ load ∈ loads i, load.1 ≠ 0) :
    (l.map fun i => countedRows (loads i)).sum = (l.map fun i => reportedRows (loads i)).sum ↔
      ∀ i ∈ l, ∀ load ∈ loads i, load.2 ≠ 0 := by
  induction l with
  | nil => simp
  | cons i l ih =>
      obtain ⟨hi, hl⟩ := List.forall_mem_cons.mp h
      rw [List.forall_mem_cons, ← ih hl, ← countedRows_eq_iff hi]
      have hle := reportedRows_le (loads i)
      have hsum := sum_reported_le (l := l) loads
      rw [List.map_cons, List.map_cons, List.sum_cons, List.sum_cons]
      constructor
      · intro heq
        exact ⟨by omega, by omega⟩
      · rintro ⟨hhead, htail⟩
        rw [hhead, htail]

theorem tableRun_counts (hint : ∀ n, py.int (.num n) = .ok n) {env : Env} {mapping : Dict}
    {run : TableRun mapping}
    (h : tableRun py dorisType (env.loading py calls) engine config nowText mapping = .ok run) :
    SucceededCounts py calls env run.outcome.result := by
  have hends := (@executeMapping_counts py calls dorisType engine config nowText hint env).ends
    { mapping := mapping } trivial
  unfold tableRun at h
  split at h
  · cases h
  · next result w heq =>
      rw [heq] at hends
      cases h
      exact hends

/-- The rows reported for a table, and in all for the tables of a task, are those that Doris reported
exactly when no batch was reported with zero loaded rows. -/
theorem loadedRows_iff (hint : ∀ n, py.int (.num n) = .ok n) :
    (∀ (env : Env) (calls : ℕ → Call) (w : World) (result : Dict),
      (executeOneTable py dorisType (env.loading py calls) engine config w).1 = .ok result →
      result.get "sync_method" ≠ .str "insert_select" →
        ∃ loads, TableLoads py calls env result loads ∧
          (result.get "loaded_rows" = .num (reportedRows loads) ↔ ∀ load ∈ loads, load.2 ≠ 0)) ∧
    ∀ (envs : ℕ → Env) (calls : ℕ → ℕ → Call) (mappings : ℕ → Dict)
      (runs : ∀ i, TableRun (mappings i)) (completion : Completion) (parallelism n : ℕ),
      let outcomes := fun i => (runs i).outcome
      let t := runTables py config syncMethod outcomes completion parallelism n { mappings := mappings }
      (∀ i ∈ t.loadedTables outcomes,
        tableRun py dorisType ((envs i).loading py (calls i)) engine config nowText (mappings i) =
          .ok (runs i) ∧ (outcomes i).result.get "sync_method" ≠ .str "insert_select") →
        ∃ loads : ℕ → BatchLoads,
          (∀ i ∈ t.loadedTables outcomes,
            TableLoads py (calls i) (envs i) (outcomes i).result (loads i)) ∧
          ((report n t).loadedRows = ((t.loadedTables outcomes).map fun i => reportedRows (loads i)).sum ↔
            ∀ i ∈ t.loadedTables outcomes, ∀ load ∈ loads i, load.2 ≠ 0) := by
  constructor
  · intro env calls w result hrun hmethod
    obtain ⟨loads, hloads⟩ := tableLoads_of_run dorisType engine config hint hrun hmethod
    exact ⟨loads, hloads, hloads.reported_iff⟩
  · intro envs calls mappings runs completion parallelism n outcomes t htables
    have hloads : ∀ i ∈ t.loadedTables outcomes,
        ∃ loads, TableLoads py (calls i) (envs i) (outcomes i).result loads := by
      intro i hi
      obtain ⟨hrun, hmethod⟩ := htables i hi
      have hsucceeded : succeeded (outcomes i).result = true := (List.mem_filter.mp hi).2
      exact tableRun_counts dorisType engine config nowText hint hrun hsucceeded hmethod
    choose! loads hloads using hloads
    refine ⟨loads, hloads, ?_⟩
    have hnonempty : ∀ i ∈ t.loadedTables outcomes, ∀ load ∈ loads i, load.1 ≠ 0 := by
      intro i hi
      obtain ⟨k, cursor, -, hsent⟩ := (hloads i hi).sent
      exact hsent.nonempty
    have htotal : (report n t).loadedRows =
        ((t.loadedTables outcomes).map fun i => countedRows (loads i)).sum := by
      have hadds : Adds outcomes t := adds_runTables config completion parallelism n mappings
      show t.totalRows = _
      rw [hadds]
      congr 1
      refine List.map_congr_left fun i hi => ?_
      unfold loadedRows
      rw [(hloads i hi).counted]
    rw [htotal]
    exact sum_counted_eq_iff hnonempty

/-! ### A batch without loaded rows -/

/-- Doris has loaded `n` rows of the batch. -/
def rowCall (n : ℤ) : Call where
  http := { host := "doris", username := "u", password := .ok "p", base64 := id, quoteUrl := id
            uuid := fun _ => "0", put := fun _ => .response 200 none "", rewriteRedirect := .ok
            retrySleep := .ok ()
            loads := fun _ => .value (.obj [("Status", .str "Success"), ("NumberTotalRows", .num 1),
              ("NumberLoadedRows", .num n)]) }
  database := "DWD"
  table := "CUSTOMER"
  columns := ["ID"]
  payload := "x"
  config := []
  batchIndex := 1

/-- A source with one row. -/
def oneRowEnv : Env where
  emit := fun _ => .ok ()
  waitReady := fun _ => .ok (0, false)
  recover := fun _ => .ok ([], true)
  connect := fun _ => .ok ()
  close := fun _ => .ok ()
  listTables := fun _ => .ok [.obj [("name", .str "CUSTOMER")]]
  listColumns := fun _ => .ok []
  switchCatalog := fun _ => .ok ()
  execute := fun _ => .ok 0
  query := fun _ => .ok { batches := [[.obj [("ID", .str "x")]]] }
  rowsToCsv := fun _ => .ok 2
  streamLoad := fun _ => .ok []

/-- The table of that source, with `n` of its one row loaded. -/
def oneRowRun (n : ℤ) : Except Raised Dict :=
  (executeOneTable Python.scalars (fun _ => "STRING")
    (oneRowEnv.loading Python.scalars fun _ => rowCall n) .mysql
    [("source_schema", .str "ODS"), ("target_database", .str "DWD")]
    { mapping := [("id", .str "m1"), ("source_table", .str "CUSTOMER"),
        ("source_columns", .arr [.obj [("name", .str "ID")]])] }).1

theorem rowCall_reports {n m : ℤ} (h : (rowCall n).Reports Python.scalars m) :
    m = n := by
  obtain ⟨body, parsed, -, hparsed, hm⟩ := h
  cases hparsed
  have hread : Python.scalars.int (orElse (orElse (.num n) .null) (.num 0)) = .ok m := hm
  unfold orElse at hread
  by_cases hn : n = 0
  · rw [hn] at hread ⊢
    cases hread
    rfl
  · have htruthy : (Json.num n).truthy = true := by
      simpa [Json.truthy] using hn
    rw [if_pos htruthy, if_pos htruthy] at hread
    cases hread
    rfl

theorem sentBatches_rowCall {n : ℤ} {k : ℕ} {batches : List (List Json)}
    (h : SentBatches Python.scalars (fun _ => rowCall n) k batches loads) : ∀ load ∈ loads, load.2 = n := by
  induction h with
  | done | stop => exact nofun
  | batch _ hreports _ ih =>
      rw [List.forall_mem_cons]
      exact ⟨rowCall_reports hreports, ih⟩

theorem oneRowRun_ok {n m : ℤ} (h : (oneRowRun n).toOption.map (fun result =>
      (loadedRows result, strOr Python.scalars (result.get "sync_method") "")) =
        some (m, "stream_load")) :
    ∃ result, oneRowRun n = .ok result ∧ loadedRows result = m ∧
      result.get "sync_method" ≠ .str "insert_select" := by
  cases hrun : oneRowRun n with
  | error exc =>
      rw [hrun] at h
      cases h
  | ok result =>
      rw [hrun] at h
      obtain ⟨hrows, hmethod⟩ := Prod.mk.inj (Option.some.inj h)
      refine ⟨result, rfl, hrows, fun heq => ?_⟩
      rw [heq] at hmethod
      exact absurd hmethod (by decide)

/-- The row is counted although Doris has filtered it out. -/
theorem filteredRow_counted : ∃ result loads, oneRowRun 0 = .ok result ∧
    TableLoads Python.scalars (fun _ => rowCall 0) oneRowEnv result loads ∧
      result.get "loaded_rows" ≠ .num (reportedRows loads) := by
  obtain ⟨result, hrun, hrows, hmethod⟩ := @oneRowRun_ok 0 1 (by decide +kernel)
  obtain ⟨loads, hloads⟩ := tableLoads_of_run _ _ _ (fun _ => rfl) hrun hmethod
  refine ⟨result, loads, hrun, hloads, fun hexact => ?_⟩
  have hnonzero := hloads.reported_iff.mp hexact
  obtain ⟨k, cursor, -, hsent⟩ := hloads.sent
  have hnil : loads = [] := List.eq_nil_iff_forall_not_mem.mpr fun load hload =>
    hnonzero load hload (sentBatches_rowCall hsent load hload)
  unfold loadedRows at hrows
  rw [hloads.counted, hnil] at hrows
  exact absurd hrows (by decide)

/-- A loaded row is counted as Doris reports it. -/
theorem loadedRow_counted : ∃ result loads, oneRowRun 1 = .ok result ∧
    TableLoads Python.scalars (fun _ => rowCall 1) oneRowEnv result loads ∧
      (result.get "loaded_rows" = .num (reportedRows loads) ↔ ∀ load ∈ loads, load.2 ≠ 0) := by
  obtain ⟨result, hrun, -, hmethod⟩ := @oneRowRun_ok 1 1 (by decide +kernel)
  obtain ⟨loads, hloads, hexact⟩ := (@loadedRows_iff Python.scalars (fun _ => "STRING") .mysql
    [("source_schema", .str "ODS"), ("target_database", .str "DWD")] "now" "stream_load"
    (fun _ => rfl)).1 oneRowEnv (fun _ => rowCall 1) _ result hrun hmethod
  exact ⟨result, loads, hrun, hloads, hexact⟩

end DataSync
