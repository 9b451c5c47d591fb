import RecoveryService.DataSync.Outcome

/-! # The scheduling of the tables

`execute_data_sync` runs the tables of a task one after the other, or with a window of
`table_parallelism` futures.  The result of each table is an `Outcome`; the order in which futures
complete is a `Completion`: at every turn of the loop `wait` gives some of the running futures, at
least one, in some order.  A table counts as started when it is handed to `execute_mapping` or to the
executor, which has a worker for each future of the window. -/

namespace DataSync

/-- What `wait(..., FIRST_COMPLETED)` gives at the turn `k` for the running futures. -/
structure Completion where
  done : ℕ → List ℕ → List ℕ
  running : ∀ k futures, (done k futures).Subperm futures
  progress : ∀ k futures, futures ≠ [] → done k futures ≠ []

/-- The futures complete in the order in which they were submitted. -/
def Completion.inOrder : Completion where
  done _ futures := futures.take 1
  running _ futures := (List.take_sublist 1 futures).subperm
  progress _ futures h := by
    cases futures with
    | nil => exact absurd rfl h
    | cons i rest => exact List.cons_ne_nil i []

/-- The local variables of the loops.  `started` has the tables started, each with the tables whose
results had been processed before. -/
structure Tally where
  indexedResults : ℕ → Option Dict := fun _ => none
  mappings : ℕ → Dict
  successCount : ℕ := 0
  failedCount : ℕ := 0
  skippedCount : ℕ := 0
  totalRows : ℤ := 0
  infrastructureStopMessage : Option String := none
  started : List (ℕ × List ℕ) := []
  processed : List ℕ := []
  skipped : List ℕ := []

section

variable (py : Python) (config : Dict) (syncMethod : String) (outcomes : ℕ → Outcome)

/-! ### Results -/

def succeeded (result : Dict) : Bool :=
  match result.get "status" with
  | .str status => status == "succeeded"
  | _ => false

/-- `result.get("stop_remaining")`. -/
def stopRemaining (result : Dict) : Bool := (result.get "stop_remaining").truthy

/-- `normalized.get("continue_on_error", True)`. -/
def continueOnError : Bool := (config.getOr "continue_on_error" (.bool true)).truthy

/-- The result decides that no further table is started. -/
def stops (result : Dict) : Bool :=
  !succeeded result && (stopRemaining result || !continueOnError config)

/-- `int(result.get("loaded_rows") or 0)` of a result of a table. -/
def loadedRows (result : Dict) : ℤ :=
  match result.get "loaded_rows" with
  | .num n => n
  | _ => 0

/-- `_table_event_mapping`. -/
def tableEventMapping (mapping : Dict) : Dict :=
  let text key := Json.str (strOr py (mapping.get key) (strOr py (config.get key) ""))
  [("mapping_id", .str (strOr py (orElse (mapping.get "id") (mapping.get "source_table")) "")),
    ("source_catalog", .str (strOr py (config.get "source_catalog") "internal")),
    ("source_schema", text "source_schema"),
    ("source_table", .str (strOr py (mapping.get "source_table") "")),
    ("target_database", text "target_database"),
    ("target_table",
      .str (strOr py (orElse (mapping.get "target_table") (mapping.get "source_table")) "")),
    ("sync_method", .str syncMethod),
    ("write_mode", .str (strOr py (config.get "write_mode") "")),
    ("schema_policy", text "schema_policy")]

/-- The part the two kinds of skipped results share. -/
def skippedFields (mapping : Dict) (message : String) (logs : List Json) : Dict :=
  let event := tableEventMapping py config syncMethod mapping
  [("table_id", event.get "mapping_id"), ("source_catalog", event.get "source_catalog"),
    ("source_schema", event.get "source_schema"), ("source_table", event.get "source_table"),
    ("target_database", event.get "target_database"), ("target_table", event.get "target_table"),
    ("sync_method", event.get "sync_method"), ("write_mode", event.get "write_mode"),
    ("schema_policy", event.get "schema_policy"), ("status", .str "skipped"),
    ("message", .str message), ("loaded_rows", .num 0), ("logs", .arr logs)]

/-- `_skipped_table_result`. -/
def skippedTableResult (mapping : Dict) : Dict :=
  skippedFields py config syncMethod mapping "前序表失败，且任务配置为失败后停止，当前表未执行。"
    [logEntry "INFO" "skipped" "前序表失败，当前表已跳过。"]

/-- `_infrastructure_skipped_table_result`. -/
def infrastructureSkippedTableResult (mapping : Dict) (reason : String) : Dict :=
  let message := "Doris/Catalog 在连接恢复窗口内仍不可用，当前表未开始执行，已停止故障扩散。" ++
    (if reason = "" then "" else " 首个基础设施错误：" ++ reason)
  skippedFields py config syncMethod mapping message
    [logEntry "WARNING" "infrastructure_skipped" message
      [("write_started", .bool false), ("sql_generated", .bool false)]] ++
    [("failure_type", .str "infrastructure_unavailable")]

/-- The result a skipped table gets. -/
def skippedResult (t : Tally) (mapping : Dict) : Dict :=
  match t.infrastructureStopMessage with
  | some reason => infrastructureSkippedTableResult py config syncMethod mapping reason
  | none => skippedTableResult py config syncMethod mapping

/-! ### Steps of the loops -/

def Tally.start (t : Tally) (i : ℕ) : Tally := { t with started := (i, t.processed) :: t.started }

/-- A result is processed: `indexed_results[index] = result` and the counters. -/
def Tally.process (t : Tally) (i : ℕ) (outcome : Outcome) : Tally :=
  let result := outcome.result
  let t := { t with
    indexedResults := Function.update t.indexedResults i (some result)
    mappings := Function.update t.mappings i outcome.mapping
    processed := i :: t.processed }
  if succeeded result then
    { t with successCount := t.successCount + 1, totalRows := t.totalRows + loadedRows result }
  else
    { t with
      failedCount := t.failedCount + 1
      infrastructureStopMessage :=
        if stopRemaining result then
          some (strOr py (result.get "message") "Doris/Catalog 基础设施未恢复。")
        else t.infrastructureStopMessage }

/-- A table is skipped. -/
def Tally.skip (t : Tally) (i : ℕ) : Tally :=
  let result := skippedResult py config syncMethod t (t.mappings i)
  { t with
    indexedResults := Function.update t.indexedResults i (some result)
    mappings := Function.update t.mappings i ((t.mappings i).set "last_result" (.obj result))
    skippedCount := t.skippedCount + 1
    skipped := i :: t.skipped }

/-- `for skipped_index in range(...)`. -/
def Tally.skipAll (t : Tally) (indices : List ℕ) : Tally :=
  indices.foldl (fun t i => t.skip py config syncMethod i) t

/-- The loop for `table_parallelism <= 1`. -/
def runSequential : List ℕ → Tally → Tally
  | [], t => t
  | i :: rest, t =>
      let t := (t.start i).process py i (outcomes i)
      if stops config (outcomes i).result then t.skipAll py config syncMethod rest
      else runSequential rest t

/-! ### The window of futures -/

/-- `runnable` has `n` tables. -/
structure Pool where
  tally : Tally
  nextIndex : ℕ := 0
  stopSubmit : Bool := false
  futures : List ℕ := []

/-- `submit_next`. -/
def Pool.submitNext (n : ℕ) (p : Pool) : Pool :=
  if n ≤ p.nextIndex ∨ p.stopSubmit = true then p
  else { p with
    tally := p.tally.start p.nextIndex
    futures := p.futures ++ [p.nextIndex]
    nextIndex := p.nextIndex + 1 }

/-- `for _ in range(min(table_parallelism, len(runnable))): submit_next()`. -/
def Pool.fill (n : ℕ) : ℕ → Pool → Pool
  | 0, p => p
  | k + 1, p => Pool.fill n k (p.submitNext n)

/-- One future of `done`. -/
def Pool.take (n : ℕ) (p : Pool) (i : ℕ) : Pool :=
  Pool.submitNext n
    { p with
      tally := p.tally.process py i (outcomes i)
      futures := p.futures.erase i
      stopSubmit := p.stopSubmit || stops config (outcomes i).result }

/-- `while futures:`; `turns` bounds the turns of the loop, `k` counts them. -/
def Pool.drain (completion : Completion) (n : ℕ) : ℕ → ℕ → Pool → Pool
  | 0, _, p => p
  | turns + 1, k, p =>
      if p.futures = [] then p
      else
        Pool.drain completion n turns (k + 1)
          ((completion.done k p.futures).foldl (fun p i => p.take py config outcomes n i) p)

/-- The loop for several futures; the tables left when the submission stopped are skipped. -/
def runParallel (completion : Completion) (parallelism n : ℕ) (t : Tally) : Tally :=
  let p := Pool.fill n (min parallelism n) { tally := t }
  let p := Pool.drain py config outcomes completion n n 0 p
  if p.stopSubmit = true then
    p.tally.skipAll py config syncMethod (List.range' p.nextIndex (n - p.nextIndex))
  else p.tally

/-! ### The report -/

/-- The parts of the result of `execute_data_sync` that the tables decide. -/
structure Report where
  status : String
  message : String
  successCount : ℕ
  failedCount : ℕ
  skippedCount : ℕ
  loadedRows : ℤ
  tableResults : List Dict

/-- Both loops, by the parallelism and the number of tables. -/
def runTables (completion : Completion) (parallelism n : ℕ) (t : Tally) : Tally :=
  if parallelism ≤ 1 ∨ n ≤ 1 then runSequential py config syncMethod outcomes (List.range n) t
  else runParallel py config syncMethod outcomes completion parallelism n t

/-- The part of `execute_data_sync` behind the loops. -/
def report (n : ℕ) (t : Tally) : Report where
  status := if t.failedCount = 0 then "succeeded" else if t.successCount ≠ 0 then "partial" else "failed"
  message := "数据同步完成：成功 " ++ toString t.successCount ++ " 张表，失败 " ++
    toString t.failedCount ++ " 张表，跳过 " ++ toString t.skippedCount ++ " 张表，写入 " ++
    toString t.totalRows ++ " 行。"
  successCount := t.successCount
  failedCount := t.failedCount
  skippedCount := t.skippedCount
  loadedRows := t.totalRows
  tableResults := (List.range n).filterMap t.indexedResults

/-! ### What the tally says -/

/-- The counters and the results are those of the tables processed and skipped; no table was started
behind a processed result that stops. -/
structure Sound (initial : ℕ → Dict) (t : Tally) : Prop where
  once : (t.processed ++ t.skipped).Nodup
  processed : ∀ i ∈ t.processed, t.indexedResults i = some (outcomes i).result
  skipped : ∀ i ∈ t.skipped, ∃ r, t.indexedResults i = some r ∧ r.get "status" = .str "skipped"
  success : t.successCount = t.processed.countP fun i => succeeded (outcomes i).result
  failed : t.failedCount = t.processed.countP fun i => !succeeded (outcomes i).result
  skips : t.skippedCount = t.skipped.length
  calm : ∀ x ∈ t.started, ∀ j ∈ x.2, stops config (outcomes j).result = false
  reason : t.skipped ≠ [] → t.failedCount ≠ 0
  mapped : ∀ i ∈ t.processed, t.mappings i = (outcomes i).mapping
  unmapped : ∀ i ∉ t.processed ++ t.skipped, t.mappings i = initial i
  marked : ∀ i ∈ t.skipped, ∃ r, t.indexedResults i = some r ∧
    t.mappings i = (initial i).set "last_result" (.obj r)

variable {py config syncMethod outcomes} {initial : ℕ → Dict}

theorem sound_initial : Sound config outcomes initial { mappings := initial } where
  once := List.nodup_nil
  processed := nofun
  skipped := nofun
  success := rfl
  failed := rfl
  skips := rfl
  calm := nofun
  reason := fun h => absurd rfl h
  mapped := nofun
  unmapped := fun _ _ => rfl
  marked := nofun

variable {t : Tally}

theorem Sound.start (h : Sound config outcomes initial t) (i : ℕ)
    (hcalm : ∀ j ∈ t.processed, stops config (outcomes j).result = false) :
    Sound config outcomes initial (t.start i) :=
  { h with
    calm := fun x hx => by
      obtain rfl | hx := List.mem_cons.mp hx
      · exact hcalm
      · exact h.calm x hx }

@[simp] theorem process_started (t : Tally) (i : ℕ) (o : Outcome) : (t.process py i o).started = t.started := by
  unfold Tally.process
  simp only
  split <;> rfl

@[simp] theorem process_processed (t : Tally) (i : ℕ) (o : Outcome) :
    (t.process py i o).processed = i :: t.processed := by
  unfold Tally.process
  simp only
  split <;> rfl

@[simp] theorem process_skipped (t : Tally) (i : ℕ) (o : Outcome) : (t.process py i o).skipped = t.skipped := by
  unfold Tally.process
  simp only
  split <;> rfl

@[simp] theorem process_results (t : Tally) (i : ℕ) (o : Outcome) :
    (t.process py i o).indexedResults = Function.update t.indexedResults i (some o.result) := by
  unfold Tally.process
  simp only
  split <;> rfl

@[simp] theorem process_mappings (t : Tally) (i : ℕ) (o : Outcome) :
    (t.process py i o).mappings = Function.update t.mappings i o.mapping := by
  unfold Tally.process
  simp only
  split <;> rfl

theorem process_success (t : Tally) (i : ℕ) (o : Outcome) : (t.process py i o).successCount =
      t.successCount + if succeeded o.result = true then 1 else 0 := by
  unfold Tally.process
  simp only
  split <;> simp

theorem process_failed (t : Tally) (i : ℕ) (o : Outcome) : (t.process py i o).failedCount =
      t.failedCount + if (!succeeded o.result) = true then 1 else 0 := by
  unfold Tally.process
  simp only
  split <;> simp_all

@[simp] theorem process_skippedCount (t : Tally) (i : ℕ) (o : Outcome) :
    (t.process py i o).skippedCount = t.skippedCount := by
  unfold Tally.process
  simp only
  split <;> rfl

theorem Sound.process (h : Sound config outcomes initial t) {i : ℕ} (hi : i ∉ t.processed ++ t.skipped) :
    Sound config outcomes initial (t.process py i (outcomes i)) := by
  have hne : ∀ j ∈ t.processed ++ t.skipped, j ≠ i := fun j hj he => hi (he ▸ hj)
  refine ⟨?_, ?_, ?_, ?_, ?_, ?_, ?_, ?_, ?_, ?_, ?_⟩
  · rw [process_processed, process_skipped, List.cons_append]
    exact List.nodup_cons.mpr ⟨hi, h.once⟩
  · intro j hj
    rw [process_results]
    rw [process_processed] at hj
    obtain rfl | hj := List.mem_cons.mp hj
    · exact Function.update_self _ _ _
    · rw [Function.update_of_ne (hne j (List.mem_append_left _ hj))]
      exact h.processed j hj
  · intro j hj
    rw [process_skipped] at hj
    rw [process_results, Function.update_of_ne (hne j (List.mem_append_right _ hj))]
    exact h.skipped j hj
  · rw [process_success, process_processed, List.countP_cons, h.success]
  · rw [process_failed, process_processed, List.countP_cons, h.failed]
  · rw [process_skippedCount, process_skipped]
    exact h.skips
  · rw [process_started]
    exact h.calm
  · intro hs
    rw [process_skipped] at hs
    have := h.reason hs
    rw [process_failed]
    omega
  · intro j hj
    rw [process_mappings]
    rw [process_processed] at hj
    obtain rfl | hj := List.mem_cons.mp hj
    · exact Function.update_self _ _ _
    · rw [Function.update_of_ne (hne j (List.mem_append_left _ hj))]
      exact h.mapped j hj
  · intro j hj
    rw [process_processed, process_skipped, List.cons_append, List.mem_cons, not_or] at hj
    rw [process_mappings, Function.update_of_ne hj.1]
    exact h.unmapped j hj.2
  · intro j hj
    rw [process_skipped] at hj
    have hji := hne j (List.mem_append_right _ hj)
    rw [process_results, process_mappings, Function.update_of_ne hji, Function.update_of_ne hji]
    exact h.marked j hj

theorem skippedResult_status (t : Tally) (mapping : Dict) :
    (skippedResult py config syncMethod t mapping).get "status" = .str "skipped" := by
  unfold skippedResult
  split <;> rfl

theorem Sound.skip (h : Sound config outcomes initial t) {i : ℕ} (hi : i ∉ t.processed ++ t.skipped)
    (hfailed : t.failedCount ≠ 0) : Sound config outcomes initial (t.skip py config syncMethod i) := by
  have hne : ∀ j ∈ t.processed ++ t.skipped, j ≠ i := fun j hj he => hi (he ▸ hj)
  refine ⟨?_, ?_, ?_, h.success, h.failed, ?_, h.calm, fun _ => hfailed, ?_, ?_, ?_⟩
  · change (t.processed ++ i :: t.skipped).Nodup
    exact List.nodup_middle.mpr (List.nodup_cons.mpr ⟨hi, h.once⟩)
  · intro j hj
    change Function.update t.indexedResults i _ j = _
    rw [Function.update_of_ne (hne j (List.mem_append_left _ hj))]
    exact h.processed j hj
  · intro j hj
    change ∃ r, Function.update t.indexedResults i _ j = some r ∧ _
    obtain rfl | hj := List.mem_cons.mp hj
    · exact ⟨_, Function.update_self _ _ _, skippedResult_status t _⟩
    · rw [Function.update_of_ne (hne j (List.mem_append_right _ hj))]
      exact h.skipped j hj
  · change t.skippedCount + 1 = (i :: t.skipped).length
    rw [h.skips, List.length_cons]
  · intro j hj
    change Function.update t.mappings i _ j = _
    rw [Function.update_of_ne (hne j (List.mem_append_left _ hj))]
    exact h.mapped j hj
  · intro j hj
    change j ∉ t.processed ++ i :: t.skipped at hj
    have hj' : j ≠ i ∧ j ∉ t.processed ++ t.skipped := by
      simp only [List.mem_append, List.mem_cons, not_or] at hj ⊢
      exact ⟨hj.2.1, hj.1, hj.2.2⟩
    change Function.update t.mappings i _ j = _
    rw [Function.update_of_ne hj'.1]
    exact h.unmapped j hj'.2
  · intro j hj
    change ∃ r, Function.update t.indexedResults i _ j = some r ∧
      Function.update t.mappings i _ j = _
    obtain rfl | hj := List.mem_cons.mp hj
    · refine ⟨_, Function.update_self _ _ _, ?_⟩
      rw [Function.update_self, h.unmapped j hi]
    · have hji := hne j (List.mem_append_right _ hj)
      rw [Function.update_of_ne hji, Function.update_of_ne hji]
      exact h.marked j hj

/-- Behind the loops: every table was processed or skipped, and the processed ones are those that
were started. -/
structure Complete (config : Dict) (outcomes : ℕ → Outcome) (initial : ℕ → Dict)
    (indices : List ℕ) (t : Tally) : Prop where
  sound : Sound config outcomes initial t
  all : (t.processed ++ t.skipped).Perm indices
  begun : (t.started.map Prod.fst).Perm t.processed

theorem Complete.skipAll {indices : List ℕ} (h : Complete config outcomes initial indices t) (rest : List ℕ)
    (hrest : (indices ++ rest).Nodup) (hfailed : t.failedCount ≠ 0) :
    Complete config outcomes initial (indices ++ rest) (t.skipAll py config syncMethod rest) := by
  induction rest generalizing t indices with
  | nil =>
      rw [List.append_nil]
      exact h
  | cons i rest ih =>
      have hi : i ∉ t.processed ++ t.skipped := by
        intro hmem
        exact (List.nodup_append.mp hrest).2.2 i (h.all.subset hmem) i List.mem_cons_self rfl
      have hskip : Complete config outcomes initial (indices ++ [i]) (t.skip py config syncMethod i) := by
        refine ⟨h.sound.skip hi hfailed, ?_, h.begun⟩
        have hperm : (t.processed ++ i :: t.skipped).Perm (i :: (t.processed ++ t.skipped)) :=
          List.perm_middle
        exact hperm.trans ((h.all.cons i).trans (List.perm_append_singleton i indices).symm)
      have hassoc : indices ++ i :: rest = indices ++ [i] ++ rest := by simp
      rw [hassoc] at hrest ⊢
      exact ih hskip hrest hfailed

theorem succeeded_of_stops {result : Dict} (h : stops config result = true) : succeeded result = false := by
  unfold stops at h
  cases hs : succeeded result with
  | false => rfl
  | true =>
      rw [hs] at h
      cases h

/-- A processed result that stops has failed. -/
theorem Sound.failed_of_stops (h : Sound config outcomes initial t) {j : ℕ} (hj : j ∈ t.processed)
    (hstops : stops config (outcomes j).result = true) : t.failedCount ≠ 0 := by
  have hfailed : (!succeeded (outcomes j).result) = true := by
    rw [succeeded_of_stops hstops]
    rfl
  have hpos : 0 < t.processed.countP fun i => !succeeded (outcomes i).result :=
    List.countP_pos_iff.mpr ⟨j, hj, hfailed⟩
  rw [h.failed]
  omega

/-! ### One after the other -/

theorem runSequential_complete (rest : List ℕ) {done : List ℕ} (h : Complete config outcomes initial done t)
    (hskipped : t.skipped = []) (hcalm : ∀ j ∈ t.processed, stops config (outcomes j).result = false)
    (hnodup : (done ++ rest).Nodup) : Complete config outcomes initial (done ++ rest)
      (runSequential py config syncMethod outcomes rest t) := by
  induction rest generalizing t done with
  | nil =>
      rw [List.append_nil]
      exact h
  | cons i rest ih =>
      have hi : i ∉ t.processed ++ t.skipped := by
        intro hmem
        exact (List.nodup_append.mp hnodup).2.2 i (h.all.subset hmem) i List.mem_cons_self rfl
      have hnext : Complete config outcomes initial (done ++ [i])
          ((t.start i).process py i (outcomes i)) := by
        refine ⟨(h.sound.start i hcalm).process hi, ?_, ?_⟩
        · rw [process_processed, process_skipped, List.cons_append]
          exact (h.all.cons i).trans (List.perm_append_singleton i done).symm
        · rw [process_started, process_processed]
          exact h.begun.cons i
      have hassoc : done ++ i :: rest = done ++ [i] ++ rest := by simp
      rw [hassoc] at hnodup ⊢
      simp only [runSequential]
      cases hstops : stops config (outcomes i).result with
      | true =>
          rw [if_pos rfl]
          apply hnext.skipAll rest hnodup
          apply hnext.sound.failed_of_stops _ hstops
          rw [process_processed]
          exact List.mem_cons_self
      | false =>
          rw [if_neg (by decide)]
          apply ih hnext
          · rw [process_skipped]
            exact hskipped
          · intro j hj
            rw [process_processed] at hj
            obtain rfl | hj := List.mem_cons.mp hj
            · exact hstops
            · exact hcalm j hj
          · exact hnodup

/-! ### The window -/

/-- The invariant of the loop over futures: the tables below `nextIndex` are those started, each is
running or processed, and the submission has stopped exactly when a processed result stops. -/
structure Windowed (config : Dict) (outcomes : ℕ → Outcome) (initial : ℕ → Dict)
    (parallelism n : ℕ) (p : Pool) : Prop where
  sound : Sound config outcomes initial p.tally
  unskipped : p.tally.skipped = []
  started : (p.tally.started.map Prod.fst).Perm (List.range p.nextIndex)
  running : (p.futures ++ p.tally.processed).Perm (List.range p.nextIndex)
  bounded : p.nextIndex ≤ n
  stopped : p.stopSubmit = true ↔ ∃ j ∈ p.tally.processed, stops config (outcomes j).result = true
  window : p.futures.length ≤ parallelism

variable {parallelism n : ℕ} {p : Pool}

theorem Windowed.calm (h : Windowed config outcomes initial parallelism n p) (hgo : p.stopSubmit = false) :
    ∀ j ∈ p.tally.processed, stops config (outcomes j).result = false := by
  intro j hj
  cases hs : stops config (outcomes j).result with
  | false => rfl
  | true =>
      rw [h.stopped.mpr ⟨j, hj, hs⟩] at hgo
      cases hgo

/-- `submit_next` with a free place in the window. -/
theorem Windowed.submitNext (h : Windowed config outcomes initial parallelism n p)
    (hfree : p.futures.length < parallelism) : Windowed config outcomes initial parallelism n (p.submitNext n) ∧
      ((p.submitNext n).stopSubmit = false → (p.submitNext n).futures = [] →
        (p.submitNext n).nextIndex = n) := by
  unfold Pool.submitNext
  split
  · rename_i hstay
    refine ⟨h, fun hgo _ => ?_⟩
    have hle := h.bounded
    obtain hn | hn := hstay
    · omega
    · rw [hn] at hgo
      cases hgo
  · rename_i hgo
    push Not at hgo
    have hcalm := h.calm (Bool.not_eq_true _ ▸ hgo.2)
    refine ⟨⟨h.sound.start _ hcalm, h.unskipped, ?_, ?_, ?_, h.stopped, ?_⟩, ?_⟩
    · change (p.nextIndex :: p.tally.started.map Prod.fst).Perm (List.range (p.nextIndex + 1))
      rw [List.range_succ]
      exact (h.started.cons _).trans (List.perm_append_singleton _ _).symm
    · change (p.futures ++ [p.nextIndex] ++ p.tally.processed).Perm (List.range (p.nextIndex + 1))
      rw [List.range_succ, List.append_assoc]
      exact List.perm_middle.trans ((h.running.cons _).trans (List.perm_append_singleton _ _).symm)
    · exact hgo.1
    · change (p.futures ++ [p.nextIndex]).length ≤ parallelism
      rw [List.length_append, List.length_singleton]
      exact hfree
    · intro _ hempty
      change p.futures ++ [p.nextIndex] = [] at hempty
      simp at hempty

/-- Nothing waits: the submission has stopped, a future runs or all tables were started. -/
def Busy (n : ℕ) (p : Pool) : Prop :=
  p.stopSubmit = false → p.futures = [] → p.nextIndex = n

theorem Windowed.fill (k : ℕ) (h : Windowed config outcomes initial parallelism n p)
    (hfree : p.futures.length + k ≤ parallelism) (hbusy : 0 < k ∨ Busy n p) :
    Windowed config outcomes initial parallelism n (Pool.fill n k p) ∧ Busy n (Pool.fill n k p) := by
  induction k generalizing p with
  | zero => exact ⟨h, hbusy.resolve_left (Nat.lt_irrefl 0)⟩
  | succ k ih =>
      obtain ⟨hnext, hbusy'⟩ := h.submitNext (p := p) (by omega)
      refine ih hnext ?_ (Or.inr hbusy')
      unfold Pool.submitNext
      split
      · omega
      · change (p.futures ++ [p.nextIndex]).length + k ≤ parallelism
        rw [List.length_append, List.length_singleton]
        omega

/-- A future that is done leaves the window before the next table enters it. -/
theorem Windowed.take {i : ℕ} (h : Windowed config outcomes initial parallelism n p) (hi : i ∈ p.futures) :
    Windowed config outcomes initial parallelism n (p.take py config outcomes n i) ∧
      Busy n (p.take py config outcomes n i) := by
  have hnodup : (p.futures ++ p.tally.processed).Nodup :=
    h.running.nodup_iff.mpr List.nodup_range
  have hnew : i ∉ p.tally.processed ++ p.tally.skipped := by
    rw [h.unskipped, List.append_nil]
    exact fun hmem => (List.nodup_append.mp hnodup).2.2 i hi i hmem rfl
  have hlen : (p.futures.erase i).length < p.futures.length := by
    rw [List.length_erase_of_mem hi]
    have := List.length_pos_of_mem hi
    omega
  have hpop : Windowed config outcomes initial parallelism n
      { p with
        tally := p.tally.process py i (outcomes i)
        futures := p.futures.erase i
        stopSubmit := p.stopSubmit || stops config (outcomes i).result } := by
    refine ⟨h.sound.process hnew, ?_, ?_, ?_, h.bounded, ?_, ?_⟩
    · rw [process_skipped]
      exact h.unskipped
    · rw [process_started]
      exact h.started
    · rw [process_processed]
      refine (List.perm_middle.trans ?_).trans h.running
      rw [← List.cons_append]
      exact (List.perm_cons_erase hi).symm.append_right _
    · rw [process_processed]
      simp only [Bool.or_eq_true, h.stopped, List.mem_cons, exists_eq_or_imp]
      exact or_comm
    · have := h.window
      simp only
      omega
  have hwindow := h.window
  exact hpop.submitNext (by simp only; omega)

theorem take_futures {i : ℕ} (p : Pool) {j : ℕ} (hj : j ∈ p.futures) (hne : j ≠ i) :
    j ∈ (p.take py config outcomes n i).futures := by
  have herase : j ∈ p.futures.erase i := (List.mem_erase_of_ne hne).mpr hj
  unfold Pool.take Pool.submitNext
  split
  · exact herase
  · exact List.mem_append_left _ herase

theorem take_processed {i : ℕ} (p : Pool) :
    (p.take py config outcomes n i).tally.processed = i :: p.tally.processed := by
  unfold Pool.take Pool.submitNext
  split
  · exact process_processed _ _ _
  · exact process_processed _ _ _

variable (py) in
/-- The futures one call of `wait` gives. -/
theorem Windowed.takeAll (done : List ℕ) (h : Windowed config outcomes initial parallelism n p)
    (hbusy : Busy n p) (hnodup : done.Nodup) (hdone : ∀ i ∈ done, i ∈ p.futures) :
    let p' := done.foldl (fun p i => p.take py config outcomes n i) p
    Windowed config outcomes initial parallelism n p' ∧ Busy n p' ∧
      p'.tally.processed.length = p.tally.processed.length + done.length := by
  induction done generalizing p with
  | nil => exact ⟨h, hbusy, rfl⟩
  | cons i done ih =>
      obtain ⟨hi, hnodup⟩ := List.nodup_cons.mp hnodup
      obtain ⟨htake, hbusy'⟩ : Windowed config outcomes initial parallelism n
          (p.take py config outcomes n i) ∧ Busy n (p.take py config outcomes n i) :=
        h.take (hdone i List.mem_cons_self)
      have hrest : ∀ j ∈ done, j ∈ (p.take py config outcomes n i).futures := by
        intro j hj
        apply take_futures p (hdone j (List.mem_cons_of_mem _ hj))
        rintro rfl
        exact hi hj
      obtain ⟨hw, hb, hlen⟩ := ih htake hbusy' hnodup hrest
      refine ⟨hw, hb, ?_⟩
      rw [List.foldl_cons, hlen, take_processed, List.length_cons, List.length_cons]
      omega

variable (py) in
/-- The loop ends: every turn processes a result, and there are at most `n`. -/
theorem Windowed.drain (completion : Completion) (turns k : ℕ)
    (h : Windowed config outcomes initial parallelism n p) (hbusy : Busy n p)
    (hturns : n ≤ p.tally.processed.length + turns) :
    let p' := Pool.drain py config outcomes completion n turns k p
    Windowed config outcomes initial parallelism n p' ∧ Busy n p' ∧ p'.futures = [] := by
  induction turns generalizing k p with
  | zero =>
      refine ⟨h, hbusy, ?_⟩
      have hlen := h.running.length_eq
      have hle := h.bounded
      rw [List.length_append, List.length_range] at hlen
      change p.futures = []
      apply List.eq_nil_of_length_eq_zero
      omega
  | succ turns ih =>
      simp only [Pool.drain]
      split
      · rename_i hempty
        exact ⟨h, hbusy, hempty⟩
      · rename_i hne
        have hsub := completion.running k p.futures
        have hnodup : (completion.done k p.futures).Nodup := by
          have hfutures : p.futures.Nodup :=
            (List.nodup_append.mp (h.running.nodup_iff.mpr List.nodup_range)).1
          obtain ⟨l, hperm, hsublist⟩ := hsub
          exact hperm.nodup_iff.mp (hsublist.nodup hfutures)
        obtain ⟨hw, hb, hlen⟩ := h.takeAll py (completion.done k p.futures) hbusy hnodup
          (fun i hi => hsub.subset hi)
        have hpos := List.length_pos_of_ne_nil (completion.progress k p.futures hne)
        exact ih (k + 1) hw hb (by omega)

theorem windowed_initial (parallelism n : ℕ) :
    Windowed config outcomes initial parallelism n { tally := { mappings := initial } } where
  sound := sound_initial
  unskipped := rfl
  started := List.Perm.refl _
  running := List.Perm.refl _
  bounded := Nat.zero_le n
  stopped := by simp
  window := Nat.zero_le _

theorem runParallel_complete (completion : Completion) (hpar : 1 ≤ parallelism) (hn : 1 ≤ n) :
    Complete config outcomes initial (List.range n)
      (runParallel py config syncMethod outcomes completion parallelism n
        { mappings := initial }) := by
  obtain ⟨hfill, hbusy⟩ := (windowed_initial parallelism n :
    Windowed config outcomes initial parallelism n _).fill (min parallelism n)
      (by simp only [List.length_nil]; omega) (Or.inl (by omega))
  obtain ⟨h, hbusy, hempty⟩ := hfill.drain py completion n 0 hbusy (by omega)
  unfold runParallel
  simp only
  generalize Pool.drain py config outcomes completion n n 0
    (Pool.fill n (min parallelism n) { tally := { mappings := initial } }) = p at h hbusy hempty
  have hprocessed : p.tally.processed.Perm (List.range p.nextIndex) := by
    have := h.running
    rwa [hempty] at this
  have hsofar : Complete config outcomes initial (List.range p.nextIndex) p.tally := by
    refine ⟨h.sound, ?_, h.started.trans hprocessed.symm⟩
    rw [h.unskipped, List.append_nil]
    exact hprocessed
  split
  · rename_i hstop
    obtain ⟨j, hj, hstops⟩ := h.stopped.mp hstop
    have hsplit : List.range n = List.range p.nextIndex ++
        List.range' p.nextIndex (n - p.nextIndex) := by
      have hle := h.bounded
      have happend := @List.range'_append_1 0 p.nextIndex (n - p.nextIndex)
      rw [Nat.zero_add, Nat.add_sub_cancel' hle] at happend
      rw [List.range_eq_range', List.range_eq_range', happend]
    rw [hsplit]
    apply hsofar.skipAll
    · rw [← hsplit]
      exact List.nodup_range
    · exact h.sound.failed_of_stops hj hstops
  · rename_i hgo
    rw [Bool.not_eq_true] at hgo
    rw [← hbusy hgo hempty]
    exact hsofar

/-! ### The report -/

theorem runTables_complete (completion : Completion) (parallelism n : ℕ) :
    Complete config outcomes initial (List.range n)
      (runTables py config syncMethod outcomes completion parallelism n
        { mappings := initial }) := by
  unfold runTables
  split
  · have hstart : Complete config outcomes initial [] { mappings := initial } :=
      ⟨sound_initial, List.Perm.refl _, List.Perm.refl _⟩
    exact runSequential_complete (List.range n) hstart rfl nofun List.nodup_range
  · exact runParallel_complete completion (by omega) (by omega)

/-- Behind the loops `indexed_results` is a list with a result for every table. -/
theorem Complete.tableResults (h : Complete config outcomes initial (List.range n) t) :
    ∃ results : ℕ → Dict, (report n t).tableResults = (List.range n).map results ∧
      ∀ i < n, t.indexedResults i = some (results i) := by
  have hsome : ∀ i < n, ∃ r, t.indexedResults i = some r := by
    intro i hi
    have hmem : i ∈ t.processed ++ t.skipped := h.all.mem_iff.mpr (List.mem_range.mpr hi)
    obtain hp | hs := List.mem_append.mp hmem
    · exact ⟨_, h.sound.processed i hp⟩
    · obtain ⟨r, hr, -⟩ := h.sound.skipped i hs
      exact ⟨r, hr⟩
  have hget : ∀ i < n, t.indexedResults i = some ((t.indexedResults i).getD []) := by
    intro i hi
    obtain ⟨r, hr⟩ := hsome i hi
    rw [hr, Option.getD_some]
  refine ⟨fun i => (t.indexedResults i).getD [], ?_, hget⟩
  change (List.range n).filterMap t.indexedResults = _
  rw [← List.filterMap_eq_map]
  apply List.filterMap_congr
  intro i hi
  exact hget i (List.mem_range.mp hi)

theorem succeeded_iff (result : Dict) : succeeded result = true ↔ result.get "status" = .str "succeeded" := by
  unfold succeeded
  split
  · rename_i status hs
    rw [hs, beq_iff_eq, Json.str.injEq]
  · rename_i hs
    constructor
    · exact nofun
    · exact fun h => absurd h (hs "succeeded")

/-- A run without a failed table has no skipped one either. -/
theorem Complete.status_iff (h : Complete config outcomes initial (List.range n) t) :
    (report n t).status = "succeeded" ↔
      ∀ result ∈ (report n t).tableResults, result.get "status" = .str "succeeded" := by
  have hstatus : (report n t).status = "succeeded" ↔ t.failedCount = 0 := by
    unfold report
    simp only
    split
    · rename_i hz
      exact ⟨fun _ => hz, fun _ => rfl⟩
    · rename_i hnz
      refine ⟨fun he => ?_, fun hz => absurd hz hnz⟩
      split at he
      · exact absurd he (by decide)
      · exact absurd he (by decide)
  rw [hstatus, h.sound.failed, List.countP_eq_zero]
  change _ ↔ ∀ result ∈ (List.range n).filterMap t.indexedResults, _
  simp only [List.mem_filterMap, List.mem_range, forall_exists_index, and_imp]
  constructor
  · intro hall result i hi hr
    have hnone : t.skipped = [] := by
      by_contra hne
      apply h.sound.reason hne
      rw [h.sound.failed, List.countP_eq_zero]
      exact hall
    have hp : i ∈ t.processed := by
      have hmem := h.all.mem_iff.mpr (List.mem_range.mpr hi)
      rwa [hnone, List.append_nil] at hmem
    have hres := h.sound.processed i hp
    rw [hr, Option.some.injEq] at hres
    have hok := hall i hp
    rw [hres, ← succeeded_iff]
    simpa using hok
  · intro hall j hj
    have hj' : j < n := List.mem_range.mp (h.all.subset (List.mem_append_left _ hj))
    have hok := (succeeded_iff _).mpr (hall _ j hj' (h.sound.processed j hj))
    rw [hok]
    decide

/-- The result of a run, for every completion order and all outcomes of the tables: one result for
each table, in the order of the tables; the counters add up; the result of a started table is the one
it returned; the run has succeeded exactly when all tables have; no table is started twice, and none
behind a processed result that stops. -/
theorem runTables_report (completion : Completion) (parallelism n : ℕ) (mappings : ℕ → Dict) :
    let t := runTables py config syncMethod outcomes completion parallelism n
      { mappings := mappings }
    let r := report n t
    r.tableResults.length = n ∧
      (∀ result ∈ r.tableResults, Executed result ∨ result.get "status" = .str "skipped") ∧
      r.successCount + r.failedCount + r.skippedCount = n ∧
      (∀ x ∈ t.started, r.tableResults[x.1]? = some (outcomes x.1).result) ∧
      (r.status = "succeeded" ↔ ∀ result ∈ r.tableResults, result.get "status" = .str "succeeded") ∧
      (t.started.map Prod.fst).Nodup ∧
      (∀ x ∈ t.started, ∀ j ∈ x.2, stops config (outcomes j).result = false) := by
  intro t r
  have h : Complete config outcomes mappings (List.range n) t :=
    runTables_complete completion parallelism n
  obtain ⟨results, hresults, hindexed⟩ := h.tableResults
  have hlen := h.all.length_eq
  rw [List.length_append, List.length_range] at hlen
  have hcount : t.processed.length =
      t.processed.countP (fun i => succeeded (outcomes i).result) +
        t.processed.countP fun i => !succeeded (outcomes i).result := by
    have hsplit := List.length_eq_countP_add_countP (l := t.processed)
      fun i => succeeded (outcomes i).result
    simpa using hsplit
  have hstatus : ∀ i < n, (i ∈ t.processed ∧ results i = (outcomes i).result) ∨
      (i ∈ t.skipped ∧ (results i).get "status" = .str "skipped") := by
    intro i hi
    have hmem : i ∈ t.processed ++ t.skipped := h.all.mem_iff.mpr (List.mem_range.mpr hi)
    obtain hp | hs := List.mem_append.mp hmem
    · have hr := h.sound.processed i hp
      rw [hindexed i hi, Option.some.injEq] at hr
      exact Or.inl ⟨hp, hr⟩
    · obtain ⟨result, hr, hskip⟩ := h.sound.skipped i hs
      rw [hindexed i hi, Option.some.injEq] at hr
      exact Or.inr ⟨hs, hr ▸ hskip⟩
  have hmem : ∀ result, result ∈ r.tableResults ↔ ∃ i < n, results i = result := by
    intro result
    rw [hresults, List.mem_map]
    simp only [List.mem_range]
  refine ⟨?_, ?_, ?_, ?_, ?_, ?_, h.sound.calm⟩
  · rw [hresults, List.length_map, List.length_range]
  · intro result hresult
    obtain ⟨i, hi, rfl⟩ := (hmem result).mp hresult
    obtain ⟨-, hr⟩ | ⟨-, hr⟩ := hstatus i hi
    · rw [hr]
      exact Or.inl (outcomes i).executed
    · exact Or.inr hr
  · change t.successCount + t.failedCount + t.skippedCount = n
    rw [h.sound.success, h.sound.failed, h.sound.skips]
    omega
  · intro x hx
    have hp : x.1 ∈ t.processed := h.begun.subset (List.mem_map_of_mem hx)
    have hi : x.1 < n := List.mem_range.mp (h.all.subset (List.mem_append_left _ hp))
    have hr := h.sound.processed x.1 hp
    rw [hindexed x.1 hi, Option.some.injEq] at hr
    rw [hresults, List.getElem?_map, List.getElem?_range hi, Option.map_some, hr]
  · exact h.status_iff
  · exact h.begun.nodup_iff.mpr (List.nodup_append.mp h.sound.once).1

end

end DataSync
