import RecoveryService.DataSync.Prepared

/-! # When the configuration patch is faithful

The patch finds the copy of a mapping again by its key, so it is faithful for every run exactly when
the keys of the mappings that are run tell them apart: `patch_faithful_iff`. -/

namespace DataSync

section

variable {py : Python} {fresh : ℕ → String} {maxTableParallelism : ℤ} {config : Dict}
  {raw : List Dict} {p : Prepared}

/-- One entry for each mapping of the configuration, in order and faithful. -/
def PatchFaithful (py : Python) (p : Prepared) (r : RunResult) : Prop :=
  List.Forall₂ (Faithful r.report.tableResults) (p.parts py) r.tableMappings

/-- The tables of the run, each with what it may return. -/
abbrev Prepared.TableRuns (py : Python) (p : Prepared) : Type :=
  ∀ k, TableRun ((p.runnable py).getD k [])

/-- The run with these returns. -/
def Prepared.execute (p : Prepared) (nowText syncMethod : String) (completion : Completion)
    (runs : p.TableRuns py) : RunResult :=
  runPrepared py nowText syncMethod p completion fun k => (runs k).outcome

/-- The parts are those of the mappings, one for each and in order. -/
theorem Prepares.parts_original (h : Prepares py fresh maxTableParallelism config raw p)
    (hfresh : FreshIds py fresh raw) : (p.parts py).map Part.original = p.originals := by
  obtain hlined | ⟨hparts, -⟩ := h.lined hfresh
  · exact hlined.map_original
  · rw [hparts, List.map_map]
    exact List.map_id _

/-! ### Behind the tables -/

theorem tally_complete (p : Prepared) (syncMethod : String) (completion : Completion) (runs : p.TableRuns py) :
    Complete p.config (fun k => (runs k).outcome) (fun k => (p.runnable py).getD k [])
      (List.range (p.runnable py).length)
      (p.tally py syncMethod completion fun k => (runs k).outcome) :=
  runTables_complete completion p.parallelism (p.runnable py).length

/-- A table of the run leaves its result, also when it was skipped. -/
theorem tally_ran (p : Prepared) (nowText syncMethod : String) (completion : Completion)
    (runs : p.TableRuns py) {k : ℕ} {copy : Dict} (hk : (p.runnable py)[k]? = some copy) :
    Ran (p.execute nowText syncMethod completion runs).report.tableResults k copy
      ((p.tally py syncMethod completion fun k => (runs k).outcome).mappings k) := by
  have h := tally_complete p syncMethod completion runs
  obtain ⟨results, hresults, hindexed⟩ := h.tableResults
  have hlt : k < (p.runnable py).length := (List.getElem?_eq_some_iff.mp hk).1
  have hget : (p.runnable py).getD k [] = copy := by
    rw [List.getD_eq_getElem?_getD, hk, Option.getD_some]
  have hresult : (p.execute nowText syncMethod completion runs).report.tableResults[k]? =
      some (results k) := by
    change (report _ _).tableResults[k]? = _
    rw [hresults, List.getElem?_map, List.getElem?_range hlt, Option.map_some]
  have hmem := h.all.mem_iff.mpr (List.mem_range.mpr hlt)
  obtain hp | hs := List.mem_append.mp hmem
  · have hr := h.sound.processed k hp
    rw [hindexed k hlt, Option.some.injEq] at hr
    have hmapping := h.sound.mapped k hp
    rw [hmapping]
    refine ⟨⟨_, hresult, hr ▸ (runs k).outcome.carries⟩, ?_⟩
    intro key hkey
    rw [(runs k).kept key hkey, hget]
  · obtain ⟨r, hr, hmapping⟩ := h.sound.marked k hs
    rw [hindexed k hlt, Option.some.injEq] at hr
    rw [hmapping]
    refine ⟨⟨_, hresult, hr ▸ Dict.get_set_self _ _⟩, ?_⟩
    intro key hkey
    rw [get_written_ne _ _ hkey, hget]

/-- `table_mappings` behind the run. -/
def Prepared.final (p : Prepared) (syncMethod : String) (completion : Completion)
    (runs : p.TableRuns py) : List Dict :=
  finalMappings py p.selected
    (p.tally py syncMethod completion fun k => (runs k).outcome).mappings p.tableMappings 0

theorem Prepares.patched (h : Prepares py fresh maxTableParallelism config raw p)
    (hfresh : FreshIds py fresh raw) (nowText syncMethod : String) (completion : Completion)
    (runs : p.TableRuns py) : Patched py p.selected (p.parts py) (p.final syncMethod completion runs)
      (p.tally py syncMethod completion fun k => (runs k).outcome).mappings
      (p.execute nowText syncMethod completion runs).report.tableResults := by
  have horiginals := h.parts_original hfresh
  have hkeys : ((p.parts py).map fun part => mappingKey py part.original) =
      p.originals.map (mappingKey py) := by
    rw [← horiginals, List.map_map]
    rfl
  obtain hlined | ⟨hparts, m, hm, hkey⟩ := h.lined hfresh
  · refine ⟨?_, ?_, hlined.number_inj, ?_⟩
    · rw [hkeys]
      exact hlined.copied
    · intro part hpart i hi
      obtain ⟨-, copy, hcopy, hget⟩ := hlined.numbered part hpart i hi
      exact ⟨copy, hcopy, tally_ran p nowText syncMethod completion runs hget⟩
    · intro _ _ f _
      exact hlined.mem_final _ f
  · -- the one table of the run belongs to no mapping of the configuration
    have hout : ∀ part ∈ p.parts py, part.copy = none ∧ part.number = none := by
      rw [hparts]
      simp only [List.mem_map]
      rintro part ⟨original, -, rfl⟩
      exact ⟨rfl, rfl⟩
    refine ⟨?_, ?_, ?_, ?_⟩
    · intro part hpart copy hcopy
      rw [(hout part hpart).1] at hcopy
      cases hcopy
    · intro part hpart i hi
      rw [(hout part hpart).2] at hi
      cases hi
    · intro part hpart _ _ i hi
      rw [(hout part hpart).2] at hi
      cases hi
    · intro part hpart f hf
      have horiginal : part.original ∈ p.originals := horiginals ▸ List.mem_map_of_mem hpart
      constructor
      · intro hmem
        have hfm : mappingKey py f = mappingKey py m := by
          unfold Prepared.final at hmem
          rw [hm] at hmem
          unfold finalMappings at hmem
          split at hmem
          · rename_i hrun
            have hget : (p.runnable py)[0]? = some m := by
              unfold Prepared.runnable
              rw [hm, List.filter_cons_of_pos hrun, List.getElem?_cons_zero]
            rw [finalMappings, List.mem_singleton] at hmem
            rw [hmem]
            exact (tally_ran p nowText syncMethod completion runs hget).key
          · rw [finalMappings, List.mem_singleton] at hmem
            rw [hmem]
        exact absurd (hfm.symm.trans hf) (hkey _ horiginal)
      · rintro ⟨other, hother, copy, hcopy, -⟩
        rw [(hout other hother).1] at hcopy
        cases hcopy

theorem Prepares.entries (h : Prepares py fresh maxTableParallelism config raw p)
    (hfresh : FreshIds py fresh raw) (nowText syncMethod : String) (completion : Completion)
    (runs : p.TableRuns py) :
    PatchFaithful py p (p.execute nowText syncMethod completion runs) ↔ ∀ part ∈ p.parts py,
      Faithful (p.execute nowText syncMethod completion runs).report.tableResults part
        (entry py (p.final syncMethod completion runs) part.original) := by
  have hentries : (p.execute nowText syncMethod completion runs).tableMappings =
      (p.parts py).map fun part =>
        entry py (p.final syncMethod completion runs) part.original := by
    change p.originals.map _ = _
    rw [← h.parts_original hfresh, List.map_map]
    rfl
  unfold PatchFaithful
  rw [hentries, List.forall₂_map_right_iff, List.forall₂_same]

/-! ### Runs that tell the tables apart -/

/-- The result of a table that has loaded `rows` rows. -/
def loadedResult (rows : ℕ) : Dict := [("status", .str "succeeded"), ("loaded_rows", .num rows)]

theorem loadedResult_inj {m n : ℕ} (h : loadedResult m = loadedResult n) : m = n := by
  unfold loadedResult at h
  simp only [List.cons.injEq, Prod.mk.injEq, Json.num.injEq] at h
  omega

/-- A table that loads `rows` rows. -/
def loadedRun (rows : ℕ) (mapping : Dict) : TableRun mapping where
  outcome :=
    { mapping := mapping.set "last_result" (.obj (loadedResult rows))
      result := loadedResult rows
      executed := Or.inl rfl
      carries := Dict.get_set_self _ _ }
  kept _ hkey := get_written_ne _ _ hkey

/-- A run in which every table loads rows, the table number `k` as many as `b + k`. -/
def Prepared.loadedRuns (p : Prepared) (b : ℕ) : p.TableRuns py := fun k => loadedRun (b + k) _

/-- Where all tables succeed, none is skipped. -/
theorem tally_succeeded (p : Prepared) (syncMethod : String) (completion : Completion)
    (runs : p.TableRuns py) (hall : ∀ k, succeeded (runs k).outcome.result = true) {k : ℕ}
    (hk : k < (p.runnable py).length) : let t := p.tally py syncMethod completion fun k => (runs k).outcome
    t.indexedResults k = some (runs k).outcome.result ∧ t.mappings k = (runs k).outcome.mapping := by
  intro t
  have hcomplete := tally_complete p syncMethod completion runs
  have hnone : t.skipped = [] := by
    by_contra hne
    apply hcomplete.sound.reason hne
    rw [hcomplete.sound.failed, List.countP_eq_zero]
    intro i _
    rw [hall i]
    decide
  have hmem : k ∈ t.processed ++ t.skipped := hcomplete.all.mem_iff.mpr (List.mem_range.mpr hk)
  rw [hnone, List.append_nil] at hmem
  exact ⟨hcomplete.sound.processed k hmem, hcomplete.sound.mapped k hmem⟩

theorem loadedRuns_result (p : Prepared) (nowText syncMethod : String) (b : ℕ) {k : ℕ} {result : Dict}
    (h : (p.execute nowText syncMethod .inOrder (p.loadedRuns b : p.TableRuns py)).report.tableResults[k]? =
      some result) : result = loadedResult (b + k) := by
  have hcomplete := tally_complete p syncMethod .inOrder (p.loadedRuns b : p.TableRuns py)
  obtain ⟨results, hresults, hindexed⟩ := hcomplete.tableResults
  change (report _ _).tableResults[k]? = _ at h
  rw [hresults, List.getElem?_map, Option.map_eq_some_iff] at h
  obtain ⟨i, hi, rfl⟩ := h
  obtain ⟨hlt, hik⟩ := List.getElem?_eq_some_iff.mp hi
  rw [List.getElem_range] at hik
  rw [List.length_range] at hlt
  rw [← hik]
  have hr := (tally_succeeded p syncMethod .inOrder (p.loadedRuns b : p.TableRuns py)
    (fun _ => rfl) hlt).1
  rw [hindexed k hlt, Option.some.injEq] at hr
  exact hr

theorem exists_telling (p : Prepared) (nowText syncMethod : String) : ∃ b, Telling (p.parts py)
      (p.execute nowText syncMethod .inOrder (p.loadedRuns b : p.TableRuns py)).report.tableResults := by
  have hinj : Function.Injective fun n => Json.obj (loadedResult n) :=
    fun _ _ h => loadedResult_inj (Json.obj.inj h)
  obtain ⟨b, hb⟩ := Loops.exists_forall_notMem hinj ((p.parts py).flatMap fun part =>
    part.original.get "last_result" :: part.copy.toList.map fun copy => copy.get "last_result")
  refine ⟨b, ?_, ?_, ?_⟩
  · intro i j result hi hj
    have heq : loadedResult (b + i) = loadedResult (b + j) :=
      (loadedRuns_result p nowText syncMethod b hi).symm.trans
        (loadedRuns_result p nowText syncMethod b hj)
    have := loadedResult_inj heq
    omega
  · intro part hpart result hresult he
    obtain ⟨k, hk⟩ := List.mem_iff_getElem?.mp hresult
    apply hb k
    rw [← loadedRuns_result p nowText syncMethod b hk, ← he]
    exact List.mem_flatMap.mpr ⟨part, hpart, List.mem_cons_self⟩
  · intro part hpart copy hcopy result hresult he
    obtain ⟨k, hk⟩ := List.mem_iff_getElem?.mp hresult
    apply hb k
    rw [← loadedRuns_result p nowText syncMethod b hk, ← he]
    refine List.mem_flatMap.mpr ⟨part, hpart, List.mem_cons_of_mem _ ?_⟩
    rw [hcopy]
    exact List.mem_singleton_self _

end

/-! ### The whole run -/

/-- `execute_data_sync`.  `tables` runs the tables of the prepared run; it raises what gets out of a
table. -/
def executeDataSync (py : Python) (fresh : ℕ → String) (maxTableParallelism : ℤ) (nowText : String)
    (source target : Engine) (completion : Completion)
    (tables : ∀ p : Prepared, Except Raised (p.TableRuns py)) (config : Dict) :
    Except Raised RunResult := do
  let p ← prepare py fresh maxTableParallelism source target config
  let syncMethod ← resolveSyncMethod py (p.config.get "sync_method") source
  let runs ← tables p
  return p.execute nowText syncMethod completion runs

/-- `config_patch`. -/
def RunResult.configPatch (lastRunAt : String) (r : RunResult) : Dict :=
  [("table_mappings", .arr (r.tableMappings.map .obj)), ("last_run_at", .str lastRunAt),
    ("last_run_status", .str r.lastRunStatus), ("last_run_message", .str r.lastRunMessage),
    ("last_success_at", r.lastSuccessAt)]

/-! ### Two configurations -/

/-- A task with the given mappings. -/
def taskConfig (mappings : List Dict) : Dict :=
  [("source_connection_id", .str "warehouse"), ("source_schema", .str "ods"),
    ("target_database", .str "dwd"), ("table_mappings", .arr (mappings.map .obj))]

/-- A mapping with an id. -/
def ordersMapping : Dict := [("id", .str "m1"), ("source_table", .str "orders")]

/-- A mapping without one. -/
def idlessMapping : Dict := [("source_table", .str "orders")]

theorem freshIds_of_key {item : Dict} {id : String} (hne : id ≠ "")
    (h : mappingKey Python.scalars item ≠ id) : FreshIds Python.scalars (fun _ => id) [item] where
  ne _ := hne
  new _ _ hitem := by
    rw [List.mem_singleton.mp hitem]
    exact h

theorem exists_of_isSome {α ε : Type} {x : Except ε α} (h : x.toOption.isSome = true) : ∃ a, x = .ok a := by
  cases x with
  | error e => cases h
  | ok a => exact ⟨a, rfl⟩

end DataSync
