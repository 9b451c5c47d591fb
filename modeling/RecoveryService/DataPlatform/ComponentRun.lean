import RecoveryService.DataPlatform.ComponentConfig

/-! # The run of a data-sync component task

`run_queued_component_task` loads the node, makes the configuration of the run from the node's
configuration and the overrides of the run, runs the tables, and writes the configuration it loaded,
updated by the patch of the run, back to the node.  Users may save other configurations with
`update_node` in between: `edits` has what they submit while the run executes. -/

namespace RecoveryService.DataPlatform

open DataSync

/-! ### Rows -/

structure ComponentNode where
  id : String
  active : Bool
  nodeType : String
  config : Dict

structure ComponentRunRow where
  status : String
  selectedItems : Option (List Json)
  result : Dict

/-- `assistant_snapshot` of a batch. -/
structure AssistantSnapshot where
  dataSyncNodeId : String
  syncConfig : Dict

/-- The other rows a run reads: the snapshot of a batch, the engine of a connection profile and the
options of the restore task of a batch. -/
structure Rows where
  snapshot : Json → Except Raised (Option AssistantSnapshot)
  profile : String → Except Raised (Option Engine)
  restoreOptions : Json → Except Raised (Option Dict)

section

variable (py : Python) (rows : Rows)

/-- `update_node` with the configuration `submitted`: what it raises leaves the node as it is. -/
def saveConfig (stored submitted : Dict) : Dict :=
  match normalizeComponentTaskConfig py submitted with
  | .ok config => config
  | .error _ => stored

/-- `runtime_overrides` of a run. -/
def ComponentRunRow.overrides (run : ComponentRunRow) : Dict :=
  ((run.result.get "runtime_overrides").toDict).getD []

def ComponentRunRow.syncAllTables (run : ComponentRunRow) : Bool :=
  (run.overrides.get "sync_all_tables").truthy

/-! ### The configuration of the run -/

/-- `sync_config_for_batch`. -/
def syncConfigForBatch (batchId : Json) (nodeId : String) (fallback : Dict) : Except Raised Dict :=
  if batchId.truthy then do
    match ← rows.snapshot batchId with
    | none => return fallback
    | some snapshot =>
        if snapshot.dataSyncNodeId ≠ nodeId then
          .error (valueError "助手批次绑定的同步任务不匹配。")
        else return snapshot.syncConfig
  else return fallback

/-- `[{**dict(item), key: value} for item in config.get("table_mappings") or []]`. -/
def setInMappings (key value : String) (config : Dict) : Except Raised Dict :=
  match (config.get "table_mappings").toList with
  | none => .error { info := { kind := .other, name := "TypeError" } }
  | some items => do
      let mappings ← items.mapM fun item => match item with
        | .obj entries => return Json.obj (Dict.set entries key (.str value))
        | _ => .error { info := { kind := .other, name := "TypeError" } }
      return config.set "table_mappings" (.arr mappings)

/-- The schema of `restored_target`. -/
def ComponentRunRow.restoredSchema (run : ComponentRunRow) : String :=
  Text.strip (strOr py ((run.overrides.get "restored_target").get "schema") "")

/-- The configuration with the restored schema and the selected tables of the run. -/
def overriddenConfig (run : ComponentRunRow) (config : Dict) : Except Raised Dict := do
  let schema := run.restoredSchema py
  let config ← if schema = "" then .ok config
    else setInMappings "source_schema" schema (config.set "source_schema" (.str schema))
  return match run.selectedItems with
    | none => config
    | some items => config.set "selected_tables" (.arr items)

/-- The restore task of the batch has an Oracle profile and a generated password. -/
def hasDirectSource (batchId : Json) : Except Raised Bool :=
  if batchId.truthy then do
    match ← rows.restoreOptions batchId with
    | none => return false
    | some options =>
        let target := ((options.get "professional_flow").get "target")
        let reference := options.get "target_connection_profile"
        let profile ← if reference.truthy then rows.profile (py.str reference) else .ok none
        return profile.isSome && decide (strOr py (target.get "generated_user_password") "" ≠ "")
  else return false

/-- What a run starts with. -/
structure Plan where
  source : Engine
  target : Engine
  config : Dict

/-- The direct synchronisation from the restored schema.  `recognize` is
`recognize_data_sync_mappings`. -/
def directPlan (recognize : Dict → Except Raised (List Json)) (run : ComponentRunRow) (target : Engine)
    (config : Dict) : Except Raised Plan := do
  if ← hasDirectSource py rows (run.overrides.get "pipeline_batch_id") then
    let config ← setInMappings "source_catalog" "local_oracle"
      ((config.set "source_catalog" (.str "local_oracle")).set "sync_method" (.str "stream_load"))
    if run.syncAllTables then
      let mappings ← recognize config
      return { source := .oracle, target := target
               config := (config.set "table_mappings" (.arr mappings)).set "selected_tables" (.arr []) }
    else return { source := .oracle, target := target, config := config }
  else
    .error (valueError "恢复任务缺少 Oracle 目标连接快照或生成用户口令，无法直连同步。")

/-- The first `try` of `run_queued_component_task`. -/
def plan (recognize : Dict → Except Raised (List Json)) (run : ComponentRunRow) (node : ComponentNode) :
    Except Raised Plan := do
  let frozen ← syncConfigForBatch rows (run.overrides.get "pipeline_batch_id") node.id node.config
  let config ← normalizeComponentTaskConfig py frozen
  let config ← overriddenConfig py run config
  let source ← rows.profile (py.str (config.get "source_connection_id"))
  let target ← rows.profile (py.str (config.get "target_connection_id"))
  match source, target with
  | some source, some target =>
      if run.restoredSchema py = "" then
        return { source := source, target := target, config := config }
      else directPlan py rows recognize run target config
  | _, _ => .error (valueError "Data sync source or target connection does not exist.")

/-! ### The run -/

inductive ComponentEnd where
  | ignored (status : String)
  | raised (exc : Raised)
  | finished (result : RunResult)

/-- How the run has ended, and the configuration of the node behind it. -/
structure ComponentOutcome where
  config : Dict
  ended : ComponentEnd

/-- `run_queued_component_task`. -/
def runQueuedComponentTask (fresh : ℕ → String) (maxTableParallelism : ℤ)
    (recognize : Dict → Except Raised (List Json)) (run : ComponentRunRow) (node : ComponentNode)
    (edits : List Dict) (nowText lastRunAt : String) (completion : Completion)
    (tables : ∀ p : Prepared, Except Raised (p.TableRuns py)) : ComponentOutcome :=
  let saved := edits.foldl (saveConfig py) node.config
  if run.status ≠ "queued" then { config := saved, ended := .ignored run.status }
  else if node.active = false then
    { config := saved
      ended := .raised { info := { kind := .other, name := "KeyError",
                                   text := "Component task does not exist." } } }
  else if node.nodeType ≠ "data_sync" then
    { config := saved, ended := .raised (valueError "Only data sync component runs can be queued.") }
  else
    match plan py rows recognize run node with
    | .error exc => { config := saved, ended := .raised exc }
    | .ok plan =>
        match executeDataSync py fresh maxTableParallelism nowText plan.source plan.target completion
          tables plan.config with
        | .error exc => { config := saved, ended := .raised exc }
        | .ok result =>
            { config := if run.syncAllTables then saved
                else node.config.update (result.configPatch lastRunAt)
              ended := .finished result }

end

/-! ### Bookkeeping -/

/-- The keys of the bookkeeping of runs. -/
def isBookkeeping (key : String) : Bool := "last_".toList.isPrefixOf key.toList

def SameMapping (stored saved : Dict) : Prop :=
  ∀ key, isBookkeeping key = false → stored.lookup key = saved.lookup key

/-- The stored configuration is the saved one up to the bookkeeping of runs, in the configuration and
in each of its mappings. -/
structure BookkeepingOnly (saved stored : Dict) : Prop where
  fields : ∀ key, isBookkeeping key = false → key ≠ "table_mappings" →
    stored.lookup key = saved.lookup key
  mappings : Option.Rel (List.Forall₂ SameMapping) (rawMappings stored) (rawMappings saved)

theorem BookkeepingOnly.refl (config : Dict) : BookkeepingOnly config config where
  fields _ _ _ := rfl
  mappings := by
    cases rawMappings config with
    | none => exact .none
    | some mappings => exact .some (List.forall₂_same.mpr fun _ _ _ _ => rfl)

theorem BookkeepingOnly.trans {a b c : Dict} (hab : BookkeepingOnly a b) (hbc : BookkeepingOnly b c) :
    BookkeepingOnly a c where
  fields key hkey hne := (hbc.fields key hkey hne).trans (hab.fields key hkey hne)
  mappings := by
    have hmappings := hbc.mappings
    have hbefore := hab.mappings
    revert hmappings hbefore
    generalize rawMappings a = mappings
    generalize rawMappings b = mappings'
    generalize rawMappings c = mappings''
    intro hmappings hbefore
    cases hmappings with
    | none => exact hbefore
    | some h =>
        cases hbefore with
        | some h' =>
            refine .some (Loops.forall₂_trans (fun _ _ _ h h' => ?_) h h')
            exact fun key hkey => (h key hkey).trans (h' key hkey)

/-- A run that writes the configuration `config` of the node back leaves the saved configuration as it
is: nothing was saved beside the bookkeeping, the mappings the run works on are the saved ones, and the
key of none of them leads to a copy that is run. -/
structure Untouched (py : Python) (config saved : Dict) (p : Prepared) : Prop where
  fields : ∀ key, isBookkeeping key = false → key ≠ "table_mappings" →
    config.lookup key = saved.lookup key
  unmatched : ∀ original ∈ p.originals, ∀ copy,
    byId py p.tableMappings (mappingKey py original) = some copy → isRunnable py p.selected copy = false
  mappings : ∃ mappings, rawMappings saved = some mappings ∧
    List.Forall₂ SameMapping (p.originals.map (entry py p.tableMappings)) mappings

/-! ### What a run stores -/

section

variable {py : Python}

theorem key_ne_of_bookkeeping {k key : String} (hk : isBookkeeping k = true)
    (h : isBookkeeping key = false) : k ≠ key := by
  rintro rfl
  rw [hk] at h
  cases h

/-- The patch changes the mappings and the bookkeeping. -/
theorem lookup_patched (config : Dict) (r : RunResult) (lastRunAt : String) {key : String}
    (h : isBookkeeping key = false) (hne : key ≠ "table_mappings") :
    (config.update (r.configPatch lastRunAt)).lookup key = config.lookup key := by
  apply Dict.lookup_update_ne
  have hkey : ∀ k, isBookkeeping k = true → k ≠ key := fun k hk => key_ne_of_bookkeeping hk h
  unfold RunResult.configPatch
  simp only [List.forall_mem_cons]
  exact ⟨hne.symm, hkey _ (by decide), hkey _ (by decide), hkey _ (by decide), hkey _ (by decide),
    nofun⟩

theorem mapM_toDict (mappings : List Dict) : (mappings.map Json.obj).mapM Json.toDict = some mappings := by
  induction mappings with
  | nil => rfl
  | cons mapping mappings ih =>
      rw [List.map_cons, List.mapM_cons, ih]
      rfl

theorem rawMappings_patched (config : Dict) (r : RunResult) (lastRunAt : String) :
    rawMappings (config.update (r.configPatch lastRunAt)) = some r.tableMappings := by
  have hget : (config.update (r.configPatch lastRunAt)).get "table_mappings" =
      .arr (r.tableMappings.map .obj) := by
    change Dict.get (Dict.update (config.set "table_mappings" _) _) "table_mappings" = _
    unfold Dict.get
    rw [Dict.lookup_update_ne, Dict.lookup_set_self, Option.getD_some]
    simp only [List.forall_mem_cons]
    exact ⟨by simp, by simp, by simp, by simp, nofun⟩
  unfold rawMappings
  rw [hget]
  exact mapM_toDict r.tableMappings

/-- A table that leaves `n` entries in its runtime log. -/
def loggedRun (n : ℕ) (mapping : Dict) : TableRun mapping where
  outcome :=
    { mapping := (mapping.set "_runtime_logs"
        (.arr (List.replicate n (logEntry "INFO" "prepare" "")))).set "last_result"
        (.obj (loadedResult 0))
      result := loadedResult 0
      executed := Or.inl rfl
      carries := Dict.get_set_self _ _ }
  kept key hkey := by
    rw [get_written_ne _ _ hkey]
    exact get_set_written _ _ hkey (by decide)

theorem lookup_loggedRun (n : ℕ) (mapping : Dict) :
    (loggedRun n mapping).outcome.mapping.lookup "_runtime_logs" =
      some (.arr (List.replicate n (logEntry "INFO" "prepare" ""))) := by
  change List.lookup _ (Dict.set _ _ _) = _
  rw [Dict.lookup_set_ne _ _ (by decide), Dict.lookup_set_self]

/-- The entries of a patch, seen from the copies before the run: an entry is the one it had then, or it
was left by a table of the run. -/
theorem entry_final (py : Python) (p : Prepared) {Q : Dict → Dict → Prop} {mappings : ℕ → Dict}
    (hkey : ∀ copy f, Q copy f → mappingKey py f = mappingKey py copy)
    (hQ : ∀ (i : ℕ) copy, (p.runnable py)[i]? = some copy → Q copy (mappings i)) (original : Dict) :
    (entry py (finalMappings py p.selected mappings p.tableMappings 0) original =
        entry py p.tableMappings original ∧
      ∀ copy, byId py p.tableMappings (mappingKey py original) = some copy →
        isRunnable py p.selected copy = false) ∨
    ∃ copy, byId py p.tableMappings (mappingKey py original) = some copy ∧
      isRunnable py p.selected copy = true ∧
      Q copy (entry py (finalMappings py p.selected mappings p.tableMappings 0) original) := by
  have hfound := byId_final py p.selected p.tableMappings 0 hkey
    (fun i copy hi => by rw [Nat.zero_add]; exact hQ i copy hi) (mappingKey py original)
  unfold entry
  obtain ⟨hbefore, hbehind⟩ | ⟨copy, f, hbefore, hbehind, hrel⟩ := hfound
  · rw [hbefore, hbehind]
    exact Or.inl ⟨rfl, nofun⟩
  · rw [hbefore, hbehind]
    split at hrel
    · rename_i hrun
      exact Or.inr ⟨copy, rfl, hrun, hrel⟩
    · rename_i hrun
      rw [hrel]
      refine Or.inl ⟨rfl, fun other hother => ?_⟩
      rw [← Option.some.inj hother]
      exact Bool.not_eq_true _ ▸ hrun

variable {p : Prepared}

/-- The patch of a run without tables under the keys of the originals has the entries they had before
the run. -/
theorem tableMappings_of_unmatched (nowText syncMethod : String) (completion : Completion)
    (runs : p.TableRuns py) (h : ∀ original ∈ p.originals, ∀ copy,
      byId py p.tableMappings (mappingKey py original) = some copy →
        isRunnable py p.selected copy = false) :
    (p.execute nowText syncMethod completion runs).tableMappings =
      p.originals.map (entry py p.tableMappings) := by
  change p.originals.map _ = _
  apply List.map_congr_left
  intro original horiginal
  have hentry := entry_final py p
    (Q := fun copy f => mappingKey py f = mappingKey py copy)
    (fun _ _ hf => hf)
    (fun i copy hi => (tally_ran p nowText syncMethod completion runs hi).key) original
  obtain ⟨hentry, -⟩ | ⟨copy, hcopy, hrun, -⟩ := hentry
  · exact hentry
  · rw [h original horiginal copy hcopy] at hrun
    cases hrun

/-! ### The configuration behind the run -/

variable {rows : Rows} {fresh : ℕ → String} {maxTableParallelism : ℤ}
  {recognize : Dict → Except Raised (List Json)} {run : ComponentRunRow} {node : ComponentNode}

/-- What a run has prepared when its tables start. -/
def preparedRun (py : Python) (rows : Rows) (fresh : ℕ → String) (maxTableParallelism : ℤ)
    (recognize : Dict → Except Raised (List Json)) (run : ComponentRunRow) (node : ComponentNode) :
    Option Prepared :=
  if run.status = "queued" ∧ node.active = true ∧ node.nodeType = "data_sync" then
    match plan py rows recognize run node with
    | .error _ => none
    | .ok plan => (prepare py fresh maxTableParallelism plan.source plan.target plan.config).toOption
  else none

theorem prepare_syncMethod {source target : Engine} {config : Dict}
    (h : prepare py fresh maxTableParallelism source target config = .ok p) :
    ∃ syncMethod, resolveSyncMethod py (p.config.get "sync_method") source = .ok syncMethod := by
  unfold prepare at h
  obtain ⟨_, -, h⟩ := Checks.bind_eq_ok.mp h
  obtain ⟨_, -, h⟩ := Checks.bind_eq_ok.mp h
  split at h
  · cases h
  obtain ⟨normalized, -, h⟩ := Checks.bind_eq_ok.mp h
  obtain ⟨catalog, -, h⟩ := Checks.bind_eq_ok.mp h
  obtain ⟨method, hmethod, h⟩ := Checks.bind_eq_ok.mp h
  split at h
  · cases h
  split at h
  · cases h
  · cases h
    exact ⟨method, hmethod⟩

/-- A run whose tables do not start, or raise, leaves the saved configuration. -/
theorem config_of_not_finished (edits : List Dict) (nowText lastRunAt : String)
    (completion : Completion) (tables : ∀ p : Prepared, Except Raised (p.TableRuns py))
    (h : ∀ p, preparedRun py rows fresh maxTableParallelism recognize run node = some p →
      ∃ exc, tables p = .error exc) :
    (runQueuedComponentTask py rows fresh maxTableParallelism recognize run node edits nowText
      lastRunAt completion tables).config = edits.foldl (saveConfig py) node.config := by
  unfold runQueuedComponentTask
  simp only
  split
  · rfl
  split
  · rfl
  split
  · rfl
  rename_i hqueued hactive htype
  simp only [ne_eq, not_not, Bool.not_eq_false] at hqueued hactive htype
  cases hplan : plan py rows recognize run node with
  | error exc => rfl
  | ok plan =>
      simp only
      cases hp : prepare py fresh maxTableParallelism plan.source plan.target plan.config with
      | error exc =>
          unfold executeDataSync
          rw [hp]
          rfl
      | ok p =>
          have hprepared : preparedRun py rows fresh maxTableParallelism recognize run node = some p := by
            unfold preparedRun
            rw [if_pos ⟨hqueued, hactive, htype⟩, hplan]
            simp only
            rw [hp]
            rfl
          obtain ⟨exc, hexc⟩ := h p hprepared
          obtain ⟨method, hmethod⟩ := prepare_syncMethod hp
          unfold executeDataSync
          rw [hp]
          simp only [bind, Except.bind, hmethod, hexc]

/-- A run that finishes writes the configuration it has loaded, with its patch. -/
theorem config_of_finished (edits : List Dict) (nowText lastRunAt : String) (completion : Completion)
    (tables : ∀ p : Prepared, Except Raised (p.TableRuns py)) {runs : p.TableRuns py}
    (hprepared : preparedRun py rows fresh maxTableParallelism recognize run node = some p)
    (htables : tables p = .ok runs) (hall : run.syncAllTables = false) :
    ∃ syncMethod, (runQueuedComponentTask py rows fresh maxTableParallelism recognize run node edits
      nowText lastRunAt completion tables).config =
        node.config.update ((p.execute nowText syncMethod completion runs).configPatch lastRunAt) := by
  unfold preparedRun at hprepared
  split at hprepared
  · rename_i hstart
    obtain ⟨hqueued, hactive, htype⟩ := hstart
    split at hprepared
    · cases hprepared
    · rename_i plan hplan
      have hp := Checks.toOption_eq_some.mp hprepared
      obtain ⟨method, hmethod⟩ := prepare_syncMethod hp
      refine ⟨method, ?_⟩
      unfold runQueuedComponentTask executeDataSync
      simp only [hqueued, hactive, htype, hplan, hp, hmethod, htables, hall, bind, Except.bind, pure,
        Except.pure]
      rfl
  · cases hprepared

/-- A run that writes every table keeps the node's configuration: it is the saved one. -/
theorem config_of_syncAllTables (edits : List Dict) (nowText lastRunAt : String)
    (completion : Completion) (tables : ∀ p : Prepared, Except Raised (p.TableRuns py))
    (hall : run.syncAllTables = true) :
    (runQueuedComponentTask py rows fresh maxTableParallelism recognize run node edits nowText
      lastRunAt completion tables).config = edits.foldl (saveConfig py) node.config := by
  unfold runQueuedComponentTask
  simp only [hall, if_true]
  split
  · rfl
  split
  · rfl
  split
  · rfl
  split
  · rfl
  split
  · rfl
  · rfl

theorem logs_injective : Function.Injective fun n =>
    some (Json.arr (List.replicate n (logEntry "INFO" "prepare" ""))) := by
  intro m n h
  have hlist := Json.arr.inj (Option.some.inj h)
  have hlen := congrArg List.length hlist
  rwa [List.length_replicate, List.length_replicate] at hlen

/-- What a run that keeps the saved configuration has found. -/
theorem untouched_of_bookkeepingOnly {saved : Dict}
    (h : ∀ runs : p.TableRuns py, ∃ nowText syncMethod lastRunAt, BookkeepingOnly saved
      (node.config.update ((p.execute nowText syncMethod .inOrder runs).configPatch lastRunAt))) :
    Untouched py node.config saved p := by
  have hmappings : ∀ runs : p.TableRuns py, ∃ nowText syncMethod mappings,
      rawMappings saved = some mappings ∧ List.Forall₂ SameMapping
        (p.execute nowText syncMethod .inOrder runs).tableMappings mappings := by
    intro runs
    obtain ⟨nowText, syncMethod, lastRunAt, hb⟩ := h runs
    have hrel := hb.mappings
    rw [rawMappings_patched] at hrel
    cases hsaved : rawMappings saved with
    | none =>
        rw [hsaved] at hrel
        cases hrel
    | some mappings =>
        rw [hsaved] at hrel
        cases hrel with
        | some hrel => exact ⟨nowText, syncMethod, mappings, rfl, hrel⟩
  obtain ⟨_, _, saveds, hsaved, -⟩ := hmappings (p.loadedRuns 0)
  have hunmatched : ∀ original ∈ p.originals, ∀ copy,
      byId py p.tableMappings (mappingKey py original) = some copy →
        isRunnable py p.selected copy = false := by
    -- a table that is run may leave more log entries than any saved mapping has
    obtain ⟨n, hn⟩ := Loops.exists_forall_notMem logs_injective
      (saveds.map fun mapping => mapping.lookup "_runtime_logs")
    let runs : p.TableRuns py := fun k => loggedRun n _
    obtain ⟨nowText, syncMethod, mappings, hmappings, hrel⟩ := hmappings runs
    rw [hsaved, Option.some.injEq] at hmappings
    intro original horiginal copy hcopy
    have hentry := entry_final py p
      (Q := fun copy f => mappingKey py f = mappingKey py copy ∧
        f.lookup "_runtime_logs" = some (.arr (List.replicate n (logEntry "INFO" "prepare" ""))))
      (fun _ _ hf => hf.1)
      (fun i copy hi => by
        refine ⟨(tally_ran p nowText syncMethod .inOrder runs hi).key, ?_⟩
        have hlt := (List.getElem?_eq_some_iff.mp hi).1
        rw [(tally_succeeded p syncMethod .inOrder runs (fun _ => rfl) hlt).2]
        exact lookup_loggedRun n _) original
    obtain ⟨-, hstatic⟩ | ⟨_, -, -, -, hlogs⟩ := hentry
    · exact hstatic copy hcopy
    · have hmem := List.mem_map_of_mem (f := entry py (p.final syncMethod .inOrder runs)) horiginal
      obtain ⟨mapping, hmapping, hsame⟩ := (Loops.exists_of_forall₂ hrel).1 _ hmem
      have hlookup := hsame "_runtime_logs" (by decide)
      refine absurd ?_ (hn 0)
      rw [Nat.add_zero, ← hlogs]
      exact List.mem_map.mpr ⟨mapping, hmappings ▸ hmapping, hlookup.symm⟩
  refine ⟨?_, hunmatched, ?_⟩
  · obtain ⟨nowText, syncMethod, lastRunAt, hb⟩ := h (p.loadedRuns 0)
    intro key hkey hne
    rw [← hb.fields key hkey hne, lookup_patched _ _ _ hkey hne]
  · obtain ⟨nowText, syncMethod, mappings, hmappings, hrel⟩ := hmappings (p.loadedRuns 0)
    rw [tableMappings_of_unmatched nowText syncMethod .inOrder _ hunmatched] at hrel
    exact ⟨mappings, hmappings, hrel⟩

theorem bookkeepingOnly_of_untouched {saved : Dict} (h : Untouched py node.config saved p)
    (nowText syncMethod lastRunAt : String) (completion : Completion) (runs : p.TableRuns py) : BookkeepingOnly saved
      (node.config.update ((p.execute nowText syncMethod completion runs).configPatch lastRunAt)) := by
  obtain ⟨mappings, hmappings, hrel⟩ := h.mappings
  constructor
  · intro key hkey hne
    rw [lookup_patched _ _ _ hkey hne, h.fields key hkey hne]
  · rw [rawMappings_patched, hmappings,
      tableMappings_of_unmatched nowText syncMethod completion runs h.unmatched]
    exact .some hrel

/-- Behind a run that does not finish its tables, or leaves the saved configuration untouched, the stored
configuration is the one saved last, up to bookkeeping. -/
theorem componentRun_bookkeepingOnly (edits : List Dict) (nowText lastRunAt : String)
    (completion : Completion) (tables : ∀ p : Prepared, Except Raised (p.TableRuns py))
    (h : ∀ p runs, preparedRun py rows fresh maxTableParallelism recognize run node = some p →
      tables p = .ok runs → run.syncAllTables = false →
      Untouched py node.config (edits.foldl (saveConfig py) node.config) p) :
    BookkeepingOnly (edits.foldl (saveConfig py) node.config)
      (runQueuedComponentTask py rows fresh maxTableParallelism recognize run node edits nowText
        lastRunAt completion tables).config := by
  cases hsync : run.syncAllTables with
  | true =>
      rw [config_of_syncAllTables _ _ _ _ _ hsync]
      exact .refl _
  | false =>
      cases hprepared : preparedRun py rows fresh maxTableParallelism recognize run node with
      | none =>
          rw [config_of_not_finished _ _ _ _ _ fun p hp => by rw [hprepared] at hp; cases hp]
          exact .refl _
      | some p =>
          cases htables : tables p with
          | error exc =>
              rw [config_of_not_finished _ _ _ _ _ fun q hq => by
                rw [hprepared, Option.some.injEq] at hq
                exact ⟨exc, hq ▸ htables⟩]
              exact .refl _
          | ok runs =>
              obtain ⟨syncMethod, hconfig⟩ := config_of_finished edits nowText lastRunAt
                completion tables hprepared htables hsync
              rw [hconfig]
              exact bookkeepingOnly_of_untouched (h p runs hprepared htables hsync) nowText
                syncMethod lastRunAt completion runs

end

/-! ### An edit during a run -/

/-- The configuration of a task that writes the table `orders` to the database `database`. -/
def ordersTask (database : String) : Dict :=
  [("source_connection_id", .str "warehouse"), ("source_catalog", .str "internal"),
    ("source_schema", .str "ods"), ("target_database", .str database),
    ("table_mappings", .arr [.obj ordersMapping])]

def ordersNode : ComponentNode :=
  { id := "node", active := true, nodeType := "data_sync", config := ordersTask "dwd" }

def queuedRun : ComponentRunRow := { status := "queued", selectedItems := none, result := [] }

/-- Every connection is one to Doris, and there are no batches. -/
def dorisRows : Rows :=
  { snapshot := fun _ => .ok none, profile := fun _ => .ok (some .doris),
    restoreOptions := fun _ => .ok none }

end RecoveryService.DataPlatform
