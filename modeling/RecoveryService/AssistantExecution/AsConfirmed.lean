import RecoveryService.AssistantExecution.Snapshot

/-! # A batch executes what was confirmed

Whatever users edit, each stage should execute what the snapshot says, and executing it should leave the
rows as the users have saved them (`Kept`).  The run of the sync node writes its configuration back, and
a release without edges takes the edges of the version; `kept_of_careful` says that nothing else goes
wrong. -/

namespace RecoveryService.AssistantExecution

open Runs DataSync DataPlatform Checks

/-! ### What is kept -/

/-- A node that differs from the saved one in the bookkeeping of its runs only. -/
structure SameNode (node saved : ComponentNode) : Prop where
  id : node.id = saved.id
  active : node.active = saved.active
  nodeType : node.nodeType = saved.nodeType
  config : BookkeepingOnly saved.config node.config

structure Live.AsSaved (rows saved : Live) : Prop where
  template : rows.template = saved.template
  node : ∀ id, Option.Rel SameNode (rows.node id) (saved.node id)
  version : rows.version = saved.version
  definition : rows.definition = saved.definition
  pipeline : rows.pipeline = saved.pipeline

namespace Setting

variable (env : Setting)

/-- The hash of the template and the fingerprint of the files in its directory. -/
def Checked (template : Template) (found : List DumpFile) : Prop :=
  env.restoreHash template = env.snapshot.restoreHash ∧
    env.sourceFingerprint found = env.snapshot.sourceFingerprint

/-- The execution of a stage is what the snapshot says. -/
def AsConfirmed : Executed → Prop
  | .restore template found dumpfile => env.Checked template found ∧ dumpfile = env.dumpfile
  | .sync config => ∃ frozen,
      normalizeComponentTaskConfig env.py env.snapshot.syncConfig = .ok frozen ∧
        SameTables frozen config
  | .standard nodes edges =>
      nodes = env.snapshot.workflowRelease.nodes ∧ edges = env.snapshot.workflowRelease.edges
  | .encryption task => task = env.snapshot.sm4

structure Kept (w : World) : Prop where
  executed : ∀ e ∈ w.executed, env.AsConfirmed e
  saved : w.live.AsSaved w.saved

/-- A run of the sync node does not finish its tables or leaves the saved configuration untouched, and
a release without edges is that of a version without edges. -/
def Careful (w : World) : env.Action → Prop
  | .runSync id input => ∀ run, w.work id = some (.sync run) → ∀ node, env.node w.live = some node →
      ∀ p runs, preparedRun env.py (env.inputRows input) input.fresh env.maxTableParallelism
          input.recognize run node = some p → input.tables p = .ok runs →
        Untouched env.py node.config (input.edits.foldl (saveConfig env.py) node.config) p
  | .runStandard _ _ => ∀ version,
      w.live.version env.snapshot.standardWorkflowVersionId = some version →
        env.snapshot.workflowRelease.edges = [] → version.edges = []
  | _ => True

/-- What a child was given is what the snapshot says. -/
def GivenAsConfirmed : Given → Prop
  | .restore template found dumpfile => env.Checked template found ∧ dumpfile = env.dumpfile
  | .sync run => PreparedFor env.py env.batchId env.snapshot.toAssistantSnapshot run
  | .standard _ _ => True
  | .encryption task => task = env.snapshot.sm4

structure Inv (w : World) : Prop extends env.Kept w where
  checked : ∀ p checked, w.checked p = some checked → env.Checked checked.1 checked.2
  work : ∀ id given, w.work id = some given → env.GivenAsConfirmed given

end Setting

/-! ### Edits -/

namespace Live

variable {py : Python} {rows saved : Live}

theorem AsSaved.refl (rows : Live) : rows.AsSaved rows where
  template := rfl
  node id := by
    cases rows.node id with
    | none => exact .none
    | some node => exact .some ⟨rfl, rfl, rfl, .refl _⟩
  version := rfl
  definition := rfl
  pipeline := rfl

/-- The configuration of a node is changed in both. -/
theorem AsSaved.mapConfig (h : rows.AsSaved saved) {id : String} {f g : Dict → Dict}
    (hfg : ∀ node saved', rows.node id = some node → saved.node id = some saved' →
      BookkeepingOnly saved'.config node.config →
        BookkeepingOnly (g saved'.config) (f node.config)) :
    (rows.mapConfig id f).AsSaved (saved.mapConfig id g) := by
  refine ⟨h.template, fun other => ?_, h.version, h.definition, h.pipeline⟩
  have hnode := h.node other
  unfold Live.mapConfig
  simp only
  by_cases hid : other = id
  · subst hid
    rw [if_pos rfl, if_pos rfl]
    cases hrow : rows.node other with
    | none =>
        rw [hrow] at hnode
        cases hsaved : saved.node other with
        | none => exact .none
        | some saved' =>
            rw [hsaved] at hnode
            cases hnode
    | some node =>
        rw [hrow] at hnode
        cases hsaved : saved.node other with
        | none =>
            rw [hsaved] at hnode
            cases hnode
        | some saved' =>
            rw [hsaved] at hnode
            cases hnode with
            | some hsame =>
                exact .some ⟨hsame.id, hsame.active, hsame.nodeType,
                  hfg node saved' hrow hsaved hsame.config⟩
  · rw [if_neg hid, if_neg hid]
    exact hnode

/-- What is submitted is stored in both or in neither. -/
theorem saveConfig_bookkeepingOnly {a b : Dict} (h : BookkeepingOnly a b) (submitted : Dict) :
    BookkeepingOnly (saveConfig py a submitted) (saveConfig py b submitted) := by
  unfold saveConfig
  cases normalizeComponentTaskConfig py submitted with
  | error exc => exact h
  | ok config => exact .refl _

theorem foldl_saveConfig_bookkeepingOnly {a b : Dict} (h : BookkeepingOnly a b) (edits : List Dict) :
    BookkeepingOnly (edits.foldl (saveConfig py) a) (edits.foldl (saveConfig py) b) := by
  induction edits generalizing a b with
  | nil => exact h
  | cons submitted edits ih => exact ih (saveConfig_bookkeepingOnly h submitted)

theorem AsSaved.save (h : rows.AsSaved saved) (e : Edit) : (rows.save py e).AsSaved (saved.save py e) := by
  cases e with
  | template id template =>
      refine ⟨?_, h.node, h.version, h.definition, h.pipeline⟩
      show Function.update rows.template id template = Function.update saved.template id template
      rw [h.template]
  | node id node =>
      refine ⟨h.template, fun other => ?_, h.version, h.definition, h.pipeline⟩
      show Option.Rel SameNode (Function.update rows.node id node other)
        (Function.update saved.node id node other)
      by_cases hid : other = id
      · subst hid
        rw [Function.update_self, Function.update_self]
        cases node with
        | none => exact .none
        | some node => exact .some ⟨rfl, rfl, rfl, .refl _⟩
      · rw [Function.update_of_ne hid, Function.update_of_ne hid]
        exact h.node other
  | nodeConfig id config =>
      show (rows.mapConfig id fun stored => saveConfig py stored config).AsSaved
        (saved.mapConfig id fun stored => saveConfig py stored config)
      exact h.mapConfig fun _ _ _ _ hsame => saveConfig_bookkeepingOnly hsame config
  | version id version =>
      refine ⟨h.template, h.node, ?_, h.definition, h.pipeline⟩
      show Function.update rows.version id version = Function.update saved.version id version
      rw [h.version]
  | definition id definition =>
      refine ⟨h.template, h.node, h.version, ?_, h.pipeline⟩
      show Function.update rows.definition id definition =
        Function.update saved.definition id definition
      rw [h.definition]
  | pipeline pipeline => exact ⟨h.template, h.node, h.version, h.definition, rfl⟩

end Live

namespace Setting

variable {env : Setting} {w w' : World}

/-! ### Children -/

/-- What is submitted is what the snapshot says. -/
theorem Inv.submitted (h : env.Inv w) {p : ℕ} {restoredTarget : Json} {given : Given}
    (hgiven : env.submitted w p restoredTarget = some given) : env.GivenAsConfirmed given := by
  unfold Setting.submitted at hgiven
  split at hgiven
  · obtain ⟨checked, hchecked, rfl⟩ := Option.map_eq_some_iff.mp hgiven
    exact ⟨h.checked p checked hchecked, rfl⟩
  · obtain ⟨node, -, hgiven⟩ := Option.bind_eq_some_iff.mp hgiven
    obtain ⟨run, hrun, rfl⟩ := Option.map_eq_some_iff.mp hgiven
    exact prepareComponentTaskRun_preparedFor env.batchId_ne rfl (toOption_eq_some.mp hrun)
  · obtain ⟨version, -, hgiven⟩ := Option.bind_eq_some_iff.mp hgiven
    split_ifs at hgiven
    obtain rfl := Option.some.inj hgiven
    trivial
  · obtain rfl := Option.some.inj hgiven
    rfl
  · cases hgiven

/-- The restore is claimed with a template and files that were checked. -/
theorem checked_of_claimable {p : ℕ} {found : List DumpFile} {checked : Template × List DumpFile}
    (h : env.claimable w p found = some (some checked)) : env.Checked checked.1 checked.2 := by
  unfold claimable at h
  split at h
  · obtain ⟨stored, -, h⟩ := Option.bind_eq_some_iff.mp h
    split_ifs at h with hchecked
    obtain rfl := Option.some.inj (Option.some.inj h)
    exact hchecked
  · obtain ⟨version, -, h⟩ := Option.bind_eq_some_iff.mp h
    split_ifs at h
    cases h
  · cases h

/-! ### Executions -/

/-- The tables a run starts are those of the snapshot. -/
theorem asConfirmed_of_synced {input : SyncInput env.py} {run : ComponentRunRow} {node : ComponentNode}
    (hrun : PreparedFor env.py env.batchId env.snapshot.toAssistantSnapshot run) {e : Executed}
    (he : e ∈ (env.syncedConfig input run node).toList.map Executed.sync) : env.AsConfirmed e := by
  obtain ⟨config, hconfig, rfl⟩ := List.mem_map.mp he
  have hsynced := Option.mem_toList.mp hconfig
  unfold syncedConfig at hsynced
  split_ifs at hsynced
  obtain ⟨planned, hplanned, rfl⟩ := Option.map_eq_some_iff.mp (Option.mem_def.mp hsynced)
  exact plan_sameTables env.batchId_ne rfl hrun (toOption_eq_some.mp hplanned)

/-- The nodes that are executed are those of the snapshot, and so are the edges, unless the version
supplies them. -/
theorem asConfirmed_of_standardised {id versionId : ℕ} {execute : Execute}
    (hedges : ∀ version, w.live.version env.snapshot.standardWorkflowVersionId = some version →
      env.snapshot.workflowRelease.edges = [] → version.edges = [])
    {e : Executed} (he : e ∈ env.standardised w id versionId execute) : env.AsConfirmed e := by
  unfold standardised at he
  split at he
  · cases he
  · rename_i version hversion
    split_ifs at he with hconfirmed
    obtain ⟨-, rfl⟩ := hconfirmed
    split at he
    · obtain rfl := List.mem_singleton.mp he
      constructor
      · show (if env.snapshot.workflowRelease.nodes = [] then version.nodes
          else env.snapshot.workflowRelease.nodes) = _
        rw [if_neg env.snapshot.nodes_ne]
      · show (if env.snapshot.workflowRelease.edges = [] then version.edges
          else env.snapshot.workflowRelease.edges) = _
        split_ifs with hempty
        · rw [hempty]
          exact hedges version hversion hempty
        · rfl
    · cases he
    · cases he

/-- A run of the sync node, which writes the configuration back. -/
theorem Inv.sync (h : env.Inv w) {id : ℕ} {run : ComponentRunRow} {input : SyncInput env.py}
    (hwork : w.work id = some (.sync run)) (hcareful : env.Careful w (.runSync id input)) :
    env.Inv (env.sync w id run input) := by
  have hrun : PreparedFor env.py env.batchId env.snapshot.toAssistantSnapshot run := h.work id _ hwork
  have hclaimed : ∀ i given, Function.update w.work id
      (some (Given.sync { run with status := "running" })) i = some given →
        env.GivenAsConfirmed given := by
    intro i given hgiven
    by_cases hi : i = id
    · rw [hi, Function.update_self] at hgiven
      obtain rfl := Option.some.inj hgiven
      exact ⟨hrun.batch, hrun.all, hrun.selected⟩
    · rw [Function.update_of_ne hi] at hgiven
      exact h.work i given hgiven
  cases hnode : env.node w.live with
  | none =>
      simp only [Setting.sync, hnode]
      exact ⟨⟨h.executed, h.saved⟩, h.checked, hclaimed⟩
  | some node =>
      have hrows : (w.live.mapConfig env.snapshot.dataSyncNodeId fun _ =>
          env.configBehind input run node).AsSaved
          (w.saved.mapConfig env.snapshot.dataSyncNodeId fun stored =>
            input.edits.foldl (saveConfig env.py) stored) := by
        refine h.saved.mapConfig fun stored saved' hstored _ hsame => ?_
        obtain rfl : node = stored := Option.some.inj (hnode.symm.trans hstored)
        have hedited : BookkeepingOnly (input.edits.foldl (saveConfig env.py) saved'.config)
            (input.edits.foldl (saveConfig env.py) node.config) :=
          Live.foldl_saveConfig_bookkeepingOnly hsame input.edits
        exact hedited.trans (componentRun_bookkeepingOnly input.edits _ _ _ _
          fun p runs hprepared htables _ => hcareful run hwork node hnode p runs hprepared htables)
      simp only [Setting.sync, hnode]
      refine ⟨⟨fun e he => ?_, hrows⟩, h.checked, hclaimed⟩
      obtain he | he := List.mem_append.mp he
      · exact asConfirmed_of_synced hrun he
      · exact h.executed e he

/-! ### Runs -/

/-- Where the rows, the children and the executions are as before. -/
theorem Inv.control (h : env.Inv w) (control : Sys) : env.Inv { w with control := control } :=
  ⟨⟨h.executed, h.saved⟩, h.checked, h.work⟩

/-- A stage is executed once more. -/
theorem Inv.execute (h : env.Inv w) {executed : List Executed} (hexecuted : ∀ e ∈ executed, env.AsConfirmed e) :
    env.Inv { w with executed := executed ++ w.executed } := by
  refine ⟨⟨fun e he => ?_, h.saved⟩, h.checked, h.work⟩
  obtain he | he := List.mem_append.mp he
  · exact hexecuted e he
  · exact h.executed e he

/-- A child is given what the snapshot says. -/
theorem Inv.give (h : env.Inv w) {id : ℕ} {given : Given} (hgiven : env.GivenAsConfirmed given) :
    env.Inv { w with work := Function.update w.work id (some given) } := by
  refine ⟨⟨h.executed, h.saved⟩, h.checked, fun i other hother => ?_⟩
  by_cases hi : i = id
  · have hsame : Function.update w.work id (some given) i = some other := hother
    rw [hi, Function.update_self] at hsame
    exact Option.some.inj hsame ▸ hgiven
  · have hsame : Function.update w.work id (some given) i = some other := hother
    rw [Function.update_of_ne hi] at hsame
    exact h.work i other hsame

theorem Inv.step (h : env.Inv w) {a : env.Action} (hcareful : env.Careful w a)
    (hs : env.step w a = some w') : env.Inv w' := by
  cases a with
  | edit e =>
      obtain rfl := Option.some.inj hs
      exact ⟨⟨h.executed, h.saved.save e⟩, h.checked, h.work⟩
  | claim p found =>
      obtain ⟨claimed, hclaimable, hs⟩ := Option.bind_eq_some_iff.mp hs
      obtain ⟨control, -, rfl⟩ := Option.map_eq_some_iff.mp hs
      refine ⟨⟨h.executed, h.saved⟩, fun q checked hchecked => ?_, h.work⟩
      have hupdate : Function.update w.checked p claimed q = some checked := hchecked
      by_cases hq : q = p
      · rw [hq, Function.update_self] at hupdate
        exact checked_of_claimable (hupdate ▸ hclaimable)
      · rw [Function.update_of_ne hq] at hupdate
        exact h.checked q checked hupdate
  | submit p id outcome restoredTarget =>
      simp only [Setting.step] at hs
      split at hs
      · rename_i given hgiven
        obtain ⟨control, -, rfl⟩ := Option.map_eq_some_iff.mp hs
        split_ifs with hrefused
        · exact h.control control
        · exact (h.give (h.submitted hgiven)).control control
      · split_ifs at hs
        obtain ⟨control, -, rfl⟩ := Option.map_eq_some_iff.mp hs
        exact h.control control
  | transact a =>
      have hcontrol : ∃ control, w' = { w with control := control } := by
        cases a with
        | claim p | submit p id outcome => cases hs
        | _ =>
            simp only [Setting.step] at hs
            obtain ⟨control, -, rfl⟩ := Option.map_eq_some_iff.mp hs
            exact ⟨control, rfl⟩
      obtain ⟨control, rfl⟩ := hcontrol
      exact h.control control
  | runRestore id =>
      simp only [Setting.step] at hs
      split at hs
      · rename_i template found dumpfile hwork
        obtain rfl := Option.some.inj hs
        have hgiven : env.AsConfirmed (.restore template found dumpfile) := h.work id _ hwork
        exact h.execute (List.forall_mem_singleton.mpr hgiven)
      · cases hs
  | runSync id input =>
      simp only [Setting.step] at hs
      split at hs
      · rename_i run hwork
        obtain rfl := Option.some.inj hs
        exact h.sync hwork hcareful
      · cases hs
  | runStandard id execute =>
      simp only [Setting.step] at hs
      split at hs
      · rename_i versionId hwork
        obtain rfl := Option.some.inj hs
        exact (h.execute fun e he => asConfirmed_of_standardised hcareful he).give trivial
      · cases hs
  | runEncryption id =>
      simp only [Setting.step] at hs
      split at hs
      · rename_i task hwork
        obtain rfl := Option.some.inj hs
        have hgiven : env.AsConfirmed (.encryption task) := h.work id _ hwork
        exact h.execute (List.forall_mem_singleton.mpr hgiven)
      · cases hs

end Setting

/-! ### A plan whose node is edited -/

/-- The release with one SQL node. -/
def sqlRelease : ReleaseSnapshot where
  nodes := [{ key := "sql1", nodeType := .dorisSql }]
  edges := []
  businessMetadata := .null
  schedule := ⟨"daily", "02:00", none, none, none⟩

def ordersSnapshot : PlanSnapshot where
  dataSyncNodeId := "sync"
  syncConfig := ordersTask "ods"
  restoreTemplateTaskId := 7
  restoreHash := "db1"
  sourceFiles := [⟨"orders.dmp", 10, 1⟩]
  sourceFingerprint := "orders.dmp"
  standardWorkflowVersionId := 3
  workflowRelease := sqlRelease
  sm4 := ⟨"doris", "ods", .null, "drop_recreate", none⟩
  nodes_ne := by decide

def ordersPlan : Setting where
  py := Python.scalars
  restoreHash := Template.remoteHost
  sourceFingerprint files := String.join (files.map DumpFile.relativePath)
  isDecimal := Char.isDigit
  maxTableParallelism := 4
  batchId := "b1"
  snapshot := ordersSnapshot
  batchId_ne := by decide

/-- The rows the plan was confirmed with. -/
def ordersRows : Live where
  template id := if id = 7 then
      some ⟨"db1", 22, "oracle", "", "/dump", "orcl", "sys", "", []⟩ else none
  node id := if id = "sync" then some ⟨"sync", true, "data_sync", ordersTask "ods"⟩ else none
  version _ := none
  definition _ := none
  pipeline := ⟨some 7, some "sync", some 3, none, .null⟩

/-- The node with another table. -/
def clientsTask : Dict :=
  (ordersTask "ods").set "table_mappings"
    (.arr [.obj [("id", .str "m2"), ("source_table", .str "clients")]])

/-- A worker that loads the tables, or one that loses Doris. -/
def syncInput (loads : Bool) : SyncInput Python.scalars where
  profile _ := .ok (some .doris)
  restoreOptions _ := .ok (some [("target_connection_profile", .str "oracle"),
    ("professional_flow", .obj [("target", .obj [("generated_user_password", .str "secret")])])])
  fresh _ := "6f9619ff"
  recognize _ := .ok []
  edits := []
  nowText := "2024-05-01T08:00:00"
  lastRunAt := "2024-05-01T08:00:09"
  completion := .inOrder
  tables p := if loads then .ok (p.loadedRuns 3) else .error (valueError "lost connection")

/-- The restore and the sync of the plan, after the user has saved another table. -/
def editedRun (loads : Bool) : List ordersPlan.Action :=
  [.edit (.nodeConfig "sync" clientsTask), .claim 0 [⟨"orders.dmp", 10, 1⟩],
    .submit 0 0 .taken .null, .transact (.dispatched 0), .runRestore 0,
    .transact (.progress 0 .succeeded), .transact (.consume 0), .claim 0 [],
    .submit 0 1 .taken (.obj [("schema", .str "HR")]), .transact (.link 0),
    .runSync 1 (syncInput loads)]

/-- The source tables of a configuration. -/
def sourceTables (config : Dict) : List String :=
  ((rawMappings config).getD []).map fun mapping => Python.scalars.str (mapping.get "source_table")

/-- The source tables of the node. -/
def Live.sourceTables (rows : Live) : Option (List String) :=
  (rows.node "sync").map fun node => AssistantExecution.sourceTables node.config

def Executed.isSync : Executed → Bool
  | .sync _ => true
  | _ => false

/-- Mappings that agree up to bookkeeping have the same source tables. -/
theorem sourceTables_eq {saved stored : Dict} (h : BookkeepingOnly saved stored) :
    sourceTables stored = sourceTables saved := by
  have hmappings := h.mappings
  unfold sourceTables
  revert hmappings
  generalize rawMappings stored = mappings
  generalize rawMappings saved = mappings'
  intro hmappings
  cases hmappings with
  | none => rfl
  | some hall =>
      simp only [Option.getD_some]
      induction hall with
      | nil => rfl
      | cons hsame _ ih =>
          rw [List.map_cons, List.map_cons, ih]
          unfold Dict.get
          rw [hsame "source_table" (by decide)]

/-- Saved rows have the source tables the user has saved. -/
theorem Live.AsSaved.sourceTables_eq {rows saved : Live} (h : rows.AsSaved saved) :
    rows.sourceTables = saved.sourceTables := by
  have hnode := h.node "sync"
  unfold Live.sourceTables
  revert hnode
  generalize rows.node "sync" = node
  generalize saved.node "sync" = node'
  intro hnode
  cases hnode with
  | none => rfl
  | some hsame =>
      rw [Option.map_some, Option.map_some, AssistantExecution.sourceTables_eq hsame.config]

end RecoveryService.AssistantExecution
