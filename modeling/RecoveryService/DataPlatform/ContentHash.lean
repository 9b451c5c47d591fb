import RecoveryService.DataPlatform.VersionStore
import RecoveryService.Lib.Footprint

/-! # The content of a release

`_execution_content_hash` and the values that `_execute_node` and the executors below it read of a
release.  Two releases with one hash execute the same work if and only if they agree on the values
read under the names that `_canonical_execution_value` drops (`work_eq_iff`).

SHA-256 is a parameter.  A node runs with the key version that is active at the time, so that no
key version is read of a release. -/

namespace RecoveryService.DataPlatform

open Json

/-! ### The hash -/

/-- `ignored_keys` of `_canonical_execution_value`. -/
def ignoredKeys : List String :=
  ["x", "y", "name", "connection_name", "task_definition_name", "task_definition_id",
    "task_definition_revision", "revision", "node_id", "note", "sm4_key_version_id",
    "sm4_key_fingerprint", "jar_filename", "observed_value", "pending_value", "applied_value",
    "next_probe_at", "last_probe_at", "last_run_at", "next_run_at", "batch_id", "run_id"]

def isIgnored (key : String) : Bool := ignoredKeys.contains key

def NodeType.text : NodeType → String
  | .manual => "manual"
  | .sm3Mapping => "sm3_mapping"
  | .sm4Batch => "sm4_batch"
  | .dorisSql => "doris_sql"
  | .dataSync => "data_sync"
  | .changeTrigger => "change_trigger"
  | .other name => name

def optionalNum (n : Option ℤ) : Json := (n.map Json.num).getD .null

def optionalStr (s : Option String) : Json := (s.map Json.str).getD .null

def NodeSpec.json (node : NodeSpec) : Json :=
  .obj [("key", .str node.key), ("node_id", optionalStr node.nodeId), ("name", .str node.name),
    ("node_type", .str node.nodeType.text), ("config", node.config), ("x", optionalNum node.x),
    ("y", optionalNum node.y)]

def edgeJson (edge : EdgeSpec) : Json := .obj [("source", .str edge.1), ("target", .str edge.2)]

def ReleaseSchedule.json (schedule : ReleaseSchedule) : Json :=
  .obj [("schedule_type", .str schedule.scheduleType), ("run_time", .str schedule.runTime),
    ("day_of_month", optionalNum schedule.dayOfMonth),
    ("day_of_week", optionalNum schedule.dayOfWeek),
    ("interval_minutes", optionalNum schedule.intervalMinutes)]

def ReleaseSnapshot.json (release : ReleaseSnapshot) : Json :=
  .obj [("nodes", .arr (release.nodes.map NodeSpec.json)),
    ("edges", .arr (release.edges.map edgeJson)),
    ("business_metadata", release.businessMetadata), ("schedule", release.schedule.json)]

/-- `_execution_content_hash`. -/
def executionContentHash (sha256 : String → String) (release : ReleaseSnapshot) : String :=
  sha256 (dumps (canonical isIgnored release.json))

/-! ### What is read at execution -/

/-- Entries that are read as they are. -/
def wholeFields (keys : List String) : List (String × Footprint) :=
  keys.map (fun key => (key, .whole))

/-- A column of a table: `_mapping_select_items`, `_create_target_table`. -/
def columnFootprint : Footprint := .fields (wholeFields ["name", "type"])

/-- An item of `column_mappings`: `_mapping_select_items`. -/
def columnMappingFootprint : Footprint :=
  .fields (wholeFields ["target_name", "enabled", "source_name", "fixed_value"])

/-- An item of `table_mappings`: `_normalize_table_mapping`, `_execute_one_table`. -/
def tableMappingFootprint : Footprint :=
  .fields (wholeFields ["id", "enabled", "source_schema", "source_table", "target_database",
      "target_table", "schema_policy", "auto_create"] ++
    [("source_columns", .each columnFootprint), ("column_mappings", .each columnMappingFootprint),
      ("column_mapping", .each columnMappingFootprint)])

/-- The configuration of a `data_sync` node: `_execute_node`, `execute_data_sync`. -/
def dataSyncFootprint : Footprint :=
  .fields (wholeFields ["source_connection_id", "target_connection_id", "watermark_condition_id",
      "watermark_column", "mode", "selected_tables", "source_catalog", "source_schema",
      "source_database", "source_table", "target_database", "target_table", "write_mode",
      "sync_method", "schema_policy", "batch_size", "field_delimiter", "line_delimiter",
      "strict_mode", "max_filter_ratio", "stream_load_http_port", "stream_load_timeout_seconds",
      "stream_load_retry_attempts", "stream_load_retry_sleep_seconds", "continue_on_error",
      "table_parallelism", "connection_retry_attempts", "connection_recovery_attempts",
      "connection_recovery_interval_seconds"] ++
    [("table_mappings", .each tableMappingFootprint),
      ("column_mapping", .each columnMappingFootprint)])

/-- A frozen SM3 task: `run_sm3_task_snapshot_sync`.  Its id, name and revision identify the
revision that is run and say nothing about the work. -/
def sm3SnapshotFootprint : Footprint :=
  .fields (wholeFields ["connection_id", "database", "table_name", "table_mode", "columns",
    "mapping_database", "mapping_tables", "field_mapping_database", "field_mapping_table",
    "output_suffix"])

/-- The tables of an SM4 task: `_normalize_batch_tables`. -/
def sm4TableFootprint : Footprint :=
  .fields (wholeFields ["table_name", "columns", "target_database", "target_table"])

/-- A frozen SM4 task, and a node that carries its own configuration:
`run_sm4_task_snapshot`, `_execute_node`. -/
def sm4BatchFootprint : Footprint :=
  .fields (wholeFields ["connection_id", "database", "table_strategy", "target_suffix"] ++
    [("tables", .each sm4TableFootprint)])

/-- `config.get("task_definition_id")` is set. -/
def isBound (config : Json) : Bool := (config.get "task_definition_id").truthy

/-- `isinstance(snapshot, dict) and snapshot`. -/
def isFrozen (config : Json) : Bool :=
  match config.get "task_definition_snapshot" with
  | .obj entries => !entries.isEmpty
  | _ => false

/-- The frozen task of a bound node, or the id of the stored one. -/
def boundFootprint (snapshot : Footprint) : Footprint :=
  .both (.field "wait_timeout_seconds" .whole)
    (.branch isFrozen (.field "task_definition_snapshot" snapshot) (.field "task_definition_id" .whole))

/-- What `_execute_node` reads of the configuration of a node. -/
def executionFootprint : String → Footprint
  | "data_sync" => dataSyncFootprint
  | "sm3_mapping" => .branch isBound (boundFootprint sm3SnapshotFootprint) .nothing
  | "sm4_batch" =>
      .branch isBound (boundFootprint sm4BatchFootprint)
        (.both (.field "wait_timeout_seconds" .whole) sm4BatchFootprint)
  | "doris_sql" =>
      .fields (wholeFields ["connection_id", "sql", "database", "limit", "security_access_mode"])
  -- a manual node, a change trigger and a node of an unknown type read nothing
  | _ => .nothing

/-- A node as the executor sees it. -/
structure NodeWork where
  key : String
  nodeType : String
  reads : Json

def NodeSpec.work (node : NodeSpec) : NodeWork :=
  { key := node.key
    nodeType := node.nodeType.text
    reads := (executionFootprint node.nodeType.text).read node.config }

/-- The work of a release: its nodes and the edges between them. -/
structure Work where
  nodes : List NodeWork
  edges : List EdgeSpec

def ReleaseSnapshot.work (release : ReleaseSnapshot) : Work :=
  { nodes := release.nodes.map NodeSpec.work
    edges := release.edges }

/-! ### Two releases with one hash -/

/-- Two nodes agree on the values read under dropped names. -/
def NodeSpec.AgreeDropped (node node' : NodeSpec) : Prop :=
  (executionFootprint node.nodeType.text).Agree isIgnored node.config node'.config

/-- Two releases agree, node by node, on the values read under dropped names. -/
def ReleaseSnapshot.AgreeDropped (release release' : ReleaseSnapshot) : Prop :=
  List.Forall₂ NodeSpec.AgreeDropped release.nodes release'.nodes

theorem canonical_entry (key : String) {v w : Json}
    (h : canonical isIgnored v = canonical isIgnored w) (hkey : isIgnored key = false) {x y : Json}
    (hx : v.entry key = some x) (hy : w.entry key = some y) :
    canonical isIgnored x = canonical isIgnored y := by
  have hentry := congrArg (fun u => u.entry key) h
  simpa [entry_canonical, hkey, hx, hy] using hentry

theorem canonical_node {node node' : NodeSpec}
    (h : canonical isIgnored node.json = canonical isIgnored node'.json) :
    node.key = node'.key ∧ node.nodeType.text = node'.nodeType.text ∧
      canonical isIgnored node.config = canonical isIgnored node'.config := by
  have hkey := canonical_entry "key" h (by decide) rfl rfl
  have htype := canonical_entry "node_type" h (by decide) rfl rfl
  have hconfig := canonical_entry "config" h (by decide) rfl rfl
  rw [canonical_str, canonical_str, Json.str.injEq] at hkey htype
  exact ⟨hkey, htype, hconfig⟩

theorem canonical_edge {edge edge' : EdgeSpec}
    (h : canonical isIgnored (edgeJson edge) = canonical isIgnored (edgeJson edge')) : edge = edge' := by
  have hsource := canonical_entry "source" h (by decide) rfl rfl
  have htarget := canonical_entry "target" h (by decide) rfl rfl
  rw [canonical_str, canonical_str, Json.str.injEq] at hsource htarget
  exact Prod.ext hsource htarget

theorem canonical_map {α : Type} {json : α → Json} {xs ys : List α}
    (h : canonical isIgnored (.arr (xs.map json)) = canonical isIgnored (.arr (ys.map json))) :
    List.Forall₂ (fun x y => canonical isIgnored (json x) = canonical isIgnored (json y)) xs ys := by
  rw [canonical, canonical, Json.arr.injEq, canonicalItems_eq, canonicalItems_eq, List.map_map,
    List.map_map, ← List.forall₂_eq_eq_eq, List.forall₂_map_left_iff, List.forall₂_map_right_iff] at h
  exact h

variable {release release' : ReleaseSnapshot}

theorem canonical_release (h : canonical isIgnored release.json = canonical isIgnored release'.json) :
    List.Forall₂ (fun node node' : NodeSpec =>
        canonical isIgnored node.json = canonical isIgnored node'.json) release.nodes release'.nodes ∧
      release.edges = release'.edges := by
  have hnodes := canonical_entry "nodes" h (by decide) rfl rfl
  have hedges := canonical_entry "edges" h (by decide) rfl rfl
  refine ⟨canonical_map hnodes, ?_⟩
  have hforall := (canonical_map hedges).imp (fun _ _ => canonical_edge)
  rwa [List.forall₂_eq_eq_eq] at hforall

theorem node_work_eq_iff {node node' : NodeSpec}
    (h : canonical isIgnored node.json = canonical isIgnored node'.json) :
    node.work = node'.work ↔ node.AgreeDropped node' := by
  obtain ⟨hkey, htype, hconfig⟩ := canonical_node h
  unfold NodeSpec.work NodeSpec.AgreeDropped
  rw [NodeWork.mk.injEq, ← htype, read_eq_iff _ hconfig]
  simp [hkey]

theorem nodes_work_eq_iff {nodes nodes' : List NodeSpec} (h : List.Forall₂ (fun node node' : NodeSpec =>
      canonical isIgnored node.json = canonical isIgnored node'.json) nodes nodes') :
    nodes.map NodeSpec.work = nodes'.map NodeSpec.work ↔
      List.Forall₂ NodeSpec.AgreeDropped nodes nodes' := by
  induction h with
  | nil => simp
  | cons hnode _ ih =>
      rw [List.map_cons, List.map_cons, List.cons.injEq, List.forall₂_cons, node_work_eq_iff hnode, ih]

/-- Releases with one canonical form. -/
theorem work_eq_iff (h : canonical isIgnored release.json = canonical isIgnored release'.json) :
    release.work = release'.work ↔ release.AgreeDropped release' := by
  obtain ⟨hnodes, hedges⟩ := canonical_release h
  unfold ReleaseSnapshot.work ReleaseSnapshot.AgreeDropped
  rw [Work.mk.injEq, nodes_work_eq_iff hnodes]
  simp [hedges]

/-- Two releases have one hash exactly when they have one canonical form. -/
theorem executionContentHash_inj {sha256 : String → String} (hsha : sha256.Injective)
    (hprinted : release.json.floatsPrinted = true) (hprinted' : release'.json.floatsPrinted = true) :
    executionContentHash sha256 release = executionContentHash sha256 release' ↔
      canonical isIgnored release.json = canonical isIgnored release'.json := by
  constructor
  · intro h
    exact dumps_injective (floatsPrinted_canonical _ _ hprinted)
      (floatsPrinted_canonical _ _ hprinted') (hsha h)
  · intro h
    unfold executionContentHash
    rw [h]

end RecoveryService.DataPlatform
