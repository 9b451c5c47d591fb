import RecoveryService.DataPlatform.ComponentRun

/-! # The configuration a confirmed plan synchronises

`prepare_component_task_run` and `run_queued_component_task` take the configuration of a batch with a
confirmed plan from its snapshot.  The run overrides the schema and the catalog the tables are read
from; everything else it executes is the snapshot's (`plan_sameTables`), whatever configuration the
node has by then. -/

namespace RecoveryService.DataPlatform

open DataSync Checks

/-- The items of a list in a configuration. -/
def itemsOf (config : Dict) (key : String) : List Json := (config.get key).toList.getD []

/-! ### Preparing a run -/

section

variable (py : Python) (rows : Rows)

/-- The tables a run selects. -/
def selectedItemsOf (overrides config : Dict) : List Json :=
  if (overrides.get "sync_all_tables").truthy then []
  else match overrides.get "selected_tables" with
    | .null => itemsOf config "selected_tables"
    | value => value.toList.getD []

/-- The `runtime_overrides` of a run. -/
def runtimeOverrides (overrides : Dict) : Dict :=
  [("pipeline_batch_id", if (overrides.get "pipeline_batch_id").truthy then
      .str (py.str (overrides.get "pipeline_batch_id")) else .null),
    ("restored_target", .obj ((overrides.get "restored_target").toDict.getD [])),
    ("sync_all_tables", .bool (overrides.get "sync_all_tables").truthy)]

/-- `prepare_component_task_run`. -/
def prepareComponentTaskRun (overrides : Dict) (node : ComponentNode) :
    Except Raised ComponentRunRow := do
  if node.active = false then
    .error { info := { kind := .other, name := "KeyError", text := "Component task does not exist." } }
  else if node.nodeType ≠ "data_sync" then
    .error (valueError "Only data sync component runs can be queued.")
  else
    let frozen ← syncConfigForBatch rows (overrides.get "pipeline_batch_id") node.id node.config
    let config ← normalizeComponentTaskConfig py frozen
    let selected := selectedItemsOf overrides config
    return { status := "queued"
             selectedItems := if selected.isEmpty then none else some selected
             result := [("runtime_overrides", .obj (runtimeOverrides py overrides))] }

/-- What `advance` passes for a batch. -/
def batchOverrides (batchId : String) (restoredTarget : Json) : Dict :=
  [("pipeline_batch_id", .str batchId), ("restored_target", restoredTarget)]

end

/-! ### Configurations that agree on their tables -/

/-- The keys a run overrides in a mapping. -/
def sourceKeys : List String := ["source_schema", "source_catalog"]

/-- The keys a run overrides in a configuration. -/
def overriddenKeys : List String :=
  ["source_schema", "source_catalog", "sync_method", "selected_tables", "table_mappings"]

/-- A mapping that is read from another schema or catalog. -/
def SameItem (item frozen : Json) : Prop :=
  item = frozen ∨ ∃ entries frozenEntries, item = .obj entries ∧ frozen = .obj frozenEntries ∧
    ∀ key ∉ sourceKeys, List.lookup key entries = List.lookup key frozenEntries

/-- The same tables with the same columns, selected and written in the same way. -/
structure SameTables (frozen config : Dict) : Prop where
  fields : ∀ key ∉ overriddenKeys, List.lookup key config = List.lookup key frozen
  selected : itemsOf config "selected_tables" = itemsOf frozen "selected_tables"
  items : List.Forall₂ SameItem (itemsOf config "table_mappings") (itemsOf frozen "table_mappings")

theorem SameItem.trans {a b c : Json} (hab : SameItem a b) (hbc : SameItem b c) : SameItem a c := by
  obtain rfl | ⟨ea, eb, rfl, rfl, hlookup⟩ := hab
  · exact hbc
  · obtain rfl | ⟨eb', ec, heq, rfl, hlookup'⟩ := hbc
    · exact Or.inr ⟨ea, eb, rfl, rfl, hlookup⟩
    · obtain rfl := Json.obj.inj heq
      exact Or.inr ⟨ea, ec, rfl, rfl, fun key hkey => (hlookup key hkey).trans (hlookup' key hkey)⟩

namespace SameTables

variable {a b c config frozen : Dict}

theorem refl (config : Dict) : SameTables config config where
  fields _ _ := rfl
  selected := rfl
  items := List.forall₂_same.mpr fun _ _ => Or.inl rfl

theorem trans (hab : SameTables a b) (hbc : SameTables b c) : SameTables a c where
  fields key hkey := (hbc.fields key hkey).trans (hab.fields key hkey)
  selected := hbc.selected.trans hab.selected
  items := Loops.forall₂_trans (fun _ _ _ h h' => h.trans h') hbc.items hab.items

/-- One of the other keys of the source is set. -/
theorem set {key : String} (hkey : key ∈ ["source_schema", "source_catalog", "sync_method"])
    (value : Json) : SameTables config (config.set key value) := by
  have hsub : key ∈ overriddenKeys := by
    unfold overriddenKeys
    revert hkey
    simp only [List.mem_cons, List.not_mem_nil, or_false]
    tauto
  have hitems : ∀ other, key ≠ other → itemsOf (config.set key value) other = itemsOf config other := by
    intro other hne
    unfold itemsOf
    rw [Dict.get_set_ne _ _ hne]
  have hselected : key ≠ "selected_tables" := by
    rintro rfl
    revert hkey
    decide
  have hmappings : key ≠ "table_mappings" := by
    rintro rfl
    revert hkey
    decide
  refine ⟨fun other hother => Dict.lookup_set_ne _ _ ?_, hitems _ hselected, ?_⟩
  · rintro rfl
    exact hother hsub
  · rw [hitems _ hmappings]
    exact List.forall₂_same.mpr fun _ _ => Or.inl rfl

/-- A key of the source is set in every mapping. -/
theorem setInMappings {key value : String} (hkey : key ∈ sourceKeys)
    (h : DataPlatform.setInMappings key value config = .ok c) : SameTables config c := by
  unfold DataPlatform.setInMappings at h
  split at h
  · cases h
  · rename_i items hitems
    obtain ⟨mappings, hmapM, h⟩ := bind_eq_ok.mp h
    obtain rfl := Except.ok.inj h
    have hsame : List.Forall₂ SameItem mappings items := by
      refine List.Forall₂.imp (fun mapping item hmapping => ?_) (mapM_forall₂ hmapM).flip
      split at hmapping
      · rename_i entries
        obtain rfl := Except.ok.inj hmapping
        refine Or.inr ⟨_, entries, rfl, rfl, fun other hother => Dict.lookup_set_ne _ _ ?_⟩
        rintro rfl
        exact hother hkey
      · cases hmapping
    refine ⟨fun other hother => Dict.lookup_set_ne _ _ ?_, ?_, ?_⟩
    · rintro rfl
      exact hother (by decide)
    · unfold itemsOf
      rw [Dict.get_set_ne _ _ (by decide)]
    · unfold itemsOf
      rw [Dict.get_set_self, hitems]
      exact hsame

/-- The tables that were selected before are selected again. -/
theorem setSelected {items : List Json} (h : items = itemsOf config "selected_tables") :
    SameTables config (config.set "selected_tables" (.arr items)) := by
  refine ⟨fun other hother => Dict.lookup_set_ne _ _ ?_, ?_, ?_⟩
  · rintro rfl
    exact hother (by decide)
  · rw [← h]
    unfold itemsOf
    rw [Dict.get_set_self]
    rfl
  · unfold itemsOf
    rw [Dict.get_set_ne _ _ (by decide)]
    exact List.forall₂_same.mpr fun _ _ => Or.inl rfl

end SameTables

/-! ### The run of a batch -/

variable {py : Python} {rows : Rows} {batchId : String} {snapshot : AssistantSnapshot}

/-- The run was prepared for the batch, and selects the tables the snapshot selects. -/
structure PreparedFor (py : Python) (batchId : String) (snapshot : AssistantSnapshot)
    (run : ComponentRunRow) : Prop where
  batch : run.overrides.get "pipeline_batch_id" = .str batchId
  all : run.syncAllTables = false
  selected : ∀ frozen, normalizeComponentTaskConfig py snapshot.syncConfig = .ok frozen →
    ∀ items ∈ run.selectedItems, items = itemsOf frozen "selected_tables"

/-- The batch with the snapshot names the node. -/
theorem syncConfigForBatch_ok (hne : batchId ≠ "")
    (hsnapshot : rows.snapshot (.str batchId) = .ok (some snapshot)) {nodeId : String} {fallback frozen : Dict}
    (h : syncConfigForBatch rows (.str batchId) nodeId fallback = .ok frozen) :
    snapshot.dataSyncNodeId = nodeId ∧ frozen = snapshot.syncConfig := by
  have htruthy : (Json.str batchId).truthy = true := by simpa [Json.truthy] using hne
  unfold syncConfigForBatch at h
  rw [if_pos htruthy, hsnapshot] at h
  simp only [bind, Except.bind] at h
  split_ifs at h with hnode
  exact ⟨not_not.mp hnode, (Except.ok.inj h).symm⟩

variable {run : ComponentRunRow}

theorem prepareComponentTaskRun_preparedFor (hne : batchId ≠ "")
    (hsnapshot : rows.snapshot (.str batchId) = .ok (some snapshot)) {restoredTarget : Json}
    {node : ComponentNode}
    (h : prepareComponentTaskRun py rows (batchOverrides batchId restoredTarget) node = .ok run) :
    PreparedFor py batchId snapshot run := by
  unfold prepareComponentTaskRun at h
  split_ifs at h
  obtain ⟨frozen, hfrozen, h⟩ := bind_eq_ok.mp h
  obtain ⟨config, hconfig, h⟩ := bind_eq_ok.mp h
  obtain rfl := Except.ok.inj h
  obtain ⟨-, rfl⟩ := syncConfigForBatch_ok hne hsnapshot hfrozen
  have htruthy : (Json.str batchId).truthy = true := by simpa [Json.truthy] using hne
  refine ⟨?_, rfl, fun frozen hnormal items hitems => ?_⟩
  · show (if (Json.str batchId).truthy then Json.str (py.str (.str batchId)) else .null) = _
    rw [if_pos htruthy, py.str_str]
  · rw [hnormal] at hconfig
    obtain rfl := Except.ok.inj hconfig
    have hselected : (if (itemsOf frozen "selected_tables").isEmpty then none
        else some (itemsOf frozen "selected_tables")) = some items := hitems
    split_ifs at hselected
    exact (Option.some.inj hselected).symm

theorem SameTables.selectItems {frozen schemed : Dict} (hsame : SameTables frozen schemed)
    (hselected : ∀ items ∈ run.selectedItems, items = itemsOf frozen "selected_tables") :
    SameTables frozen (match run.selectedItems with
      | none => schemed
      | some items => schemed.set "selected_tables" (.arr items)) := by
  cases hitems : run.selectedItems with
  | none => exact hsame
  | some items =>
      refine hsame.trans (SameTables.setSelected ?_)
      rw [hselected items hitems, hsame.selected]

theorem overriddenConfig_sameTables {frozen config : Dict}
    (hselected : ∀ items ∈ run.selectedItems, items = itemsOf frozen "selected_tables")
    (h : overriddenConfig py run frozen = .ok config) : SameTables frozen config := by
  unfold overriddenConfig at h
  simp only at h
  split_ifs at h
  · obtain rfl := Except.ok.inj h
    exact (SameTables.refl _).selectItems hselected
  · obtain ⟨schemed, hschemed, h⟩ := bind_eq_ok.mp h
    obtain rfl := Except.ok.inj h
    exact ((SameTables.set (by decide) _).trans
      (SameTables.setInMappings (by decide) hschemed)).selectItems hselected

variable {recognize : Dict → Except Raised (List Json)}

theorem directPlan_sameTables {target : Engine} {config : Dict} {p : Plan} (hall : run.syncAllTables = false)
    (h : directPlan py rows recognize run target config = .ok p) : SameTables config p.config := by
  unfold directPlan at h
  obtain ⟨direct, -, h⟩ := bind_eq_ok.mp h
  cases direct with
  | false => cases h
  | true =>
      obtain ⟨catalogued, hcatalogued, h⟩ := bind_eq_ok.mp h
      rw [hall] at h
      obtain rfl := Except.ok.inj h
      have hcatalog : SameTables config (config.set "source_catalog" (.str "local_oracle")) :=
        SameTables.set (by decide) _
      have hmethod := hcatalog.trans (SameTables.set (by decide : "sync_method" ∈ _)
        (.str "stream_load"))
      exact hmethod.trans (SameTables.setInMappings (by decide) hcatalogued)

/-- What the run of a batch executes has the tables and columns of the snapshot, whatever the node
holds. -/
theorem plan_sameTables {node : ComponentNode} {p : Plan} (hne : batchId ≠ "")
    (hsnapshot : rows.snapshot (.str batchId) = .ok (some snapshot))
    (hrun : PreparedFor py batchId snapshot run) (h : plan py rows recognize run node = .ok p) :
    ∃ frozen, normalizeComponentTaskConfig py snapshot.syncConfig = .ok frozen ∧
      SameTables frozen p.config := by
  unfold plan at h
  obtain ⟨frozen, hfrozen, h⟩ := bind_eq_ok.mp h
  rw [hrun.batch] at hfrozen
  obtain ⟨-, rfl⟩ := syncConfigForBatch_ok hne hsnapshot hfrozen
  obtain ⟨normal, hnormal, h⟩ := bind_eq_ok.mp h
  obtain ⟨config, hconfig, h⟩ := bind_eq_ok.mp h
  obtain ⟨source, -, h⟩ := bind_eq_ok.mp h
  obtain ⟨target, -, h⟩ := bind_eq_ok.mp h
  have hsame := overriddenConfig_sameTables (hrun.selected normal hnormal) hconfig
  refine ⟨normal, hnormal, ?_⟩
  split at h
  · split_ifs at h
    · obtain rfl := Except.ok.inj h
      exact hsame
    · exact hsame.trans (directPlan_sameTables hrun.all h)
  · cases h

end RecoveryService.DataPlatform
