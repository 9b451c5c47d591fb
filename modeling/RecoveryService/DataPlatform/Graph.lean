import RecoveryService.Lib.Checks
import RecoveryService.Lib.Json
import RecoveryService.Lib.Text
import RecoveryService.Lib.Topological

/-! # Workflow graphs of the data platform

The graph part of `services/data_platform.py`: the node and edge records of a workflow version,
their normalisation, the order of execution, reachability from a trigger, and the two checks a
graph passes before it is stored as a release snapshot.

An edge is the pair of its `source` and `target`.  A node key is the text the node carries; the
release snapshot is built from nodes as they are given, the executor normalises them again, so
that the last section relates the two: an edge between normalised keys comes from an edge of
the accepted graph. -/

namespace RecoveryService.DataPlatform

open Checks Text

/-- The types of workflow nodes. -/
inductive NodeType where
  | manual
  | sm3Mapping
  | sm4Batch
  | dorisSql
  | dataSync
  | changeTrigger
  | other (name : String)
deriving DecidableEq

/-- A node of a workflow version. -/
structure NodeSpec where
  key : String
  nodeId : Option String := none
  name : String := ""
  nodeType : NodeType := .manual
  config : Json := .obj []
  x : Option ℤ := none
  y : Option ℤ := none

/-- An edge: source and target. -/
abbrev EdgeSpec := String × String

/-! ### Normalisation -/

/-- A node as `_normalize_nodes` stores it; the name falls back to the key. -/
def normalizeNode (index : ℕ) (item : NodeSpec) : NodeSpec :=
  let key := strip (orElse item.key s!"node_{index + 1}")
  { item with key := key, name := strip (orElse item.name key) }

/-- The loop of `_normalize_nodes` from position `index`. -/
def normalizeNodesFrom (index : ℕ) (seen : List String) : List NodeSpec → Except String (List NodeSpec)
  | [] => .ok []
  | item :: items => do
      let node := normalizeNode index item
      raiseIf (node.key = "" ∨ node.key ∈ seen) "Workflow node keys must be unique."
      let rest ← normalizeNodesFrom (index + 1) (node.key :: seen) items
      return node :: rest

def normalizeNodes (items : List NodeSpec) : Except String (List NodeSpec) :=
  normalizeNodesFrom 0 [] items

def normalizeEdges (items : List EdgeSpec) : List EdgeSpec :=
  (items.map (fun e => (strip e.1, strip e.2))).filter (fun e => e.1 ≠ "" ∧ e.2 ≠ "")

/-! ### Order and reachability -/

/-- The keys of the dictionary `{item["key"]: item}`, in insertion order. -/
def dictKeys (nodes : List NodeSpec) : List String :=
  (nodes.map NodeSpec.key).reverse.dedup.reverse

/-- `by_key[key]`: of two nodes with one key the later one. -/
def byKey (nodes : List NodeSpec) (key : String) : Option NodeSpec :=
  nodes.reverse.find? (fun item => item.key = key)

def topologicalOrder (nodes : List NodeSpec) (edges : List EdgeSpec) :
    Except String (List NodeSpec) := do
  let ordered := EdgeList.topological (dictKeys nodes) edges
  raiseIf (ordered.length ≠ nodes.length) "Workflow edges contain a cycle."
  return ordered.filterMap (byKey nodes)

/-- `upstream.get(key, [])`. -/
def upstreamMap (edges : List EdgeSpec) (key : String) : List String := EdgeList.sources edges key

def reachableNodes (source : String) (edges : List EdgeSpec) : List String :=
  if source = "" then [] else EdgeList.reachable edges source

/-! ### The checks on a graph -/

/-- A change trigger with its own deployment, which takes no part in the graph around it. -/
def NodeSpec.isStandalone (item : NodeSpec) : Bool :=
  (item.config.get "standalone_trigger").truthy ||
    (item.config.get "published_workflow_version_id").truthy ||
    (((item.config.get "task_definition_snapshot").get "config").get "standalone_trigger").truthy

/-- `str(item.get("name") or item.get("key"))` of the nodes with one of the keys. -/
def nodeNames (nodes : List NodeSpec) (keys : List String) : List String :=
  (nodes.filter (fun item => item.key ∈ keys)).map (fun item => orElse item.name item.key)

/-- The keys of the standalone change triggers. -/
def standaloneKeys (nodes : List NodeSpec) : List String :=
  (nodes.filter (fun item => item.nodeType = .changeTrigger ∧ item.isStandalone)).map NodeSpec.key

/-- Nodes without any edge that are not standalone change triggers. -/
def orphanKeys (nodes : List NodeSpec) (edges : List EdgeSpec) : List String :=
  (dictKeys nodes).filter (fun key =>
    key ∉ edges.map Prod.fst ∧ key ∉ edges.map Prod.snd ∧ key ∉ standaloneKeys nodes)

def validateWorkflowGraph (nodes : List NodeSpec) (edges : List EdgeSpec) : Except String Unit := do
  let nodeKeys := dictKeys nodes
  raiseIf (∃ edge ∈ edges, edge.1 ∉ nodeKeys ∨ edge.2 ∉ nodeKeys) "流程连线引用了不存在的节点。"
  raiseIf (∃ edge ∈ edges, edge.1 = edge.2) "流程节点不能连接自身。"
  raiseIf (¬ edges.Nodup) "流程中存在重复连线。"
  let orphans := orphanKeys nodes edges
  raiseIf (1 < nodeKeys.length ∧ orphans ≠ [])
    ("存在游离节点：" ++ ", ".intercalate (nodeNames nodes orphans) ++ "，请完成连线后再保存。")
  match topologicalOrder nodes edges with
  | .ok _ => .ok ()
  | .error _ => .error "流程连线不能形成环路。"

/-- The keys of the change triggers. -/
def triggerKeys (nodes : List NodeSpec) : List String :=
  ((nodes.filter (fun item => item.nodeType = .changeTrigger)).map NodeSpec.key).dedup

def validateChangeTriggerGraph (nodes : List NodeSpec) (edges : List EdgeSpec) :
    Except String Unit := do
  let incoming := fun key => (edges.filter (fun e => e.2 = key)).length
  let outgoing := fun key => (edges.filter (fun e => e.1 = key)).length
  let keys := triggerKeys nodes
  let standalone := standaloneKeys nodes
  let invalidStandalone := keys.filter (fun k => k ∈ standalone ∧ (incoming k ≠ 0 ∨ outgoing k ≠ 0))
  raiseIf (invalidStandalone ≠ [])
    ("自包含数据变化触发器不能在离线画布连接外部上下游节点：" ++ ", ".intercalate invalidStandalone)
  let invalidIncoming := keys.filter (fun k => incoming k ≠ 0 ∧ k ∉ standalone)
  let invalidOutgoing := keys.filter (fun k => outgoing k = 0 ∧ k ∉ standalone)
  raiseIf (invalidIncoming ≠ [])
    ("数据变化触发器必须作为流程入口，不能有上游节点：" ++ ", ".intercalate invalidIncoming)
  raiseIf (invalidOutgoing ≠ [])
    ("数据变化触发器至少需要连接一个下游执行组件：" ++ ", ".intercalate invalidOutgoing)

/-- The schedule entry of a release snapshot. -/
structure ReleaseSchedule where
  scheduleType : String
  runTime : String
  dayOfMonth : Option ℤ
  dayOfWeek : Option ℤ
  intervalMinutes : Option ℤ

/-- What a release is built from besides its graph. -/
structure SchedulePayload where
  scheduleType : String := ""
  runTime : String := ""
  dayOfMonth : Option ℤ := none
  dayOfWeek : Option ℤ := none
  intervalMinutes : Option ℤ := none
  businessMetadata : Json := .obj []

/-- A frozen release of a workflow version. -/
structure ReleaseSnapshot where
  nodes : List NodeSpec
  edges : List EdgeSpec
  businessMetadata : Json
  schedule : ReleaseSchedule

def buildReleaseSnapshot (nodes : List NodeSpec) (edges : List EdgeSpec)
    (schedule : SchedulePayload) : Except String ReleaseSnapshot := do
  validateWorkflowGraph nodes edges
  validateChangeTriggerGraph nodes edges
  return {
    nodes := nodes
    edges := edges
    businessMetadata := schedule.businessMetadata
    schedule := {
      scheduleType := orElse schedule.scheduleType "daily"
      runTime := orElse schedule.runTime "02:00"
      dayOfMonth := schedule.dayOfMonth
      dayOfWeek := schedule.dayOfWeek
      intervalMinutes := schedule.intervalMinutes } }

/-! ### What normalisation does -/

variable {index : ℕ}

theorem normalizeNode_key {item : NodeSpec} (h : item.key ≠ "") :
    (normalizeNode index item).key = strip item.key := by
  simp [normalizeNode, orElse, h]

variable {items nodes : List NodeSpec}

theorem normalizeNodesFrom_ok {seen : List String} (h : normalizeNodesFrom index seen items = .ok nodes) :
    (∀ node ∈ nodes, node.key ≠ "" ∧ node.key ∉ seen) ∧ (nodes.map NodeSpec.key).Nodup ∧
      (∀ node ∈ nodes, ∃ i, ∃ item ∈ items, node = normalizeNode i item) ∧
      ∀ item ∈ items, ∃ i, normalizeNode i item ∈ nodes := by
  induction items generalizing index seen nodes with
  | nil =>
      cases h
      simp
  | cons item items ih =>
      rw [normalizeNodesFrom] at h
      obtain ⟨_, hcheck, h⟩ := bind_eq_ok.mp h
      obtain ⟨rest, hrest, h⟩ := bind_eq_ok.mp h
      cases h
      rw [raiseIf_eq_ok, not_or] at hcheck
      obtain ⟨hseen, hnd, hfrom, hto⟩ := ih hrest
      refine ⟨?_, ?_, ?_, ?_⟩
      · intro node hn
        rcases List.mem_cons.mp hn with rfl | hn
        · exact hcheck
        · obtain ⟨hne, hns⟩ := hseen node hn
          exact ⟨hne, fun hm => hns (List.mem_cons_of_mem _ hm)⟩
      · rw [List.map_cons, List.nodup_cons]
        refine ⟨?_, hnd⟩
        intro hm
        obtain ⟨node, hn, he⟩ := List.mem_map.mp hm
        exact (hseen node hn).2 (he ▸ List.mem_cons_self)
      · intro node hn
        rcases List.mem_cons.mp hn with rfl | hn
        · exact ⟨index, item, List.mem_cons_self, rfl⟩
        · obtain ⟨i, it, hit, he⟩ := hfrom node hn
          exact ⟨i, it, List.mem_cons_of_mem _ hit, he⟩
      · intro it hit
        rcases List.mem_cons.mp hit with rfl | hit
        · exact ⟨index, List.mem_cons_self⟩
        · obtain ⟨i, hi⟩ := hto it hit
          exact ⟨i, List.mem_cons_of_mem _ hi⟩

/-- Normalised keys are distinct. -/
theorem normalizeNodes_nodup (h : normalizeNodes items = .ok nodes) :
    (nodes.map NodeSpec.key).Nodup := (normalizeNodesFrom_ok h).2.1

variable {node : NodeSpec}

theorem normalizeNodes_key_ne (h : normalizeNodes items = .ok nodes) (hn : node ∈ nodes) :
    node.key ≠ "" := ((normalizeNodesFrom_ok h).1 node hn).1

/-- A node that carries a key is stored under its stripped key. -/
theorem exists_normalizeNode (h : normalizeNodes items = .ok nodes) {item : NodeSpec} (hi : item ∈ items)
    (hk : item.key ≠ "") : ∃ node ∈ nodes, node.key = strip item.key ∧ node.nodeType = item.nodeType := by
  obtain ⟨i, hn⟩ := (normalizeNodesFrom_ok h).2.2.2 item hi
  exact ⟨_, hn, normalizeNode_key hk, rfl⟩

/-- Keys that strip to one text are one key. -/
theorem normalizeNodesFrom_strip_inj {seen : List String} (h : normalizeNodesFrom index seen items = .ok nodes)
    {m n : NodeSpec} (hm : m ∈ items) (hn : n ∈ items) (hmk : m.key ≠ "") (hnk : n.key ≠ "")
    (he : strip m.key = strip n.key) : m.key = n.key := by
  induction items generalizing index seen nodes with
  | nil => cases hm
  | cons item items ih =>
      rw [normalizeNodesFrom] at h
      obtain ⟨_, _, h⟩ := bind_eq_ok.mp h
      obtain ⟨rest, hrest, _⟩ := bind_eq_ok.mp h
      -- no later key strips to the text of the first one
      have hlater : ∀ x ∈ items, x.key ≠ "" → item.key ≠ "" → strip x.key ≠ strip item.key := by
        intro x hx hxk hik hxe
        obtain ⟨i, hi⟩ := (normalizeNodesFrom_ok hrest).2.2.2 x hx
        refine ((normalizeNodesFrom_ok hrest).1 _ hi).2 ?_
        rw [normalizeNode_key hxk, hxe, normalizeNode_key hik]
        exact List.mem_cons_self
      rcases List.mem_cons.mp hm with hm' | hm'
      · rcases List.mem_cons.mp hn with hn' | hn'
        · rw [hm', hn']
        · subst hm'
          exact absurd he.symm (hlater n hn' hnk hmk)
      · rcases List.mem_cons.mp hn with hn' | hn'
        · subst hn'
          exact absurd he (hlater m hm' hmk hnk)
        · exact ih hrest hm' hn'

/-- Two nodes with one key are one node. -/
theorem eq_of_key_eq (hnd : (nodes.map NodeSpec.key).Nodup) {m n : NodeSpec} (hm : m ∈ nodes) (hn : n ∈ nodes)
    (he : m.key = n.key) : m = n :=
  List.inj_on_of_nodup_map hnd hm hn he

variable {edges : List EdgeSpec}

theorem mem_normalizeEdges {a b : String} : (a, b) ∈ normalizeEdges edges ↔
      (∃ e ∈ edges, strip e.1 = a ∧ strip e.2 = b) ∧ a ≠ "" ∧ b ≠ "" := by
  simp [normalizeEdges]

@[simp] theorem strip_empty : strip "" = "" := by decide

/-! ### What the checks say -/

theorem mem_dictKeys {key : String} : key ∈ dictKeys nodes ↔ ∃ node ∈ nodes, node.key = key := by
  simp [dictKeys]

theorem dictKeys_nodup (nodes : List NodeSpec) : (dictKeys nodes).Nodup :=
  List.nodup_reverse.mpr (List.nodup_dedup _)

theorem dictKeys_eq (h : (nodes.map NodeSpec.key).Nodup) : dictKeys nodes = nodes.map NodeSpec.key := by
  rw [dictKeys, List.Nodup.dedup (List.nodup_reverse.mpr h), List.reverse_reverse]

/-- The edges of an accepted graph join distinct nodes of it. -/
theorem validateWorkflowGraph_ok (h : validateWorkflowGraph nodes edges = .ok ()) {s t : String}
    (he : (s, t) ∈ edges) : (∃ node ∈ nodes, node.key = s) ∧ (∃ node ∈ nodes, node.key = t) ∧ s ≠ t := by
  unfold validateWorkflowGraph at h
  obtain ⟨_, hends, h⟩ := bind_eq_ok.mp h
  obtain ⟨_, hself, _⟩ := bind_eq_ok.mp h
  rw [raiseIf_eq_ok] at hends hself
  push Not at hends hself
  obtain ⟨hs, ht⟩ := hends (s, t) he
  exact ⟨mem_dictKeys.mp hs, mem_dictKeys.mp ht, hself (s, t) he⟩

/-- No edge of an accepted graph leads into a change trigger. -/
theorem validateChangeTriggerGraph_ok (h : validateChangeTriggerGraph nodes edges = .ok ()) {s : String}
    (hn : node ∈ nodes) (ht : node.nodeType = .changeTrigger) : (s, node.key) ∉ edges := by
  intro he
  unfold validateChangeTriggerGraph at h
  obtain ⟨_, hstandalone, h⟩ := bind_eq_ok.mp h
  obtain ⟨_, hincoming, _⟩ := bind_eq_ok.mp h
  rw [raiseIf_eq_ok, not_not] at hstandalone hincoming
  have hkey : node.key ∈ triggerKeys nodes := by
    rw [triggerKeys, List.mem_dedup]
    exact List.mem_map_of_mem (List.mem_filter.mpr ⟨hn, by simp [ht]⟩)
  have hin : (edges.filter (fun e => e.2 = node.key)).length ≠ 0 := by
    intro hz
    have hm : (s, node.key) ∈ edges.filter (fun e => e.2 = node.key) :=
      List.mem_filter.mpr ⟨he, by simp⟩
    rw [List.length_eq_zero_iff.mp hz] at hm
    exact List.not_mem_nil hm
  by_cases hs : node.key ∈ standaloneKeys nodes
  · have hm := List.filter_eq_nil_iff.mp hstandalone node.key hkey
    simp [hs, hin] at hm
  · have hm := List.filter_eq_nil_iff.mp hincoming node.key hkey
    simp [hs, hin] at hm

variable {schedule : SchedulePayload} {release : ReleaseSnapshot}

theorem buildReleaseSnapshot_ok (h : buildReleaseSnapshot nodes edges schedule = .ok release) :
    validateWorkflowGraph nodes edges = .ok () ∧ validateChangeTriggerGraph nodes edges = .ok () ∧
      release.nodes = nodes ∧ release.edges = edges := by
  unfold buildReleaseSnapshot at h
  obtain ⟨_, hw, h⟩ := bind_eq_ok.mp h
  obtain ⟨_, ht, h⟩ := bind_eq_ok.mp h
  cases h
  exact ⟨hw, ht, rfl, rfl⟩

theorem byKey_eq (hnd : (nodes.map NodeSpec.key).Nodup) (hn : node ∈ nodes) :
    byKey nodes node.key = some node := by
  unfold byKey
  cases hf : nodes.reverse.find? (fun item => item.key = node.key) with
  | none =>
      have := List.find?_eq_none.mp hf node (List.mem_reverse.mpr hn)
      simp at this
  | some m =>
      have hk : m.key = node.key := by simpa using List.find?_some hf
      have hm : m ∈ nodes := List.mem_reverse.mp (List.mem_of_find?_eq_some hf)
      rw [eq_of_key_eq hnd hm hn hk]

/-- The order of execution lists the nodes by the topological order of their keys, each once. -/
theorem topologicalOrder_ok {order : List NodeSpec} (hnd : (nodes.map NodeSpec.key).Nodup)
    (h : topologicalOrder nodes edges = .ok order) :
    order.map NodeSpec.key = EdgeList.topological (nodes.map NodeSpec.key) edges ∧
      (∀ node, node ∈ order ↔ node ∈ nodes) := by
  unfold topologicalOrder at h
  obtain ⟨_, hlen, h⟩ := bind_eq_ok.mp h
  cases h
  rw [raiseIf_eq_ok, not_not, dictKeys_eq hnd] at hlen
  rw [dictKeys_eq hnd]
  have hperm := EdgeList.topological_perm hnd (hlen.trans (List.length_map _).symm)
  -- every listed key is the key of a node, which `byKey` gives back
  have hback : ∀ l : List String, l ⊆ nodes.map NodeSpec.key →
      (l.filterMap (byKey nodes)).map NodeSpec.key = l ∧
        ∀ node, node ∈ l.filterMap (byKey nodes) ↔ node ∈ nodes ∧ node.key ∈ l := by
    intro l
    induction l with
    | nil => simp
    | cons k l ih =>
        intro hl
        obtain ⟨node, hn, rfl⟩ := List.mem_map.mp (hl List.mem_cons_self)
        obtain ⟨h1, h2⟩ := ih (fun x hx => hl (List.mem_cons_of_mem _ hx))
        rw [List.filterMap_cons_some (byKey_eq hnd hn)]
        refine ⟨by rw [List.map_cons, h1], ?_⟩
        intro m
        rw [List.mem_cons, h2, List.mem_cons]
        constructor
        · rintro (rfl | ⟨hm, hk⟩)
          · exact ⟨hn, Or.inl rfl⟩
          · exact ⟨hm, Or.inr hk⟩
        · rintro ⟨hm, hk | hk⟩
          · exact Or.inl (eq_of_key_eq hnd hm hn hk)
          · exact Or.inr ⟨hm, hk⟩
  obtain ⟨h1, h2⟩ := hback _ hperm.subset
  refine ⟨h1, ?_⟩
  intro node
  rw [h2, and_iff_left_iff_imp]
  intro hn
  exact hperm.mem_iff.mpr (List.mem_map_of_mem hn)

/-! ### The normalised graph of an accepted release -/

/-- What the executor relies on: keys are distinct, edges join distinct nodes, and no edge leads
into a change trigger. -/
structure WellFormed (nodes : List NodeSpec) (edges : List EdgeSpec) : Prop where
  nodup : (nodes.map NodeSpec.key).Nodup
  source_mem : ∀ a b, (a, b) ∈ edges → a ∈ nodes.map NodeSpec.key
  target_mem : ∀ a b, (a, b) ∈ edges → b ∈ nodes.map NodeSpec.key
  irrefl : ∀ a, (a, a) ∉ edges
  entry : ∀ a, ∀ node ∈ nodes, node.nodeType = .changeTrigger → (a, node.key) ∉ edges

theorem wellFormed_normalize (h : buildReleaseSnapshot items edges schedule = .ok release)
    (hn : normalizeNodes items = .ok nodes) : WellFormed nodes (normalizeEdges edges) := by
  obtain ⟨hw, ht, _, _⟩ := buildReleaseSnapshot_ok h
  have hnd := normalizeNodes_nodup hn
  -- an end of a normalised edge is a normalised node of the end of the edge it comes from
  have hend : ∀ s : String, strip s ≠ "" → (∃ item ∈ items, item.key = s) →
      ∃ item ∈ items, item.key = s ∧ ∃ node ∈ nodes, node.key = strip s ∧
        node.nodeType = item.nodeType := by
    rintro s hs ⟨item, hi, rfl⟩
    have hk : item.key ≠ "" := by
      intro hk
      rw [hk, strip_empty] at hs
      exact hs rfl
    exact ⟨item, hi, rfl, exists_normalizeNode hn hi hk⟩
  refine ⟨hnd, ?_, ?_, ?_, ?_⟩
  · intro a b hab
    obtain ⟨⟨⟨s, t⟩, he, rfl, rfl⟩, ha, _⟩ := mem_normalizeEdges.mp hab
    obtain ⟨_, _, _, node, hnode, hkey, _⟩ := hend s ha (validateWorkflowGraph_ok hw he).1
    exact List.mem_map.mpr ⟨node, hnode, hkey⟩
  · intro a b hab
    obtain ⟨⟨⟨s, t⟩, he, rfl, rfl⟩, _, hb⟩ := mem_normalizeEdges.mp hab
    obtain ⟨_, _, _, node, hnode, hkey, _⟩ := hend t hb (validateWorkflowGraph_ok hw he).2.1
    exact List.mem_map.mpr ⟨node, hnode, hkey⟩
  · intro a haa
    obtain ⟨⟨⟨s, t⟩, he, hs, hta⟩, ha, _⟩ := mem_normalizeEdges.mp haa
    obtain ⟨⟨m, hm, hms⟩, ⟨n, hn', hnt⟩, hne⟩ := validateWorkflowGraph_ok hw he
    have hnonempty : ∀ u : String, strip u = a → u ≠ "" := by
      rintro u hu rfl
      exact ha (hu.symm.trans strip_empty)
    apply hne
    rw [← hms, ← hnt]
    apply normalizeNodesFrom_strip_inj hn hm hn'
    · exact hnonempty _ (hms ▸ hs)
    · exact hnonempty _ (hnt ▸ hta)
    · rw [hms, hnt]
      exact hs.trans hta.symm
  · intro a node hnode htype hab
    obtain ⟨⟨⟨s, t⟩, he, rfl, htb⟩, _, hb⟩ := mem_normalizeEdges.mp hab
    obtain ⟨item, hi, hik, node', hnode', hkey', htype'⟩ :=
      hend t (htb ▸ hb) (validateWorkflowGraph_ok hw he).2.1
    have heq : node' = node := eq_of_key_eq hnd hnode' hnode (hkey'.trans htb)
    subst heq
    refine validateChangeTriggerGraph_ok ht hi (htype'.symm.trans htype) (s := s) ?_
    rw [hik]
    exact he

/-- The order of an accepted graph is an order of its keys: no chain of edges closes. -/
theorem validateWorkflowGraph_acyclic (h : validateWorkflowGraph nodes edges = .ok ()) :
    EdgeList.Acyclic (dictKeys nodes) edges := by
  unfold validateWorkflowGraph at h
  obtain ⟨_, _, h⟩ := bind_eq_ok.mp h
  obtain ⟨_, _, h⟩ := bind_eq_ok.mp h
  obtain ⟨_, _, h⟩ := bind_eq_ok.mp h
  obtain ⟨_, _, h⟩ := bind_eq_ok.mp h
  cases horder : topologicalOrder nodes edges with
  | error text =>
      rw [horder] at h
      cases h
  | ok order =>
      unfold topologicalOrder at horder
      obtain ⟨_, hlen, _⟩ := bind_eq_ok.mp horder
      rw [raiseIf_eq_ok, not_not] at hlen
      rw [← EdgeList.topological_length_iff (dictKeys_nodup nodes)]
      have hordered : (EdgeList.topological (dictKeys nodes) edges).Nodup :=
        EdgeList.topological_nodup (dictKeys_nodup nodes)
      have hle := (hordered.subperm (EdgeList.topological_subset (dictKeys_nodup nodes))).length_le
      have hkeys : (dictKeys nodes).length ≤ nodes.length := by
        rw [dictKeys, List.length_reverse]
        calc (nodes.map NodeSpec.key).reverse.dedup.length
            ≤ (nodes.map NodeSpec.key).reverse.length := (List.dedup_sublist _).length_le
          _ = nodes.length := by rw [List.length_reverse, List.length_map]
      omega

/-- A chain of normalised edges comes from a chain of edges. -/
theorem acyclic_normalize_of_accepted (hw : validateWorkflowGraph items edges = .ok ())
    (hn : normalizeNodes items = .ok nodes) :
    EdgeList.Acyclic (nodes.map NodeSpec.key) (normalizeEdges edges) := by
  have hacyclic := validateWorkflowGraph_acyclic hw
  -- a normalised key has the position of the key it comes from
  let back : String → String := fun k =>
    ((items.find? (fun item => item.key ≠ "" ∧ strip item.key = k)).map NodeSpec.key).getD ""
  have hback : ∀ item ∈ items, item.key ≠ "" → back (strip item.key) = item.key := by
    intro item hi hk
    show ((items.find? _).map NodeSpec.key).getD "" = item.key
    cases hf : items.find? (fun m => m.key ≠ "" ∧ strip m.key = strip item.key) with
    | none =>
        have := List.find?_eq_none.mp hf item hi
        simp [hk] at this
    | some m =>
        have hm := List.find?_some hf
        rw [decide_eq_true_eq] at hm
        exact normalizeNodesFrom_strip_inj hn (List.mem_of_find?_eq_some hf) hi hm.1 hk hm.2
  apply EdgeList.acyclic_of_rank
    (fun k => (EdgeList.topological (dictKeys items) edges).idxOf (back k))
  rintro a b ⟨hab, _⟩
  obtain ⟨⟨⟨s, t⟩, he, rfl, rfl⟩, ha, hb⟩ := mem_normalizeEdges.mp hab
  obtain ⟨⟨m, hm, rfl⟩, ⟨n, hn', rfl⟩, hne⟩ := validateWorkflowGraph_ok hw he
  have hnonempty : ∀ u : String, strip u ≠ "" → u ≠ "" := by
    rintro u hu rfl
    exact hu strip_empty
  rw [hback m hm (hnonempty _ ha), hback n hn' (hnonempty _ hb)]
  have hkeys := dictKeys_nodup items
  have hlen := (EdgeList.topological_length_iff hkeys).mpr hacyclic
  have hmem := (EdgeList.topological_perm hkeys hlen).mem_iff (a := n.key)
  apply (EdgeList.topological_sorted hkeys).idxOf_lt (EdgeList.topological_nodup hkeys)
  · exact ⟨he, mem_dictKeys.mpr ⟨m, hm, rfl⟩, mem_dictKeys.mpr ⟨n, hn', rfl⟩, hne⟩
  · exact hmem.mpr (mem_dictKeys.mpr ⟨n, hn', rfl⟩)

theorem acyclic_normalize (h : buildReleaseSnapshot items edges schedule = .ok release)
    (hn : normalizeNodes items = .ok nodes) :
    EdgeList.Acyclic (nodes.map NodeSpec.key) (normalizeEdges edges) :=
  acyclic_normalize_of_accepted (buildReleaseSnapshot_ok h).1 hn

/-- The executor finds an order. -/
theorem topologicalOrder_of_acyclic (hnd : (nodes.map NodeSpec.key).Nodup)
    (hacyclic : EdgeList.Acyclic (nodes.map NodeSpec.key) edges) :
    ∃ order, topologicalOrder nodes edges = .ok order := by
  have hlen := (EdgeList.topological_length_iff hnd).mpr hacyclic
  rw [List.length_map] at hlen
  refine ⟨(EdgeList.topological (dictKeys nodes) edges).filterMap (byKey nodes), ?_⟩
  unfold topologicalOrder
  rw [dictKeys_eq hnd]
  dsimp only
  rw [bind_eq_ok]
  refine ⟨(), ?_, rfl⟩
  rw [raiseIf_eq_ok, not_not]
  exact hlen

end RecoveryService.DataPlatform
