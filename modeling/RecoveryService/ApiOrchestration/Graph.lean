import RecoveryService.Lib.Checks
import RecoveryService.Lib.Indegree
import RecoveryService.Lib.Json

/-! # The graph of an API workflow

Nodes and edges as the editor saves them, and the checks `_validate_graph` makes.  `id`, `source`
and `target` are the `str(..)` of what is stored; `type`, `name` and `branch` are `none` where the
key is missing.  What `_validate_mapping_config` raises for a mapping node is a parameter.

An accepted graph has distinct ids, a start node without incoming edges from which every node can
be reached, and positions that increase along its edges (`validateGraph_ok`). -/

namespace RecoveryService.ApiOrchestration

open Checks EdgeList

structure Node where
  id : String
  name : Option String := none
  type : Option String
  config : Json := .obj []

structure Edge where
  source : String
  target : String
  branch : Option String := none

/-- The edges as pairs of ids. -/
def pairs (edges : List Edge) : List (String × String) := edges.map (fun e => (e.source, e.target))

/-- `q.pop(0)`, and `q.extend(graph[current])` unless the key was reached before. -/
def walk (es : List (String × String)) : ℕ → List String → List String → List String
  | 0, reachable, _ => reachable
  | _ + 1, reachable, [] => reachable
  | n + 1, reachable, current :: q =>
      if current ∈ reachable then walk es n reachable q
      else walk es n (current :: reachable) (q ++ targets es current)

/-- The ids reached from `start`; every edge is followed at most once. -/
def reachableIds (es : List (String × String)) (start : String) : List String :=
  walk es (es.length + 1) [] [start]

/-- The last loop of `_validate_graph`. -/
def validateNode (validateMappingConfig : Node → Except String Unit) (es : List (String × String))
    (node : Node) : Except String Unit := do
  raiseIf (node.type = some "start" ∧ sources es node.id ≠ []) "开始节点不能有入线。"
  raiseIf (node.type = some "end" ∧ targets es node.id ≠ []) "结束节点不能有出线。"
  if node.type = some "mapping" then validateMappingConfig node else .ok ()

/-- `_validate_graph`. -/
def validateGraph (validateMappingConfig : Node → Except String Unit) (nodes : List Node)
    (edges : List Edge) : Except String Unit := do
  let ids := nodes.map Node.id
  let es := pairs edges
  raiseIf (nodes = [] ∨ ¬ ids.Nodup ∨ ∃ x ∈ ids, x = "" ∨ x = "None") "流程节点 ID 无效或重复。"
  let starts := nodes.filter (fun n => n.type = some "start")
  raiseIf (starts.length ≠ 1 ∨ ¬ ∃ n ∈ nodes, n.type = some "end")
    "流程必须包含且只能包含一个开始节点，并至少包含一个结束节点。"
  raiseIf ((∃ e ∈ es, e.1 ∉ ids ∨ e.2 ∉ ids ∨ e.1 = e.2) ∨ ¬ es.Nodup) "流程连线无效、自环或重复。"
  raiseIf ((counted ids es).length ≠ ids.length) "流程不允许环路。"
  let reachable := reachableIds es ((starts.map Node.id).headD "")
  raiseIf (¬ ((∀ x ∈ ids, x ∈ reachable) ∧ ∀ x ∈ reachable, x ∈ ids)) "所有节点都必须从开始节点可达。"
  nodes.forM (validateNode validateMappingConfig es)

/-! ### What an accepted graph is like -/

/-- The graph has a start node without incoming edges from which every node can be reached, its
edges join listed nodes, and `rank` increases along them. -/
structure Sound (nodes : List Node) (edges : List Edge) (start : String) : Prop where
  ids : (nodes.map Node.id).Nodup
  start_mem : start ∈ nodes.map Node.id
  sources_mem : ∀ e ∈ edges, e.source ∈ nodes.map Node.id
  targets_mem : ∀ e ∈ edges, e.target ∈ nodes.map Node.id
  start_free : ∀ e ∈ edges, e.target ≠ start
  entered : ∀ x ∈ nodes.map Node.id, x ≠ start → ∃ e ∈ edges, e.target = x
  rank : ∃ rank : String → ℕ, ∀ e ∈ edges, rank e.source < rank e.target

theorem mem_pairs {edges : List Edge} {a b : String} :
    (a, b) ∈ pairs edges ↔ ∃ e ∈ edges, e.source = a ∧ e.target = b := by
  unfold pairs
  simp only [List.mem_map, Prod.mk.injEq]

/-- The walk reaches only what the edges reach. -/
theorem reaches_of_mem_walk {es : List (String × String)} {start : String} (n : ℕ)
    {reachable q : List String} (hr : ∀ x ∈ reachable, Reaches es start x)
    (hq : ∀ x ∈ q, Reaches es start x) : ∀ x ∈ walk es n reachable q, Reaches es start x := by
  induction n generalizing reachable q with
  | zero => exact hr
  | succ n ih =>
      cases q with
      | nil => exact hr
      | cons current q =>
          rw [List.forall_mem_cons] at hq
          unfold walk
          split_ifs
          · exact ih hr hq.2
          · refine ih (List.forall_mem_cons.mpr ⟨hq.1, hr⟩) ?_
            intro x hx
            obtain hx | hx := List.mem_append.mp hx
            · exact hq.2 x hx
            · exact hq.1.tail (mem_targets.mp hx)

theorem validateGraph_ok {validateMappingConfig : Node → Except String Unit} {nodes : List Node}
    {edges : List Edge} (h : validateGraph validateMappingConfig nodes edges = .ok ()) :
    ∃ start, (∀ node ∈ nodes, node.type = some "start" ↔ node.id = start) ∧
      Sound nodes edges start := by
  unfold validateGraph at h
  obtain ⟨_, hids, h⟩ := bind_eq_ok.mp h
  obtain ⟨_, hstarts, h⟩ := bind_eq_ok.mp h
  obtain ⟨_, hedges, h⟩ := bind_eq_ok.mp h
  obtain ⟨_, hcount, h⟩ := bind_eq_ok.mp h
  obtain ⟨_, hreach, h⟩ := bind_eq_ok.mp h
  rw [raiseIf_eq_ok] at hids hstarts hedges hcount hreach
  have hnodes := forM_eq_ok h
  obtain ⟨hone, -⟩ := not_or.mp hstarts
  obtain ⟨node, hstart⟩ := List.length_eq_one_iff.mp (not_not.mp hone)
  have hstarts' : ∀ n, (n ∈ nodes ∧ n.type = some "start") ↔ n = node := by
    intro n
    have hmem : n ∈ nodes.filter (fun n => n.type = some "start") ↔ n = node := by
      rw [hstart, List.mem_singleton]
    simpa using hmem
  have hnode := (hstarts' node).mpr rfl
  rw [hstart] at hreach
  obtain ⟨hreached, -⟩ := not_not.mp hreach
  have hnodup : (nodes.map Node.id).Nodup := not_not.mp (not_or.mp (not_or.mp hids).2).1
  have hvalid : ∀ e ∈ pairs edges, e.1 ∈ nodes.map Node.id ∧ e.2 ∈ nodes.map Node.id := by
    intro e he
    have hno := (not_or.mp hedges).1
    push Not at hno
    exact ⟨(hno e he).1, (hno e he).2.1⟩
  refine ⟨node.id, ?_, hnodup, List.mem_map_of_mem hnode.1, ?_, ?_, ?_, ?_, ?_⟩
  · intro n hn
    constructor
    · intro htype
      rw [(hstarts' n).mp ⟨hn, htype⟩]
    · intro hid
      rw [List.inj_on_of_nodup_map hnodup hn hnode.1 hid]
      exact hnode.2
  · exact fun e he => (hvalid _ (mem_pairs.mpr ⟨e, he, rfl, rfl⟩)).1
  · exact fun e he => (hvalid _ (mem_pairs.mpr ⟨e, he, rfl, rfl⟩)).2
  · intro e he htarget
    obtain ⟨_, hfree, _⟩ := bind_eq_ok.mp (hnodes node hnode.1)
    rw [raiseIf_eq_ok] at hfree
    have hmem : e.source ∈ sources (pairs edges) node.id :=
      mem_sources.mpr (mem_pairs.mpr ⟨e, he, rfl, htarget⟩)
    exact hfree ⟨hnode.2, List.ne_nil_of_mem hmem⟩
  · intro x hx hne
    have hwalk : Reaches (pairs edges) node.id x := by
      refine reaches_of_mem_walk _ (fun _ hy => by cases hy) ?_ x (hreached x hx)
      intro y hy
      rw [List.mem_singleton.mp hy]
      exact Relation.ReflTransGen.refl
    obtain rfl | ⟨a, -, hstep⟩ := Relation.ReflTransGen.cases_tail hwalk
    · exact absurd rfl hne
    · obtain ⟨e, he, -, htarget⟩ := mem_pairs.mp hstep
      exact ⟨e, he, htarget⟩
  · refine ⟨fun x => (counted (nodes.map Node.id) (pairs edges)).idxOf x, fun e he => ?_⟩
    exact counting_rank hnodup (fun e he => (hvalid e he).2) (not_not.mp hcount) e.source e.target
      (mem_pairs.mpr ⟨e, he, rfl, rfl⟩)

end RecoveryService.ApiOrchestration
