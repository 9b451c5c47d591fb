import RecoveryService.DataPlatform.ExecuteRun

/-! # The order of execution

`_topological_order` returns the nodes in an order in which every edge between two of them goes
forward, exactly when their keys are distinct and the edges have no cycle
(`topologicalOrder_returns_iff`).  The graph that a run normalises has such an order when the
release was accepted, so a run of it never fails with the text of a cycle. -/

namespace RecoveryService.DataPlatform

open Checks

variable {nodes order : List NodeSpec} {edges : List EdgeSpec}

/-- The nodes in another order, in which every edge between two distinct nodes goes forward. -/
structure ForwardOrder (nodes order : List NodeSpec) (edges : List EdgeSpec) : Prop where
  perm : order.Perm nodes
  forward : ∀ a b, EdgeList.Dep (nodes.map NodeSpec.key) edges a b →
    (order.map NodeSpec.key).idxOf a < (order.map NodeSpec.key).idxOf b

/-- The dictionary of the nodes has an entry for each of them when the keys are distinct only. -/
theorem dictKeys_length_iff : (dictKeys nodes).length = nodes.length ↔ (nodes.map NodeSpec.key).Nodup := by
  constructor
  · intro hlen
    have hsub : List.Sublist (nodes.map NodeSpec.key).reverse.dedup (nodes.map NodeSpec.key).reverse :=
      List.dedup_sublist _
    unfold dictKeys at hlen
    have hall : (nodes.map NodeSpec.key).reverse.dedup = (nodes.map NodeSpec.key).reverse := by
      apply hsub.eq_of_length
      rw [List.length_reverse] at hlen
      rw [hlen, List.length_reverse, List.length_map]
    rw [← List.nodup_reverse, ← hall]
    exact List.nodup_dedup _
  · intro hnd
    rw [dictKeys_eq hnd, List.length_map]

theorem dictKeys_length_le : (dictKeys nodes).length ≤ nodes.length := by
  rw [dictKeys, List.length_reverse]
  calc (nodes.map NodeSpec.key).reverse.dedup.length
      ≤ (nodes.map NodeSpec.key).reverse.length := (List.dedup_sublist _).length_le
    _ = nodes.length := by rw [List.length_reverse, List.length_map]

/-- An order is returned exactly when the keys are distinct and there is no cycle. -/
theorem topologicalOrder_returns_iff : (∃ order, topologicalOrder nodes edges = .ok order) ↔
      (nodes.map NodeSpec.key).Nodup ∧ EdgeList.Acyclic (nodes.map NodeSpec.key) edges := by
  constructor
  · rintro ⟨order, h⟩
    unfold topologicalOrder at h
    obtain ⟨_, hlen, -⟩ := bind_eq_ok.mp h
    rw [raiseIf_eq_ok, not_not] at hlen
    have hkeys := dictKeys_nodup nodes
    have hsorted : (EdgeList.topological (dictKeys nodes) edges).Nodup :=
      EdgeList.topological_nodup hkeys
    have hle := (hsorted.subperm
      (EdgeList.topological_subset hkeys)).length_le
    have hdict : (dictKeys nodes).length ≤ nodes.length := dictKeys_length_le
    have hnd : (nodes.map NodeSpec.key).Nodup := dictKeys_length_iff.mp (by omega)
    refine ⟨hnd, ?_⟩
    rw [← dictKeys_eq hnd, ← EdgeList.topological_length_iff hkeys]
    omega
  · rintro ⟨hnd, hacyclic⟩
    exact topologicalOrder_of_acyclic hnd hacyclic

/-- What is returned is such an order. -/
theorem topologicalOrder_forward (h : topologicalOrder nodes edges = .ok order) :
    ForwardOrder nodes order edges := by
  obtain ⟨hnd, hacyclic⟩ := topologicalOrder_returns_iff.mp ⟨order, h⟩
  obtain ⟨hkeys, hmem⟩ := topologicalOrder_ok hnd h
  have hsorted : (EdgeList.topological (nodes.map NodeSpec.key) edges).Nodup :=
    EdgeList.topological_nodup hnd
  have hlen := (EdgeList.topological_length_iff hnd).mpr hacyclic
  constructor
  · have horder : order.Nodup := by
      apply List.Nodup.of_map NodeSpec.key
      rw [hkeys]
      exact hsorted
    exact (List.perm_ext_iff_of_nodup horder (List.Nodup.of_map _ hnd)).mpr hmem
  · intro a b hd
    rw [hkeys]
    have hb := (EdgeList.topological_perm hnd hlen).mem_iff.mpr hd.2.2.1
    exact (EdgeList.topological_sorted hnd).idxOf_lt hsorted hd hb

/-- A run whose release was accepted can fail on its node keys only. -/
theorem executeNodes_error {version : WorkflowVersion} {run : RunRequest} {execute : Execute}
    {text : String} (haccepted : validateWorkflowGraph version.releaseNodes version.releaseEdges = .ok ())
    (h : executeNodes version run execute = .error text) :
    normalizeNodes version.releaseNodes = .error text := by
  unfold executeNodes at h
  cases hnodes : normalizeNodes version.releaseNodes with
  | error e =>
      rw [hnodes] at h
      cases h
      rfl
  | ok nodes =>
      rw [hnodes] at h
      obtain ⟨order, horder⟩ := topologicalOrder_of_acyclic (normalizeNodes_nodup hnodes)
        (acyclic_normalize_of_accepted haccepted hnodes)
      have hreturns : executeNodes version run execute = .ok (runNodes run nodes
          (normalizeEdges version.releaseEdges) execute [] order) := by
        unfold executeNodes
        rw [hnodes]
        show (topologicalOrder nodes (normalizeEdges version.releaseEdges) >>= _) = _
        rw [horder]
        rfl
      unfold executeNodes at hreturns
      rw [hnodes] at hreturns
      rw [hreturns] at h
      cases h

theorem normalizeNodesFrom_error {index : ℕ} {seen : List String} {items : List NodeSpec}
    {text : String} (h : normalizeNodesFrom index seen items = .error text) :
    text = "Workflow node keys must be unique." := by
  induction items generalizing index seen with
  | nil => cases h
  | cons item items ih =>
      unfold normalizeNodesFrom at h
      simp only at h
      by_cases hbad : (normalizeNode index item).key = "" ∨ (normalizeNode index item).key ∈ seen
      · rw [raiseIf, if_pos hbad] at h
        cases h
        rfl
      · rw [raiseIf, if_neg hbad] at h
        cases hrest : normalizeNodesFrom (index + 1) ((normalizeNode index item).key :: seen) items with
        | error e =>
            have hsame : e = text := by
              rw [hrest] at h
              cases h
              rfl
            exact ih (hsame ▸ hrest)
        | ok rest =>
            rw [hrest] at h
            cases h

theorem topologicalOrder_error {text : String} (h : topologicalOrder nodes edges = .error text) :
    text = "Workflow edges contain a cycle." := by
  unfold topologicalOrder at h
  simp only at h
  unfold raiseIf at h
  split_ifs at h
  · cases h
    rfl
  · cases h

/-- Every graph with distinct keys and no cycle is ordered and every other one refused, and a run
of an accepted release does not fail with a cycle. -/
theorem order_exact : (∀ (nodes : List NodeSpec) (edges : List EdgeSpec),
      ((nodes.map NodeSpec.key).Nodup ∧ EdgeList.Acyclic (nodes.map NodeSpec.key) edges →
        ∃ order, topologicalOrder nodes edges = .ok order ∧ ForwardOrder nodes order edges) ∧
      (¬ ((nodes.map NodeSpec.key).Nodup ∧ EdgeList.Acyclic (nodes.map NodeSpec.key) edges) →
        topologicalOrder nodes edges = .error "Workflow edges contain a cycle.")) ∧
    ∀ (version : WorkflowVersion) (run : RunRequest) (execute : Execute),
      validateWorkflowGraph version.releaseNodes version.releaseEdges = .ok () →
        executeNodes version run execute ≠ .error "Workflow edges contain a cycle." := by
  refine ⟨fun nodes edges => ⟨fun h => ?_, fun h => ?_⟩, fun version run execute haccepted h => ?_⟩
  · obtain ⟨order, horder⟩ := topologicalOrder_returns_iff.mpr h
    exact ⟨order, horder, topologicalOrder_forward horder⟩
  · cases horder : topologicalOrder nodes edges with
    | ok order => exact absurd (topologicalOrder_returns_iff.mp ⟨order, horder⟩) h
    | error text => rw [topologicalOrder_error horder]
  · have hkeys := normalizeNodesFrom_error (executeNodes_error haccepted h)
    revert hkeys
    decide

/-- The join of the flow that is accepted: its nodes are ordered, and its run does not fail with a
cycle; with the edge back from the join there is no order. -/
theorem openJoin_ordered : (∃ order, topologicalOrder openJoinNodes openJoinEdges = .ok order ∧
      ForwardOrder openJoinNodes order openJoinEdges) ∧
    topologicalOrder openJoinNodes (("load", "change") :: openJoinEdges) =
      .error "Workflow edges contain a cycle." ∧
    executeNodes openJoinVersion ⟨.manual, ""⟩ (fun _ => .ok "") ≠
      .error "Workflow edges contain a cycle." := by
  have hjoin : validateWorkflowGraph openJoinNodes openJoinEdges = .ok () :=
    (buildReleaseSnapshot_ok openJoin_accepted).1
  refine ⟨?_, ?_, order_exact.2 openJoinVersion _ _ hjoin⟩
  · have hnd : (openJoinNodes.map NodeSpec.key).Nodup := by decide
    refine (order_exact.1 openJoinNodes openJoinEdges).1 ⟨hnd, ?_⟩
    have hacyclic := validateWorkflowGraph_acyclic hjoin
    rw [dictKeys_eq hnd] at hacyclic
    exact hacyclic
  · refine (order_exact.1 openJoinNodes (("load", "change") :: openJoinEdges)).2 ?_
    rintro ⟨-, hacyclic⟩
    have hto : EdgeList.Dep (openJoinNodes.map NodeSpec.key) (("load", "change") :: openJoinEdges)
        "change" "load" := by decide
    have hback : EdgeList.Dep (openJoinNodes.map NodeSpec.key) (("load", "change") :: openJoinEdges)
        "load" "change" := by decide
    exact hacyclic "change" (Relation.TransGen.tail (Relation.TransGen.single hto) hback)

end RecoveryService.DataPlatform
