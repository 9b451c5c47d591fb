import RecoveryService.DataPlatform.Version

/-! # The workflow executor

`_execute_run` works through the nodes of a release in topological order and records for each
of them whether it succeeded, failed or was skipped; the status of the run is computed from the
three counts.  What a node does when it is executed is outside this file: `execute` says, for
each node, with which message it ends or which exception it raises.

In a `data_change` run only the nodes reachable from the trigger that started it are meant to
run.  `Started` says which nodes get their turn: those reachable from the trigger all of whose
upstream nodes, other triggers apart, got theirs and succeeded.  The loop realises this
predicate (`runNodes_status`).  A node with an upstream node outside the branch never gets its
turn, and since a skipped node does not count against a `data_change` run, the run still ends
`succeeded`: the last section says exactly for which releases that does not happen. -/

namespace RecoveryService.DataPlatform

open Checks

inductive NodeStatus where
  | succeeded
  | failed
  | skipped
deriving DecidableEq

/-- What the executor reads of a run: its trigger type and `trigger_context.node_key`. -/
structure RunRequest where
  triggerType : TriggerType
  nodeKey : String := ""

/-- A row of `data_platform_node_runs` once the node has ended. -/
structure NodeRun where
  nodeKey : String
  nodeName : String
  nodeType : NodeType
  upstreamKeys : List String
  status : NodeStatus
  message : String

/-- What the executor leaves in the run. -/
structure RunReport where
  status : RunStatus
  successCount : ℕ
  failedCount : ℕ
  skippedCount : ℕ
  message : String
  nodeRuns : List NodeRun

/-- How the executed nodes end: a message, or the text of an exception. -/
abbrev Execute := NodeSpec → Except String String

/-- The dictionary `results`, latest entry first. -/
abbrev Results := List (String × NodeStatus)

/-- The upstream nodes that keep `key` from running. -/
def blockedBy (run : RunRequest) (nodes : List NodeSpec) (edges : List EdgeSpec)
    (results : Results) (key : String) : List String :=
  (upstreamMap edges key).filter (fun item =>
    results.lookup item ≠ some .succeeded ∧
      ¬ (run.triggerType = .dataChange ∧
        (byKey nodes item).map NodeSpec.nodeType = some .changeTrigger ∧ item ≠ run.nodeKey))

/-- Status and message of one node. -/
def nodeOutcome (run : RunRequest) (nodes : List NodeSpec) (edges : List EdgeSpec)
    (execute : Execute) (results : Results) (spec : NodeSpec) : NodeStatus × String :=
  if run.triggerType = .dataChange ∧ spec.key ∉ reachableNodes run.nodeKey edges then
    (.skipped, "Skipped because this node is outside the selected change-trigger branch.")
  else if run.triggerType = .triggerTest ∧ spec.nodeType = .changeTrigger then
    (.succeeded, "触发器试运行已跳过变化判断，从内部流程开始执行。")
  else if run.triggerType = .dataChange ∧ spec.nodeType = .changeTrigger ∧ spec.key ≠ run.nodeKey then
    (.skipped, "Skipped because another change trigger started this run.")
  else if blockedBy run nodes edges results spec.key ≠ [] then
    (.skipped, "Skipped because upstream node did not succeed.")
  else
    match execute spec with
    | .ok message => (.succeeded, Text.orElse message "Node finished.")
    | .error text => (.failed, text)

/-- The loop over the nodes in order. -/
def runNodes (run : RunRequest) (nodes : List NodeSpec) (edges : List EdgeSpec)
    (execute : Execute) : Results → List NodeSpec → List NodeRun
  | _, [] => []
  | results, spec :: rest =>
      let outcome := nodeOutcome run nodes edges execute results spec
      { nodeKey := spec.key
        nodeName := Text.orElse spec.name spec.key
        nodeType := spec.nodeType
        upstreamKeys := upstreamMap edges spec.key
        status := outcome.1
        message := outcome.2 } ::
          runNodes run nodes edges execute ((spec.key, outcome.1) :: results) rest

def countStatus (status : NodeStatus) (nodeRuns : List NodeRun) : ℕ :=
  (nodeRuns.filter (fun item => item.status = status)).length

/-- The status of a run that went through all its nodes. -/
def finalStatus (run : RunRequest) (nodeRuns : List NodeRun) : RunStatus :=
  if countStatus .failed nodeRuns ≠ 0 then
    if countStatus .succeeded nodeRuns = 0 then .failed else .partial_
  else if countStatus .skipped nodeRuns ≠ 0 ∧ run.triggerType ≠ .dataChange then .partial_
  else .succeeded

/-- The body of `_execute_run` once the run is claimed and its version found. -/
def executeNodes (version : WorkflowVersion) (run : RunRequest) (execute : Execute) :
    Except String (List NodeRun) := do
  let nodes ← normalizeNodes version.releaseNodes
  let edges := normalizeEdges version.releaseEdges
  let order ← topologicalOrder nodes edges
  return runNodes run nodes edges execute [] order

/-- The end of a run that went through all its nodes. -/
def finishRun (run : RunRequest) (nodeRuns : List NodeRun) : RunReport :=
  let success := countStatus .succeeded nodeRuns
  let failed := countStatus .failed nodeRuns
  let skipped := countStatus .skipped nodeRuns
  { status := finalStatus run nodeRuns
    successCount := success
    failedCount := failed
    skippedCount := skipped
    message := s!"Finished: success {success}, failed {failed}, skipped {skipped}."
    nodeRuns := nodeRuns }

def executeRun (version : WorkflowVersion) (run : RunRequest) (execute : Execute) : RunReport :=
  match executeNodes version run execute with
  | .ok nodeRuns => finishRun run nodeRuns
  | .error text =>
      { status := .failed
        successCount := 0
        failedCount := 1
        skippedCount := 0
        message := "Workflow executor failed: " ++ text
        nodeRuns := [] }

/-! ### Which nodes get their turn -/

section branch

variable (nodes : List NodeSpec) (edges : List EdgeSpec) (trigger : String) (execute : Execute)

/-- `u` is a change trigger, but not the one that started the run. -/
def OtherTrigger (u : String) : Prop :=
  u ≠ trigger ∧ ∃ node ∈ nodes, node.key = u ∧ node.nodeType = .changeTrigger

/-- Executing the node `u` succeeds. -/
def Succeeds (u : String) : Prop := ∃ node ∈ nodes, node.key = u ∧ (execute node).isOk

/-- `u` is reachable from the trigger, and every upstream node of `u` that is not another
trigger got its turn and succeeded. -/
inductive Started : String → Prop
  | intro (u : String) : EdgeList.Reaches edges trigger u →
      (∀ w, (w, u) ∈ edges → ¬ OtherTrigger nodes trigger w → Started w) →
      (∀ w, (w, u) ∈ edges → ¬ OtherTrigger nodes trigger w → Succeeds nodes execute w) → Started u

/-- Every upstream node of a node of the branch is in the branch or another trigger. -/
def JoinsClosed : Prop :=
  ∀ node ∈ nodes, EdgeList.Reaches edges trigger node.key → ∀ u, (u, node.key) ∈ edges →
    EdgeList.Reaches edges trigger u ∨ OtherTrigger nodes trigger u

/-- Every node of the branch was executed and succeeded. -/
def BranchDone (nodeRuns : List NodeRun) : Prop :=
  ∀ node ∈ nodes, EdgeList.Reaches edges trigger node.key →
    (∃ item ∈ nodeRuns, item.nodeKey = node.key) ∧
      ∀ item ∈ nodeRuns, item.nodeKey = node.key → item.status = .succeeded

/-- What the results say about the keys worked through so far. -/
def Settled (results : Results) (done : List String) : Prop :=
  ∀ k ∈ done, (results.lookup k = some .succeeded ↔
    Started nodes edges trigger execute k ∧ Succeeds nodes execute k)

variable {nodes edges trigger execute}

theorem started_iff {u : String} : Started nodes edges trigger execute u ↔
    EdgeList.Reaches edges trigger u ∧ ∀ w, (w, u) ∈ edges → ¬ OtherTrigger nodes trigger w →
      Started nodes edges trigger execute w ∧ Succeeds nodes execute w := by
  constructor
  · rintro ⟨_, hr, hs, ho⟩
    exact ⟨hr, fun w hw hn => ⟨hs w hw hn, ho w hw hn⟩⟩
  · rintro ⟨hr, h⟩
    exact ⟨u, hr, fun w hw hn => (h w hw hn).1, fun w hw hn => (h w hw hn).2⟩

theorem otherTrigger_iff (hw : WellFormed nodes edges) {u : String} : OtherTrigger nodes trigger u ↔
      (byKey nodes u).map NodeSpec.nodeType = some .changeTrigger ∧ u ≠ trigger := by
  constructor
  · rintro ⟨hne, node, hn, rfl, ht⟩
    rw [byKey_eq hw.nodup hn]
    exact ⟨by rw [Option.map_some, ht], hne⟩
  · rintro ⟨h, hne⟩
    obtain ⟨node, hf, ht⟩ := Option.map_eq_some_iff.mp h
    refine ⟨hne, node, List.mem_reverse.mp (List.mem_of_find?_eq_some hf), ?_, ht⟩
    simpa using List.find?_some hf

/-- A node reached from the trigger is the trigger or no trigger at all. -/
theorem not_changeTrigger_of_reaches (hw : WellFormed nodes edges) {node : NodeSpec}
    (hn : node ∈ nodes) (hr : EdgeList.Reaches edges trigger node.key) (hne : node.key ≠ trigger) :
    node.nodeType ≠ .changeTrigger := by
  intro ht
  rcases Relation.ReflTransGen.cases_tail hr with h | ⟨w, _, hwe⟩
  · exact hne h
  · exact hw.entry w node hn ht hwe

theorem blockedBy_eq_nil_iff (hw : WellFormed nodes edges) {results : Results} {done : List String}
    (hs : Settled nodes edges trigger execute results done)
    {key : String} (hdone : ∀ w, (w, key) ∈ edges → w ∈ done) :
    blockedBy ⟨.dataChange, trigger⟩ nodes edges results key = [] ↔
      ∀ w, (w, key) ∈ edges → ¬ OtherTrigger nodes trigger w →
        Started nodes edges trigger execute w ∧ Succeeds nodes execute w := by
  unfold blockedBy upstreamMap
  rw [List.filter_eq_nil_iff]
  constructor
  · intro h w hwe hno
    have := h w (EdgeList.mem_sources.mpr hwe)
    rw [otherTrigger_iff hw] at hno
    rw [← hs w (hdone w hwe)]
    by_contra hne
    apply this
    rw [decide_eq_true_eq]
    exact ⟨hne, fun hc => hno hc.2⟩
  · intro h w hwe
    have hwe := EdgeList.mem_sources.mp hwe
    rw [decide_eq_true_eq, not_and, not_not]
    intro hne
    by_contra hno
    refine hne ((hs w (hdone w hwe)).mpr (h w hwe ?_))
    rw [otherTrigger_iff hw]
    exact fun hc => hno ⟨rfl, hc⟩

/-- A node that gets its turn is executed; every other node of a `data_change` run is skipped. -/
theorem nodeOutcome_status (hw : WellFormed nodes edges) {results : Results} {done : List String}
    (hs : Settled nodes edges trigger execute results done)
    (htrigger : trigger ≠ "") {spec : NodeSpec} (hn : spec ∈ nodes)
    (hdone : ∀ w, (w, spec.key) ∈ edges → w ∈ done) : (Started nodes edges trigger execute spec.key →
      (nodeOutcome ⟨.dataChange, trigger⟩ nodes edges execute results spec).1 =
        if (execute spec).isOk then .succeeded else .failed) ∧
    (¬ Started nodes edges trigger execute spec.key →
      (nodeOutcome ⟨.dataChange, trigger⟩ nodes edges execute results spec).1 = .skipped) := by
  have hblocked := blockedBy_eq_nil_iff hw hs hdone
  have hreach : spec.key ∈ reachableNodes trigger edges ↔ EdgeList.Reaches edges trigger spec.key := by
    rw [reachableNodes, if_neg htrigger, EdgeList.mem_reachable_iff]
  unfold nodeOutcome
  dsimp only
  constructor
  · intro hst
    obtain ⟨hr, hup⟩ := started_iff.mp hst
    rw [if_neg (fun hc => hc.2 (hreach.mpr hr)), if_neg (by simp),
      if_neg (fun hc => not_changeTrigger_of_reaches hw hn hr hc.2.2 hc.2.1),
      if_neg (not_not.mpr (hblocked.mpr hup))]
    cases execute spec with
    | ok message | error text => rfl
  · intro hst
    by_cases hr : EdgeList.Reaches edges trigger spec.key
    · rw [if_neg (fun hc => hc.2 (hreach.mpr hr)), if_neg (by simp)]
      split_ifs with h1 h2
      · rfl
      · rfl
      · exact absurd (started_iff.mpr ⟨hr, hblocked.mp (not_not.mp h2)⟩) hst
    · rw [if_pos ⟨rfl, fun hc => hr (hreach.mp hc)⟩]

theorem succeeds_iff (execute : Execute) (hw : WellFormed nodes edges) {spec : NodeSpec} (hn : spec ∈ nodes) :
    Succeeds nodes execute spec.key ↔ (execute spec).isOk = true := by
  constructor
  · rintro ⟨node, hm, hk, ho⟩
    rwa [← eq_of_key_eq hw.nodup hm hn hk]
  · intro ho
    exact ⟨spec, hn, rfl, ho⟩

/-- The loop over an order: every node of the rest is recorded once, executed if and only if it
gets its turn. -/
theorem runNodes_status (hw : WellFormed nodes edges) (htrigger : trigger ≠ "") :
    ∀ (rest : List NodeSpec) (results : Results) (done : List String),
    (∀ spec ∈ rest, spec ∈ nodes) → (done ++ rest.map NodeSpec.key).Nodup →
    (∀ pre spec post, rest = pre ++ spec :: post →
      ∀ w, (w, spec.key) ∈ edges → w ∈ done ++ pre.map NodeSpec.key) →
    Settled nodes edges trigger execute results done →
    (runNodes ⟨.dataChange, trigger⟩ nodes edges execute results rest).map NodeRun.nodeKey =
      rest.map NodeSpec.key ∧
    ∀ item ∈ runNodes ⟨.dataChange, trigger⟩ nodes edges execute results rest,
      (item.status = .succeeded ↔ Started nodes edges trigger execute item.nodeKey ∧
        Succeeds nodes execute item.nodeKey) ∧
      (item.status = .failed ↔ Started nodes edges trigger execute item.nodeKey ∧
        ¬ Succeeds nodes execute item.nodeKey)
  | [], _, _, _, _, _, _ => by simp [runNodes]
  | spec :: rest, results, done, hmem, hnd, hup, hs => by
      have hn : spec ∈ nodes := hmem spec List.mem_cons_self
      have hdone : ∀ w, (w, spec.key) ∈ edges → w ∈ done := by
        intro w hwe
        simpa using hup [] spec rest rfl w hwe
      obtain ⟨hrun, hskip⟩ := nodeOutcome_status hw hs htrigger hn hdone
      have hsucc := succeeds_iff execute hw hn
      generalize hout : nodeOutcome ⟨.dataChange, trigger⟩ nodes edges execute results spec = outcome at *
      have h1 : outcome.1 = .succeeded ↔ Started nodes edges trigger execute spec.key ∧
          Succeeds nodes execute spec.key := by
        by_cases hst : Started nodes edges trigger execute spec.key
        · rw [hrun hst, hsucc]
          simp [hst]
        · rw [hskip hst]
          simp [hst]
      have h2 : outcome.1 = .failed ↔ Started nodes edges trigger execute spec.key ∧
          ¬ Succeeds nodes execute spec.key := by
        by_cases hst : Started nodes edges trigger execute spec.key
        · rw [hrun hst, hsucc]
          simp [hst]
        · rw [hskip hst]
          simp [hst]
      have hfresh : spec.key ∉ done := by
        intro hd
        exact (List.disjoint_of_nodup_append hnd) hd (by simp)
      have hs' : Settled nodes edges trigger execute
          ((spec.key, outcome.1) :: results) (done ++ [spec.key]) := by
        intro k hk
        rcases List.mem_append.mp hk with hk | hk
        · have hne : k ≠ spec.key := fun he => hfresh (he ▸ hk)
          rw [List.lookup_cons, beq_false_of_ne hne]
          exact hs k hk
        · rw [List.mem_singleton] at hk
          subst hk
          rw [List.lookup_cons_self, Option.some.injEq]
          exact h1
      obtain ⟨ha, hb⟩ := runNodes_status hw htrigger rest ((spec.key, outcome.1) :: results)
        (done ++ [spec.key]) (fun x hx => hmem x (List.mem_cons_of_mem _ hx)) (by simpa using hnd)
        (by
          intro pre x post he w hwe
          simpa using hup (spec :: pre) x post (by rw [he]; rfl) w hwe) hs'
      simp only [runNodes, hout]
      refine ⟨by rw [List.map_cons, ha, List.map_cons], ?_⟩
      intro item hi
      rcases List.mem_cons.mp hi with rfl | hi
      · exact ⟨h1, h2⟩
      · exact hb item hi

/-- In a release without open joins the branch runs to its end when nothing fails. -/
theorem started_of_joinsClosed (hw : WellFormed nodes edges)
    (hacyclic : EdgeList.Acyclic (nodes.map NodeSpec.key) edges) (hjoins : JoinsClosed nodes edges trigger)
    (hok : ∀ node ∈ nodes, Started nodes edges trigger execute node.key → (execute node).isOk) :
    ∀ node ∈ nodes, EdgeList.Reaches edges trigger node.key →
      Started nodes edges trigger execute node.key := by
  let order := EdgeList.topological (nodes.map NodeSpec.key) edges
  have hlen := (EdgeList.topological_length_iff hw.nodup).mpr hacyclic
  have hmem : ∀ k, k ∈ order ↔ k ∈ nodes.map NodeSpec.key :=
    fun k => (EdgeList.topological_perm hw.nodup hlen).mem_iff
  -- induction on the position in the order of execution
  have hall : ∀ n, ∀ node ∈ nodes, order.idxOf node.key < n →
      EdgeList.Reaches edges trigger node.key → Started nodes edges trigger execute node.key := by
    intro n
    induction n with
    | zero =>
        intro _ _ hlt
        omega
    | succ n ih =>
        intro node hn hlt hr
        rw [started_iff]
        refine ⟨hr, ?_⟩
        intro w hwe hother
        obtain ⟨source, hs, rfl⟩ := List.mem_map.mp (hw.source_mem w _ hwe)
        have hdep : EdgeList.Dep (nodes.map NodeSpec.key) edges source.key node.key := by
          refine ⟨hwe, List.mem_map_of_mem hs, List.mem_map_of_mem hn, ?_⟩
          intro he
          rw [he] at hwe
          exact hw.irrefl _ hwe
        have hbefore : order.idxOf source.key < order.idxOf node.key :=
          (EdgeList.topological_sorted hw.nodup).idxOf_lt (EdgeList.topological_nodup hw.nodup) hdep
            ((hmem _).mpr (List.mem_map_of_mem hn))
        have hreach := (hjoins node hn hr _ hwe).resolve_right hother
        have hstarted := ih source hs (by omega) hreach
        exact ⟨hstarted, (succeeds_iff execute hw hs).mpr (hok source hs hstarted)⟩
  exact fun node hn hr => hall _ node hn (Nat.lt_succ_self _) hr

end branch

/-! ### The status of a run and its branch -/

/-- The nodes the executor works on; none when normalisation raises. -/
def WorkflowVersion.executedNodes (version : WorkflowVersion) : List NodeSpec :=
  match normalizeNodes version.releaseNodes with
  | .ok nodes => nodes
  | .error _ => []

/-- The edges the executor works on. -/
def WorkflowVersion.executedEdges (version : WorkflowVersion) : List EdgeSpec :=
  normalizeEdges version.releaseEdges

theorem countStatus_eq_zero_iff {status : NodeStatus} {nodeRuns : List NodeRun} :
    countStatus status nodeRuns = 0 ↔ ∀ item ∈ nodeRuns, item.status ≠ status := by
  rw [countStatus, List.length_eq_zero_iff, List.filter_eq_nil_iff]
  simp

theorem finalStatus_dataChange {trigger : String} {nodeRuns : List NodeRun} :
    finalStatus ⟨.dataChange, trigger⟩ nodeRuns = .succeeded ↔
      ∀ item ∈ nodeRuns, item.status ≠ .failed := by
  rw [← countStatus_eq_zero_iff]
  unfold finalStatus
  split_ifs with h1 h2 h3
  · simp [h1]
  · simp [h1]
  · simp at h3
  · simp only [true_iff]
    omega

/-- What a `data_change` run records: every node once, executed if and only if it got its turn. -/
structure Recorded (nodes : List NodeSpec) (edges : List EdgeSpec) (trigger : String)
    (execute : Execute) (nodeRuns : List NodeRun) : Prop where
  keys : ∀ key, (∃ item ∈ nodeRuns, item.nodeKey = key) ↔ ∃ node ∈ nodes, node.key = key
  succeeded : ∀ item ∈ nodeRuns, (item.status = .succeeded ↔
    Started nodes edges trigger execute item.nodeKey ∧ Succeeds nodes execute item.nodeKey)
  failed : ∀ item ∈ nodeRuns, (item.status = .failed ↔
    Started nodes edges trigger execute item.nodeKey ∧ ¬ Succeeds nodes execute item.nodeKey)

theorem executeNodes_recorded {version : WorkflowVersion} {nodes : List NodeSpec} {trigger : String}
    {execute : Execute} (hnodes : normalizeNodes version.releaseNodes = .ok nodes)
    (hw : WellFormed nodes version.executedEdges)
    (hacyclic : EdgeList.Acyclic (nodes.map NodeSpec.key) version.executedEdges) (htrigger : trigger ≠ "") :
    ∃ nodeRuns, executeNodes version ⟨.dataChange, trigger⟩ execute = .ok nodeRuns ∧
      Recorded nodes version.executedEdges trigger execute nodeRuns := by
  obtain ⟨order, horder⟩ := topologicalOrder_of_acyclic hw.nodup hacyclic
  obtain ⟨hkeys, hmem⟩ := topologicalOrder_ok hw.nodup horder
  have hnd : (order.map NodeSpec.key).Nodup := hkeys ▸ EdgeList.topological_nodup hw.nodup
  have hsorted : EdgeList.Sorted (nodes.map NodeSpec.key) version.executedEdges
      (order.map NodeSpec.key) := by
    rw [hkeys]
    exact EdgeList.topological_sorted hw.nodup
  have hup : ∀ pre spec post, order = pre ++ spec :: post →
      ∀ w, (w, spec.key) ∈ version.executedEdges → w ∈ [] ++ pre.map NodeSpec.key := by
    intro pre spec post he w hwe
    rw [List.nil_append]
    have hn : spec ∈ nodes := (hmem spec).mp (by simp [he])
    refine hsorted (pre.map NodeSpec.key) spec.key (post.map NodeSpec.key) (by simp [he]) w ?_
    refine ⟨hwe, hw.source_mem w _ hwe, List.mem_map_of_mem hn, ?_⟩
    intro heq
    rw [heq] at hwe
    exact hw.irrefl _ hwe
  have hnone : Settled nodes version.executedEdges trigger execute [] [] := by
    intro k hk
    cases hk
  obtain ⟨hrunKeys, hstatus⟩ := runNodes_status hw htrigger order [] []
    (fun spec hs => (hmem spec).mp hs) (by simpa using hnd) hup hnone
  refine ⟨runNodes ⟨.dataChange, trigger⟩ nodes version.executedEdges execute [] order, ?_, ?_⟩
  · unfold executeNodes
    rw [hnodes]
    show (topologicalOrder nodes version.executedEdges >>= _) = _
    rw [horder]
    rfl
  · refine ⟨?_, fun item hi => (hstatus item hi).1, fun item hi => (hstatus item hi).2⟩
    intro key
    have hiff : ∀ l : List NodeRun, (∃ item ∈ l, item.nodeKey = key) ↔ key ∈ l.map NodeRun.nodeKey := by
      simp
    rw [hiff, hrunKeys, List.mem_map]
    simp only [hmem]

section report

variable {nodes : List NodeSpec} {edges : List EdgeSpec} {trigger : String} {execute : Execute}
  {nodeRuns : List NodeRun}

theorem Recorded.noneFailed_iff (h : Recorded nodes edges trigger execute nodeRuns)
    (hw : WellFormed nodes edges) : (∀ item ∈ nodeRuns, item.status ≠ .failed) ↔
      ∀ node ∈ nodes, Started nodes edges trigger execute node.key → (execute node).isOk := by
  constructor
  · intro hall node hn hstarted
    obtain ⟨item, hi, hk⟩ := (h.keys node.key).mpr ⟨node, hn, rfl⟩
    rw [← succeeds_iff execute hw hn]
    by_contra hfail
    exact hall item hi ((h.failed item hi).mpr ⟨hk ▸ hstarted, hk ▸ hfail⟩)
  · intro hall item hi hfailed
    obtain ⟨hstarted, hfail⟩ := (h.failed item hi).mp hfailed
    obtain ⟨node, hn, hk⟩ := (h.keys item.nodeKey).mp ⟨item, hi, rfl⟩
    rw [← hk] at hstarted hfail
    exact hfail ((succeeds_iff execute hw hn).mpr (hall node hn hstarted))

theorem Recorded.branchDone_iff (h : Recorded nodes edges trigger execute nodeRuns) :
    BranchDone nodes edges trigger nodeRuns ↔
      ∀ node ∈ nodes, EdgeList.Reaches edges trigger node.key →
        Started nodes edges trigger execute node.key ∧ Succeeds nodes execute node.key := by
  constructor
  · intro hdone node hn hr
    obtain ⟨⟨item, hi, hk⟩, hall⟩ := hdone node hn hr
    rw [← hk]
    exact (h.succeeded item hi).mp (hall item hi hk)
  · intro hall node hn hr
    refine ⟨(h.keys node.key).mpr ⟨node, hn, rfl⟩, ?_⟩
    intro item hi hk
    rw [h.succeeded item hi, hk]
    exact hall node hn hr

end report

/-- Without a selected trigger no node is in the branch. -/
theorem not_reaches_empty {edges : List EdgeSpec} {key : String} (hkey : key ≠ "") :
    ¬ EdgeList.Reaches (normalizeEdges edges) "" key := by
  intro hr
  rcases Relation.ReflTransGen.cases_head hr with h | ⟨w, hw, _⟩
  · exact hkey h.symm
  · exact (mem_normalizeEdges.mp hw).2.1 rfl

/-- A `data_change` run that ends `succeeded` has executed its whole branch, if and only if
every join of the branch is closed or the run meets a failing node. -/
theorem executeRun_branchDone_iff {items : List NodeSpec} {edges : List EdgeSpec}
    {schedule : SchedulePayload} {release : ReleaseSnapshot} {version : WorkflowVersion}
    (haccepted : buildReleaseSnapshot items edges schedule = .ok release)
    (hitems : version.releaseNodes = release.nodes) (hedges : version.releaseEdges = release.edges)
    (trigger : String) (execute : Execute) :
    ((executeRun version ⟨.dataChange, trigger⟩ execute).status = .succeeded →
      BranchDone version.executedNodes version.executedEdges trigger
        (executeRun version ⟨.dataChange, trigger⟩ execute).nodeRuns) ↔
    (JoinsClosed version.executedNodes version.executedEdges trigger ∨
      ∃ node ∈ version.executedNodes,
        Started version.executedNodes version.executedEdges trigger execute node.key ∧
          ¬ (execute node).isOk) := by
  obtain ⟨_, _, hrn, hre⟩ := buildReleaseSnapshot_ok haccepted
  rw [hrn] at hitems
  rw [hre] at hedges
  unfold WorkflowVersion.executedNodes
  cases hnodes : normalizeNodes version.releaseNodes with
  | error text => simp [BranchDone, JoinsClosed]
  | ok nodes =>
      dsimp only
      by_cases htrigger : trigger = ""
      · have hnone : ∀ node ∈ nodes, ¬ EdgeList.Reaches version.executedEdges trigger node.key := by
          intro node hn
          rw [htrigger]
          exact not_reaches_empty (normalizeNodes_key_ne hnodes hn)
        constructor
        · exact fun _ => Or.inl (fun node hn hr => absurd hr (hnone node hn))
        · exact fun _ _ node hn hr => absurd hr (hnone node hn)
      · rw [hitems] at hnodes
        have hw : WellFormed nodes version.executedEdges := by
          rw [WorkflowVersion.executedEdges, hedges]
          exact wellFormed_normalize haccepted hnodes
        have hacyclic : EdgeList.Acyclic (nodes.map NodeSpec.key) version.executedEdges := by
          rw [WorkflowVersion.executedEdges, hedges]
          exact acyclic_normalize haccepted hnodes
        rw [← hitems] at hnodes
        obtain ⟨nodeRuns, hrun, hrecorded⟩ :=
          executeNodes_recorded hnodes hw hacyclic htrigger
        have hreport : executeRun version ⟨.dataChange, trigger⟩ execute =
            finishRun ⟨.dataChange, trigger⟩ nodeRuns := by
          unfold executeRun
          rw [hrun]
        rw [hreport]
        show (finalStatus _ nodeRuns = _ → BranchDone _ _ _ nodeRuns) ↔ _
        rw [finalStatus_dataChange, hrecorded.noneFailed_iff hw, hrecorded.branchDone_iff]
        constructor
        · intro h
          by_cases hok : ∀ node ∈ nodes,
              Started nodes version.executedEdges trigger execute node.key → (execute node).isOk
          · refine Or.inl ?_
            intro node hn hr u hu
            by_cases hother : OtherTrigger nodes trigger u
            · exact Or.inr hother
            · obtain ⟨hstarted, _⟩ := h hok node hn hr
              exact Or.inl (started_iff.mp ((started_iff.mp hstarted).2 u hu hother).1).1
          · push Not at hok
            exact Or.inr hok
        · rintro (hjoins | ⟨node, hn, hstarted, hfail⟩) hok
          · intro node hn hr
            have hstarted := started_of_joinsClosed hw hacyclic hjoins hok node hn hr
            exact ⟨hstarted, (succeeds_iff execute hw hn).mpr (hok node hn hstarted)⟩
          · exact absurd (hok node hn hstarted) hfail

/-! ### A join with another entry of the flow -/

def openJoinNodes : List NodeSpec :=
  [{ key := "change", name := "change", nodeType := .changeTrigger },
    { key := "prepare", name := "prepare" },
    { key := "load", name := "load" }]

def openJoinEdges : List EdgeSpec := [("change", "load"), ("prepare", "load")]

def openJoinRelease : ReleaseSnapshot :=
  { nodes := openJoinNodes
    edges := openJoinEdges
    businessMetadata := .obj []
    schedule := ⟨"daily", "02:00", none, none, none⟩ }

def openJoinVersion : WorkflowVersion :=
  { id := 0
    workflowId := 0
    versionNo := 1
    channel := .prod
    status := .online
    nodes := openJoinNodes
    edges := openJoinEdges
    releaseSnapshot := some openJoinRelease
    scheduleEnabled := false }

theorem openJoin_accepted : buildReleaseSnapshot openJoinNodes openJoinEdges {} = .ok openJoinRelease := rfl

/-- The run ends `succeeded` although `load`, which the trigger reaches, is skipped. -/
theorem openJoin_succeeded_not_branchDone :
    buildReleaseSnapshot openJoinNodes openJoinEdges {} = .ok openJoinRelease ∧
      openJoinVersion.releaseSnapshot = some openJoinRelease ∧
      ¬ ((executeRun openJoinVersion ⟨.dataChange, "change"⟩ (fun _ => .ok "")).status = .succeeded →
        BranchDone openJoinVersion.executedNodes openJoinVersion.executedEdges "change"
          (executeRun openJoinVersion ⟨.dataChange, "change"⟩ (fun _ => .ok "")).nodeRuns) := by
  refine ⟨openJoin_accepted, rfl, ?_⟩
  intro h
  have hstatus : (executeRun openJoinVersion ⟨.dataChange, "change"⟩ (fun _ => .ok "")).status =
      .succeeded := by decide
  have hreach : EdgeList.Reaches openJoinVersion.executedEdges "change" "load" :=
    Relation.ReflTransGen.single (by decide)
  obtain ⟨node, hn, hk⟩ : ∃ node ∈ openJoinVersion.executedNodes, node.key = "load" := by decide
  obtain ⟨_, hall⟩ := h hstatus node hn (by rw [hk]; exact hreach)
  rw [hk] at hall
  have hskipped : ¬ ∀ item ∈ (executeRun openJoinVersion ⟨.dataChange, "change"⟩
      (fun _ => .ok "")).nodeRuns, item.nodeKey = "load" → item.status = .succeeded := by decide
  exact hskipped hall

theorem openJoin_branchDone_iff :
    ((executeRun openJoinVersion ⟨.dataChange, "change"⟩ (fun _ => .ok "")).status = .succeeded →
      BranchDone openJoinVersion.executedNodes openJoinVersion.executedEdges "change"
        (executeRun openJoinVersion ⟨.dataChange, "change"⟩ (fun _ => .ok "")).nodeRuns) ↔
    (JoinsClosed openJoinVersion.executedNodes openJoinVersion.executedEdges "change" ∨
      ∃ node ∈ openJoinVersion.executedNodes,
        Started openJoinVersion.executedNodes openJoinVersion.executedEdges "change"
          (fun _ => .ok "") node.key ∧ ¬ (Except.ok "" : Except String String).isOk) :=
  executeRun_branchDone_iff openJoin_accepted rfl rfl "change" (fun _ => .ok "")

end RecoveryService.DataPlatform
