import RecoveryService.ApiOrchestration.Graph

/-! # Executing an API workflow

The loop of `execute_run` takes a node from the queue, executes it and marks its outgoing edges as
selected or not.  After every node `_resolve_ready_nodes` goes through the pending nodes until
nothing changes: a node all of whose incoming edges are marked is queued when one of them is
selected, and skipped otherwise, which marks its outgoing edges as not selected.

What a node returns may depend on what the nodes before it returned (`execute`), and `matched` is
the truth of `output["matched"]`.  `nodeRuns` are the rows of the run in the order in which they
are written. -/

namespace RecoveryService.ApiOrchestration

open Checks EdgeList

variable {V : Type}

inductive NodeRun (V : Type)
  | succeeded (key : String) (output : V)
  | failed (key : String) (error : String)
  | skipped (key : String)

def NodeRun.key : NodeRun V → String
  | succeeded key _ => key
  | failed key _ => key
  | skipped key => key

/-- `context["nodes"]`: the outputs, in the order of the executions. -/
def outputs (runs : List (NodeRun V)) : List (String × V) :=
  runs.filterMap fun
    | .succeeded key output => some (key, output)
    | _ => none

/-- The nodes executed, in order. -/
def executed (runs : List (NodeRun V)) : List String := (outputs runs).map Prod.fst

/-- The nodes skipped, in order. -/
def skippedKeys (runs : List (NodeRun V)) : List String :=
  runs.filterMap fun
    | .skipped key => some key
    | _ => none

/-- `incoming[key]`: indices of edges. -/
def incoming (edges : List Edge) (key : String) : List ℕ :=
  (List.range edges.length).filter (fun i => (edges[i]?).any (·.target = key))

/-- `outgoing[key]`. -/
def outgoing (edges : List Edge) (key : String) : List ℕ :=
  (List.range edges.length).filter (fun i => (edges[i]?).any (·.source = key))

/-- `str(edges[index].get("branch", "default"))`. -/
def branchOf (edges : List Edge) (i : ℕ) : Option String :=
  (edges[i]?).map (fun e => e.branch.getD "default")

/-- `_selected_outgoing_edges`. -/
def selectedOutgoingEdges (edges : List Edge) (node : Node) (outgoingIndexes : List ℕ)
    (matched : Bool) : List ℕ :=
  if node.type ≠ some "condition" then outgoingIndexes
  else
    let branch := if matched then "true" else "false"
    let hits := outgoingIndexes.filter (fun i => branchOf edges i = some branch)
    if hits ≠ [] then hits
    else outgoingIndexes.filter (fun i => branchOf edges i = some "default")

/-! ### `_resolve_ready_nodes` -/

structure Resolution where
  edgeState : ℕ → Option Bool
  pending : List String
  ready : List String := []
  skipped : List String := []

/-- `edge_state[index] = value` for some indices. -/
def mark (edgeState : ℕ → Option Bool) (indices : List ℕ) (value : ℕ → Bool) : ℕ → Option Bool :=
  fun i => if i ∈ indices then some (value i) else edgeState i

/-- The body of the inner loop. -/
def resolveKey (edges : List Edge) (r : Resolution) (key : String) : Resolution :=
  if key ∉ r.pending then r
  else if ∃ i ∈ incoming edges key, r.edgeState i = none then r
  else if incoming edges key = [] ∨ ∃ i ∈ incoming edges key, r.edgeState i = some true then
    { r with pending := r.pending.erase key, ready := r.ready ++ [key] }
  else
    { edgeState := mark r.edgeState (outgoing edges key) (fun _ => false)
      pending := r.pending.erase key
      ready := r.ready
      skipped := r.skipped ++ [key] }

def resolvePass (edges : List Edge) (keys : List String) (r : Resolution) : Resolution :=
  keys.foldl (resolveKey edges) r

/-- `while changed:`; a pass that changes something removes a pending node. -/
def resolveLoop (edges : List Edge) (keys : List String) : ℕ → Resolution → Resolution
  | 0, r => r
  | n + 1, r =>
      let r' := resolvePass edges keys r
      if r'.pending.length = r.pending.length then r' else resolveLoop edges keys n r'

/-- `_resolve_ready_nodes`. -/
def resolveReadyNodes (edges : List Edge) (keys : List String) (edgeState : ℕ → Option Bool)
    (pending : List String) : Resolution :=
  resolveLoop edges keys (pending.length + 1) { edgeState := edgeState, pending := pending }

/-! ### `execute_run` -/

/-- What ends a run: a key that is not there, or the execution of a node. -/
inductive Raised
  | keyError (key : String)
  | execution (key : String) (text : String)

/-- The local variables of the run, and its node runs. -/
structure Progress (V : Type) where
  edgeState : ℕ → Option Bool
  pending : List String
  queue : List String
  nodeRuns : List (NodeRun V)
  raised : Option Raised := none

/-- The keys of `{str(n["id"]): n for n in nodes}`. -/
def nodeKeys (nodes : List Node) : List String := (nodes.map Node.id).reverse.dedup.reverse

/-- `nodes[key]`. -/
def findNode (nodes : List Node) (key : String) : Option Node :=
  nodes.reverse.find? (fun n => n.id = key)

/-- Queue the ready nodes and record the skipped ones. -/
def Progress.resolve (edges : List Edge) (keys : List String) (p : Progress V) : Progress V :=
  let r := resolveReadyNodes edges keys p.edgeState p.pending
  { p with
    edgeState := r.edgeState
    pending := r.pending
    queue := p.queue ++ r.ready
    nodeRuns := p.nodeRuns ++ r.skipped.map .skipped }

variable (execute : Node → List (String × V) → Except String V) (matched : V → Bool)

/-- One turn of the loop; the row of a node without a type cannot be written. -/
def Progress.turn (nodes : List Node) (edges : List Edge) (p : Progress V) : Progress V :=
  match p.queue with
  | [] => p
  | key :: queue =>
      if key ∈ executed p.nodeRuns then { p with queue := queue }
      else
        match findNode nodes key with
        | none => { p with queue := queue, raised := some (.keyError key) }
        | some node =>
            if node.type = none then
              { p with queue := queue, raised := some (.execution key "'type'") }
            else
              match execute node (outputs p.nodeRuns) with
              | .error text =>
                  { p with
                    queue := queue
                    nodeRuns := p.nodeRuns ++ [.failed key text]
                    raised := some (.execution key text) }
              | .ok output =>
                  let indices := outgoing edges key
                  let selected := selectedOutgoingEdges edges node indices (matched output)
                  Progress.resolve edges (nodeKeys nodes)
                    { p with
                      edgeState := mark p.edgeState indices (fun i => decide (i ∈ selected))
                      queue := queue
                      nodeRuns := p.nodeRuns ++ [.succeeded key output] }

/-- `while queue:`, ended by the first exception. -/
def Progress.loop (nodes : List Node) (edges : List Edge) : ℕ → Progress V → Progress V
  | 0, p => p
  | n + 1, p =>
      if p.queue = [] ∨ p.raised ≠ none then p
      else Progress.loop nodes edges n (p.turn execute matched nodes edges)

inductive RunState
  | failed | succeeded

structure RunResult (V : Type) where
  progress : Progress V
  state : RunState

/-- The run before its loop. -/
def Progress.start (nodes : List Node) (edges : List Edge) : Progress V :=
  Progress.resolve edges (nodeKeys nodes)
    { edgeState := fun _ => none, pending := nodeKeys nodes, queue := [], nodeRuns := [] }

/-- `execute_run`; an edge between nodes that are not there raises. -/
def executeRun (nodes : List Node) (edges : List Edge) : RunResult V :=
  let keys := nodeKeys nodes
  match edges.find? (fun e => e.target ∉ keys ∨ e.source ∉ keys) with
  | some e =>
      { progress :=
          { edgeState := fun _ => none, pending := [], queue := [], nodeRuns := []
            raised := some (.keyError (if e.target ∉ keys then e.target else e.source)) }
        state := .failed }
  | none =>
      let p := Progress.loop execute matched nodes edges keys.length (Progress.start nodes edges)
      { progress := p
        state := if p.raised = none ∧ p.pending = [] then .succeeded else .failed }

/-! ### What holds between two turns -/

/-- The edge with the index `i` is selected by its executed source. -/
def Selected (nodes : List Node) (edges : List Edge) (runs : List (NodeRun V)) (i : ℕ) : Prop :=
  ∃ e node output, edges[i]? = some e ∧ findNode nodes e.source = some node ∧
    (e.source, output) ∈ outputs runs ∧
      i ∈ selectedOutgoingEdges edges node (outgoing edges e.source) (matched output)

/-- Where the nodes are, and what the marks of the edges say. -/
structure Located (nodes : List Node) (edges : List Edge) (runs : List (NodeRun V))
    (edgeState : ℕ → Option Bool) (pending queue skipped : List String) : Prop where
  places : (pending ++ queue ++ executed runs ++ skipped).Perm (nodeKeys nodes)
  unmarked : ∀ i e, edges[i]? = some e → e.source ∈ pending ++ queue → edgeState i = none
  passed : ∀ i e, edges[i]? = some e → e.source ∈ skipped → edgeState i = some false
  chosen : ∀ i e, edges[i]? = some e → e.source ∈ executed runs →
    (edgeState i = some true ∧ Selected matched nodes edges runs i) ∨
      (edgeState i = some false ∧ ¬ Selected matched nodes edges runs i)
  behind : ∀ key ∈ queue ++ executed runs ++ skipped, ∀ e ∈ edges, e.target = key →
    e.source ∈ executed runs ++ skipped
  entered : ∀ key ∈ queue ++ executed runs, incoming edges key = [] ∨
    ∃ i ∈ incoming edges key, Selected matched nodes edges runs i
  avoided : ∀ key ∈ skipped, incoming edges key ≠ [] ∧
    ∀ i ∈ incoming edges key, ¬ Selected matched nodes edges runs i

variable {execute matched} {nodes : List Node} {edges : List Edge} {runs : List (NodeRun V)}
  {edgeState : ℕ → Option Bool} {pending queue skipped : List String}

variable {key : String} {i : ℕ}

theorem mem_incoming : i ∈ incoming edges key ↔ ∃ e, edges[i]? = some e ∧ e.target = key := by
  unfold incoming
  rw [List.mem_filter, List.mem_range]
  constructor
  · rintro ⟨hi, h⟩
    rw [List.getElem?_eq_getElem hi] at h ⊢
    exact ⟨_, rfl, by simpa using h⟩
  · rintro ⟨e, he, htarget⟩
    refine ⟨(List.getElem?_eq_some_iff.mp he).1, ?_⟩
    rw [he]
    simpa using htarget

theorem mem_outgoing : i ∈ outgoing edges key ↔ ∃ e, edges[i]? = some e ∧ e.source = key := by
  unfold outgoing
  rw [List.mem_filter, List.mem_range]
  constructor
  · rintro ⟨hi, h⟩
    rw [List.getElem?_eq_getElem hi] at h ⊢
    exact ⟨_, rfl, by simpa using h⟩
  · rintro ⟨e, he, hsource⟩
    refine ⟨(List.getElem?_eq_some_iff.mp he).1, ?_⟩
    rw [he]
    simpa using hsource

theorem exists_index {e : Edge} (he : e ∈ edges) : ∃ i : ℕ, edges[i]? = some e := by
  obtain ⟨i, hi, rfl⟩ := List.mem_iff_getElem.mp he
  exact ⟨i, List.getElem?_eq_getElem hi⟩

variable {value : ℕ → Bool}

theorem mark_of_mem {indices : List ℕ} (h : i ∈ indices) :
    mark edgeState indices value i = some (value i) := if_pos h

theorem mark_of_not_mem {indices : List ℕ} (h : i ∉ indices) :
    mark edgeState indices value i = edgeState i := if_neg h

/-- Marking the edges out of a key leaves the other edges alone. -/
theorem mark_outgoing_of_ne {e : Edge} (he : edges[i]? = some e) (hne : e.source ≠ key) :
    mark edgeState (outgoing edges key) value i = edgeState i := by
  apply mark_of_not_mem
  intro hmem
  obtain ⟨e', he', hsource⟩ := mem_outgoing.mp hmem
  rw [he, Option.some.injEq] at he'
  rw [← he'] at hsource
  exact hne hsource

theorem nodeKeys_nodup (nodes : List Node) : (nodeKeys nodes).Nodup := by
  unfold nodeKeys
  rw [List.nodup_reverse]
  exact List.nodup_dedup _

theorem Located.nodup (h : Located matched nodes edges runs edgeState pending queue skipped) :
    (pending ++ queue ++ executed runs ++ skipped).Nodup :=
  h.places.nodup_iff.mpr (nodeKeys_nodup nodes)

/-- A node is at one place only. -/
theorem Located.apart (h : Located matched nodes edges runs edgeState pending queue skipped)
    {x : String} : (x ∈ pending ++ queue → x ∉ executed runs ∧ x ∉ skipped) ∧
      (x ∈ executed runs → x ∉ skipped) := by
  have hnodup := h.nodup
  rw [List.append_assoc (pending ++ queue)] at hnodup
  obtain ⟨-, hright, hdisjoint⟩ := List.nodup_append.mp hnodup
  obtain ⟨-, -, hright⟩ := List.nodup_append.mp hright
  refine ⟨fun hx => ⟨fun hx' => ?_, fun hx' => ?_⟩, fun hx hx' => hright x hx x hx' rfl⟩
  · exact hdisjoint x hx x (List.mem_append_left _ hx') rfl
  · exact hdisjoint x hx x (List.mem_append_right _ hx') rfl

/-- The source of a marked edge is behind. -/
theorem Located.source_of_marked (h : Located matched nodes edges runs edgeState pending queue skipped)
    (hedges : ∀ e ∈ edges, e.source ∈ nodeKeys nodes) {e : Edge} (he : edges[i]? = some e)
    (hmarked : edgeState i ≠ none) : e.source ∈ executed runs ++ skipped := by
  have hplace := h.places.mem_iff.mpr (hedges e (List.mem_of_getElem? he))
  rw [List.append_assoc (pending ++ queue)] at hplace
  obtain hopen | hbehind := List.mem_append.mp hplace
  · exact absurd (h.unmarked i e he hopen) hmarked
  · exact hbehind

/-- A mark says whether the edge is selected. -/
theorem Located.mark_true_iff (h : Located matched nodes edges runs edgeState pending queue skipped)
    (hedges : ∀ e ∈ edges, e.source ∈ nodeKeys nodes) {e : Edge} (he : edges[i]? = some e)
    (hmarked : edgeState i ≠ none) : edgeState i = some true ↔ Selected matched nodes edges runs i := by
  obtain hrun | hskip := List.mem_append.mp (h.source_of_marked hedges he hmarked)
  · obtain ⟨hmark, hselected⟩ | ⟨hmark, hselected⟩ := h.chosen i e he hrun
    · exact ⟨fun _ => hselected, fun _ => hmark⟩
    · rw [hmark]
      exact ⟨fun hfalse => absurd hfalse (by decide), fun hs => absurd hs hselected⟩
  · rw [h.passed i e he hskip]
    refine ⟨fun hfalse => absurd hfalse (by decide), ?_⟩
    rintro ⟨e', node, output, he', -, hrun, -⟩
    rw [he, Option.some.injEq] at he'
    rw [← he'] at hrun
    exact absurd hskip (h.apart.2 (List.mem_map_of_mem hrun))

/-! ### The inner loop -/

/-- Moving a pending node to the queue. -/
theorem perm_ready {keys : List String} (queue done : List String) (hmem : key ∈ pending)
    (h : (pending ++ queue ++ done).Perm keys) : (pending.erase key ++ (queue ++ [key]) ++ done).Perm keys := by
  have hmove : (pending.erase key ++ (queue ++ [key]) ++ done).Perm
      (key :: (pending.erase key ++ queue ++ done)) := by
    have hmiddle : (pending.erase key ++ queue ++ key :: done).Perm
        (key :: (pending.erase key ++ queue ++ done)) := List.perm_middle
    simpa using hmiddle
  refine hmove.trans (List.Perm.trans ?_ h)
  have hfront := (List.perm_cons_erase hmem).symm.append_right (queue ++ done)
  simpa using hfront

theorem Located.ready (h : Located matched nodes edges runs edgeState pending queue skipped)
    (hedges : ∀ e ∈ edges, e.source ∈ nodeKeys nodes) (hmem : key ∈ pending)
    (hmarked : ∀ i ∈ incoming edges key, edgeState i ≠ none)
    (hselected : incoming edges key = [] ∨ ∃ i ∈ incoming edges key, edgeState i = some true) :
    Located matched nodes edges runs edgeState (pending.erase key) (queue ++ [key]) skipped := by
  have hsame : ∀ x, x ∈ pending.erase key ++ (queue ++ [key]) → x ∈ pending ++ queue := by
    intro x hx
    simp only [List.mem_append, List.mem_singleton] at hx ⊢
    obtain hx | hx | rfl := hx
    · exact Or.inl (List.mem_of_mem_erase hx)
    · exact Or.inr hx
    · exact Or.inl hmem
  refine ⟨?_, fun i e he hx => h.unmarked i e he (hsame _ hx), h.passed, h.chosen, ?_, ?_,
    h.avoided⟩
  · rw [List.append_assoc]
    refine perm_ready queue _ hmem ?_
    rw [← List.append_assoc]
    exact h.places
  · intro x hx e he htarget
    simp only [List.mem_append, List.mem_singleton] at hx
    by_cases hkey : x = key
    · subst hkey
      obtain ⟨i, hi⟩ := exists_index he
      exact h.source_of_marked hedges hi (hmarked i (mem_incoming.mpr ⟨e, hi, htarget⟩))
    · refine h.behind x ?_ e he htarget
      simp only [List.mem_append]
      tauto
  · intro x hx
    simp only [List.mem_append, List.mem_singleton] at hx
    by_cases hkey : x = key
    · subst hkey
      refine hselected.imp_right ?_
      rintro ⟨i, hi, htrue⟩
      obtain ⟨e, he, -⟩ := mem_incoming.mp hi
      exact ⟨i, hi, (h.mark_true_iff hedges he (hmarked i hi)).mp htrue⟩
    · refine h.entered x ?_
      simp only [List.mem_append]
      tauto

theorem Located.skip (h : Located matched nodes edges runs edgeState pending queue skipped)
    (hedges : ∀ e ∈ edges, e.source ∈ nodeKeys nodes) (hmem : key ∈ pending)
    (hmarked : ∀ i ∈ incoming edges key, edgeState i ≠ none)
    (hnone : ¬ (incoming edges key = [] ∨ ∃ i ∈ incoming edges key, edgeState i = some true)) :
    Located matched nodes edges runs (mark edgeState (outgoing edges key) (fun _ => false))
      (pending.erase key) queue (skipped ++ [key]) := by
  obtain ⟨hentered, htrue⟩ := not_or.mp hnone
  have hplace := h.apart.1 (List.mem_append_left queue hmem)
  have hnodup := h.nodup
  have hpendingNodup : (pending ++ queue).Nodup := by
    rw [List.append_assoc (pending ++ queue)] at hnodup
    exact (List.nodup_append.mp hnodup).1
  obtain ⟨hpending, -, hdisjoint⟩ := List.nodup_append.mp hpendingNodup
  have hother : ∀ x, x ∈ pending.erase key ++ queue → x ≠ key ∧ x ∈ pending ++ queue := by
    intro x hx
    obtain hx | hx := List.mem_append.mp hx
    · rw [hpending.mem_erase_iff] at hx
      exact ⟨hx.1, List.mem_append_left _ hx.2⟩
    · exact ⟨fun he => hdisjoint key hmem x hx he.symm, List.mem_append_right _ hx⟩
  refine ⟨?_, ?_, ?_, ?_, ?_, h.entered, ?_⟩
  · have hfront : (pending.erase key ++ ([] ++ [key]) ++ (queue ++ executed runs ++ skipped)).Perm
        (nodeKeys nodes) := perm_ready [] _ hmem (by simpa using h.places)
    refine List.Perm.trans ?_ hfront
    have hback : (queue ++ executed runs ++ skipped ++ [key]).Perm
        ([key] ++ (queue ++ executed runs ++ skipped)) := List.perm_append_comm
    simpa using hback.append_left (pending.erase key)
  · intro i e he hx
    obtain ⟨hne, hx⟩ := hother _ hx
    rw [mark_outgoing_of_ne he hne]
    exact h.unmarked i e he hx
  · intro i e he hx
    by_cases hkey : e.source = key
    · exact mark_of_mem (mem_outgoing.mpr ⟨e, he, hkey⟩)
    · rw [mark_outgoing_of_ne he hkey]
      refine h.passed i e he ?_
      simpa [hkey] using hx
  · intro i e he hx
    have hne : e.source ≠ key := fun hk => hplace.1 (hk ▸ hx)
    rw [mark_outgoing_of_ne he hne]
    exact h.chosen i e he hx
  · intro x hx e he htarget
    rw [← List.append_assoc]
    apply List.mem_append_left
    by_cases hkey : x = key
    · subst hkey
      obtain ⟨i, hi⟩ := exists_index he
      exact h.source_of_marked hedges hi (hmarked i (mem_incoming.mpr ⟨e, hi, htarget⟩))
    · refine h.behind x ?_ e he htarget
      simp only [List.mem_append, List.mem_singleton] at hx ⊢
      tauto
  · intro x hx
    by_cases hkey : x = key
    · subst hkey
      refine ⟨hentered, fun i hi hs => htrue ⟨i, hi, ?_⟩⟩
      obtain ⟨e, he, -⟩ := mem_incoming.mp hi
      exact (h.mark_true_iff hedges he (hmarked i hi)).mpr hs
    · refine h.avoided x ?_
      simpa [hkey] using hx

end RecoveryService.ApiOrchestration
