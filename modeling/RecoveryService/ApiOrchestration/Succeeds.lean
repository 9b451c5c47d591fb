import RecoveryService.ApiOrchestration.ExecuteRun

/-! # An accepted graph runs to its end

`_resolve_ready_nodes` keeps `Located` and stops where every pending node has an unmarked incoming
edge.  A turn of the loop keeps both and executes one more node, so the loop ends with an empty
queue.  In a graph with `rank` no node is pending then: one of minimal rank would have a pending
source. -/

namespace RecoveryService.ApiOrchestration

open Checks EdgeList

variable {V : Type} {execute : Node → List (String × V) → Except String V} {matched : V → Bool}
  {nodes : List Node} {edges : List Edge} {runs : List (NodeRun V)}
  {edgeState : ℕ → Option Bool} {pending queue skipped : List String}

/-! ### `_resolve_ready_nodes` stops where nothing changes -/

/-- A turn of the inner loop takes a pending node away or changes nothing. -/
theorem resolveKey_length (edges : List Edge) (r : Resolution) (key : String) :
    resolveKey edges r key = r ∨ (resolveKey edges r key).pending.length < r.pending.length := by
  unfold resolveKey
  by_cases hmem : key ∈ r.pending
  · have hshorter : (r.pending.erase key).length < r.pending.length := by
      rw [List.length_erase_of_mem hmem]
      have := List.length_pos_of_mem hmem
      omega
    rw [if_neg (not_not.mpr hmem)]
    split_ifs
    · exact Or.inl rfl
    · exact Or.inr hshorter
    · exact Or.inr hshorter
  · exact Or.inl (if_pos hmem)

theorem resolvePass_length (edges : List Edge) (keys : List String) (r : Resolution) :
    (resolvePass edges keys r = r ∧ ∀ key ∈ keys, resolveKey edges r key = r) ∨
      (resolvePass edges keys r).pending.length < r.pending.length := by
  induction keys generalizing r with
  | nil => exact Or.inl ⟨rfl, fun _ h => by cases h⟩
  | cons key keys ih =>
      have hpass : resolvePass edges (key :: keys) r =
          resolvePass edges keys (resolveKey edges r key) := rfl
      rw [hpass]
      obtain hsame | hless := resolveKey_length edges r key
      · rw [hsame]
        refine (ih r).imp_left ?_
        rintro ⟨hfix, hall⟩
        exact ⟨hfix, List.forall_mem_cons.mpr ⟨hsame, hall⟩⟩
      · right
        obtain ⟨hfix, -⟩ | hless' := ih (resolveKey edges r key)
        · rw [hfix]
          exact hless
        · omega

theorem resolveLoop_settled (edges : List Edge) (keys : List String) (n : ℕ) (r : Resolution)
    (hn : r.pending.length < n) : ∀ key ∈ keys, resolveKey edges (resolveLoop edges keys n r) key =
      resolveLoop edges keys n r := by
  induction n generalizing r with
  | zero => omega
  | succ n ih =>
      unfold resolveLoop
      obtain ⟨hfix, hall⟩ | hless := resolvePass_length edges keys r
      · simp only [hfix, if_true]
        exact hall
      · have hne : (resolvePass edges keys r).pending.length ≠ r.pending.length := by omega
        simp only [if_neg hne]
        exact ih _ (by omega)

/-- What the turns of the inner loop keep holds behind `_resolve_ready_nodes`. -/
theorem resolveLoop_invariant {P : Resolution → Prop} (keys : List String)
    (hstep : ∀ r key, P r → P (resolveKey edges r key)) (n : ℕ) {r : Resolution} (hr : P r) :
    P (resolveLoop edges keys n r) := by
  have hpass : ∀ (ks : List String) r, P r → P (resolvePass edges ks r) := by
    intro ks
    induction ks with
    | nil => exact fun _ h => h
    | cons key ks ih => exact fun r h => ih _ (hstep r key h)
  induction n generalizing r with
  | zero => exact hr
  | succ n ih =>
      unfold resolveLoop
      dsimp only
      split_ifs
      · exact hpass keys r hr
      · exact ih (hpass keys r hr)

/-- A turn of the inner loop keeps the places and the marks. -/
theorem Located.resolveKey {r : Resolution}
    (h : Located matched nodes edges runs r.edgeState r.pending (queue ++ r.ready)
      (skipped ++ r.skipped))
    (hedges : ∀ e ∈ edges, e.source ∈ nodeKeys nodes) (key : String) :
    let r' := ApiOrchestration.resolveKey edges r key
    Located matched nodes edges runs r'.edgeState r'.pending (queue ++ r'.ready)
      (skipped ++ r'.skipped) := by
  unfold ApiOrchestration.resolveKey
  by_cases hmem : key ∈ r.pending
  · rw [if_neg (not_not.mpr hmem)]
    by_cases hopen : ∃ i ∈ incoming edges key, r.edgeState i = none
    · rw [if_pos hopen]
      exact h
    · rw [if_neg hopen]
      have hmarked : ∀ i ∈ incoming edges key, r.edgeState i ≠ none :=
        fun i hi hnone => hopen ⟨i, hi, hnone⟩
      split_ifs with hselected
      · dsimp only
        rw [← List.append_assoc]
        exact h.ready hedges hmem hmarked hselected
      · dsimp only
        rw [← List.append_assoc]
        exact h.skip hedges hmem hmarked hselected
  · rw [if_pos hmem]
    exact h

/-- Every pending node waits for an incoming edge. -/
def Waiting (edges : List Edge) (edgeState : ℕ → Option Bool) (pending : List String) : Prop :=
  ∀ key ∈ pending, ∃ i ∈ incoming edges key, edgeState i = none

theorem Located.resolveReadyNodes (h : Located matched nodes edges runs edgeState pending queue skipped)
    (hedges : ∀ e ∈ edges, e.source ∈ nodeKeys nodes) :
    let r := ApiOrchestration.resolveReadyNodes edges (nodeKeys nodes) edgeState pending
    Located matched nodes edges runs r.edgeState r.pending (queue ++ r.ready)
      (skipped ++ r.skipped) ∧ Waiting edges r.edgeState r.pending := by
  have hlocated := resolveLoop_invariant (nodeKeys nodes)
    (P := fun r => Located matched nodes edges runs r.edgeState r.pending (queue ++ r.ready)
      (skipped ++ r.skipped))
    (fun r key hr => hr.resolveKey hedges key) (pending.length + 1)
    (r := { edgeState := edgeState, pending := pending }) (by simpa using h)
  refine ⟨hlocated, fun key hmem => ?_⟩
  have hkey : key ∈ nodeKeys nodes := by
    apply hlocated.places.mem_iff.mp
    simp only [List.mem_append]
    exact Or.inl (Or.inl (Or.inl hmem))
  have hsettled := resolveLoop_settled edges (nodeKeys nodes)
    (pending.length + 1) { edgeState := edgeState, pending := pending } (by simp) key hkey
  change key ∈ (resolveLoop edges (nodeKeys nodes) (pending.length + 1)
    { edgeState := edgeState, pending := pending }).pending at hmem
  change ∃ i ∈ incoming edges key, (resolveLoop edges (nodeKeys nodes) (pending.length + 1)
    { edgeState := edgeState, pending := pending }).edgeState i = none
  generalize resolveLoop edges (nodeKeys nodes) (pending.length + 1)
    { edgeState := edgeState, pending := pending } = r at hsettled hmem
  by_contra hopen
  have hlength : (ApiOrchestration.resolveKey edges r key).pending.length = r.pending.length := by
    rw [hsettled]
  have herase : (ApiOrchestration.resolveKey edges r key).pending = r.pending.erase key := by
    unfold ApiOrchestration.resolveKey
    rw [if_neg (not_not.mpr hmem), if_neg hopen]
    split_ifs <;> rfl
  rw [herase, List.length_erase_of_mem hmem] at hlength
  have := List.length_pos_of_mem hmem
  omega

/-! ### One turn -/

@[simp] theorem outputs_append (runs runs' : List (NodeRun V)) :
    outputs (runs ++ runs') = outputs runs ++ outputs runs' := by
  unfold outputs
  exact List.filterMap_append

@[simp] theorem executed_append (runs runs' : List (NodeRun V)) :
    executed (runs ++ runs') = executed runs ++ executed runs' := by
  simp [executed]

@[simp] theorem skippedKeys_append (runs runs' : List (NodeRun V)) :
    skippedKeys (runs ++ runs') = skippedKeys runs ++ skippedKeys runs' := by
  unfold skippedKeys
  exact List.filterMap_append

@[simp] theorem outputs_skipped (keys : List String) :
    outputs (keys.map (NodeRun.skipped : String → NodeRun V)) = [] := by
  simp [outputs]

@[simp] theorem executed_skipped (keys : List String) :
    executed (keys.map (NodeRun.skipped : String → NodeRun V)) = [] := by
  simp [executed]

@[simp] theorem skippedKeys_skipped (keys : List String) :
    skippedKeys (keys.map (NodeRun.skipped : String → NodeRun V)) = keys := by
  simp [skippedKeys, List.filterMap_map]

@[simp] theorem outputs_succeeded (key : String) (output : V) :
    outputs [NodeRun.succeeded key output] = [(key, output)] := rfl

@[simp] theorem executed_succeeded (key : String) (output : V) :
    executed [NodeRun.succeeded key output] = [key] := rfl

@[simp] theorem skippedKeys_succeeded (key : String) (output : V) :
    skippedKeys [NodeRun.succeeded key output] = [] := rfl

variable {runs' : List (NodeRun V)}

theorem selected_congr (h : outputs runs' = outputs runs) (i : ℕ) :
    Selected matched nodes edges runs' i ↔ Selected matched nodes edges runs i := by
  unfold Selected
  rw [h]

variable {key : String}
variable {output : V}

/-- Executing a node selects no edge out of another node. -/
theorem selected_execute_of_ne {i : ℕ} {e : Edge} (he : edges[i]? = some e) (hne : e.source ≠ key) :
    Selected matched nodes edges (runs ++ [.succeeded key output]) i ↔
      Selected matched nodes edges runs i := by
  unfold Selected
  constructor
  · rintro ⟨e', node, out, he', hnode, hrun, hselected⟩
    refine ⟨e', node, out, he', hnode, ?_, hselected⟩
    rw [he, Option.some.injEq] at he'
    rw [outputs_append, List.mem_append] at hrun
    obtain hrun | hrun := hrun
    · exact hrun
    · rw [outputs_succeeded, List.mem_singleton, Prod.mk.injEq] at hrun
      exact absurd (he' ▸ hrun.1) hne
  · rintro ⟨e', node, out, he', hnode, hrun, hselected⟩
    refine ⟨e', node, out, he', hnode, ?_, hselected⟩
    rw [outputs_append]
    exact List.mem_append_left _ hrun

/-- The edges out of the executed node are selected as its output says. -/
theorem selected_execute_self {node : Node} {i : ℕ} {e : Edge} (he : edges[i]? = some e)
    (hnode : findNode nodes e.source = some node) (hfresh : e.source ∉ executed runs) :
    Selected matched nodes edges (runs ++ [.succeeded e.source output]) i ↔
      i ∈ selectedOutgoingEdges edges node (outgoing edges e.source) (matched output) := by
  constructor
  · rintro ⟨e', node', out, he', hnode', hrun, hselected⟩
    rw [he, Option.some.injEq] at he'
    subst he'
    rw [hnode, Option.some.injEq] at hnode'
    subst hnode'
    rw [outputs_append, List.mem_append] at hrun
    obtain hrun | hrun := hrun
    · exact absurd (List.mem_map_of_mem hrun) hfresh
    · rw [outputs_succeeded, List.mem_singleton, Prod.mk.injEq] at hrun
      rw [← hrun.2]
      exact hselected
  · intro hselected
    refine ⟨e, node, output, he, hnode, ?_, hselected⟩
    rw [outputs_append, List.mem_append]
    exact Or.inr (List.mem_singleton_self _)

theorem selected_execute_mono {i : ℕ} (h : Selected matched nodes edges runs i) :
    Selected matched nodes edges (runs ++ [.succeeded key output]) i := by
  obtain ⟨e, node, out, he, hnode, hrun, hselected⟩ := h
  refine ⟨e, node, out, he, hnode, ?_, hselected⟩
  rw [outputs_append]
  exact List.mem_append_left _ hrun

/-- Executing the first node of the queue. -/
theorem Located.executed_first (h : Located matched nodes edges runs edgeState pending (key :: queue) skipped)
    {node : Node} (hnode : findNode nodes key = some node) (output : V) :
    Located matched nodes edges (runs ++ [.succeeded key output])
      (mark edgeState (outgoing edges key) (fun i => decide
        (i ∈ selectedOutgoingEdges edges node (outgoing edges key) (matched output))))
      pending queue skipped := by
  have hqueued : key ∈ pending ++ key :: queue := by simp
  obtain ⟨hfresh, hunskipped⟩ := h.apart.1 hqueued
  have hopen : ∀ x ∈ pending ++ queue, x ≠ key ∧ x ∈ pending ++ key :: queue := by
    intro x hx
    have hnodup := h.nodup
    rw [List.append_assoc (pending ++ key :: queue)] at hnodup
    have hfront := (List.nodup_append.mp hnodup).1
    rw [List.nodup_middle] at hfront
    refine ⟨fun hkey => (List.nodup_cons.mp hfront).1 (hkey ▸ hx), ?_⟩
    simp only [List.mem_append, List.mem_cons] at hx ⊢
    tauto
  have hbehind : ∀ x, x ∈ queue ++ executed (runs ++ [.succeeded key output]) ++ skipped ↔
      x ∈ key :: queue ++ executed runs ++ skipped := by
    intro x
    simp only [executed_append, executed_succeeded, List.mem_append, List.mem_cons,
      List.not_mem_nil, or_false]
    tauto
  refine ⟨?_, ?_, ?_, ?_, ?_, ?_, ?_⟩
  · refine List.Perm.trans ?_ h.places
    rw [executed_append, executed_succeeded]
    have hmove : (queue ++ executed runs ++ [key]).Perm ([key] ++ (queue ++ executed runs)) :=
      List.perm_append_comm
    simpa using (hmove.append_right skipped).append_left pending
  · intro i e he hx
    obtain ⟨hne, hx⟩ := hopen _ hx
    rw [mark_outgoing_of_ne he hne]
    exact h.unmarked i e he hx
  · intro i e he hx
    have hne : e.source ≠ key := fun hkey => hunskipped (hkey ▸ hx)
    rw [mark_outgoing_of_ne he hne]
    exact h.passed i e he hx
  · intro i e he hx
    by_cases hkey : e.source = key
    · subst hkey
      rw [mark_of_mem (mem_outgoing.mpr ⟨e, he, rfl⟩),
        selected_execute_self he hnode hfresh, Option.some.injEq, Option.some.injEq,
        decide_eq_true_iff, decide_eq_false_iff_not]
      tauto
    · rw [mark_outgoing_of_ne he hkey, selected_execute_of_ne he hkey]
      refine h.chosen i e he ?_
      simpa [hkey] using hx
  · intro x hx e he htarget
    have hsource := h.behind x ((hbehind x).mp hx) e he htarget
    simp only [executed_append, List.mem_append] at hsource ⊢
    tauto
  · intro x hx
    have hx' : x ∈ key :: queue ++ executed runs := by
      simp only [executed_append, executed_succeeded, List.mem_append, List.mem_cons,
        List.not_mem_nil, or_false] at hx ⊢
      tauto
    refine (h.entered x hx').imp_right ?_
    rintro ⟨i, hi, hselected⟩
    exact ⟨i, hi, selected_execute_mono hselected⟩
  · intro x hx
    refine (h.avoided x hx).imp_right fun hnone i hi => ?_
    obtain ⟨e, he, htarget⟩ := mem_incoming.mp hi
    have hsource := h.behind x (List.mem_append_right _ hx) e (List.mem_of_getElem? he) htarget
    have hne : e.source ≠ key := by
      intro hkey
      rw [hkey] at hsource
      exact (List.mem_append.mp hsource).elim hfresh hunskipped
    rw [selected_execute_of_ne he hne]
    exact hnone i hi

/-- A node is executed behind its predecessors. -/
def Ordered (edges : List Edge) (runs : List (NodeRun V)) : Prop :=
  ∀ before key output, before ++ [.succeeded key output] <+: runs →
    ∀ e ∈ edges, e.target = key → e.source ∈ executed before ++ skippedKeys before

theorem Ordered.append_succeeded (h : Ordered edges runs) (output : V)
    (hkey : ∀ e ∈ edges, e.target = key → e.source ∈ executed runs ++ skippedKeys runs) :
    Ordered edges (runs ++ [.succeeded key output]) := by
  intro before key' output' hprefix
  obtain heq | hprefix := List.prefix_concat_iff.mp hprefix
  · obtain ⟨rfl, hlast⟩ := List.append_inj' heq rfl
    rw [List.cons.injEq, NodeRun.succeeded.injEq] at hlast
    rw [hlast.1.1]
    exact hkey
  · exact h before key' output' hprefix

theorem Ordered.append_skipped (h : Ordered edges runs) (keys : List String) :
    Ordered edges (runs ++ keys.map .skipped) := by
  induction keys generalizing runs with
  | nil =>
      rw [List.map_nil, List.append_nil]
      exact h
  | cons key keys ih =>
      rw [List.map_cons, ← List.singleton_append, ← List.append_assoc]
      apply ih
      intro before key' output' hprefix
      obtain heq | hprefix := List.prefix_concat_iff.mp hprefix
      · obtain ⟨-, hlast⟩ := List.append_inj' heq rfl
        rw [List.cons.injEq] at hlast
        exact absurd hlast.1 (by simp)
      · exact h before key' output' hprefix

/-- What holds between two turns. -/
structure Between (matched : V → Bool) (nodes : List Node) (edges : List Edge) (p : Progress V) : Prop where
  located : Located matched nodes edges p.nodeRuns p.edgeState p.pending p.queue
    (skippedKeys p.nodeRuns)
  waiting : Waiting edges p.edgeState p.pending
  ordered : Ordered edges p.nodeRuns

theorem Located.of_outputs (h : Located matched nodes edges runs edgeState pending queue skipped)
    (hout : outputs runs' = outputs runs) :
    Located matched nodes edges runs' edgeState pending queue skipped := by
  have hexecuted : executed runs' = executed runs := congrArg (List.map Prod.fst) hout
  refine ⟨?_, h.unmarked, h.passed, ?_, ?_, ?_, ?_⟩
  · rw [hexecuted]
    exact h.places
  · intro i e he hx
    rw [hexecuted] at hx
    rw [selected_congr hout]
    exact h.chosen i e he hx
  · rw [hexecuted]
    exact h.behind
  · simp only [hexecuted, selected_congr hout]
    exact h.entered
  · simp only [selected_congr hout]
    exact h.avoided

variable {p : Progress V}

theorem between_resolve (h : Located matched nodes edges p.nodeRuns p.edgeState p.pending p.queue
      (skippedKeys p.nodeRuns)) (hordered : Ordered edges p.nodeRuns)
    (hedges : ∀ e ∈ edges, e.source ∈ nodeKeys nodes) :
    Between matched nodes edges (p.resolve edges (nodeKeys nodes)) := by
  obtain ⟨hlocated, hwaiting⟩ := h.resolveReadyNodes hedges
  refine ⟨?_, hwaiting, hordered.append_skipped _⟩
  unfold Progress.resolve
  dsimp only
  rw [skippedKeys_append, skippedKeys_skipped]
  apply hlocated.of_outputs
  rw [outputs_append, outputs_skipped, List.append_nil]

theorem exists_findNode (h : key ∈ nodeKeys nodes) : ∃ node, findNode nodes key = some node := by
  have hmem : ∃ node ∈ nodes, node.id = key := by simpa [nodeKeys] using h
  obtain ⟨node, hnode, hid⟩ := hmem
  have hsome : (findNode nodes key).isSome := by
    unfold findNode
    rw [List.find?_isSome]
    exact ⟨node, List.mem_reverse.mpr hnode, decide_eq_true hid⟩
  exact Option.isSome_iff_exists.mp hsome

variable (execute) in
/-- A turn executes the first node of the queue. -/
theorem Between.turn (h : Between matched nodes edges p) (hedges : ∀ e ∈ edges, e.source ∈ nodeKeys nodes)
    (hqueue : p.queue ≠ []) (hraised : p.raised = none) : let p' := p.turn execute matched nodes edges
    (∃ key text, p'.raised = some (.execution key text)) ∨
      (p'.raised = none ∧ Between matched nodes edges p' ∧
        (executed p'.nodeRuns).length = (executed p.nodeRuns).length + 1) := by
  unfold Progress.turn
  cases hq : p.queue with
  | nil => exact absurd hq hqueue
  | cons key queue =>
      have hlocated := h.located
      rw [hq] at hlocated
      have hfresh : key ∉ executed p.nodeRuns := (hlocated.apart.1 (by simp)).1
      have hkey : key ∈ nodeKeys nodes := hlocated.places.mem_iff.mp (by simp)
      obtain ⟨node, hnode⟩ := exists_findNode hkey
      dsimp only
      rw [if_neg hfresh, hnode]
      dsimp only
      split_ifs with htype
      · exact Or.inl ⟨key, _, rfl⟩
      · cases hrun : execute node (outputs p.nodeRuns) with
        | error text => exact Or.inl ⟨key, text, rfl⟩
        | ok output =>
            right
            refine ⟨hraised, ?_, ?_⟩
            · apply between_resolve _ _ hedges
              · dsimp only
                rw [skippedKeys_append, skippedKeys_succeeded, List.append_nil]
                exact hlocated.executed_first hnode output
              · apply h.ordered.append_succeeded
                exact hlocated.behind key (by simp)
            · unfold Progress.resolve
              dsimp only
              rw [executed_append, executed_append, executed_skipped, executed_succeeded]
              simp

variable (execute) in
/-- The loop ends with an empty queue. -/
theorem Between.loop (n : ℕ) (h : Between matched nodes edges p)
    (hedges : ∀ e ∈ edges, e.source ∈ nodeKeys nodes) (hraised : p.raised = none)
    (hn : (nodeKeys nodes).length ≤ n + (executed p.nodeRuns).length) :
    let p' := Progress.loop execute matched nodes edges n p
    (∃ key text, p'.raised = some (.execution key text)) ∨
      (p'.raised = none ∧ Between matched nodes edges p' ∧ p'.queue = []) := by
  induction n generalizing p with
  | zero =>
      refine Or.inr ⟨hraised, h, ?_⟩
      have hlength := h.located.places.length_eq
      simp only [List.length_append] at hlength
      have hnil : p.queue.length = 0 := by omega
      exact List.length_eq_zero_iff.mp hnil
  | succ n ih =>
      unfold Progress.loop
      by_cases hqueue : p.queue = []
      · rw [if_pos (Or.inl hqueue)]
        exact Or.inr ⟨hraised, h, hqueue⟩
      · have hgo : ¬ (p.queue = [] ∨ p.raised ≠ none) := by
          rw [not_or]
          exact ⟨hqueue, not_not.mpr hraised⟩
        rw [if_neg hgo]
        obtain ⟨key, text, hr⟩ | ⟨hr, hturn, hlength⟩ := h.turn execute hedges hqueue hraised
        · left
          refine ⟨key, text, ?_⟩
          cases n with
          | zero => exact hr
          | succ n =>
              unfold Progress.loop
              rw [if_pos (Or.inr (by rw [hr]; exact Option.some_ne_none _))]
              exact hr
        · exact ih hturn hr (by omega)

/-! ### The whole run -/

/-- With an empty queue nothing is pending: the source of an unmarked edge is pending itself. -/
theorem Between.pending_nil (h : Between matched nodes edges p)
    (hedges : ∀ e ∈ edges, e.source ∈ nodeKeys nodes) (hqueue : p.queue = []) {rank : String → ℕ}
    (hrank : ∀ e ∈ edges, rank e.source < rank e.target) : p.pending = [] := by
  have hnone : ∀ n key, rank key = n → key ∉ p.pending := by
    intro n
    induction n using Nat.strong_induction_on with
    | _ n ih =>
        intro key hn hmem
        obtain ⟨i, hi, hunmarked⟩ := h.waiting key hmem
        obtain ⟨e, he, htarget⟩ := mem_incoming.mp hi
        have hless := hrank e (List.mem_of_getElem? he)
        rw [htarget, hn] at hless
        apply ih _ hless e.source rfl
        have hplace := h.located.places.mem_iff.mpr (hedges e (List.mem_of_getElem? he))
        rw [hqueue, List.append_nil] at hplace
        obtain hplace | hskip := List.mem_append.mp hplace
        · obtain hpending | hrun := List.mem_append.mp hplace
          · exact hpending
          · -- an executed source has marked the edge
            obtain ⟨hmark, -⟩ | ⟨hmark, -⟩ := h.located.chosen i e he hrun
            · rw [hunmarked] at hmark
              cases hmark
            · rw [hunmarked] at hmark
              cases hmark
        · rw [h.located.passed i e he hskip] at hunmarked
          cases hunmarked
  exact List.eq_nil_iff_forall_not_mem.mpr fun key => hnone _ key rfl

theorem between_start (hedges : ∀ e ∈ edges, e.source ∈ nodeKeys nodes) :
    Between matched nodes edges (Progress.start nodes edges) := by
  apply between_resolve _ _ hedges
  · refine ⟨?_, ?_, ?_, ?_, ?_, ?_, ?_⟩
    · simp [executed, outputs, skippedKeys]
    · exact fun i e he hx => rfl
    · exact fun i e he hx => by cases hx
    · exact fun i e he hx => by cases hx
    · exact fun key hx => by cases hx
    · exact fun key hx => by cases hx
    · exact fun key hx => by cases hx
  · intro before key output hprefix
    exact absurd (List.prefix_nil.mp hprefix) (by simp)

theorem nodeKeys_eq (h : (nodes.map Node.id).Nodup) : nodeKeys nodes = nodes.map Node.id := by
  unfold nodeKeys
  rw [(List.nodup_reverse.mpr h).dedup, List.reverse_reverse]

/-- An accepted graph runs to its end unless the execution of a node raises: every node is executed
once or skipped once, a node is executed if it is the start or an executed source selects an edge
into it, and its predecessors are behind then. -/
theorem executeRun_succeeds {validateMappingConfig : Node → Except String Unit}
    (hvalid : validateGraph validateMappingConfig nodes edges = .ok ()) (hraise : ∀ key text,
      (executeRun execute matched nodes edges).progress.raised ≠ some (.execution key text)) :
    let run := executeRun execute matched nodes edges
    run.state = .succeeded ∧ run.progress.raised = none ∧
      run.progress.queue = [] ∧ run.progress.pending = [] ∧
      (executed run.progress.nodeRuns ++ skippedKeys run.progress.nodeRuns).Perm
        (nodes.map Node.id) ∧
      (executed run.progress.nodeRuns ++ skippedKeys run.progress.nodeRuns).Nodup ∧
      (∀ node ∈ nodes, node.id ∈ executed run.progress.nodeRuns ↔ node.type = some "start" ∨
        ∃ i ∈ incoming edges node.id, Selected matched nodes edges run.progress.nodeRuns i) ∧
      Ordered edges run.progress.nodeRuns := by
  obtain ⟨start, hstart, hsound⟩ := validateGraph_ok hvalid
  have hkeys := nodeKeys_eq hsound.ids
  have hedges : ∀ e ∈ edges, e.source ∈ nodeKeys nodes := by
    rw [hkeys]
    exact hsound.sources_mem
  have hknown : edges.find? (fun e => e.target ∉ nodeKeys nodes ∨ e.source ∉ nodeKeys nodes) =
      none := by
    rw [List.find?_eq_none]
    intro e he
    rw [decide_eq_true_iff, not_or, not_not, not_not]
    refine ⟨?_, hedges e he⟩
    rw [hkeys]
    exact hsound.targets_mem e he
  unfold executeRun at hraise ⊢
  dsimp only at hraise ⊢
  rw [hknown] at hraise ⊢
  dsimp only at hraise ⊢
  have hbetween : Between matched nodes edges (Progress.start nodes edges) := between_start hedges
  have hloop := hbetween.loop execute (nodeKeys nodes).length hedges rfl (by omega)
  generalize Progress.loop execute matched nodes edges (nodeKeys nodes).length
    (Progress.start nodes edges) = p at hraise hloop
  obtain ⟨key, text, hr⟩ | ⟨hr, hbetween, hqueue⟩ := hloop
  · exact absurd hr (hraise key text)
  · obtain ⟨rank, hrank⟩ := hsound.rank
    have hpending := hbetween.pending_nil hedges hqueue hrank
    have hplaces := hbetween.located.places
    rw [hpending, hqueue, hkeys] at hplaces
    refine ⟨if_pos ⟨hr, hpending⟩, hr, hqueue, hpending, hplaces, hplaces.nodup_iff.mpr hsound.ids,
      ?_, hbetween.ordered⟩
    intro node hnode
    rw [hstart node hnode]
    have hplace := hplaces.mem_iff.mpr (List.mem_map_of_mem hnode)
    constructor
    · intro hrun
      obtain hfree | hselected := hbetween.located.entered node.id (List.mem_append_right _ hrun)
      · left
        by_contra hne
        obtain ⟨e, he, htarget⟩ := hsound.entered node.id (List.mem_map_of_mem hnode) hne
        obtain ⟨i, hi⟩ := exists_index he
        have hmem : i ∈ incoming edges node.id := mem_incoming.mpr ⟨e, hi, htarget⟩
        rw [hfree] at hmem
        cases hmem
      · exact Or.inr hselected
    · intro hcase
      obtain hrun | hskip := List.mem_append.mp hplace
      · exact hrun
      · obtain ⟨hentered, hnone⟩ := hbetween.located.avoided node.id hskip
        obtain hid | ⟨i, hi, hselected⟩ := hcase
        · obtain ⟨i, hi⟩ := List.exists_mem_of_ne_nil _ hentered
          obtain ⟨e, he, htarget⟩ := mem_incoming.mp hi
          exact absurd (htarget.trans hid) (hsound.start_free e (List.mem_of_getElem? he))
        · exact absurd hselected (hnone i hi)

/-! ### A condition with two branches -/

/-- A condition whose branches meet again. -/
def branchNodes : List Node :=
  [{ id := "end", type := some "end" }, { id := "yes", type := some "http" },
    { id := "check", type := some "condition" }, { id := "no", type := some "http" },
    { id := "start", type := some "start" }]

def branchEdges : List Edge :=
  [{ source := "no", target := "end" }, { source := "check", target := "yes", branch := "true" },
    { source := "check", target := "no", branch := "false" }, { source := "yes", target := "end" },
    { source := "start", target := "check" }]

/-- Every node answers whether the condition is met. -/
def branchRun (met : Bool) : RunResult Bool :=
  executeRun (fun _ _ => .ok met) id branchNodes branchEdges

theorem branchRun_succeeds : (branchRun true).state = .succeeded ∧
    executed (branchRun true).progress.nodeRuns = ["start", "check", "yes", "end"] ∧
      skippedKeys (branchRun true).progress.nodeRuns = ["no"] := by
  have hraised : (branchRun true).progress.raised = none := by decide +kernel
  have hvalid : validateGraph (fun _ => .ok ()) branchNodes branchEdges = .ok () := by
    decide +kernel
  refine ⟨(executeRun_succeeds hvalid fun key text => ?_).1, by decide +kernel, by decide +kernel⟩
  intro hr
  exact absurd (hraised.symm.trans hr) (Option.some_ne_none _).symm

end RecoveryService.ApiOrchestration
