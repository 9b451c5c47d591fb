import RecoveryService.ApiOrchestration.MappingAgrees

/-! # Which graphs are accepted

`_validate_graph` on the nodes and edges as they are stored: it counts the edges into the nodes,
walks from the start node, and validates the mappings.  What it accepts is said here without the
two searches (`validateStored_iff`). -/

namespace RecoveryService.ApiOrchestration

open Checks EdgeList

/-- A node as it is stored; its id may be missing. -/
structure StoredNode where
  id : Option String
  name : Option String := none
  type : Option String
  config : Json := .obj []

/-- An edge as it is stored. -/
structure StoredEdge where
  source : Option String
  target : Option String
  branch : Option String := none

/-- `str(value)` of an id. -/
def idText (id : Option String) : String := id.getD "None"

def StoredNode.read (node : StoredNode) : Node :=
  { id := idText node.id, name := node.name, type := node.type, config := node.config }

def StoredEdge.read (edge : StoredEdge) : Edge :=
  { source := idText edge.source, target := idText edge.target, branch := edge.branch }

/-- `_validate_graph(nodes, edges)`. -/
def validateStored (nodes : List StoredNode) (edges : List StoredEdge) : Except String Unit :=
  validateGraph validateMappingConfig (nodes.map StoredNode.read) (edges.map StoredEdge.read)

/-! ### The mapping of a node -/

mutual
/-- The texts of a value. -/
def textsOf : Json → List String
  | .obj entries => textsOfEntries entries
  | .arr items => textsOfItems items
  | .str s => [s]
  | _ => []

def textsOfItems : List Json → List String
  | [] => []
  | v :: items => textsOf v ++ textsOfItems items

def textsOfEntries : List (String × Json) → List String
  | [] => []
  | (_, v) :: entries => textsOf v ++ textsOfEntries entries
end

theorem textsOfEntries_eq (entries : List (String × Json)) :
    textsOfEntries entries = textsOfItems (entries.map Prod.snd) := by
  induction entries with
  | nil => rfl
  | cons e entries ih => rw [textsOfEntries, ih, List.map_cons, textsOfItems]

/-- Outside its tokens a text has no pair of braces. -/
def Supported (s : String) : Prop :=
  ¬ [Json.openBrace, Json.openBrace] <:+: remainder s ∧
    ¬ [Json.closeBrace, Json.closeBrace] <:+: remainder s

theorem itemsReferences_returns_iff {items : List Json}
    (ih : ∀ v ∈ items, (∃ paths, mappingReferences true v = .ok paths) ↔ ∀ s ∈ textsOf v, Supported s) :
    (∃ paths, itemsReferences true items = .ok paths) ↔ ∀ s ∈ textsOfItems items, Supported s := by
  induction items with
  | nil => exact ⟨fun _ s hs => (by cases hs), fun _ => ⟨[], rfl⟩⟩
  | cons v items ihl =>
      rw [List.forall_mem_cons] at ih
      rw [textsOfItems]
      simp only [List.forall_mem_append]
      rw [← ih.1, ← ihl ih.2, itemsReferences]
      constructor
      · rintro ⟨paths, h⟩
        obtain ⟨first, hfirst, h⟩ := bind_eq_ok.mp h
        obtain ⟨rest, hrest, -⟩ := bind_eq_ok.mp h
        exact ⟨⟨first, hfirst⟩, rest, hrest⟩
      · rintro ⟨⟨first, hfirst⟩, rest, hrest⟩
        exact ⟨first ++ rest, bind_eq_ok.mpr ⟨first, hfirst, bind_eq_ok.mpr ⟨rest, hrest, rfl⟩⟩⟩

theorem mappingReferences_returns_iff {template : Json} :
    (∃ paths, mappingReferences true template = .ok paths) ↔
      ∀ s ∈ textsOf template, Supported s := by
  induction template using Json.induction with
  | null | bool | num | float => exact ⟨fun _ s hs => (by cases hs), fun _ => ⟨[], rfl⟩⟩
  | str s =>
      rw [textsOf]
      simp only [List.mem_singleton, forall_eq]
      unfold Supported
      rw [← not_or]
      constructor
      · rintro ⟨paths, h⟩
        obtain ⟨_, hraise, -⟩ := bind_eq_ok.mp h
        rw [raiseIf_eq_ok] at hraise
        exact fun hbad => hraise ⟨rfl, hbad⟩
      · intro h
        refine ⟨tokens s, bind_eq_ok.mpr ⟨(), ?_, rfl⟩⟩
        rw [raiseIf_eq_ok]
        exact fun hbad => h hbad.2
  | arr items ih => exact itemsReferences_returns_iff ih
  | obj entries ih =>
      rw [mappingReferences, entriesReferences_eq, textsOf, textsOfEntries_eq]
      refine itemsReferences_returns_iff fun v hv => ?_
      obtain ⟨e, he, rfl⟩ := List.mem_map.mp hv
      exact ih e he

/-- What a mapping node has to have. -/
structure ValidMapping (node : Node) : Prop where
  container : isContainer (node.settings.get "template") = true
  policy : node.missingPolicy = some "error" ∨ node.missingPolicy = some "null"
  texts : ∀ s ∈ textsOf (node.settings.get "template"), Supported s
  roots : ∀ path ∈ references (node.settings.get "template"), pathRoot path ∈ mappingContextRoots

theorem forM_eq_ok_iff {α : Type} {f : α → Except String Unit} {l : List α} :
    l.forM f = .ok () ↔ ∀ a ∈ l, f a = .ok () := by
  refine ⟨forM_eq_ok, fun h => ?_⟩
  induction l with
  | nil => rfl
  | cons a l ih =>
      rw [List.forall_mem_cons] at h
      show (f a >>= fun _ => l.forM f) = .ok ()
      rw [h.1]
      exact ih h.2

theorem validateMappingConfig_ok_iff {node : Node} :
    validateMappingConfig node = .ok () ↔ ValidMapping node := by
  unfold validateMappingConfig
  simp only [bind_eq_ok, raiseIf_eq_ok, not_not, exists_const, not_and_or, forM_eq_ok_iff]
  constructor
  · rintro ⟨hcontainer, hpolicy, paths, hpaths, hroots⟩
    refine ⟨hcontainer, hpolicy, mappingReferences_returns_iff.mp ⟨paths, hpaths⟩, ?_⟩
    rw [← mappingReferences_ok hpaths]
    exact hroots
  · rintro ⟨hcontainer, hpolicy, htexts, hroots⟩
    obtain ⟨paths, hpaths⟩ := mappingReferences_returns_iff.mpr htexts
    refine ⟨hcontainer, hpolicy, paths, hpaths, ?_⟩
    rw [mappingReferences_ok hpaths]
    exact hroots

/-! ### The walk from the start node -/

section walk

variable {es : List (String × String)}

/-- The edges out of the ids that the walk has not come to. -/
def ahead (es : List (String × String)) (reachable : List String) : ℕ :=
  es.countP (fun e => e.1 ∉ reachable)

theorem ahead_cons {reachable : List String} {current : String} (h : current ∉ reachable) :
    ahead es reachable = ahead es (current :: reachable) + (targets es current).length := by
  unfold ahead targets
  rw [List.length_map, ← List.countP_eq_length_filter]
  induction es with
  | nil => rfl
  | cons e es ih =>
      rw [List.countP_cons, List.countP_cons, List.countP_cons, ih]
      by_cases hsource : e.1 = current
      · simp only [hsource, h, not_false_eq_true, decide_true, if_true, List.mem_cons, true_or,
          not_true_eq_false, decide_false, Bool.false_eq_true, if_false]
        omega
      · simp only [hsource, List.mem_cons, false_or, decide_false, Bool.false_eq_true, if_false]
        omega

/-- With a turn for every id in the queue and every edge ahead, the walk comes to an end: it has
taken up the queue and every target of what it has reached. -/
theorem walk_closed (n : ℕ) {reachable q : List String} (hn : q.length + ahead es reachable ≤ n)
    (hq : ∀ x ∈ reachable, ∀ y ∈ targets es x, y ∈ reachable ∨ y ∈ q) :
    (∀ x ∈ reachable ++ q, x ∈ walk es n reachable q) ∧
      ∀ x ∈ walk es n reachable q, ∀ y ∈ targets es x, y ∈ walk es n reachable q := by
  induction n generalizing reachable q with
  | zero =>
      have hempty : q = [] := List.length_eq_zero_iff.mp (by omega)
      subst hempty
      rw [walk, List.append_nil]
      exact ⟨fun _ hx => hx, fun x hx y hy => (hq x hx y hy).resolve_right List.not_mem_nil⟩
  | succ n ih =>
      cases q with
      | nil =>
          rw [walk, List.append_nil]
          exact ⟨fun _ hx => hx, fun x hx y hy => (hq x hx y hy).resolve_right List.not_mem_nil⟩
      | cons current q =>
          rw [List.length_cons] at hn
          rw [walk]
          by_cases hmem : current ∈ reachable
          · rw [if_pos hmem]
            have hnext : ∀ x ∈ reachable, ∀ y ∈ targets es x, y ∈ reachable ∨ y ∈ q := by
              intro x hx y hy
              obtain hy | hy := hq x hx y hy
              · exact Or.inl hy
              · obtain rfl | hy := List.mem_cons.mp hy
                · exact Or.inl hmem
                · exact Or.inr hy
            obtain ⟨hall, hclosed⟩ := ih (by omega) hnext
            refine ⟨fun x hx => hall x ?_, hclosed⟩
            obtain hx | hx := List.mem_append.mp hx
            · exact List.mem_append_left _ hx
            · obtain rfl | hx := List.mem_cons.mp hx
              · exact List.mem_append_left _ hmem
              · exact List.mem_append_right _ hx
          · rw [if_neg hmem]
            rw [ahead_cons hmem] at hn
            have hnext : ∀ x ∈ current :: reachable, ∀ y ∈ targets es x,
                y ∈ current :: reachable ∨ y ∈ q ++ targets es current := by
              intro x hx y hy
              rw [List.mem_cons, List.mem_append]
              obtain rfl | hx := List.mem_cons.mp hx
              · exact Or.inr (Or.inr hy)
              · obtain hy | hy := hq x hx y hy
                · exact Or.inl (Or.inr hy)
                · obtain rfl | hy := List.mem_cons.mp hy
                  · exact Or.inl (Or.inl rfl)
                  · exact Or.inr (Or.inl hy)
            obtain ⟨hall, hclosed⟩ := ih (by rw [List.length_append]; omega) hnext
            refine ⟨fun x hx => hall x ?_, hclosed⟩
            simp only [List.mem_append, List.mem_cons] at hx ⊢
            tauto

/-- The walk reaches what the edges reach. -/
theorem mem_reachableIds_iff {start x : String} : x ∈ reachableIds es start ↔ Reaches es start x := by
  unfold reachableIds
  have hfuel : [start].length + ahead es [] ≤ es.length + 1 := by
    have hle : ahead es [] ≤ es.length := List.countP_le_length
    rw [List.length_singleton]
    omega
  obtain ⟨hall, hclosed⟩ := walk_closed (es.length + 1) hfuel
    (fun x hx => by cases hx)
  constructor
  · intro hx
    refine reaches_of_mem_walk _ (fun _ hy => by cases hy) ?_ x hx
    intro y hy
    rw [List.mem_singleton.mp hy]
    exact Relation.ReflTransGen.refl
  · intro hreach
    induction hreach with
    | refl => exact hall start (by simp)
    | tail _ hstep ih => exact hclosed _ ih _ (mem_targets.mpr hstep)

end walk

/-! ### What is accepted -/

/-- A graph as a run needs it; `named` says which ids count as present. -/
structure WellMade (named : Option String → Prop) (nodes : List StoredNode)
    (edges : List StoredEdge) : Prop where
  named : ∀ node ∈ nodes, named node.id
  distinct : (nodes.map (fun node => idText node.id)).Nodup
  joins : ∀ e ∈ pairs (edges.map StoredEdge.read),
    (∃ node ∈ nodes, idText node.id = e.1) ∧ (∃ node ∈ nodes, idText node.id = e.2) ∧ e.1 ≠ e.2
  simple : (pairs (edges.map StoredEdge.read)).Nodup
  oneStart : ∃ start, nodes.filter (fun node => node.type = some "start") = [start]
  hasEnd : ∃ node ∈ nodes, node.type = some "end"
  cycleFree : CycleFree (pairs (edges.map StoredEdge.read))
  reached : ∀ start ∈ nodes, start.type = some "start" → ∀ node ∈ nodes,
    Reaches (pairs (edges.map StoredEdge.read)) (idText start.id) (idText node.id)
  ends : ∀ node ∈ nodes, node.type = some "end" →
    ∀ e ∈ pairs (edges.map StoredEdge.read), e.1 ≠ idText node.id
  mappings : ∀ node ∈ nodes, node.type = some "mapping" → ValidMapping node.read

/-- An id that is there. -/
def Given (id : Option String) : Prop := id ≠ none ∧ id ≠ some ""

/-- An id whose text is neither empty nor that of a missing one. -/
def Usable (id : Option String) : Prop := Given id ∧ id ≠ some "None"

theorem usable_iff {id : Option String} : Usable id ↔ ¬ (idText id = "" ∨ idText id = "None") := by
  unfold Usable Given idText
  cases id with
  | none | some text => simp

variable {es : List (String × String)}

theorem validateNode_ok_iff {node : Node} : validateNode validateMappingConfig es node = .ok () ↔
      (node.type = some "start" → sources es node.id = []) ∧
      (node.type = some "end" → targets es node.id = []) ∧
      (node.type = some "mapping" → ValidMapping node) := by
  unfold validateNode
  simp only [bind_eq_ok, raiseIf_eq_ok, exists_const, not_and, not_not]
  refine and_congr_right fun _ => and_congr_right fun _ => ?_
  split_ifs with htype
  · rw [validateMappingConfig_ok_iff]
    exact ⟨fun h _ => h, fun h => h htype⟩
  · exact ⟨fun _ h => absurd h htype, fun _ => rfl⟩

/-- No edge of a graph without cycles leads into a node from which all sources are reached. -/
theorem sources_of_reached {start : String} (hfree : CycleFree es)
    (hreach : ∀ a, (a, start) ∈ es → Reaches es start a) : sources es start = [] := by
  refine List.eq_nil_iff_forall_not_mem.mpr fun a ha => ?_
  rw [mem_sources] at ha
  exact hfree start (Relation.TransGen.tail' (hreach a ha) ha)

theorem targets_eq_nil_iff {id : String} : targets es id = [] ↔ ∀ e ∈ es, e.1 ≠ id := by
  rw [List.eq_nil_iff_forall_not_mem]
  constructor
  · rintro h e he rfl
    exact h e.2 (mem_targets.mpr he)
  · intro h b hb
    exact h _ (mem_targets.mp hb) rfl

section accepted

variable {nodes : List StoredNode} {edges : List StoredEdge}

theorem read_ids (nodes : List StoredNode) :
    (nodes.map StoredNode.read).map Node.id = nodes.map (fun node => idText node.id) := by
  rw [List.map_map]
  rfl

theorem filter_read (nodes : List StoredNode) :
    (nodes.map StoredNode.read).filter (fun n => n.type = some "start") =
      (nodes.filter (fun node => node.type = some "start")).map StoredNode.read := by
  rw [List.filter_map]
  rfl

theorem wellMade_of_validateStored (h : validateStored nodes edges = .ok ()) : WellMade Usable nodes edges := by
  unfold validateStored validateGraph at h
  obtain ⟨_, hids, h⟩ := bind_eq_ok.mp h
  obtain ⟨_, hstarts, h⟩ := bind_eq_ok.mp h
  obtain ⟨_, hedges, h⟩ := bind_eq_ok.mp h
  obtain ⟨_, hcount, h⟩ := bind_eq_ok.mp h
  obtain ⟨_, hreach, h⟩ := bind_eq_ok.mp h
  rw [raiseIf_eq_ok] at hids hstarts hedges hcount hreach
  have hnodes := forM_eq_ok h
  rw [read_ids] at hids hedges hcount hreach
  rw [filter_read] at hstarts hreach
  push Not at hids hstarts hedges hcount hreach
  obtain ⟨-, hdistinct, hnamed⟩ := hids
  obtain ⟨hone, e, he, hend⟩ := hstarts
  obtain ⟨hjoins, hsimple⟩ := hedges
  rw [List.length_map] at hone
  obtain ⟨start, hstart⟩ := List.length_eq_one_iff.mp hone
  have hmem : ∀ x, x ∈ nodes.map (fun node => idText node.id) ↔
      ∃ node ∈ nodes, idText node.id = x := fun x => List.mem_map
  refine ⟨fun node hn => ?_, hdistinct, fun e he => ?_, hsimple, ⟨start, hstart⟩, ?_, ?_, ?_, ?_, ?_⟩
  · rw [usable_iff, not_or]
    exact hnamed _ (List.mem_map_of_mem hn)
  · obtain ⟨hs, ht, hne⟩ := hjoins e he
    exact ⟨(hmem _).mp hs, (hmem _).mp ht, hne⟩
  · obtain ⟨node, hn, rfl⟩ := List.mem_map.mp he
    exact ⟨node, hn, hend⟩
  · refine (counted_length_iff hdistinct fun e he => ?_).mp hcount
    exact ⟨(hjoins e he).1, (hjoins e he).2.1⟩
  · intro node hn htype other hother
    have hsame : node = start := by
      have hin : node ∈ nodes.filter (fun node => node.type = some "start") :=
        List.mem_filter.mpr ⟨hn, by simpa using htype⟩
      rw [hstart] at hin
      exact List.mem_singleton.mp hin
    rw [hsame, ← mem_reachableIds_iff]
    rw [hstart] at hreach
    exact hreach.1 _ (List.mem_map_of_mem hother)
  · intro node hn htype
    have hvalid := validateNode_ok_iff.mp (hnodes node.read (List.mem_map_of_mem hn))
    exact targets_eq_nil_iff.mp (hvalid.2.1 htype)
  · intro node hn htype
    exact (validateNode_ok_iff.mp (hnodes node.read (List.mem_map_of_mem hn))).2.2 htype

theorem validateStored_of_wellMade (h : WellMade Usable nodes edges) : validateStored nodes edges = .ok () := by
  obtain ⟨start, hstart⟩ := h.oneStart
  have hin : start ∈ nodes.filter (fun node => node.type = some "start") := by
    rw [hstart]
    exact List.mem_singleton_self _
  obtain ⟨hsmem, hstype⟩ := List.mem_filter.mp hin
  rw [decide_eq_true_eq] at hstype
  have hmem : ∀ x, x ∈ nodes.map (fun node => idText node.id) ↔
      ∃ node ∈ nodes, idText node.id = x := fun x => List.mem_map
  have hjoins : ∀ e ∈ pairs (edges.map StoredEdge.read),
      e.1 ∈ nodes.map (fun node => idText node.id) ∧
        e.2 ∈ nodes.map (fun node => idText node.id) := by
    intro e he
    obtain ⟨hs, ht, -⟩ := h.joins e he
    exact ⟨(hmem _).mpr hs, (hmem _).mpr ht⟩
  have hreaches : ∀ x ∈ nodes.map (fun node => idText node.id),
      Reaches (pairs (edges.map StoredEdge.read)) (idText start.id) x := by
    intro x hx
    obtain ⟨node, hn, rfl⟩ := (hmem x).mp hx
    exact h.reached start hsmem hstype node hn
  unfold validateStored validateGraph
  simp only [bind_eq_ok, raiseIf_eq_ok, exists_const, read_ids, filter_read, hstart, forM_eq_ok_iff]
  push Not
  refine ⟨⟨?_, h.distinct, fun x hx => ?_⟩, ⟨by simp, ?_⟩, ⟨fun e he => ?_, h.simple⟩, ?_, ⟨?_, ?_⟩, ?_⟩
  · rw [Ne, List.map_eq_nil_iff]
    exact List.ne_nil_of_mem hsmem
  · obtain ⟨node, hn, rfl⟩ := (hmem x).mp hx
    have hnamed := usable_iff.mp (h.named node hn)
    rw [not_or] at hnamed
    exact hnamed
  · obtain ⟨node, hn, hend⟩ := h.hasEnd
    exact ⟨node.read, List.mem_map_of_mem hn, hend⟩
  · exact ⟨(hjoins e he).1, (hjoins e he).2, (h.joins e he).2.2⟩
  · exact (counted_length_iff h.distinct hjoins).mpr h.cycleFree
  · intro x hx
    exact mem_reachableIds_iff.mpr (hreaches x hx)
  · intro x hx
    obtain rfl | ⟨a, -, hstep⟩ := Relation.ReflTransGen.cases_tail (mem_reachableIds_iff.mp hx)
    · exact (hmem _).mpr ⟨start, hsmem, rfl⟩
    · exact (hjoins _ hstep).2
  · intro node hn
    obtain ⟨stored, hstored, rfl⟩ := List.mem_map.mp hn
    refine validateNode_ok_iff.mpr ⟨fun htype => ?_, fun htype => ?_, h.mappings stored hstored⟩
    · refine sources_of_reached h.cycleFree fun a ha => ?_
      obtain ⟨node, hn, rfl⟩ := (h.joins _ ha).1
      exact h.reached stored hstored htype node hn
    · exact targets_eq_nil_iff.mpr (h.ends stored hstored htype)

/-- A graph is accepted exactly when it is well made: the counters find its cycles, and the walk
what cannot be reached. -/
theorem validateStored_iff (nodes : List StoredNode) (edges : List StoredEdge) :
    validateStored nodes edges = .ok () ↔ WellMade Usable nodes edges :=
  ⟨wellMade_of_validateStored, validateStored_of_wellMade⟩

end accepted

/-- A start node with the id `None`, and an end node. -/
def noneNodes : List StoredNode := [⟨some "None", none, some "start", .obj []⟩,
  ⟨some "end", none, some "end", .obj []⟩]

def noneEdges : List StoredEdge := [⟨some "None", some "end", none⟩]

/-- The text of a missing id is refused as an id. -/
theorem none_refused : WellMade Given noneNodes noneEdges ∧ validateStored noneNodes noneEdges ≠ .ok () := by
  have hpairs : pairs (noneEdges.map StoredEdge.read) = [("None", "end")] := rfl
  refine ⟨?_, fun h => ?_⟩
  · have hall : ∀ node ∈ noneNodes, node = noneNodes[0] ∨ node = noneNodes[1] := by simp [noneNodes]
    refine ⟨?_, by decide, ?_, by decide, ⟨noneNodes[0], rfl⟩, ⟨noneNodes[1], by simp [noneNodes], rfl⟩,
      ?_, ?_, ?_, ?_⟩
    · intro node hn
      obtain rfl | rfl := hall node hn <;> exact ⟨by decide, by decide⟩
    · intro e he
      rw [hpairs, List.mem_singleton] at he
      subst he
      exact ⟨⟨noneNodes[0], by simp [noneNodes], rfl⟩, ⟨noneNodes[1], by simp [noneNodes], rfl⟩,
        by decide⟩
    · rw [hpairs]
      refine cycleFree_of_rank (fun id => if id = "end" then 1 else 0) fun a b hab => ?_
      rw [List.mem_singleton, Prod.mk.injEq] at hab
      obtain ⟨rfl, rfl⟩ := hab
      decide
    · intro start hs htype node hn
      rw [hpairs]
      obtain rfl | rfl := hall start hs
      · obtain rfl | rfl := hall node hn
        · exact Relation.ReflTransGen.refl
        · exact Relation.ReflTransGen.single (List.mem_singleton_self _)
      · exact absurd htype (by decide)
    · intro node hn htype e he
      rw [hpairs, List.mem_singleton] at he
      subst he
      obtain rfl | rfl := hall node hn
      · exact absurd htype (by decide)
      · decide
    · intro node hn htype
      obtain rfl | rfl := hall node hn
      · exact absurd htype (by decide)
      · exact absurd htype (by decide)
  · have hnamed := (wellMade_of_validateStored h).named noneNodes[0] (by simp [noneNodes])
    exact hnamed.2 rfl

end RecoveryService.ApiOrchestration
