import RecoveryService.Lib.Layers

/-! # Tracing the lineage of an asset

`trace_lineage` of `services/data_automation.py`: a breadth-first search along the lineage edges, one
query for each layer.  The depth that is asked for is cut to `1` up to `20`. -/

namespace RecoveryService.TraceLineage

open Layers

/-! ### The tables -/

/-- `DataLineageEdge`. -/
structure LineageEdge where
  id : ℕ
  batchId : Option ℕ
  sourceAssetId : ℕ
  sourceField : Option String := none
  targetAssetId : ℕ
  targetField : Option String := none
  transformationType : String := "direct"
  expression : Option String := none
  reviewRequired : Bool := false

/-- `DataAsset`; `databaseKey` is what `_database_key_for_asset` makes of its columns. -/
structure Asset where
  id : ℕ
  databaseKey : String
deriving DecidableEq

/-- `DataDatabaseLayer`. -/
structure DatabaseLayer where
  databaseKey : String
  businessLayer : Option String
  description : Option String

/-- The tables that are read, with their primary keys. -/
structure Store where
  assets : List Asset
  assetKeys : (assets.map Asset.id).Nodup
  edges : List LineageEdge
  edgeKeys : (edges.map LineageEdge.id).Nodup
  layers : List DatabaseLayer

inductive Direction
  | upstream
  | downstream

/-- The end of an edge that a query compares with the frontier. -/
def LineageEdge.near : Direction → LineageEdge → ℕ
  | .upstream, e => e.targetAssetId
  | .downstream, e => e.sourceAssetId

/-- `other`. -/
def LineageEdge.far : Direction → LineageEdge → ℕ
  | .upstream, e => e.sourceAssetId
  | .downstream, e => e.targetAssetId

/-! ### The search -/

structure Search where
  frontier : List ℕ
  seenAssets : List ℕ
  edges : List LineageEdge := []

/-- One row of a layer: the assets seen and the next frontier. -/
def visit (direction : Direction) (s : List ℕ × List ℕ) (row : LineageEdge) : List ℕ × List ℕ :=
  if row.far direction ∈ s.1 then s else (row.far direction :: s.1, row.far direction :: s.2)

/-- The rows of a layer. -/
def rows (edges : List LineageEdge) (direction : Direction) (batchId : Option ℕ)
    (frontier : List ℕ) : List LineageEdge :=
  edges.filter fun e => e.near direction ∈ frontier ∧ (batchId = none ∨ e.batchId = batchId)

def layer (edges : List LineageEdge) (direction : Direction) (batchId : Option ℕ) (s : Search) :
    Search :=
  let found := rows edges direction batchId s.frontier
  let next := found.foldl (visit direction) (s.seenAssets, [])
  { frontier := next.2, seenAssets := next.1, edges := s.edges ++ found }

/-- The loop over the layers, with its `break`. -/
def layers (edges : List LineageEdge) (direction : Direction) (batchId : Option ℕ) :
    ℕ → Search → Search
  | 0, s => s
  | n + 1, s =>
      if s.frontier = [] then s
      else layers edges direction batchId n (layer edges direction batchId s)

/-- `max(1, min(max_depth, 20))`. -/
def depth (maxDepth : ℤ) : ℕ := (max 1 (min maxDepth 20)).toNat

/-- An asset of the response, with the layer of its database. -/
structure TracedAsset where
  asset : Asset
  businessLayer : Option String
  description : Option String

structure Trace where
  rootAssetId : ℕ
  direction : Direction
  batchId : Option ℕ
  assets : List TracedAsset
  edges : List LineageEdge

def traced (layers : List DatabaseLayer) (asset : Asset) : TracedAsset :=
  let info := layers.find? fun row => row.databaseKey = asset.databaseKey
  { asset := asset
    businessLayer := info.bind DatabaseLayer.businessLayer
    description := info.bind DatabaseLayer.description }

/-- `trace_lineage`. -/
def traceLineage (store : Store) (assetId : ℕ) (direction : Direction) (maxDepth : ℤ)
    (batchId : Option ℕ) : Trace :=
  let found := layers store.edges direction batchId (depth maxDepth)
    { frontier := [assetId], seenAssets := [assetId] }
  { rootAssetId := assetId
    direction := direction
    batchId := batchId
    assets := (store.assets.filter fun row => row.id ∈ found.seenAssets).map (traced store.layers)
    edges := found.edges }

/-! ### Exactness -/

/-- An edge of the batch leads from `a` to `b` in the direction. -/
def Linked (edges : List LineageEdge) (direction : Direction) (batchId : Option ℕ) (a b : ℕ) : Prop :=
  ∃ e ∈ edges, (batchId = none ∨ e.batchId = batchId) ∧ e.near direction = a ∧ e.far direction = b

variable {edges : List LineageEdge} {direction : Direction} {batchId : Option ℕ} {root : ℕ}

theorem mem_rows {frontier : List ℕ} {e : LineageEdge} : e ∈ rows edges direction batchId frontier ↔
    e ∈ edges ∧ e.near direction ∈ frontier ∧ (batchId = none ∨ e.batchId = batchId) := by
  unfold rows
  rw [List.mem_filter, decide_eq_true_eq]

variable {s : List ℕ × List ℕ}

theorem visit_seen {e : LineageEdge} (h : e.far direction ∈ s.1) : visit direction s e = s := if_pos h

theorem visit_new {e : LineageEdge} (h : e.far direction ∉ s.1) :
    visit direction s e = (e.far direction :: s.1, e.far direction :: s.2) := if_neg h

/-- The scan of a layer adds the far ends that were not seen. -/
theorem mem_visits {found : List LineageEdge} (a : ℕ) :
    (a ∈ (found.foldl (visit direction) s).1 ↔ a ∈ s.1 ∨ ∃ e ∈ found, e.far direction = a) ∧
      (a ∈ (found.foldl (visit direction) s).2 ↔
        a ∈ s.2 ∨ a ∉ s.1 ∧ ∃ e ∈ found, e.far direction = a) := by
  induction found generalizing s with
  | nil => simp
  | cons e found ih =>
      rw [List.foldl_cons, List.exists_mem_cons_iff]
      by_cases hseen : e.far direction ∈ s.1
      · have hsame : a ∉ s.1 → e.far direction ≠ a := fun hnot heq => hnot (heq ▸ hseen)
        rw [visit_seen hseen, ih.1, ih.2]
        constructor
        · constructor
          · exact fun h => h.imp_right Or.inr
          · rintro (h | heq | h)
            · exact Or.inl h
            · exact Or.inl (heq ▸ hseen)
            · exact Or.inr h
        · constructor
          · exact fun h => h.imp_right fun h => ⟨h.1, Or.inr h.2⟩
          · exact fun h => h.imp_right fun h => ⟨h.1, h.2.resolve_left (hsame h.1)⟩
      · rw [visit_new hseen, ih.1, ih.2, List.mem_cons, List.mem_cons]
        by_cases heq : e.far direction = a
        · rw [heq] at hseen ⊢
          simp [hseen]
        · simp [heq, Ne.symm heq]

/-- What a search has come to behind `n` layers. -/
structure Reached (edges : List LineageEdge) (direction : Direction) (batchId : Option ℕ) (root n : ℕ)
    (s : Search) : Prop where
  frontier : ∀ a, a ∈ s.frontier ↔ AtDistance (Linked edges direction batchId) n root a
  seen : ∀ a, a ∈ s.seenAssets ↔ Within (Linked edges direction batchId) n root a
  edges : ∀ e, e ∈ s.edges ↔ e ∈ edges ∧ (batchId = none ∨ e.batchId = batchId) ∧
    ∃ k < n, AtDistance (Linked edges direction batchId) k root (e.near direction)
  once : s.edges.Nodup

theorem reached_start : Reached edges direction batchId root 0
    { frontier := [root], seenAssets := [root] } where
  frontier a := by rw [List.mem_singleton, atDistance_zero]
  seen a := by rw [List.mem_singleton, within_zero]
  edges e := by
    constructor
    · exact nofun
    · rintro ⟨-, -, k, hk, -⟩
      exact absurd hk (Nat.not_lt_zero k)
  once := List.nodup_nil

/-- The far ends of the rows are a step away from the frontier. -/
theorem exists_rows {n : ℕ} {s : Search} (h : Reached edges direction batchId root n s) (a : ℕ) :
    (∃ e ∈ rows edges direction batchId s.frontier, e.far direction = a) ↔
      ∃ c, AtDistance (Linked edges direction batchId) n root c ∧
        Linked edges direction batchId c a := by
  constructor
  · rintro ⟨e, he, hfar⟩
    obtain ⟨hmem, hnear, hbatch⟩ := mem_rows.mp he
    exact ⟨_, (h.frontier _).mp hnear, e, hmem, hbatch, rfl, hfar⟩
  · rintro ⟨c, hc, e, hmem, hbatch, rfl, hfar⟩
    exact ⟨e, mem_rows.mpr ⟨hmem, (h.frontier _).mpr hc, hbatch⟩, hfar⟩

theorem reached_layer {n : ℕ} {s : Search} (hedges : edges.Nodup)
    (h : Reached edges direction batchId root n s) :
    Reached edges direction batchId root (n + 1) (layer edges direction batchId s) := by
  have hnew : ∀ a, a ∈ (layer edges direction batchId s).frontier ↔
      AtDistance (Linked edges direction batchId) (n + 1) root a := by
    intro a
    rw [atDistance_succ, ← h.seen a, ← exists_rows h a]
    exact (mem_visits a).2.trans (or_iff_right (List.not_mem_nil))
  constructor
  · exact hnew
  · intro a
    rw [within_succ, ← hnew, ← h.seen a]
    refine (mem_visits a).1.trans ?_
    constructor
    · rintro (hseen | hfar)
      · exact Or.inl hseen
      · by_cases hseen : a ∈ s.seenAssets
        · exact Or.inl hseen
        · exact Or.inr ((mem_visits a).2.mpr (Or.inr ⟨hseen, hfar⟩))
    · rintro (hseen | hnext)
      · exact Or.inl hseen
      · exact Or.inr (((mem_visits a).2.mp hnext).resolve_left List.not_mem_nil).2
  · intro e
    show e ∈ s.edges ++ rows edges direction batchId s.frontier ↔ _
    rw [List.mem_append, h.edges, mem_rows, h.frontier]
    constructor
    · rintro (⟨hmem, hbatch, k, hk, hdistance⟩ | ⟨hmem, hdistance, hbatch⟩)
      · exact ⟨hmem, hbatch, k, Nat.lt_succ_of_lt hk, hdistance⟩
      · exact ⟨hmem, hbatch, n, Nat.lt_succ_self n, hdistance⟩
    · rintro ⟨hmem, hbatch, k, hk, hdistance⟩
      rcases Nat.lt_succ_iff_lt_or_eq.mp hk with hlt | rfl
      · exact Or.inl ⟨hmem, hbatch, k, hlt, hdistance⟩
      · exact Or.inr ⟨hmem, hdistance, hbatch⟩
  · refine List.Nodup.append h.once (hedges.filter _) fun e hold hrow => ?_
    obtain ⟨-, -, k, hk, hdistance⟩ := (h.edges e).mp hold
    have hfront := (h.frontier _).mp (mem_rows.mp hrow).2.1
    exact absurd (hdistance.unique hfront) (Nat.ne_of_lt hk)

/-- A search with nothing in front of it has found everything. -/
theorem reached_empty {n : ℕ} {s : Search} (h : Reached edges direction batchId root n s)
    (hempty : s.frontier = []) : Reached edges direction batchId root (n + 1) s := by
  have hnone : ∀ a, ¬ AtDistance (Linked edges direction batchId) n root a := by
    intro a ha
    have hmem := (h.frontier a).mpr ha
    rw [hempty] at hmem
    exact List.not_mem_nil hmem
  have hnext : ∀ a, ¬ AtDistance (Linked edges direction batchId) (n + 1) root a := by
    intro a ha
    obtain ⟨-, c, hc, -⟩ := atDistance_succ.mp ha
    exact hnone c hc
  constructor
  · intro a
    rw [hempty]
    exact iff_of_false List.not_mem_nil (hnext a)
  · intro a
    rw [within_succ, h.seen, or_iff_left (hnext a)]
  · intro e
    rw [h.edges]
    refine and_congr_right' (and_congr_right' ⟨?_, ?_⟩)
    · rintro ⟨k, hk, hdistance⟩
      exact ⟨k, Nat.lt_succ_of_lt hk, hdistance⟩
    · rintro ⟨k, hk, hdistance⟩
      rcases Nat.lt_succ_iff_lt_or_eq.mp hk with hlt | rfl
      · exact ⟨k, hlt, hdistance⟩
      · exact absurd hdistance (hnone _)
  · exact h.once

theorem reached_layers {n k : ℕ} {s : Search} (hedges : edges.Nodup)
    (h : Reached edges direction batchId root k s) :
    Reached edges direction batchId root (k + n) (layers edges direction batchId n s) := by
  induction n generalizing k s with
  | zero => exact h
  | succ n ih =>
      rw [layers, Nat.add_succ, ← Nat.succ_add]
      split_ifs with hempty
      · clear ih
        induction n generalizing k with
        | zero => exact reached_empty h hempty
        | succ n ihn =>
            rw [Nat.add_succ, ← Nat.succ_add]
            exact ihn (reached_empty h hempty)
      · exact ih (reached_layer hedges h)

/-- The assets of a trace are those within the depth, and its edges those that leave an asset nearer than
the depth, each once. -/
theorem traceLineage_exact (store : Store) (assetId : ℕ) (direction : Direction) (maxDepth : ℤ)
    (batchId : Option ℕ) :
    let trace := traceLineage store assetId direction maxDepth batchId
    let link := Linked store.edges direction batchId
    ((∀ a, a ∈ trace.assets.map TracedAsset.asset ↔
        a ∈ store.assets ∧ Within link (depth maxDepth) assetId a.id) ∧
      (trace.assets.map TracedAsset.asset).Nodup) ∧
    (∀ e, e ∈ trace.edges ↔ e ∈ store.edges ∧ (batchId = none ∨ e.batchId = batchId) ∧
      ∃ k < depth maxDepth, AtDistance link k assetId (e.near direction)) ∧ trace.edges.Nodup := by
  have hstart : Reached store.edges direction batchId assetId 0
      { frontier := [assetId], seenAssets := [assetId] } := reached_start
  have hfound := reached_layers (n := depth maxDepth) (List.Nodup.of_map _ store.edgeKeys) hstart
  rw [Nat.zero_add] at hfound
  intro trace link
  have hassets : trace.assets.map TracedAsset.asset = store.assets.filter fun row =>
      row.id ∈ (layers store.edges direction batchId (depth maxDepth)
        { frontier := [assetId], seenAssets := [assetId] }).seenAssets := by
    show List.map _ (List.map _ _) = _
    rw [List.map_map]
    exact List.map_id _
  refine ⟨⟨fun a => ?_, ?_⟩, hfound.edges, hfound.once⟩
  · rw [hassets, List.mem_filter, decide_eq_true_eq, hfound.seen]
  · rw [hassets]
    exact (List.Nodup.of_map _ store.assetKeys).filter _

/-- One edge, from asset `1` to asset `2`. -/
def oneEdge : Store where
  assets := [⟨1, "raw"⟩, ⟨2, "standard"⟩]
  assetKeys := by decide
  edges := [{ id := 1, batchId := none, sourceAssetId := 1, targetAssetId := 2 }]
  edgeKeys := by decide
  layers := []

/-- The depth `0` is taken for `1`. -/
theorem depth_zero_cut :
    (⟨1, "raw"⟩ : Asset) ∈ (traceLineage oneEdge 2 .upstream 0 none).assets.map TracedAsset.asset ∧
      ¬ Within (Linked oneEdge.edges .upstream none) 0 2 1 :=
  ⟨by decide, by rw [within_zero]; decide⟩

/-! ### Both directions -/

theorem mem_traced (store : Store) (assetId : ℕ) (direction : Direction) (maxDepth : ℤ) (batchId : Option ℕ)
    (a : Asset) : a ∈ (traceLineage store assetId direction maxDepth batchId).assets.map TracedAsset.asset ↔
      a ∈ store.assets ∧ Within (Linked store.edges direction batchId) (depth maxDepth) assetId a.id := by
  have hfound := reached_layers (n := depth maxDepth) (List.Nodup.of_map _ store.edgeKeys)
    (@reached_start store.edges direction batchId assetId)
  rw [Nat.zero_add] at hfound
  rw [← hfound.seen, traceLineage, List.map_map]
  simp [traced, Function.comp_def]

theorem linked_upstream (edges : List LineageEdge) (batchId : Option ℕ) :
    Linked edges .upstream batchId = flip (Linked edges .downstream batchId) := by
  funext a b
  exact propext (exists_congr fun _ => and_congr_right' (and_congr_right' and_comm))

/-- One asset is found downstream of another exactly when the other is found upstream of it, with the same depth
and batch. -/
theorem traceLineage_both_ways (store : Store) (maxDepth : ℤ) (batchId : Option ℕ) (a b : Asset) :
    b ∈ (traceLineage store a.id .downstream maxDepth batchId).assets.map TracedAsset.asset ∧ a ∈ store.assets ↔
      a ∈ (traceLineage store b.id .upstream maxDepth batchId).assets.map TracedAsset.asset ∧ b ∈ store.assets := by
  rw [mem_traced, mem_traced, linked_upstream, within_flip]
  tauto

end RecoveryService.TraceLineage
