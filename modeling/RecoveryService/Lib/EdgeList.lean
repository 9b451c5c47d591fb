import Mathlib

/-! # Directed graphs given by a list of edges

A graph is a list of pairs, as programs write it, and `reachable es s` is the worklist search
from `s`: pop a key, mark and push the targets of its edges that are not marked yet.  The loop
is bounded by a fuel argument.  Every push uses up an edge whose target was not reached before,
so one more than the number of edges is enough fuel for the stack to run empty
(`search_closed`), and the marked keys are those reached along the edges
(`mem_reachable_iff`). -/

namespace EdgeList

variable {κ : Type*} [DecidableEq κ]

/-- The sources of the edges into `k`, in the order listed. -/
def sources (es : List (κ × κ)) (k : κ) : List κ := (es.filter (fun e => e.2 = k)).map Prod.fst

/-- The targets of the edges out of `k`, in the order listed. -/
def targets (es : List (κ × κ)) (k : κ) : List κ := (es.filter (fun e => e.1 = k)).map Prod.snd

variable {es : List (κ × κ)}

@[simp] theorem mem_sources {a k : κ} : a ∈ sources es k ↔ (a, k) ∈ es := by
  simp [sources]

@[simp] theorem mem_targets {k b : κ} : b ∈ targets es k ↔ (k, b) ∈ es := by
  simp [targets]

/-- `Reaches es a b`: there is a path from `a` to `b` along the edges. -/
def Reaches (es : List (κ × κ)) : κ → κ → Prop := Relation.ReflTransGen (fun a b => (a, b) ∈ es)

/-! ### The worklist search -/

/-- Mark the targets that are not reached yet and push them on the stack. -/
def visit : List κ → List κ × List κ → List κ × List κ
  | [], s => s
  | t :: ts, (reached, pending) =>
      if t ∈ reached then visit ts (reached, pending) else visit ts (t :: reached, t :: pending)

/-- Pop a key and visit its targets, until the stack is empty. -/
def search (es : List (κ × κ)) : ℕ → List κ × List κ → List κ × List κ
  | 0, s => s
  | _ + 1, (reached, []) => (reached, [])
  | n + 1, (reached, k :: pending) => search es n (visit (targets es k) (reached, pending))

/-- The keys reached from `s`. -/
def reachable (es : List (κ × κ)) (s : κ) : List κ := (search es (es.length + 1) ([s], [s])).1

/-- Edges whose target is not reached yet. -/
def unreached (es : List (κ × κ)) (reached : List κ) : ℕ :=
  (es.filter (fun e => e.2 ∉ reached)).length

theorem unreached_cons_lt {reached : List κ} {k t : κ} (he : (k, t) ∈ es) (ht : t ∉ reached) :
    unreached es (t :: reached) + 1 ≤ unreached es reached := by
  have hsub : es.filter (fun e => e.2 ∉ t :: reached) =
      (es.filter (fun e => e.2 ∉ reached)).filter (fun e => e.2 ≠ t) := by
    rw [List.filter_filter]
    apply List.filter_congr
    intro e _
    simp only [List.mem_cons, not_or, Bool.decide_and]
  unfold unreached
  rw [hsub]
  apply List.length_filter_lt_length_iff_exists.mpr
  exact ⟨(k, t), by simp [he, ht], by simp⟩

theorem visit_spec {k : κ} : ∀ (ts reached pending : List κ), (∀ t ∈ ts, (k, t) ∈ es) →
    (∀ x, x ∈ (visit ts (reached, pending)).1 ↔ x ∈ reached ∨ x ∈ ts) ∧
    (∀ x, x ∈ (visit ts (reached, pending)).2 ↔ x ∈ pending ∨ (x ∈ ts ∧ x ∉ reached)) ∧
    (visit ts (reached, pending)).2.length + unreached es (visit ts (reached, pending)).1 ≤
      pending.length + unreached es reached
  | [], reached, pending, _ => by simp [visit]
  | t :: ts, reached, pending, hts => by
      rw [visit]
      have hts' : ∀ t ∈ ts, (k, t) ∈ es := fun x hx => hts x (List.mem_cons_of_mem _ hx)
      split_ifs with ht
      · obtain ⟨h1, h2, h3⟩ := visit_spec ts reached pending hts'
        refine ⟨?_, ?_, h3⟩
        · intro x
          rw [h1, List.mem_cons]
          grind
        · intro x
          rw [h2, List.mem_cons]
          grind
      · obtain ⟨h1, h2, h3⟩ := visit_spec ts (t :: reached) (t :: pending) hts'
        refine ⟨?_, ?_, ?_⟩
        · intro x
          rw [h1, List.mem_cons, List.mem_cons]
          grind
        · intro x
          rw [h2, List.mem_cons, List.mem_cons, List.mem_cons]
          grind
        · have := unreached_cons_lt (hts t List.mem_cons_self) ht
          simp only [List.length_cons] at h3
          omega

/-- What the search keeps: marked keys are reached from `s`, stacked keys are marked, and a
marked key off the stack has all its targets marked. -/
structure SearchInv (es : List (κ × κ)) (s : κ) (st : List κ × List κ) : Prop where
  sound : ∀ x ∈ st.1, Reaches es s x
  stacked : ∀ x ∈ st.2, x ∈ st.1
  closed : ∀ x ∈ st.1, x ∉ st.2 → ∀ y, (x, y) ∈ es → y ∈ st.1

theorem SearchInv.visit {s k : κ} {reached pending : List κ} (h : SearchInv es s (reached, k :: pending)) :
    SearchInv es s (EdgeList.visit (targets es k) (reached, pending)) := by
  have htargets : ∀ t ∈ targets es k, (k, t) ∈ es := fun t ht => mem_targets.mp ht
  obtain ⟨h1, h2, _⟩ := visit_spec (targets es k) reached pending htargets
  have hk : k ∈ reached := h.stacked k List.mem_cons_self
  refine ⟨?_, ?_, ?_⟩
  · intro x hx
    rcases (h1 x).mp hx with hx | hx
    · exact h.sound x hx
    · exact (h.sound k hk).tail (mem_targets.mp hx)
  · intro x hx
    rw [h1]
    rcases (h2 x).mp hx with hx | ⟨hx, _⟩
    · exact Or.inl (h.stacked x (List.mem_cons_of_mem _ hx))
    · exact Or.inr hx
  · intro x hx hnp y hy
    rw [h1]
    rw [h2] at hnp
    by_cases hxk : x = k
    · subst hxk
      exact Or.inr (mem_targets.mpr hy)
    · have hxr : x ∈ reached := by
        rcases (h1 x).mp hx with hx | hx
        · exact hx
        · by_contra hr
          exact hnp (Or.inr ⟨hx, hr⟩)
      refine Or.inl (h.closed x hxr ?_ y hy)
      simp only [List.mem_cons, not_or]
      exact ⟨hxk, fun hp => hnp (Or.inl hp)⟩

/-- With enough fuel the search empties its stack and keeps the invariant. -/
theorem search_closed {s : κ} : ∀ (n : ℕ) (reached pending : List κ),
    pending.length + unreached es reached ≤ n → SearchInv es s (reached, pending) →
    SearchInv es s (search es n (reached, pending)) ∧ (search es n (reached, pending)).2 = [] ∧
      ∀ x ∈ reached, x ∈ (search es n (reached, pending)).1
  | 0, reached, pending, hn, h => by
      have hp : pending = [] := List.length_eq_zero_iff.mp (by omega)
      subst hp
      exact ⟨h, rfl, fun x hx => hx⟩
  | n + 1, reached, [], _, h => ⟨h, rfl, fun x hx => hx⟩
  | n + 1, reached, k :: pending, hn, h => by
      have htargets : ∀ t ∈ targets es k, (k, t) ∈ es := fun t ht => mem_targets.mp ht
      have hspec := visit_spec (targets es k) reached pending htargets
      rw [search]
      obtain ⟨r', p', hv⟩ : ∃ r' p', visit (targets es k) (reached, pending) = (r', p') := ⟨_, _, rfl⟩
      have hv' := h.visit
      rw [hv] at hspec hv' ⊢
      obtain ⟨h1, _, h3⟩ := hspec
      simp only [List.length_cons] at hn
      obtain ⟨ha, hb, hc⟩ := search_closed n r' p' (by dsimp only at h3; omega) hv'
      exact ⟨ha, hb, fun x hx => hc x ((h1 x).mpr (Or.inl hx))⟩

/-- The search computes reachability. -/
theorem mem_reachable_iff {s x : κ} : x ∈ reachable es s ↔ Reaches es s x := by
  have hinit : SearchInv es s ([s], [s]) := by
    refine ⟨?_, fun x hx => hx, ?_⟩
    · intro y hy
      rw [List.mem_singleton.mp hy]
      exact Relation.ReflTransGen.refl
    · intro y hy hn
      exact absurd hy hn
  have hfuel : [s].length + unreached es [s] ≤ es.length + 1 := by
    have : unreached es [s] ≤ es.length := List.length_filter_le _ _
    simp only [List.length_singleton]
    omega
  obtain ⟨hinv, hnil, hsub⟩ := search_closed (es.length + 1) [s] [s] hfuel hinit
  constructor
  · exact hinv.sound x
  · intro h
    induction h with
    | refl => exact hsub s (by simp)
    | tail _ hbc ih => exact hinv.closed _ ih (by rw [hnil]; simp) _ hbc

end EdgeList
