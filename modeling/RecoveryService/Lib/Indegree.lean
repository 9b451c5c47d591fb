import RecoveryService.Lib.EdgeList

/-! # Topological removal by counting

The loop of the usual algorithm with counters: `indegree` counts for every key the edges into it
whose source is still there, the queue has the keys whose counter has reached 0.  A round takes
the first key of the queue out and lowers the counters of its targets.

Keys come out in an order in which every key stands behind the sources of its edges
(`CountInv.sorted`), so when none is missing there is no cycle (`counting_rank`); where there is
none, no key is missing (`counted_length_iff`). -/

namespace EdgeList

variable {κ : Type*} [DecidableEq κ]

/-- The state of the loop; `done` are the keys taken out, in order. -/
structure Counting (κ : Type*) where
  indegree : κ → ℤ
  queue : List κ
  done : List κ

/-- `indegree[y] -= 1`, and `y` joins the queue when the counter reaches 0. -/
def Counting.lower (s : Counting κ) (y : κ) : Counting κ :=
  { s with
    indegree := Function.update s.indegree y (s.indegree y - 1)
    queue := if s.indegree y - 1 = 0 then s.queue ++ [y] else s.queue }

def Counting.round (es : List (κ × κ)) (s : Counting κ) : Counting κ :=
  match s.queue with
  | [] => s
  | x :: rest =>
      (targets es x).foldl Counting.lower { s with queue := rest, done := s.done ++ [x] }

/-- Rounds until the queue is empty. -/
def Counting.loop (es : List (κ × κ)) : ℕ → Counting κ → Counting κ
  | 0, s => s
  | n + 1, s => if s.queue = [] then s else Counting.loop es n (s.round es)

/-- The loop before its first round. -/
def Counting.init (keys : List κ) (es : List (κ × κ)) : Counting κ :=
  { indegree := fun y => (sources es y).length
    queue := keys.filter (fun y => (sources es y).length = 0)
    done := [] }

/-- The keys taken out by the loop. -/
def counted (keys : List κ) (es : List (κ × κ)) : List κ :=
  ((Counting.init keys es).loop es keys.length).done

/-- The number of edges into `y` whose source has not been taken out. -/
def openEdges (es : List (κ × κ)) (done : List κ) (y : κ) : ℕ :=
  es.countP (fun e => e.2 = y ∧ e.1 ∉ done)

/-- What the loop keeps; the counters of the targets `ts` are still to be lowered. -/
structure CountInv (keys : List κ) (es : List (κ × κ)) (ts : List κ) (s : Counting κ) : Prop where
  nodup : (s.done ++ s.queue).Nodup
  counts : ∀ y, s.indegree y = openEdges es s.done y + ts.count y
  free : ∀ y, y ∈ s.done ++ s.queue ↔ y ∈ keys ∧ s.indegree y = 0
  sorted : ∀ pre b post, s.done = pre ++ b :: post → ∀ a, (a, b) ∈ es → a ∈ pre

variable {keys : List κ} {es : List (κ × κ)} {s : Counting κ}

theorem openEdges_nil (es : List (κ × κ)) (y : κ) : openEdges es [] y = (sources es y).length := by
  unfold openEdges sources
  rw [List.length_map, List.countP_eq_length_filter]
  congr 1
  apply List.filter_congr
  simp

/-- Taking a key out closes its edges. -/
theorem openEdges_snoc {done : List κ} {x : κ} (hx : x ∉ done) (y : κ) :
    openEdges es done y = openEdges es (done ++ [x]) y + (targets es x).count y := by
  unfold openEdges targets
  induction es with
  | nil => rfl
  | cons e es ih =>
      obtain ⟨a, b⟩ := e
      rw [List.countP_cons, List.countP_cons, ih, List.filter_cons]
      by_cases ha : a = x
      · subst ha
        by_cases hb : b = y
        · simp [hb, hx]
          omega
        · simp [hb]
      · by_cases hb : b = y
        · simp [hb, ha]
          omega
        · simp [hb, ha]

theorem openEdges_eq_zero {done : List κ} {y : κ} : openEdges es done y = 0 ↔ ∀ a, (a, y) ∈ es → a ∈ done := by
  unfold openEdges
  rw [List.countP_eq_zero]
  constructor
  · intro h a ha
    by_contra hnot
    exact h (a, y) ha (by simpa using hnot)
  · rintro h ⟨a, b⟩ he hc
    rw [decide_eq_true_eq] at hc
    obtain ⟨rfl, hnot⟩ := hc
    exact hnot (h a he)

theorem CountInv.lower {t : κ} {ts : List κ} (h : CountInv keys es (t :: ts) s) (ht : t ∈ keys) :
    CountInv keys es ts (s.lower t) := by
  have hcount := h.counts t
  rw [List.count_cons_self] at hcount
  have hnot : t ∉ s.done ++ s.queue := by
    intro hmem
    have := ((h.free t).mp hmem).2
    omega
  have hcounts : ∀ y, Function.update s.indegree t (s.indegree t - 1) y =
      openEdges es s.done y + ts.count y := by
    intro y
    by_cases hy : y = t
    · rw [hy, Function.update_self]
      omega
    · rw [Function.update_of_ne hy, h.counts y, List.count_cons_of_ne (Ne.symm hy)]
  unfold Counting.lower
  refine ⟨?_, hcounts, ?_, h.sorted⟩
  · dsimp only
    split_ifs
    · rw [← List.append_assoc]
      refine List.Nodup.append h.nodup (List.nodup_singleton _) ?_
      rw [List.disjoint_singleton]
      exact hnot
    · exact h.nodup
  · intro y
    dsimp only
    by_cases hy : y = t
    · subst hy
      rw [Function.update_self]
      split_ifs with hzero
      · simp [hzero, ht]
      · simp [hnot, hzero]
    · rw [Function.update_of_ne hy, ← h.free y]
      split_ifs
      · simp [hy]
      · rfl

theorem CountInv.lowerAll : ∀ (ts : List κ) {s : Counting κ}, CountInv keys es ts s →
    (∀ t ∈ ts, t ∈ keys) → CountInv keys es [] (ts.foldl Counting.lower s)
  | [], _, h, _ => h
  | t :: ts, _, h, hts =>
      CountInv.lowerAll ts (h.lower (hts t List.mem_cons_self))
        (fun x hx => hts x (List.mem_cons_of_mem _ hx))

theorem CountInv.round (h : CountInv keys es [] s) (hes : ∀ e ∈ es, e.2 ∈ keys) :
    CountInv keys es [] (s.round es) := by
  unfold Counting.round
  cases hq : s.queue with
  | nil => exact h
  | cons x rest =>
      have hperm : s.done ++ s.queue = (s.done ++ [x]) ++ rest := by simp [hq]
      have hnodup := h.nodup
      rw [hperm] at hnodup
      have hx : x ∉ s.done := by
        intro hmem
        exact List.disjoint_of_nodup_append (List.nodup_append.mp hnodup).1 hmem
          (List.mem_singleton_self x)
      have hfree : s.indegree x = 0 := by
        refine ((h.free x).mp ?_).2
        rw [hq]
        exact List.mem_append_right _ List.mem_cons_self
      have hclosed : ∀ a, (a, x) ∈ es → a ∈ s.done := by
        have hcounts := h.counts x
        rw [hfree, List.count_nil] at hcounts
        exact openEdges_eq_zero.mp (by omega)
      refine CountInv.lowerAll _ ⟨hnodup, ?_, ?_, ?_⟩ ?_
      · intro y
        have hcounts := h.counts y
        rw [List.count_nil, openEdges_snoc hx y] at hcounts
        dsimp only
        omega
      · intro y
        dsimp only
        rw [← hperm]
        exact h.free y
      · intro pre b post he a ha
        rcases List.eq_nil_or_concat post with rfl | ⟨post', c, rfl⟩
        · obtain ⟨rfl, hb⟩ := List.append_inj' he rfl
          rw [List.cons.injEq] at hb
          exact hclosed a (hb.1 ▸ ha)
        · have he' : s.done ++ [x] = (pre ++ b :: post') ++ [c] := by simpa using he
          obtain ⟨hdone, _⟩ := List.append_inj' he' rfl
          exact h.sorted pre b post' hdone a ha
      · intro t ht
        exact hes (x, t) (mem_targets.mp ht)

theorem CountInv.loop (hes : ∀ e ∈ es, e.2 ∈ keys) : ∀ (n : ℕ) {s : Counting κ},
    CountInv keys es [] s → CountInv keys es [] (s.loop es n)
  | 0, _, h => h
  | n + 1, s, h => by
      rw [Counting.loop]
      split_ifs
      · exact h
      · exact CountInv.loop hes n (h.round hes)

theorem CountInv.init (hk : keys.Nodup) : CountInv keys es [] (Counting.init keys es) := by
  refine ⟨hk.filter _, ?_, ?_, ?_⟩
  · intro y
    change ((sources es y).length : ℤ) = openEdges es [] y + (([] : List κ).count y : ℤ)
    rw [openEdges_nil, List.count_nil]
    omega
  · intro y
    simp [Counting.init]
  · intro pre b post he
    simp [Counting.init] at he

/-- When no key is missing, positions increase along the edges. -/
theorem counting_rank (hk : keys.Nodup) (hes : ∀ e ∈ es, e.2 ∈ keys)
    (hlen : (counted keys es).length = keys.length) :
    ∀ a b, (a, b) ∈ es → (counted keys es).idxOf a < (counted keys es).idxOf b := by
  have hinv : CountInv keys es [] ((Counting.init keys es).loop es keys.length) :=
    CountInv.loop hes _ (CountInv.init hk)
  have hnodup : (counted keys es).Nodup := (List.nodup_append.mp hinv.nodup).1
  have hsub : counted keys es ⊆ keys :=
    fun y hy => ((hinv.free y).mp (List.mem_append_left _ hy)).1
  have hperm : (counted keys es).Perm keys := (hnodup.subperm hsub).perm_of_length_le hlen.ge
  intro a b he
  have hb : b ∈ counted keys es := hperm.mem_iff.mpr (hes (a, b) he)
  obtain ⟨pre, post, hsplit⟩ := List.append_of_mem hb
  have ha : a ∈ pre := hinv.sorted pre b post hsplit a he
  rw [hsplit] at hnodup
  have hbp : b ∉ pre := fun hm => (List.disjoint_of_nodup_append hnodup) hm List.mem_cons_self
  rw [hsplit, List.idxOf_append_of_mem ha, List.idxOf_append_of_notMem hbp, List.idxOf_cons_self]
  have := List.idxOf_lt_length_of_mem ha
  omega

/-! ### Without cycles no key is missing -/

/-- No chain of edges closes. -/
def CycleFree (es : List (κ × κ)) : Prop := ∀ a, ¬ Relation.TransGen (fun a b => (a, b) ∈ es) a a

omit [DecidableEq κ] in
theorem cycleFree_of_rank (rank : κ → ℕ) (h : ∀ a b, (a, b) ∈ es → rank a < rank b) : CycleFree es := by
  have hlt : ∀ a b, Relation.TransGen (fun a b => (a, b) ∈ es) a b → rank a < rank b := by
    intro a b hab
    induction hab with
    | single he => exact h _ _ he
    | tail _ he ih => exact ih.trans (h _ _ he)
  exact fun a ha => lt_irrefl _ (hlt a a ha)

theorem Counting.lowerAll_done (ts : List κ) (s : Counting κ) : (ts.foldl Counting.lower s).done = s.done := by
  induction ts generalizing s with
  | nil => rfl
  | cons t ts ih => exact ih (s.lower t)

theorem Counting.round_done (h : s.queue ≠ []) : (s.round es).done.length = s.done.length + 1 := by
  unfold Counting.round
  cases hq : s.queue with
  | nil => exact absurd hq h
  | cons x rest =>
      show ((targets es x).foldl Counting.lower _).done.length = _
      rw [Counting.lowerAll_done, List.length_append, List.length_singleton]

/-- The loop ends with an empty queue, or takes a key out in every round. -/
theorem Counting.loop_done (n : ℕ) (s : Counting κ) :
    (s.loop es n).queue = [] ∨ (s.loop es n).done.length = s.done.length + n := by
  induction n generalizing s with
  | zero => exact Or.inr rfl
  | succ n ih =>
      unfold Counting.loop
      by_cases hq : s.queue = []
      · rw [if_pos hq]
        exact Or.inl hq
      · rw [if_neg hq]
        obtain hempty | hlen := ih (s.round es)
        · exact Or.inl hempty
        · rw [Counting.round_done hq] at hlen
          exact Or.inr (by omega)

/-- All keys come out exactly when there is no cycle. -/
theorem counted_length_iff (hk : keys.Nodup) (hes : ∀ e ∈ es, e.1 ∈ keys ∧ e.2 ∈ keys) :
    (counted keys es).length = keys.length ↔ CycleFree es := by
  constructor
  · intro hlen
    exact cycleFree_of_rank (fun a => (counted keys es).idxOf a)
      (counting_rank hk (fun e he => (hes e he).2) hlen)
  · intro hfree
    have hinv : CountInv keys es [] ((Counting.init keys es).loop es keys.length) :=
      CountInv.loop (fun e he => (hes e he).2) _ (CountInv.init hk)
    have hlisted : ((Counting.init keys es).loop es keys.length).done ++
        ((Counting.init keys es).loop es keys.length).queue ⊆ keys := fun y hy => ((hinv.free y).mp hy).1
    have hle := (hinv.nodup.subperm hlisted).length_le
    rw [List.length_append] at hle
    have hqueue : ((Counting.init keys es).loop es keys.length).queue = [] := by
      have hends : ((Counting.init keys es).loop es keys.length).queue = [] ∨
          ((Counting.init keys es).loop es keys.length).done.length =
            (Counting.init keys es).done.length + keys.length := Counting.loop_done keys.length _
      obtain hempty | hdone := hends
      · exact hempty
      · apply List.length_eq_zero_iff.mp
        omega
    -- a key left out without an earlier one left out has all its sources taken out
    have hwf : WellFounded (fun a b : {k // k ∈ keys} =>
        Relation.TransGen (fun a b => (a, b) ∈ es) a.1 b.1) := by
      have : IsTrans {k // k ∈ keys} (fun a b => Relation.TransGen (fun a b => (a, b) ∈ es) a.1 b.1) :=
        ⟨fun _ _ _ h₁ h₂ => h₁.trans h₂⟩
      have : Std.Irrefl (fun a b : {k // k ∈ keys} =>
          Relation.TransGen (fun a b => (a, b) ∈ es) a.1 b.1) := ⟨fun a => hfree a.1⟩
      exact Finite.wellFounded_of_trans_of_irrefl _
    have hall : ∀ k ∈ keys, k ∈ counted keys es := by
      by_contra hnone
      push Not at hnone
      obtain ⟨k, hmem, hmissing⟩ := hnone
      obtain ⟨m, hm, hmin⟩ := hwf.has_min {k | k.1 ∉ counted keys es} ⟨⟨k, hmem⟩, hmissing⟩
      have hopen : openEdges es (counted keys es) m.1 = 0 := by
        rw [openEdges_eq_zero]
        intro a ha
        by_contra hnot
        exact hmin ⟨a, (hes _ ha).1⟩ hnot (Relation.TransGen.single ha)
      have hzero := hinv.counts m.1
      rw [List.count_nil] at hzero
      have hout := (hinv.free m.1).mpr ⟨m.2, by unfold counted at hopen; omega⟩
      rw [hqueue, List.append_nil] at hout
      exact hm hout
    have hnodup : (counted keys es).Nodup := (List.nodup_append.mp hinv.nodup).1
    apply le_antisymm
    · unfold counted
      omega
    · exact (hk.subperm hall).length_le

end EdgeList
