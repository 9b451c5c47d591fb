import RecoveryService.Lib.EdgeList

/-! # Topological order by removal of keys without open dependencies

The loop keeps for every key the list `incoming` of dependencies that are still open, the
queue `ready` of keys that have none, and the list `ordered` of keys taken out so far.  One
round takes the first ready key out and closes it as a dependency of its targets, in
increasing order of the targets; a target left without open dependencies becomes ready.

An edge counts only between two distinct keys of the list (`Dep`).  Every key stands after all
its dependencies (`Sorted`, `topological_sorted`); the number of keys is enough fuel for the
loop to run until nothing is ready (`topological_ready_nil`); and no key is missing if and only
if the dependencies have no cycle (`topological_length_iff`). -/

namespace EdgeList

variable {κ : Type*} [LinearOrder κ]

/-- `Dep keys es a b`: the edge from `a` to `b` joins two distinct listed keys. -/
def Dep (keys : List κ) (es : List (κ × κ)) (a b : κ) : Prop :=
  (a, b) ∈ es ∧ a ∈ keys ∧ b ∈ keys ∧ a ≠ b

instance (keys : List κ) (es : List (κ × κ)) (a b : κ) : Decidable (Dep keys es a b) :=
  inferInstanceAs (Decidable (_ ∧ _))

/-- The set of dependencies of `k`. -/
def incoming (keys : List κ) (es : List (κ × κ)) (k : κ) : List κ :=
  ((sources es k).filter (fun a => Dep keys es a k)).dedup

/-- The set of keys that depend on `k`, in increasing order. -/
def outgoing (keys : List κ) (es : List (κ × κ)) (k : κ) : List κ :=
  ((targets es k).filter (fun b => Dep keys es k b)).dedup.insertionSort (· ≤ ·)

variable {keys : List κ} {es : List (κ × κ)}

theorem mem_incoming {a k : κ} : a ∈ incoming keys es k ↔ Dep keys es a k := by
  simp only [incoming, List.mem_dedup, List.mem_filter, mem_sources, decide_eq_true_eq,
    and_iff_right_iff_imp]
  exact fun h => h.1

theorem mem_outgoing {k b : κ} : b ∈ outgoing keys es k ↔ Dep keys es k b := by
  simp only [outgoing, List.mem_insertionSort, List.mem_dedup, List.mem_filter, mem_targets,
    decide_eq_true_eq, and_iff_right_iff_imp]
  exact fun h => h.1

/-- The state of the loop. -/
structure Removal (κ : Type*) where
  incoming : κ → List κ
  ready : List κ
  ordered : List κ

/-- Close the dependency of `target` on `key`. -/
def Removal.release (key : κ) (s : Removal κ) (target : κ) : Removal κ :=
  let deps := (s.incoming target).filter (· ≠ key)
  let s' := { s with incoming := Function.update s.incoming target deps }
  if deps = [] ∧ target ∉ s.ready ∧ target ∉ s.ordered then
    { s' with ready := s.ready ++ [target] }
  else s'

/-- One round: take the first ready key out and release its targets. -/
def Removal.round (out : κ → List κ) (s : Removal κ) : Removal κ :=
  match s.ready with
  | [] => s
  | key :: rest =>
      (out key).foldl (Removal.release key) { s with ready := rest, ordered := s.ordered ++ [key] }

/-- Rounds until nothing is ready. -/
def Removal.loop (out : κ → List κ) : ℕ → Removal κ → Removal κ
  | 0, s => s
  | n + 1, s => if s.ready = [] then s else Removal.loop out n (s.round out)

/-- The loop before its first round. -/
def Removal.init (keys : List κ) (es : List (κ × κ)) : Removal κ where
  incoming := EdgeList.incoming keys es
  ready := keys.filter (fun k => EdgeList.incoming keys es k = [])
  ordered := []

/-- The loop after its last round. -/
def Removal.final (keys : List κ) (es : List (κ × κ)) : Removal κ :=
  (Removal.init keys es).loop (outgoing keys es) keys.length

/-- The keys in the order they are taken out; keys on or behind a cycle are missing. -/
def topological (keys : List κ) (es : List (κ × κ)) : List κ := (Removal.final keys es).ordered

/-- Every key of `l` stands after all its dependencies. -/
def Sorted (keys : List κ) (es : List (κ × κ)) (l : List κ) : Prop :=
  ∀ pre b post, l = pre ++ b :: post → ∀ a, Dep keys es a b → a ∈ pre

omit [LinearOrder κ] in
theorem Sorted.snoc {l : List κ} {b : κ} (h : Sorted keys es l) (hb : ∀ a, Dep keys es a b → a ∈ l) :
    Sorted keys es (l ++ [b]) := by
  intro pre c post he a ha
  rcases List.eq_nil_or_concat post with rfl | ⟨post', x, rfl⟩
  · obtain ⟨rfl, hc⟩ := List.append_inj' he rfl
    rw [List.cons.injEq] at hc
    exact hb a (hc.1 ▸ ha)
  · have he' : l ++ [b] = (pre ++ c :: post') ++ [x] := by simpa using he
    obtain ⟨rfl, _⟩ := List.append_inj' he' rfl
    exact h pre c post' rfl a ha

/-! ### The invariant of the loop -/

/-- What every round keeps. -/
structure RemovalInv (keys : List κ) (es : List (κ × κ)) (s : Removal κ) : Prop where
  nodup : (s.ordered ++ s.ready).Nodup
  listed : ∀ k ∈ s.ordered ++ s.ready, k ∈ keys
  owed : ∀ a k, Dep keys es a k → a ∉ s.ordered → a ∈ s.incoming k
  free : ∀ k ∈ s.ready, ∀ a, Dep keys es a k → a ∈ s.ordered
  sorted : Sorted keys es s.ordered

variable {keys : List κ} {es : List (κ × κ)} {s : Removal κ}

theorem RemovalInv.release (h : RemovalInv keys es s) {key target : κ} (hkey : key ∈ s.ordered)
    (ht : target ∈ keys) :
    RemovalInv keys es (s.release key target) ∧ (s.release key target).ordered = s.ordered := by
  have howed : ∀ a k, Dep keys es a k → a ∉ s.ordered →
      a ∈ Function.update s.incoming target ((s.incoming target).filter (· ≠ key)) k := by
    intro a k hd ha
    by_cases hk : k = target
    · subst hk
      rw [Function.update_self, List.mem_filter]
      refine ⟨h.owed a k hd ha, ?_⟩
      rw [decide_eq_true_eq]
      rintro rfl
      exact ha hkey
    · rw [Function.update_of_ne hk]
      exact h.owed a k hd ha
  unfold Removal.release
  dsimp only
  split_ifs with hc
  · obtain ⟨hdeps, hr, ho⟩ := hc
    refine ⟨⟨?_, ?_, howed, ?_, h.sorted⟩, rfl⟩
    · rw [← List.append_assoc]
      refine List.Nodup.append h.nodup (List.nodup_singleton _) ?_
      rw [List.disjoint_singleton]
      simp [hr, ho]
    · intro k hk
      simp only [List.mem_append, List.mem_singleton] at hk
      rcases hk with hk | hk | rfl
      · exact h.listed k (List.mem_append_left _ hk)
      · exact h.listed k (List.mem_append_right _ hk)
      · exact ht
    · intro k hk a hd
      rcases List.mem_append.mp hk with hk | hk
      · exact h.free k hk a hd
      · -- the target just made ready owes nothing
        rw [List.mem_singleton] at hk
        subst hk
        by_contra ha
        have := howed a k hd ha
        rw [Function.update_self, hdeps] at this
        exact List.not_mem_nil this
  · exact ⟨⟨h.nodup, h.listed, howed, h.free, h.sorted⟩, rfl⟩

theorem RemovalInv.releaseAll (key : κ) : ∀ (ts : List κ) {s : Removal κ},
    RemovalInv keys es s → key ∈ s.ordered → (∀ t ∈ ts, t ∈ keys) →
    RemovalInv keys es (ts.foldl (Removal.release key) s) ∧
      (ts.foldl (Removal.release key) s).ordered = s.ordered
  | [], _, h, _, _ => ⟨h, rfl⟩
  | t :: ts, s, h, hkey, hts => by
      obtain ⟨h1, ho⟩ := h.release hkey (hts t List.mem_cons_self)
      obtain ⟨h2, ho'⟩ := RemovalInv.releaseAll key ts h1 (ho ▸ hkey)
        (fun x hx => hts x (List.mem_cons_of_mem _ hx))
      exact ⟨h2, ho'.trans ho⟩

/-- A round keeps the invariant and takes one key out. -/
theorem RemovalInv.round (h : RemovalInv keys es s) (hr : s.ready ≠ []) :
    RemovalInv keys es (s.round (outgoing keys es)) ∧
      (s.round (outgoing keys es)).ordered.length = s.ordered.length + 1 := by
  unfold Removal.round
  cases hready : s.ready with
  | nil => exact absurd hready hr
  | cons key rest =>
      have hperm : s.ordered ++ s.ready = (s.ordered ++ [key]) ++ rest := by simp [hready]
      have hpopped : RemovalInv keys es { s with ready := rest, ordered := s.ordered ++ [key] } := by
        refine ⟨hperm ▸ h.nodup, hperm ▸ h.listed, ?_, ?_, ?_⟩
        · intro a k hd ha
          exact h.owed a k hd (fun hm => ha (List.mem_append_left _ hm))
        · intro k hk a hd
          refine List.mem_append_left _ (h.free k ?_ a hd)
          rw [hready]
          exact List.mem_cons_of_mem _ hk
        · exact h.sorted.snoc (h.free key (by rw [hready]; exact List.mem_cons_self))
      obtain ⟨h1, ho⟩ := RemovalInv.releaseAll key (outgoing keys es key) hpopped (by simp)
        (fun t ht => (mem_outgoing.mp ht).2.2.1)
      dsimp only
      refine ⟨h1, ?_⟩
      rw [ho]
      simp

theorem RemovalInv.loop : ∀ (n : ℕ) {s : Removal κ}, RemovalInv keys es s →
    RemovalInv keys es (s.loop (outgoing keys es) n) ∧
      ((s.loop (outgoing keys es) n).ready = [] ∨
        (s.loop (outgoing keys es) n).ordered.length = s.ordered.length + n)
  | 0, s, h => ⟨h, Or.inr rfl⟩
  | n + 1, s, h => by
      rw [Removal.loop]
      split_ifs with hr
      · exact ⟨h, Or.inl hr⟩
      · obtain ⟨h1, hl⟩ := h.round hr
        obtain ⟨h2, hd⟩ := RemovalInv.loop n h1
        refine ⟨h2, hd.imp_right ?_⟩
        intro he
        omega

theorem RemovalInv.init (hk : keys.Nodup) : RemovalInv keys es (Removal.init keys es) := by
  refine ⟨?_, ?_, ?_, ?_, ?_⟩
  · exact hk.filter _
  · intro k hm
    exact (List.mem_filter.mp hm).1
  · intro a k hd _
    exact mem_incoming.mpr hd
  · intro k hm a hd
    have hnil := (List.mem_filter.mp hm).2
    rw [decide_eq_true_eq] at hnil
    have := mem_incoming.mpr hd
    rw [hnil] at this
    exact absurd this List.not_mem_nil
  · intro pre b post he
    simp [Removal.init] at he

theorem RemovalInv.final (hk : keys.Nodup) : RemovalInv keys es (Removal.final keys es) :=
  (RemovalInv.loop _ (RemovalInv.init hk)).1

/-! ### The other direction: what the loop leaves out

`Exact held s`: every open dependency is a real one whose source is still there, apart from the
pairs in `held`, and a key without open dependencies is ordered or ready.  During a round `held`
are the targets of the key taken out that are not released yet. -/

structure Exact (keys : List κ) (es : List (κ × κ)) (held : κ → κ → Prop) (s : Removal κ) : Prop where
  owes : ∀ a k, a ∈ s.incoming k → Dep keys es a k ∧ (a ∉ s.ordered ∨ held a k)
  covered : ∀ k ∈ keys, s.incoming k = [] → k ∈ s.ordered ∨ k ∈ s.ready

theorem Exact.release {key target : κ} {ts : List κ}
    (h : Exact keys es (fun a k => a = key ∧ k ∈ target :: ts) s) :
    Exact keys es (fun a k => a = key ∧ k ∈ ts) (s.release key target) := by
  have howes : ∀ a k, a ∈ Function.update s.incoming target
      ((s.incoming target).filter (· ≠ key)) k →
      Dep keys es a k ∧ (a ∉ s.ordered ∨ (a = key ∧ k ∈ ts)) := by
    intro a k ha
    by_cases hk : k = target
    · subst hk
      rw [Function.update_self, List.mem_filter, decide_eq_true_eq] at ha
      obtain ⟨hd, ho⟩ := h.owes a k ha.1
      exact ⟨hd, Or.inl (ho.resolve_right (fun hh => ha.2 hh.1))⟩
    · rw [Function.update_of_ne hk] at ha
      obtain ⟨hd, ho⟩ := h.owes a k ha
      refine ⟨hd, ho.imp_right ?_⟩
      rintro ⟨rfl, hm⟩
      exact ⟨rfl, (List.mem_cons.mp hm).resolve_left hk⟩
  unfold Removal.release
  dsimp only
  split_ifs with hc
  · refine ⟨howes, ?_⟩
    intro k hk hnil
    by_cases hkt : k = target
    · exact Or.inr (by simp [hkt])
    · dsimp only at hnil
      rw [Function.update_of_ne hkt] at hnil
      exact (h.covered k hk hnil).imp_right (fun hr => List.mem_append_left _ hr)
  · refine ⟨howes, ?_⟩
    intro k hk hnil
    dsimp only at hnil
    by_cases hkt : k = target
    · subst hkt
      rw [Function.update_self] at hnil
      by_contra hno
      rw [not_or] at hno
      exact hc ⟨hnil, hno.2, hno.1⟩
    · rw [Function.update_of_ne hkt] at hnil
      exact h.covered k hk hnil

theorem Exact.releaseAll (key : κ) : ∀ (ts : List κ) {s : Removal κ},
    Exact keys es (fun a k => a = key ∧ k ∈ ts) s →
    Exact keys es (fun _ _ => False) (ts.foldl (Removal.release key) s)
  | [], _, h => by simpa using h
  | _ :: ts, _, h => Exact.releaseAll key ts h.release

theorem Exact.round (h : Exact keys es (fun _ _ => False) s) :
    Exact keys es (fun _ _ => False) (s.round (outgoing keys es)) := by
  unfold Removal.round
  cases hready : s.ready with
  | nil => exact h
  | cons key rest =>
      apply Exact.releaseAll key
      refine ⟨?_, ?_⟩
      · intro a k ha
        obtain ⟨hd, ho⟩ := h.owes a k ha
        refine ⟨hd, ?_⟩
        by_cases hak : a = key
        · subst hak
          exact Or.inr ⟨rfl, mem_outgoing.mpr hd⟩
        · left
          rw [List.mem_append, List.mem_singleton, not_or]
          exact ⟨ho.resolve_right id, hak⟩
      · intro k hk hnil
        have := h.covered k hk hnil
        rw [hready, List.mem_cons] at this
        rw [List.mem_append, List.mem_singleton]
        tauto

theorem Exact.loop : ∀ (n : ℕ) {s : Removal κ}, Exact keys es (fun _ _ => False) s →
    Exact keys es (fun _ _ => False) (s.loop (outgoing keys es) n)
  | 0, _, h => h
  | n + 1, s, h => by
      rw [Removal.loop]
      split_ifs with hr
      · exact h
      · exact Exact.loop n h.round

theorem Exact.init : Exact keys es (fun _ _ => False) (Removal.init keys es) := by
  refine ⟨?_, ?_⟩
  · intro a k ha
    exact ⟨mem_incoming.mp ha, Or.inl List.not_mem_nil⟩
  · intro k hk hnil
    have hempty : incoming keys es k = [] := hnil
    exact Or.inr (List.mem_filter.mpr ⟨hk, decide_eq_true hempty⟩)

/-- The fuel is enough: the loop ends with nothing ready. -/
theorem topological_ready_nil (hk : keys.Nodup) : (Removal.final keys es).ready = [] := by
  have hinv : RemovalInv keys es (Removal.final keys es) := RemovalInv.final hk
  have hinit : RemovalInv keys es (Removal.init keys es) := RemovalInv.init hk
  rcases (RemovalInv.loop keys.length hinit).2 with h | h
  · exact h
  · -- all keys are taken out already, and the ready ones are further keys
    have hle : (Removal.final keys es).ordered.length + (Removal.final keys es).ready.length ≤
        keys.length := by
      rw [← List.length_append]
      exact (hinv.nodup.subperm hinv.listed).length_le
    have h' : (Removal.final keys es).ordered.length = keys.length := by
      rw [Removal.final, h]
      simp [Removal.init]
    exact List.length_eq_zero_iff.mp (by omega)

theorem topological_nodup (hk : keys.Nodup) : (topological keys es).Nodup := by
  have hinv : RemovalInv keys es (Removal.final keys es) := RemovalInv.final hk
  exact (List.nodup_append.mp hinv.nodup).1

theorem topological_subset (hk : keys.Nodup) : topological keys es ⊆ keys :=
  fun k hm => (RemovalInv.final hk).listed k (List.mem_append_left _ hm)

/-- Every key listed stands after all its dependencies. -/
theorem topological_sorted (hk : keys.Nodup) : Sorted keys es (topological keys es) :=
  (RemovalInv.final hk).sorted

/-- When no key is missing the order is a permutation of the keys. -/
theorem topological_perm (hk : keys.Nodup) (hlen : (topological keys es).length = keys.length) :
    (topological keys es).Perm keys :=
  ((topological_nodup hk).subperm (topological_subset hk)).perm_of_length_le hlen.ge

/-- A key left out has a dependency that is left out. -/
theorem exists_dep_of_not_mem (hk : keys.Nodup) {k : κ} (hm : k ∈ keys)
    (hn : k ∉ topological keys es) : ∃ a, Dep keys es a k ∧ a ∉ topological keys es := by
  have hexact : Exact keys es (fun _ _ => False) (Removal.final keys es) := Exact.init.loop _
  have hne : (Removal.final keys es).incoming k ≠ [] := by
    intro hnil
    rcases hexact.covered k hm hnil with h | h
    · exact hn h
    · rw [topological_ready_nil hk] at h
      exact List.not_mem_nil h
  obtain ⟨a, ha⟩ := List.exists_mem_of_ne_nil _ hne
  obtain ⟨hd, ho⟩ := hexact.owes a k ha
  exact ⟨a, hd, ho.resolve_right id⟩

/-- No chain of dependencies leads from a key back to it. -/
def Acyclic (keys : List κ) (es : List (κ × κ)) : Prop :=
  ∀ a, ¬ Relation.TransGen (Dep keys es) a a

omit [LinearOrder κ] in
/-- Dependencies along which a rank increases have no cycle. -/
theorem acyclic_of_rank (rank : κ → ℕ) (h : ∀ a b, Dep keys es a b → rank a < rank b) : Acyclic keys es := by
  have hlt : ∀ a b, Relation.TransGen (Dep keys es) a b → rank a < rank b := by
    intro a b hab
    induction hab with
    | single hd => exact h _ _ hd
    | tail _ hd ih => exact ih.trans (h _ _ hd)
  exact fun a ha => lt_irrefl _ (hlt a a ha)

/-- Along a sorted list positions increase. -/
theorem Sorted.idxOf_lt {l : List κ} (h : Sorted keys es l) (hl : l.Nodup) {a b : κ}
    (hd : Dep keys es a b) (hb : b ∈ l) : l.idxOf a < l.idxOf b := by
  obtain ⟨pre, post, rfl⟩ := List.append_of_mem hb
  have ha : a ∈ pre := h pre b post rfl a hd
  have hbp : b ∉ pre := fun hm => (List.disjoint_of_nodup_append hl) hm List.mem_cons_self
  rw [List.idxOf_append_of_mem ha, List.idxOf_append_of_notMem hbp, List.idxOf_cons_self]
  have := List.idxOf_lt_length_of_mem ha
  omega

/-- No key is missing if and only if there is no cycle. -/
theorem topological_length_iff (hk : keys.Nodup) :
    (topological keys es).length = keys.length ↔ Acyclic keys es := by
  constructor
  · intro hlen
    have hperm := topological_perm hk hlen
    apply acyclic_of_rank (fun a => (topological keys es).idxOf a)
    intro a b hd
    exact (topological_sorted hk).idxOf_lt (topological_nodup hk) hd (hperm.mem_iff.mpr hd.2.2.1)
  · intro hac
    by_contra hlen
    -- the keys left out would form a set in which every key has a dependency
    have hwf : WellFounded (fun a b : {k // k ∈ keys} => Relation.TransGen (Dep keys es) a.1 b.1) := by
      have : IsTrans {k // k ∈ keys} (fun a b => Relation.TransGen (Dep keys es) a.1 b.1) :=
        ⟨fun _ _ _ h₁ h₂ => h₁.trans h₂⟩
      have : Std.Irrefl (fun a b : {k // k ∈ keys} => Relation.TransGen (Dep keys es) a.1 b.1) :=
        ⟨fun a => hac a.1⟩
      exact Finite.wellFounded_of_trans_of_irrefl _
    have hne : ∃ k : {k // k ∈ keys}, k.1 ∉ topological keys es := by
      by_contra hall
      push Not at hall
      refine hlen (le_antisymm ?_ ?_)
      · exact ((topological_nodup hk).subperm (topological_subset hk)).length_le
      · exact (hk.subperm (fun k hm => hall ⟨k, hm⟩)).length_le
    obtain ⟨m, hm, hmin⟩ := hwf.has_min {k | k.1 ∉ topological keys es} hne
    obtain ⟨a, hd, ha⟩ := exists_dep_of_not_mem hk m.2 hm
    exact hmin ⟨a, hd.2.1⟩ ha (Relation.TransGen.single hd)

end EdgeList
