import RecoveryService.Lib.Runs

/-! # The shared connection recovery

The table workers of one task share a `_DataSyncConnectionRecovery`.  A worker that lost its
connection calls `recover` with the generation its `wait_ready` returned; the first one probes the
connections, the others wait for the end of the probe loop.

Each region under the condition is one step of a worker, and so is each probe.  A worker that waits
may be woken at any time and looks at its condition again.  The log sink may raise wherever it is
called. -/

namespace DataSync.Recovery

open Runs

/-! ### State -/

/-- Where a worker is. -/
inductive Place where
  | outside
  | waitingReady
  | waitingRecover (g : ℕ)
  | starting (g : ℕ)
  | probing (g attempt : ℕ) (recovered : Bool)
  | finishing (g : ℕ) (recovered : Bool)

/-- The object, the places of the workers, and what was returned so far.  `ready` has the results of
`wait_ready`, `recovered` the calls `recover(g)` with their results; `probes` has the generations a
probe loop was begun for and `ended` those of the loops that are over, with their outcome. -/
structure State where
  recovering : Bool := false
  generation : ℕ := 0
  failedGeneration : Option ℕ := none
  place : ℕ → Place := fun _ => .outside
  ready : List (ℕ × Bool) := []
  recovered : List (ℕ × Bool) := []
  probes : List ℕ := []
  ended : List (ℕ × Bool) := []

def initial : State := {}

def State.at (s : State) (t : ℕ) (p : Place) : State :=
  { s with place := Function.update s.place t p }

/-- The outcome of one turn of the probe loop: `unlogged` is a probe that succeeded and whose log
raised, `aborted` one whose failure was not logged either, so that the loop ends. -/
inductive Probe where
  | succeeded
  | unlogged
  | failed
  | aborted (passed : Bool)

/-- A step of the worker `t`. -/
inductive Action where
  | waitReady (t : ℕ)
  | recover (t g : ℕ)
  | start (t : ℕ) (logged : Bool)
  | probe (t : ℕ) (result : Probe)
  | finish (t : ℕ) (returns : Bool)

/-! ### Steps -/

/-- The region of `wait_ready`, entered or woken up. -/
def readyRegion (s : State) (t : ℕ) : State :=
  if s.recovering then s.at t .waitingReady
  else { s.at t .outside with
    ready := (s.generation, decide (s.failedGeneration = some s.generation)) :: s.ready }

/-- `recover(g)` returns. -/
def returned (s : State) (t g : ℕ) (result : Bool) : State :=
  { s.at t .outside with recovered := (g, result) :: s.recovered }

/-- The first region of `recover(g)`. -/
def enterRecover (s : State) (t g : ℕ) : State :=
  if s.generation ≠ g then returned s t g true
  else if s.failedGeneration = some g then returned s t g false
  else if s.recovering then s.at t (.waitingRecover g)
  else { s.at t (.starting g) with recovering := true }

/-- A waiter of `recover(g)` wakes up. -/
def wakeRecover (s : State) (t g : ℕ) : State :=
  if s.recovering ∧ s.generation = g then s else returned s t g (decide (s.generation ≠ g))

/-- Behind a turn of the probe loop that did not break. -/
def nextProbe (maxProbes g attempt : ℕ) (recovered : Bool) : Place :=
  if attempt < maxProbes then .probing g (attempt + 1) recovered else .finishing g recovered

def afterProbe (maxProbes g attempt : ℕ) (recovered : Bool) : Probe → Place
  | .succeeded => .finishing g true
  | .unlogged => nextProbe maxProbes g attempt true
  | .failed => nextProbe maxProbes g attempt recovered
  | .aborted passed => .finishing g (recovered || passed)

/-- The region of the `finally` clause. -/
def finishRegion (s : State) (t g : ℕ) (recovered : Bool) : State :=
  { s.at t .outside with
    recovering := false
    generation := if recovered then s.generation + 1 else s.generation
    failedGeneration := if recovered then none else some g
    ended := (g, recovered) :: s.ended }

/-- A call that raises behind the region has no result. -/
def finishReturns (s : State) (g : ℕ) (recovered returns : Bool) : State :=
  if returns then { s with recovered := (g, recovered) :: s.recovered } else s

/-- One step.  A worker calls `recover` with a generation that `wait_ready` has returned. -/
def step (maxProbes : ℕ) (s : State) : Action → Option State
  | .waitReady t =>
      match s.place t with
      | .outside => some (readyRegion s t)
      | .waitingReady => some (readyRegion s t)
      | _ => none
  | .recover t g =>
      match s.place t with
      | .outside => if g ∈ s.ready.map Prod.fst then some (enterRecover s t g) else none
      | .waitingRecover h => if g = h then some (wakeRecover s t g) else none
      | _ => none
  | .start t logged =>
      match s.place t with
      | .starting g =>
          if logged then some { s.at t (.probing g 1 false) with probes := g :: s.probes }
          else some (s.at t .outside)
      | _ => none
  | .probe t result =>
      match s.place t with
      | .probing g attempt recovered =>
          some (s.at t (afterProbe maxProbes g attempt recovered result))
      | _ => none
  | .finish t returns =>
      match s.place t with
      | .finishing g recovered =>
          some (finishReturns (finishRegion s t g recovered) g recovered returns)
      | _ => none

/-! ### What a step can do -/

/-- The worker runs the probe loop of `g`. -/
def Place.runs (g : ℕ) : Place → Prop
  | .probing h _ _ => h = g
  | .finishing h _ => h = g
  | _ => False

/-- The worker is between setting `_recovering` and clearing it. -/
def Place.owns (g : ℕ) : Place → Prop
  | .starting h => h = g
  | p => p.runs g

variable {g : ℕ}

theorem Place.runs.owns {p : Place} (h : p.runs g) : p.owns g := by
  cases p with
  | starting h' => cases h
  | _ => exact h

theorem afterProbe_runs (maxProbes g attempt : ℕ) (recovered : Bool) (result : Probe) :
    (afterProbe maxProbes g attempt recovered result).runs g := by
  have hnext : ∀ r, (nextProbe maxProbes g attempt r).runs g := by
    intro r
    unfold nextProbe
    split
    · rfl
    · rfl
  cases result with
  | succeeded | aborted passed => rfl
  | unlogged => exact hnext true
  | failed => exact hnext recovered

/-- The invariant of the object. -/
structure Inv (s : State) : Prop where
  /-- One worker owns the recovery, of the current generation. -/
  owner : ∀ t g, (s.place t).owns g → s.recovering = true ∧ g = s.generation
  single : ∀ t u g h, (s.place t).owns g → (s.place u).owns h → t = u
  failed : ∀ g, s.failedGeneration = some g → g = s.generation ∧ s.recovering = false
  /-- The generations in use are at most the current one. -/
  ready : ∀ r ∈ s.ready, r.1 ≤ s.generation
  waiting : ∀ t g, s.place t = .waitingRecover g → g ≤ s.generation ∧
    (g = s.generation → s.recovering = false → s.failedGeneration = some g)
  probes : ∀ g ∈ s.probes, g ≤ s.generation ∧
    (g = s.generation → s.failedGeneration = some g ∨ ∃ t, (s.place t).runs g)
  probesOnce : s.probes.Nodup
  recovered : ∀ r ∈ s.recovered, (r.2 = true → r.1 < s.generation) ∧
    (r.2 = false → s.failedGeneration = some r.1)
  counted : s.generation = (s.ended.filter (fun e => e.2)).length
  ended : ∀ g, (g, false) ∈ s.ended → s.failedGeneration = some g

theorem initial_inv : Inv initial where
  owner := fun _ _ h => h.elim
  single := fun _ _ _ _ h => h.elim
  failed := nofun
  ready := nofun
  waiting := nofun
  probes := nofun
  probesOnce := List.nodup_nil
  recovered := nofun
  counted := rfl
  ended := nofun

/-! ### Every step keeps the invariant -/

variable {s : State} {t : ℕ} {p : Place}

theorem at_place (u : ℕ) : (s.at t p).place u = if u = t then p else s.place u := by
  simp [State.at, Function.update_apply]

/-- A worker moves without touching the object. -/
theorem Inv.at (hi : Inv s) (howns : ∀ g, p.owns g → (s.place t).owns g)
    (hruns : ∀ g, (s.place t).runs g → p.runs g) (hwait : ∀ g, p = .waitingRecover g → g ≤ s.generation ∧
      (g = s.generation → s.recovering = false → s.failedGeneration = some g)) :
    Inv (s.at t p) := by
  have hback : ∀ u g, ((s.at t p).place u).owns g → (s.place u).owns g := by
    intro u g hu
    rw [at_place] at hu
    split at hu
    · rename_i h
      subst h
      exact howns g hu
    · exact hu
  refine ⟨?_, ?_, hi.failed, hi.ready, ?_, ?_, hi.probesOnce, hi.recovered, hi.counted, hi.ended⟩
  · intro u g hu
    exact hi.owner u g (hback u g hu)
  · intro u v g h hu hv
    exact hi.single u v g h (hback u g hu) (hback v h hv)
  · intro u g hu
    rw [at_place] at hu
    split at hu
    · exact hwait g hu
    · exact hi.waiting u g hu
  · intro g hg
    refine ⟨(hi.probes g hg).1, fun hgen => ?_⟩
    obtain hfailed | ⟨u, hu⟩ := (hi.probes g hg).2 hgen
    · exact Or.inl hfailed
    · refine Or.inr ⟨u, ?_⟩
      rw [at_place]
      split
      · rename_i h
        subst h
        exact hruns g hu
      · exact hu

/-- A worker that does not own the recovery moves to a place where it does not either. -/
theorem Inv.at_free (hi : Inv s) (hs : ∀ g, ¬ (s.place t).runs g) (hp : ∀ g, ¬ p.owns g)
    (hwait : ∀ g, p ≠ .waitingRecover g) : Inv (s.at t p) :=
  hi.at (fun g h => absurd h (hp g)) (fun g h => absurd h (hs g)) (fun g h => absurd h (hwait g))

theorem Inv.push_ready (hi : Inv s) (b : Bool) : Inv { s with ready := (s.generation, b) :: s.ready } :=
  { hi with
    ready := fun r hr => by
      obtain rfl | hr := List.mem_cons.mp hr
      · exact le_refl _
      · exact hi.ready r hr }

theorem Inv.push_recovered (hi : Inv s) {b : Bool}
    (hb : (b = true → g < s.generation) ∧ (b = false → s.failedGeneration = some g)) :
    Inv { s with recovered := (g, b) :: s.recovered } :=
  { hi with
    recovered := fun r hr => by
      obtain rfl | hr := List.mem_cons.mp hr
      · exact hb
      · exact hi.recovered r hr }

theorem readyRegion_inv (hi : Inv s) (ht : s.place t = .outside ∨ s.place t = .waitingReady) :
    Inv (readyRegion s t) := by
  have hfree : ∀ g, ¬ (s.place t).runs g := by
    intro g
    obtain ht | ht := ht <;> rw [ht] <;> exact id
  unfold readyRegion
  split
  · exact hi.at_free hfree (fun _ => id) nofun
  · exact (hi.at_free hfree (fun _ => id) nofun : Inv (s.at t .outside)).push_ready _

theorem returned_inv (hi : Inv s) {b : Bool} (hfree : ∀ g, ¬ (s.place t).runs g)
    (hb : (b = true → g < s.generation) ∧ (b = false → s.failedGeneration = some g)) : Inv (returned s t g b) :=
  (hi.at_free hfree (fun _ => id) nofun : Inv (s.at t .outside)).push_recovered hb

theorem enterRecover_inv (hi : Inv s) (ht : s.place t = .outside) (hg : g ∈ s.ready.map Prod.fst) :
    Inv (enterRecover s t g) := by
  have hle : g ≤ s.generation := by
    obtain ⟨r, hr, rfl⟩ := List.mem_map.mp hg
    exact hi.ready r hr
  have hfree : ∀ g, ¬ (s.place t).runs g := by
    intro g
    rw [ht]
    exact id
  unfold enterRecover
  split
  · rename_i hne
    exact returned_inv hi hfree ⟨fun _ => by omega, nofun⟩
  rename_i hgen
  rw [not_not] at hgen
  split
  · rename_i hfailed
    exact returned_inv hi hfree ⟨nofun, fun _ => hfailed⟩
  rename_i hfailed
  split
  · rename_i hrec
    refine hi.at (fun _ h => h.elim) (fun g h => absurd h (hfree g)) ?_
    rintro _ ⟨⟩
    exact ⟨hle, fun _ hrec' => by rw [hrec] at hrec'; cases hrec'⟩
  · -- nobody owns the recovery, and the generation was not probed before
    rename_i hrec
    rw [Bool.not_eq_true] at hrec
    have hnone : ∀ u h, ¬ (s.place u).owns h := by
      intro u h hu
      rw [(hi.owner u h hu).1] at hrec
      cases hrec
    have howner : ∀ u h, ((s.at t (.starting g)).place u).owns h → u = t ∧ h = g := by
      intro u h hu
      rw [at_place] at hu
      split at hu
      · rename_i hut
        exact ⟨hut, hu.symm⟩
      · exact absurd hu (hnone u h)
    refine ⟨?_, ?_, ?_, hi.ready, ?_, ?_, hi.probesOnce, hi.recovered, hi.counted, hi.ended⟩
    · intro u h hu
      obtain ⟨-, rfl⟩ := howner u h hu
      exact ⟨rfl, hgen.symm⟩
    · intro u v h k hu hv
      rw [(howner u h hu).1, (howner v k hv).1]
    · intro h hh
      have hold : s.failedGeneration = some h := hh
      have hcur := (hi.failed h hold).1
      rw [hold, hcur, hgen] at hfailed
      exact absurd rfl hfailed
    · intro u h hu
      change (s.at t (.starting g)).place u = .waitingRecover h at hu
      rw [at_place] at hu
      split at hu
      · cases hu
      · exact ⟨(hi.waiting u h hu).1, fun _ hrec' => by cases hrec'⟩
    · intro h hh
      refine ⟨(hi.probes h hh).1, fun hcur => ?_⟩
      obtain hf | ⟨u, hu⟩ := (hi.probes h hh).2 hcur
      · exact Or.inl hf
      · exact absurd hu.owns (hnone u h)

theorem wakeRecover_inv (hi : Inv s) (ht : s.place t = .waitingRecover g) : Inv (wakeRecover s t g) := by
  obtain ⟨hle, hfailed⟩ := hi.waiting t g ht
  unfold wakeRecover
  split
  · exact hi
  · rename_i hwoken
    apply returned_inv hi
    · intro h
      rw [ht]
      exact id
    constructor
    · intro hne
      have := of_decide_eq_true hne
      omega
    · intro heq
      have hgen : s.generation = g := not_not.mp (of_decide_eq_false heq)
      apply hfailed hgen.symm
      cases hrec : s.recovering with
      | false => rfl
      | true => exact absurd ⟨hrec, hgen⟩ hwoken

/-- The loop of a generation begins once: its only owner has not run it. -/
theorem start_inv (hi : Inv s) (ht : s.place t = .starting g) :
    Inv { s.at t (.probing g 1 false) with probes := g :: s.probes } := by
  have howns : (s.place t).owns g := by
    rw [ht]
    rfl
  obtain ⟨hrec, hgen⟩ := hi.owner t g howns
  have hnew : g ∉ s.probes := by
    intro hg
    obtain hfailed | ⟨u, hu⟩ := (hi.probes g hg).2 hgen
    · rw [(hi.failed g hfailed).2] at hrec
      cases hrec
    · have hut := hi.single u t g g hu.owns howns
      rw [hut, ht] at hu
      exact hu
  have hmove : Inv (s.at t (.probing g 1 false)) := by
    refine hi.at ?_ ?_ nofun
    · intro h hh
      rw [ht]
      exact hh
    · intro h hh
      rw [ht] at hh
      exact hh.elim
  exact { hmove with
    probes := fun h hh => by
      obtain rfl | hh := List.mem_cons.mp hh
      · refine ⟨hgen.le, fun _ => Or.inr ⟨t, ?_⟩⟩
        change ((s.at t (.probing h 1 false)).place t).runs h
        rw [at_place, if_pos rfl]
        rfl
      · exact hmove.probes h hh
    probesOnce := List.nodup_cons.mpr ⟨hnew, hi.probesOnce⟩ }

theorem finishRegion_inv (hi : Inv s) {recovered : Bool} (ht : s.place t = .finishing g recovered) :
    Inv (finishRegion s t g recovered) := by
  have howns : (s.place t).owns g := by
    rw [ht]
    rfl
  obtain ⟨hrec, hgen⟩ := hi.owner t g howns
  have hnofail : ∀ h, s.failedGeneration ≠ some h := by
    intro h hh
    rw [(hi.failed h hh).2] at hrec
    cases hrec
  have hnone : ∀ u h, ¬ ((s.at t .outside).place u).owns h := by
    intro u h hu
    rw [at_place] at hu
    split at hu
    · exact hu
    · rename_i hne
      exact hne (hi.single u t h g hu howns)
  have hle : s.generation ≤ (finishRegion s t g recovered).generation := by
    unfold finishRegion
    cases recovered <;> simp
  refine ⟨?_, ?_, ?_, ?_, ?_, ?_, hi.probesOnce, ?_, ?_, ?_⟩
  · exact fun u h hu => absurd hu (hnone u h)
  · exact fun u _ h _ hu => absurd hu (hnone u h)
  · intro h hh
    cases recovered with
    | true => cases hh
    | false =>
        cases hh
        exact ⟨hgen, rfl⟩
  · exact fun r hr => le_trans (hi.ready r hr) hle
  · intro u h hu
    change (s.at t .outside).place u = .waitingRecover h at hu
    rw [at_place] at hu
    split at hu
    · cases hu
    have hwait := (hi.waiting u h hu).1
    refine ⟨le_trans hwait hle, fun hcur _ => ?_⟩
    cases recovered with
    | true =>
        change h = s.generation + 1 at hcur
        omega
    | false =>
        change h = s.generation at hcur
        change some g = some h
        rw [hgen, hcur]
  · intro h hh
    refine ⟨le_trans (hi.probes h hh).1 hle, fun hcur => Or.inl ?_⟩
    have hold := (hi.probes h hh).1
    cases recovered with
    | true =>
        change h = s.generation + 1 at hcur
        omega
    | false =>
        change h = s.generation at hcur
        change some g = some h
        rw [hgen, hcur]
  · intro r hr
    refine ⟨fun h => lt_of_lt_of_le ((hi.recovered r hr).1 h) hle, fun h => ?_⟩
    exact absurd ((hi.recovered r hr).2 h) (hnofail r.1)
  · cases recovered with
    | true =>
        change s.generation + 1 = (((g, true) :: s.ended).filter (fun e => e.2)).length
        rw [List.filter_cons_of_pos (by rfl), List.length_cons, hi.counted]
    | false =>
        change s.generation = (((g, false) :: s.ended).filter (fun e => e.2)).length
        rw [List.filter_cons_of_neg (by simp), hi.counted]
  · intro h hh
    cases recovered with
    | true =>
        obtain hh | hh := List.mem_cons.mp hh
        · cases hh
        · exact absurd (hi.ended h hh) (hnofail h)
    | false =>
        obtain hh | hh := List.mem_cons.mp hh
        · cases hh
          rfl
        · exact absurd (hi.ended h hh) (hnofail h)

theorem finish_inv (hi : Inv s) {recovered : Bool} (returns : Bool) (ht : s.place t = .finishing g recovered) :
    Inv (finishReturns (finishRegion s t g recovered) g recovered returns) := by
  have hgen : g = s.generation := by
    refine (hi.owner t g ?_).2
    rw [ht]
    rfl
  unfold finishReturns
  split
  · apply (finishRegion_inv hi ht).push_recovered
    cases recovered with
    | true =>
        refine ⟨fun _ => ?_, nofun⟩
        change g < s.generation + 1
        omega
    | false => exact ⟨nofun, fun _ => rfl⟩
  · exact finishRegion_inv hi ht

variable {maxProbes : ℕ} {s' : State}
variable {a : Action}

theorem step_inv (h : step maxProbes s a = some s') (hi : Inv s) : Inv s' := by
  cases a with
  | waitReady t =>
      simp only [step] at h
      split at h
      · rename_i ht
        cases h
        exact readyRegion_inv hi (Or.inl ht)
      · rename_i ht
        cases h
        exact readyRegion_inv hi (Or.inr ht)
      · cases h
  | recover t g =>
      simp only [step] at h
      split at h
      · rename_i ht
        split at h
        · rename_i hg
          cases h
          exact enterRecover_inv hi ht hg
        · cases h
      · rename_i k ht
        split at h
        · rename_i hg
          cases h
          exact wakeRecover_inv hi (hg ▸ ht)
        · cases h
      · cases h
  | start t logged =>
      simp only [step] at h
      split at h
      · rename_i g ht
        split at h
        · cases h
          exact start_inv hi ht
        · cases h
          have hfree : ∀ k, ¬ (s.place t).runs k := by
            intro k
            rw [ht]
            exact id
          exact (hi.at_free hfree (fun _ => id) nofun : Inv (s.at t .outside))
      · cases h
  | probe t result =>
      simp only [step] at h
      split at h
      · rename_i g attempt recovered ht
        cases h
        have hruns := afterProbe_runs maxProbes g attempt recovered result
        have hsame : ∀ k, (afterProbe maxProbes g attempt recovered result).owns k → k = g := by
          intro k hk
          cases hp : afterProbe maxProbes g attempt recovered result with
          | outside | waitingReady | waitingRecover _ => rw [hp] at hk; cases hk
          | starting _ => rw [hp] at hruns; cases hruns
          | probing _ _ _ | finishing _ _ => rw [hp] at hruns hk; exact hk.symm.trans hruns
        apply hi.at
        · intro k hk
          rw [ht, hsame k hk]
          rfl
        · intro k hk
          rw [ht] at hk
          cases hk
          exact hruns
        · intro k hk
          rw [hk] at hruns
          cases hruns
      · cases h
  | finish t returns =>
      simp only [step] at h
      split at h
      · rename_i g recovered ht
        cases h
        exact finish_inv hi returns ht
      · cases h

variable {as : List Action}

theorem run_inv (h : Run (step maxProbes) Free s as s') (hi : Inv s) : Inv s' :=
  h.invariant hi fun _ _ _ _ hs hi => step_inv hs hi

/-! ### The generation and the history -/

/-- What every step leaves of the past: the generation does not decrease, results stay. -/
structure Later (s s' : State) : Prop where
  generation : s.generation ≤ s'.generation
  ready : ∃ new, s'.ready = new ++ s.ready
  recovered : ∃ new, s'.recovered = new ++ s.recovered

theorem Later.refl (s : State) : Later s s := ⟨le_refl _, ⟨[], rfl⟩, ⟨[], rfl⟩⟩

theorem Later.at (s : State) (t : ℕ) (p : Place) : Later s (s.at t p) :=
  ⟨le_refl _, ⟨[], rfl⟩, ⟨[], rfl⟩⟩

theorem Later.trans {s₁ s₂ s₃ : State} (h₁ : Later s₁ s₂) (h₂ : Later s₂ s₃) : Later s₁ s₃ := by
  obtain ⟨hgen, ⟨a, ha⟩, ⟨b, hb⟩⟩ := h₁
  obtain ⟨hgen', ⟨a', ha'⟩, ⟨b', hb'⟩⟩ := h₂
  refine ⟨le_trans hgen hgen', ⟨a' ++ a, ?_⟩, ⟨b' ++ b, ?_⟩⟩
  · rw [ha', ha, List.append_assoc]
  · rw [hb', hb, List.append_assoc]

theorem readyRegion_later (s : State) (t : ℕ) : Later s (readyRegion s t) := by
  unfold readyRegion
  split
  · exact Later.at s t _
  · exact ⟨le_refl _, ⟨[_], rfl⟩, ⟨[], rfl⟩⟩

theorem returned_later (s : State) (t g : ℕ) (b : Bool) : Later s (returned s t g b) :=
  ⟨le_refl _, ⟨[], rfl⟩, ⟨[_], rfl⟩⟩

theorem enterRecover_later (s : State) (t g : ℕ) : Later s (enterRecover s t g) := by
  unfold enterRecover
  split
  · exact returned_later s t g true
  split
  · exact returned_later s t g false
  split
  · exact Later.at s t _
  · exact ⟨le_refl _, ⟨[], rfl⟩, ⟨[], rfl⟩⟩

theorem wakeRecover_later (s : State) (t g : ℕ) : Later s (wakeRecover s t g) := by
  unfold wakeRecover
  split
  · exact Later.refl s
  · exact returned_later s t g _

theorem finish_later (s : State) (t g : ℕ) (recovered returns : Bool) :
    Later s (finishReturns (finishRegion s t g recovered) g recovered returns) := by
  have hgen : s.generation ≤ (finishRegion s t g recovered).generation := by
    unfold finishRegion
    cases recovered <;> simp
  unfold finishReturns
  split
  · exact ⟨hgen, ⟨[], rfl⟩, ⟨[_], rfl⟩⟩
  · exact ⟨hgen, ⟨[], rfl⟩, ⟨[], rfl⟩⟩

theorem step_later (h : step maxProbes s a = some s') : Later s s' := by
  cases a with
  | waitReady t =>
      simp only [step] at h
      split at h
      · cases h
        exact readyRegion_later s t
      · cases h
        exact readyRegion_later s t
      · cases h
  | recover t g =>
      simp only [step] at h
      split at h
      · split at h
        · cases h
          exact enterRecover_later s t g
        · cases h
      · split at h
        · cases h
          exact wakeRecover_later s t g
        · cases h
      · cases h
  | start t logged =>
      simp only [step] at h
      split at h
      · split at h
        · cases h
          exact ⟨le_refl _, ⟨[], rfl⟩, ⟨[], rfl⟩⟩
        · cases h
          exact Later.at s t _
      · cases h
  | probe t result =>
      simp only [step] at h
      split at h
      · cases h
        exact Later.at s t _
      · cases h
  | finish t returns =>
      simp only [step] at h
      split at h
      · cases h
        exact finish_later s t _ _ returns
      · cases h

theorem run_later (h : Run (step maxProbes) Free s as s') : Later s s' := by
  induction h with
  | refl => exact Later.refl _
  | step _ hs _ ih => exact (step_later hs).trans ih

/-! ### After a failed loop -/

/-- The loop of `g` has failed: from `s` on nothing is probed, and `wait_ready` says so. -/
structure Stuck (g : ℕ) (s s' : State) : Prop where
  failed : s'.failedGeneration = some g
  probes : s'.probes = s.probes
  ready : ∃ new, s'.ready = new ++ s.ready ∧ ∀ r ∈ new, r = (g, true)

variable {s₀ : State}

theorem Stuck.of_eq {s : State} (h : Stuck g s₀ s) (hf : s'.failedGeneration = s.failedGeneration)
    (hp : s'.probes = s.probes) (hr : s'.ready = s.ready) : Stuck g s₀ s' :=
  ⟨by rw [hf]; exact h.failed, by rw [hp]; exact h.probes, by rw [hr]; exact h.ready⟩

theorem stuck_readyRegion (hi : Inv s) (h : Stuck g s₀ s) : Stuck g s₀ (readyRegion s t) := by
  obtain ⟨hgen, hrec⟩ := hi.failed g h.failed
  obtain ⟨new, hnew, hall⟩ := h.ready
  unfold readyRegion
  rw [if_neg (by rw [hrec]; decide)]
  refine ⟨h.failed, h.probes, (s.generation, decide (s.failedGeneration = some s.generation)) :: new,
    ?_, ?_⟩
  · change _ :: s.ready = _
    rw [hnew, List.cons_append]
  · intro r hr
    obtain rfl | hr := List.mem_cons.mp hr
    · rw [h.failed, hgen, decide_eq_true rfl]
    · exact hall r hr

theorem stuck_step (hi : Inv s) (h : Stuck g s₀ s) (hs : step maxProbes s a = some s') : Stuck g s₀ s' := by
  obtain ⟨hgen, hrec⟩ := hi.failed g h.failed
  have hnone : ∀ u k, ¬ (s.place u).owns k := by
    intro u k hu
    rw [(hi.owner u k hu).1] at hrec
    cases hrec
  cases a with
  | waitReady t =>
      simp only [step] at hs
      split at hs
      · cases hs
        exact stuck_readyRegion hi h
      · cases hs
        exact stuck_readyRegion hi h
      · cases hs
  | recover t k =>
      simp only [step] at hs
      split at hs
      · split at hs
        · cases hs
          unfold enterRecover
          split
          · exact h.of_eq rfl rfl rfl
          · rename_i hk
            rw [if_pos (by rw [h.failed, hgen, not_not.mp hk])]
            exact h.of_eq rfl rfl rfl
        · cases hs
      · split at hs
        · cases hs
          unfold wakeRecover
          split
          · exact h
          · exact h.of_eq rfl rfl rfl
        · cases hs
      · cases hs
  | start t logged =>
      simp only [step] at hs
      split at hs
      · rename_i k ht
        exact absurd (by rw [ht]; rfl) (hnone t k)
      · cases hs
  | probe t result =>
      simp only [step] at hs
      split at hs
      · rename_i k _ _ ht
        exact absurd (by rw [ht]; rfl) (hnone t k)
      · cases hs
  | finish t returns =>
      simp only [step] at hs
      split at hs
      · rename_i k _ ht
        exact absurd (by rw [ht]; rfl) (hnone t k)
      · cases hs

theorem stuck_run (hi : Inv s) (hf : s.failedGeneration = some g) (h : Run (step maxProbes) Free s as s') :
    Stuck g s s' := by
  have hboth := h.invariant (I := fun m => Inv m ∧ Stuck g s m)
    ⟨hi, hf, rfl, [], rfl, nofun⟩
    (fun _ _ _ _ hs hm => ⟨step_inv hs hm.1, stuck_step hm.1 hm.2 hs⟩)
  exact hboth.2

/-- In every state a run reaches: one worker at most is in the probe loop; the generation is the
number of probe loops that succeeded; a `recover(g)` has returned `True` exactly where the
generation is past `g`; no generation was probed twice.  And from then on the generation does not
decrease; behind a failed loop of `g` there is no probe, every `wait_ready` reports the failure and
no `recover(g)` returns `True`. -/
theorem recovery_shared {maxProbes : ℕ} {as : List Action} {s : State}
    (h : Run (step maxProbes) Free initial as s) :
    (∀ t u g g', (s.place t).runs g → (s.place u).runs g' → t = u) ∧
      s.generation = (s.ended.filter (fun e => e.2)).length ∧
      (∀ r ∈ s.recovered, r.2 = true ↔ r.1 < s.generation) ∧
      s.probes.Nodup ∧
      ∀ more s', Run (step maxProbes) Free s more s' →
        s.generation ≤ s'.generation ∧
        ∀ g, (g, false) ∈ s.ended →
          s'.generation = g ∧ s'.probes = s.probes ∧
          (∃ new, s'.ready = new ++ s.ready ∧ ∀ r ∈ new, r = (g, true)) ∧
          (∃ new, s'.recovered = new ++ s.recovered ∧ ∀ r ∈ new, r.1 = g → r.2 = false) := by
  have hi := run_inv h initial_inv
  refine ⟨fun t u g g' ht hu => hi.single t u g g' ht.owns hu.owns, hi.counted, ?_,
    hi.probesOnce, ?_⟩
  · intro r hr
    refine ⟨(hi.recovered r hr).1, fun hlt => ?_⟩
    cases hb : r.2 with
    | true => rfl
    | false =>
        have hcur := (hi.failed r.1 ((hi.recovered r hr).2 hb)).1
        omega
  · intro more s' hmore
    have hlater := run_later hmore
    refine ⟨hlater.generation, fun g hg => ?_⟩
    have hstuck := stuck_run hi (hi.ended g hg) hmore
    have hi' := run_inv hmore hi
    have hgen := (hi'.failed g hstuck.failed).1
    obtain ⟨new, hnew⟩ := hlater.recovered
    refine ⟨hgen.symm, hstuck.probes, hstuck.ready, new, hnew, fun r hr hrg => ?_⟩
    cases hb : r.2 with
    | false => rfl
    | true =>
        have hmem : r ∈ s'.recovered := by
          rw [hnew]
          exact List.mem_append_left _ hr
        have hlt := (hi'.recovered r hmem).1 hb
        omega

/-- Two workers lose their connections; one probes and fails, the other waits for it. -/
theorem recovery_shared_two : ∃ s, Run (step 1) Free initial
        [.waitReady 0, .waitReady 1, .recover 0 0, .recover 1 0, .start 0 true,
          .probe 0 .failed, .finish 0 true, .recover 1 0, .waitReady 1] s ∧
      s.recovered = [(0, false), (0, false)] ∧ s.ready = [(0, true), (0, false), (0, false)] ∧
      s.generation = (s.ended.filter (fun e => e.2)).length := by
  obtain ⟨s, hrun, hrec, hready⟩ : ∃ s, Run (step 1) Free initial
        [.waitReady 0, .waitReady 1, .recover 0 0, .recover 1 0, .start 0 true,
          .probe 0 .failed, .finish 0 true, .recover 1 0, .waitReady 1] s ∧
      s.recovered = [(0, false), (0, false)] ∧ s.ready = [(0, true), (0, false), (0, false)] :=
    exists_run (by decide +kernel)
  exact ⟨s, hrun, hrec, hready, (recovery_shared hrun).2.1⟩

end DataSync.Recovery
