import RecoveryService.Sm4Batch.Jobs

/-! # Jobs that are settled

A write of a state is in order where the job is in the state the write was decided on; the recovery at
start-up also has to find no worker on the jobs it fails.  In runs whose writes are in order a terminal
state stays, a job that was cancelled has no table executed, and one worker at most begins the tables of
a job. -/

namespace RecoveryService.Sm4Batch

open Runs JobState

/-! ### The condition -/

/-- The write of the action finds the state it was decided on. -/
def Heeds (s : System) : Action → Prop
  | .resetStale =>
      match s.dispatcher with
      | .resetting stale _ => ∀ j ∈ stale, s.state j = .reserved
      | _ => True
  | .sendRaises =>
      match s.dispatcher with
      | .sending j _ => s.state j = .reserved
      | _ => True
  | .commitStop c =>
      match s.stops c with
      | some (j, seen) => s.state j = seen
      | none => True
  | .commitRecovery r =>
      match s.recoveries r with
      | some (requeued, interrupted) =>
          (∀ j ∈ requeued, s.state j = .reserved) ∧ ∀ j ∈ interrupted,
            (s.state j = .running ∨ s.state j = .stopping) ∧ ∀ i, (s.workers i).job? ≠ some j
      | none => True
  | _ => True

/-! ### The invariant -/

/-- The states of a job that no worker has claimed. -/
def JobState.isUnclaimed : JobState → Bool
  | .queued | .reserved | .cancelled => true
  | _ => false

/-- The states of a job that a worker is on. -/
def JobState.isWorked : JobState → Bool
  | .running | .stopping => true
  | _ => false

namespace WorkerPlace

/-- The job of a worker that has not begun its tables. -/
def fresh? : WorkerPlace → Option ℕ
  | claimed j | loaded j _ => some j
  | _ => none

/-- The worker has seen the job run, or stop where it is about to leave. -/
def SawIt : WorkerPlace → Prop
  | loaded _ seen | looping _ seen _ _ _ | executing _ seen _ _ _ => seen = .running
  | leaving _ seen | tailing _ seen => seen = .stopping
  | _ => True

theorem job?_of_fresh? {place : WorkerPlace} {j : ℕ} (h : place.fresh? = some j) : place.job? = some j := by
  cases place <;> first | exact h | cases h

end WorkerPlace

structure Inv (s : System) : Prop where
  worked : ∀ i j, (s.workers i).job? = some j → (s.state j).isWorked = true
  claimant : ∀ i j, (s.workers i).job? = some j → s.claimants j = [i]
  unclaimed : ∀ j, (s.state j).isUnclaimed = true → s.claimants j = []
  runner : ∀ j, s.runners j = [] ∨ s.runners j = s.claimants j
  once : ∀ j, (s.claimants j).length ≤ 1
  fresh : ∀ i j, (s.workers i).fresh? = some j → s.runners j = []
  executed : ∀ j, s.executed j = true → s.claimants j ≠ []
  saw : ∀ i, (s.workers i).SawIt
  asked : ∀ c j seen, s.stops c = some (j, seen) → seen.isTerminal = false

theorem initial_inv : Inv {} :=
  ⟨nofun, nofun, fun _ _ => rfl, fun _ => .inl rfl, fun _ => Nat.zero_le 1, nofun, nofun,
    fun _ => trivial, nofun⟩

variable {job : ℕ → Job} {settings : Settings} {s s' : System} {i j : ℕ}

/-- What every step in order does: it keeps the invariant and the terminal states. -/
structure Settles (s s' : System) : Prop where
  inv : Inv s'
  kept : ∀ j, (s.state j).isTerminal = true → s'.state j = s.state j

theorem Inv.single (h : Inv s) {k : ℕ} (hi : (s.workers i).job? = some j)
    (hk : (s.workers k).job? = some j) : i = k := by
  have heq := (h.claimant i j hi).symm.trans (h.claimant k j hk)
  simpa using heq

theorem not_terminal_of_worked {x : JobState} (h : x.isWorked = true) : x.isTerminal = false := by
  cases x <;> first | rfl | cases h

/-! ### The shapes of the steps -/

/-- Only the dispatcher, the broker or the requests go on. -/
theorem Inv.others (h : Inv s) (hstate : s'.state = s.state) (hworkers : s'.workers = s.workers)
    (hclaimants : s'.claimants = s.claimants) (hrunners : s'.runners = s.runners)
    (hexecuted : s'.executed = s.executed)
    (hstops : ∀ c j seen, s'.stops c = some (j, seen) → seen.isTerminal = false) : Settles s s' := by
  refine ⟨⟨?_, ?_, ?_, ?_, ?_, ?_, ?_, ?_, hstops⟩, fun j _ => by rw [hstate]⟩
  · rw [hworkers, hstate]
    exact h.worked
  · rw [hworkers, hclaimants]
    exact h.claimant
  · rw [hstate, hclaimants]
    exact h.unclaimed
  · rw [hrunners, hclaimants]
    exact h.runner
  · rw [hclaimants]
    exact h.once
  · rw [hworkers, hrunners]
    exact h.fresh
  · rw [hexecuted, hclaimants]
    exact h.executed
  · rw [hworkers]
    exact h.saw

/-- States are written. -/
theorem Inv.restate (h : Inv s) {f : ℕ → JobState}
    (hworked : ∀ i j, (s.workers i).job? = some j → (f j).isWorked = true)
    (hunclaimed : ∀ j, (f j).isUnclaimed = true → s.claimants j = [])
    (hkept : ∀ j, (s.state j).isTerminal = true → f j = s.state j) : Settles s { s with state := f } :=
  ⟨⟨hworked, h.claimant, hunclaimed, h.runner, h.once, h.fresh, h.executed, h.saw, h.asked⟩, hkept⟩

variable {new : JobState}

/-- One state is written. -/
theorem Inv.write (h : Inv s) (hnot : (s.state j).isTerminal = false)
    (hworked : ∀ i, (s.workers i).job? = some j → new.isWorked = true)
    (hunclaimed : new.isUnclaimed = true → s.claimants j = []) : Settles s (s.write j new) := by
  refine h.restate (fun i k hk => ?_) (fun k hk => ?_) fun k hk => ?_
  · by_cases hkj : k = j
    · subst hkj
      rw [Function.update_self]
      exact hworked i hk
    · rw [Function.update_of_ne hkj]
      exact h.worked i k hk
  · by_cases hkj : k = j
    · subst hkj
      rw [Function.update_self] at hk
      exact hunclaimed hk
    · rw [Function.update_of_ne hkj] at hk
      exact h.unclaimed k hk
  · have hkj : k ≠ j := by
      rintro rfl
      rw [hnot] at hk
      cases hk
    exact Function.update_of_ne hkj _ _

/-- A worker goes on with its job, or is through with it. -/
theorem Inv.goto (h : Inv s) {place : WorkerPlace}
    (hjob : ∀ j, place.job? = some j → (s.workers i).job? = some j)
    (hfresh : ∀ j, place.fresh? = some j → s.runners j = []) (hsaw : place.SawIt) :
    Settles s (s.goto i place) := by
  have hjobs : ∀ k j, ((s.goto i place).workers k).job? = some j → (s.workers k).job? = some j := by
    intro k j hk
    rw [System.workers_goto] at hk
    split at hk
    · next heq => exact heq ▸ hjob j hk
    · exact hk
  refine ⟨⟨fun k j hk => h.worked k j (hjobs k j hk), fun k j hk => h.claimant k j (hjobs k j hk),
    h.unclaimed, h.runner, h.once, fun k j hk => ?_, h.executed, fun k => ?_, h.asked⟩, fun _ _ => rfl⟩
  · rw [System.workers_goto] at hk
    split at hk
    · exact hfresh j hk
    · exact h.fresh k j hk
  · rw [System.workers_goto]
    split
    · exact hsaw
    · exact h.saw k

theorem Inv.done (h : Inv s) (i : ℕ) : Settles s (s.goto i .done) := h.goto nofun nofun trivial

theorem Settles.trans {s₁ : System} (h₁ : Settles s s₁) (h₂ : Settles s₁ s') : Settles s s' :=
  ⟨h₂.inv, fun j hj => by
    have hkept := h₁.kept j hj
    rw [h₂.kept j (hkept ▸ hj), hkept]⟩

/-- A worker writes the last state of its job. -/
theorem Inv.ends (h : Inv s) (hjob : (s.workers i).job? = some j) (hnew : new.isUnclaimed = false) :
    Settles s ((s.write j new).goto i .done) := by
  have hworked := h.worked i j hjob
  have hdone := h.done i
  have hleft : ∀ k, ((s.goto i .done).workers k).job? ≠ some j := by
    intro k hk
    rw [System.workers_goto] at hk
    split at hk
    · cases hk
    · next hki => exact hki (h.single hk hjob)
  refine hdone.trans (hdone.inv.write (j := j) (not_terminal_of_worked hworked)
    (fun k hk => absurd hk (hleft k)) fun hun => ?_)
  rw [hnew] at hun
  cases hun

variable {seen : JobState}

theorem Inv.ends_store (h : Inv s) (hjob : (s.workers i).job? = some j) (hnew : new.isUnclaimed = false) :
    Settles s ((s.store j seen new).goto i .done) := by
  unfold System.store
  split
  · exact h.done i
  · exact h.ends hjob hnew

/-! ### The steps -/

theorem Inv.claim (h : Inv s) (hplace : s.workers i = .idle) (hstate : s.state j = .reserved) :
    Settles s { (s.write j .running).goto i (.claimed j) with
      claimants := Function.update s.claimants j (s.claimants j ++ [i]) } := by
  have hnone : s.claimants j = [] := h.unclaimed j (by rw [hstate]; rfl)
  have hrunners : s.runners j = [] := by
    rcases h.runner j with hr | hr
    · exact hr
    · rw [hr, hnone]
  have hnobody : ∀ k, (s.workers k).job? ≠ some j := by
    intro k hk
    have hworked := h.worked k j hk
    rw [hstate] at hworked
    cases hworked
  have hplaces : ∀ k l, (Function.update s.workers i (.claimed j) k).job? = some l →
      (k = i ∧ l = j) ∨ (l ≠ j ∧ (s.workers k).job? = some l) := by
    intro k l hk
    by_cases hki : k = i
    · subst hki
      rw [Function.update_self] at hk
      exact .inl ⟨rfl, (Option.some.inj hk).symm⟩
    · rw [Function.update_of_ne hki] at hk
      exact .inr ⟨fun hl => hnobody k (hl ▸ hk), hk⟩
  refine ⟨⟨fun k l hk => ?_, fun k l hk => ?_, fun l hl => ?_, fun l => ?_, fun l => ?_, fun k l hk => ?_,
    fun l hl => ?_, fun k => ?_, h.asked⟩, fun l hl => ?_⟩
  · obtain ⟨-, rfl⟩ | ⟨hl, hk⟩ := hplaces k l hk
    · simp [System.goto, System.write, isWorked]
    · simpa [System.goto, System.write, Function.update_of_ne hl] using h.worked k l hk
  · obtain ⟨rfl, rfl⟩ | ⟨hl, hk⟩ := hplaces k l hk
    · simp [hnone]
    · simpa [Function.update_of_ne hl] using h.claimant k l hk
  · by_cases hlj : l = j
    · subst hlj
      simp [System.goto, System.write, isUnclaimed] at hl
    · simp only [System.goto, System.write, Function.update_of_ne hlj] at hl ⊢
      exact h.unclaimed l hl
  · by_cases hlj : l = j
    · subst hlj
      exact .inl hrunners
    · simp only [Function.update_of_ne hlj]
      exact h.runner l
  · by_cases hlj : l = j
    · subst hlj
      simp [hnone]
    · simp only [Function.update_of_ne hlj]
      exact h.once l
  · have hjob := WorkerPlace.job?_of_fresh? hk
    obtain ⟨-, rfl⟩ | ⟨hl, hk'⟩ := hplaces k l hjob
    · exact hrunners
    · by_cases hki : k = i
      · subst hki
        rw [hplace] at hk'
        cases hk'
      · simp only [System.goto, Function.update_of_ne hki] at hk
        exact h.fresh k l hk
  · by_cases hlj : l = j
    · subst hlj
      simp
    · simp only [Function.update_of_ne hlj]
      exact h.executed l hl
  · simp only [System.goto, Function.update_apply]
    split
    · trivial
    · exact h.saw k
  · have hlj : l ≠ j := by
      rintro rfl
      rw [hstate] at hl
      cases hl
    exact Function.update_of_ne hlj _ _

theorem Inv.begins (h : Inv s) (hplace : s.workers i = .loaded j seen) :
    Settles s { (s.store j seen .running).goto i (.looping j .running 0 0 0) with
      runners := Function.update s.runners j (s.runners j ++ [i]) } := by
  have hseen : seen = .running := by
    have hsaw := h.saw i
    rwa [hplace] at hsaw
  have hstore : s.store j seen .running = s := if_pos hseen.symm
  have hjob : (s.workers i).job? = some j := by rw [hplace]; rfl
  have hrunners : s.runners j = [] := h.fresh i j (by rw [hplace]; rfl)
  have hclaimant := h.claimant i j hjob
  rw [hstore]
  obtain ⟨hinv, hkept⟩ : Settles s (s.goto i (.looping j .running 0 0 0)) :=
    h.goto (fun k hk => by cases hk; exact hjob) nofun rfl
  refine ⟨⟨hinv.worked, hinv.claimant, hinv.unclaimed, fun l => ?_, hinv.once, fun k l hk => ?_,
    hinv.executed, hinv.saw, hinv.asked⟩, hkept⟩
  · by_cases hlj : l = j
    · subst hlj
      right
      simp only [Function.update_self]
      rw [hrunners]
      exact hclaimant.symm
    · simp only [Function.update_of_ne hlj]
      exact h.runner l
  · have hlj : l ≠ j := by
      rintro rfl
      have hki : k = i := by
        have hk' := hinv.claimant k l (WorkerPlace.job?_of_fresh? hk)
        rw [show (s.goto i _).claimants l = [i] from hclaimant] at hk'
        simpa using hk'.symm
      subst hki
      simp [System.goto, WorkerPlace.fresh?] at hk
    simp only [Function.update_of_ne hlj]
    exact hinv.fresh k l hk

theorem Inv.looks (h : Inv s) {index success failure : ℕ}
    (hplace : s.workers i = .looping j seen index success failure) (hstate : s.state j = .running) :
    Settles s { s.goto i (.executing j (s.state j) index success failure) with
      executed := Function.update s.executed j true } := by
  have hjob : (s.workers i).job? = some j := by rw [hplace]; rfl
  have hclaimant := h.claimant i j hjob
  obtain ⟨hinv, hkept⟩ : Settles s (s.goto i (.executing j (s.state j) index success failure)) :=
    h.goto (fun k hk => by cases hk; exact hjob) nofun hstate
  refine ⟨⟨hinv.worked, hinv.claimant, hinv.unclaimed, hinv.runner, hinv.once, hinv.fresh, fun l hl => ?_,
    hinv.saw, hinv.asked⟩, hkept⟩
  by_cases hlj : l = j
  · subst hlj
    rw [show (s.goto i _).claimants l = [i] from hclaimant]
    exact List.cons_ne_nil _ _
  · simp only [Function.update_of_ne hlj] at hl
    exact h.executed l hl

/-- A worker that looks at a job that is not to be stopped sees it run. -/
theorem Inv.sees (h : Inv s) (hjob : (s.workers i).job? = some j) :
    ((s.state j).isStop = true → s.state j = .stopping) ∧
      ((s.state j).isStop ≠ true → s.state j = .running) := by
  have hworked := h.worked i j hjob
  cases hstate : s.state j <;> rw [hstate] at hworked <;> first | decide | cases hworked

theorem step_worker {a : Action} (h : Inv s) (hs : step job settings s a = some s') (ha : match a with
      | .deliver _ _ | .missProfile _ | .load _ | .leave _ | .beginTables _ | .look _ | .tableSucceeds _
      | .tableRaises _ | .tail _ | .finish _ | .raise _ | .loseWorker _ => True
      | _ => False) : Settles s s' := by
  cases a with
  | deliver i j =>
      simp only [step, deliver] at hs
      split at hs
      · next hidle =>
          split at hs
          · next hstate =>
              cases hs
              exact h.claim hidle.1 hstate
          · cases hs
            exact h.done i
      · cases hs
  | missProfile i =>
      simp only [step, missProfile] at hs
      split at hs
      · next j hplace =>
          cases hs
          exact h.ends (by rw [hplace]; rfl) rfl
      · cases hs
  | load i =>
      simp only [step, load] at hs
      split at hs
      · next j hplace =>
          have hjob : (s.workers i).job? = some j := by rw [hplace]; rfl
          have hfresh : s.runners j = [] := h.fresh i j (by rw [hplace]; rfl)
          obtain ⟨hstop, hrun⟩ := h.sees hjob
          split at hs
          · cases hs
            exact h.done i
          · split at hs
            · next hseen =>
                cases hs
                exact h.goto (fun k hk => by cases hk; exact hjob) nofun (hstop hseen)
            · next hseen =>
                cases hs
                exact h.goto (fun k hk => by cases hk; exact hjob) (fun k hk => by cases hk; exact hfresh)
                  (hrun hseen)
      · cases hs
  | leave i =>
      simp only [step, leave] at hs
      split at hs
      · next j seen hplace =>
          cases hs
          exact h.ends_store (by rw [hplace]; rfl) rfl
      · cases hs
  | beginTables i =>
      simp only [step, beginTables] at hs
      split at hs
      · next j seen hplace =>
          cases hs
          exact h.begins hplace
      · cases hs
  | look i =>
      simp only [step, look] at hs
      split at hs
      · next j seen index success failure hplace =>
          have hjob : (s.workers i).job? = some j := by rw [hplace]; rfl
          obtain ⟨hstop, hrun⟩ := h.sees hjob
          split at hs
          · split at hs
            · next hseen =>
                cases hs
                exact h.goto (fun k hk => by cases hk; exact hjob) nofun (hstop hseen)
            · next hseen =>
                cases hs
                exact h.looks hplace (hrun hseen)
          · cases hs
      · cases hs
  | tableSucceeds i =>
      simp only [step, tableSucceeds] at hs
      split at hs
      · next j seen index success failure hplace =>
          have hsaw := h.saw i
          rw [hplace] at hsaw
          cases hs
          exact h.goto (fun k hk => by cases hk; rw [hplace]; rfl) nofun hsaw
      · cases hs
  | tableRaises i =>
      simp only [step, tableRaises] at hs
      split at hs
      · next j seen index success failure hplace =>
          have hjob : (s.workers i).job? = some j := by rw [hplace]; rfl
          obtain ⟨hstop, hrun⟩ := h.sees hjob
          split at hs
          · next hseen =>
              cases hs
              exact h.goto (fun k hk => by cases hk; exact hjob) nofun (hstop hseen)
          · next hseen =>
              cases hs
              exact h.goto (fun k hk => by cases hk; exact hjob) nofun (hrun hseen)
      · cases hs
  | tail i =>
      simp only [step, tail] at hs
      split at hs
      · next j seen hplace =>
          have hsaw : seen = .stopping := by
            have hsaw := h.saw i
            rwa [hplace] at hsaw
          subst hsaw
          cases hs
          exact h.ends_store (by rw [hplace]; rfl) rfl
      · cases hs
  | finish i =>
      simp only [step, finish] at hs
      split at hs
      · next j seen index success failure hplace =>
          have houtcome : (outcome success failure).isUnclaimed = false := by
            unfold outcome
            split
            · rfl
            · split <;> rfl
          split at hs
          · cases hs
          · cases hs
            exact h.ends_store (by rw [hplace]; rfl) houtcome
      · cases hs
  | raise i =>
      simp only [step, raiseError] at hs
      split at hs
      case h_6 => cases hs
      all_goals
        next hplace =>
          cases hs
          exact h.ends_store (by rw [hplace]; rfl) rfl
  | loseWorker i =>
      cases hs
      exact h.done i
  | _ => cases ha

/-- A job that nobody has claimed gets a state of that kind. -/
theorem Inv.waits (h : Inv s) (hbefore : (s.state j).isUnclaimed = true) (hnot : (s.state j).isTerminal = false) :
    Settles s (s.write j new) := by
  refine h.write hnot (fun k hk => ?_) fun _ => h.unclaimed j hbefore
  have hclaimant := h.claimant k j hk
  rw [h.unclaimed j hbefore] at hclaimant
  cases hclaimant

/-- Reserved jobs are queued again. -/
theorem Inv.requeue (h : Inv s) {js : List ℕ} (hreserved : ∀ j ∈ js, s.state j = .reserved) :
    Settles s (s.writeAll js .queued) := by
  refine h.restate (fun i j hj => ?_) (fun j hj => ?_) fun j hj => ?_
  · have hworked := h.worked i j hj
    split
    · next hmem =>
        rw [hreserved j hmem] at hworked
        cases hworked
    · exact hworked
  · split at hj
    · next hmem => exact h.unclaimed j (by rw [hreserved j hmem]; rfl)
    · exact h.unclaimed j hj
  · refine if_neg fun hmem => ?_
    rw [hreserved j hmem] at hj
    cases hj

/-- Interrupted jobs without a worker are failed. -/
theorem Inv.interrupt (h : Inv s) {js : List ℕ}
    (hjs : ∀ j ∈ js, (s.state j = .running ∨ s.state j = .stopping) ∧ ∀ i, (s.workers i).job? ≠ some j) :
    Settles s (s.writeAll js .failed) := by
  refine h.restate (fun i j hj => ?_) (fun j hj => ?_) fun j hj => ?_
  · rw [if_neg fun hmem => (hjs j hmem).2 i hj]
    exact h.worked i j hj
  · split at hj
    · cases hj
    · exact h.unclaimed j hj
  · refine if_neg fun hmem => ?_
    rcases (hjs j hmem).1 with hstate | hstate <;> rw [hstate] at hj <;> cases hj

theorem Inv.stops (h : Inv s) (c : ℕ) (hasked : s.stops c = some (j, seen)) (hstate : s.state j = seen) :
    Settles s (s.store j seen (stopped seen)) := by
  have hnot : seen.isTerminal = false := h.asked c j seen hasked
  have hself : Settles s s := h.others rfl rfl rfl rfl rfl h.asked
  cases seen with
  | queued | reserved => exact h.waits (by rw [hstate]; rfl) (by rw [hstate]; rfl)
  | running => exact h.write (by rw [hstate]; rfl) (fun _ _ => rfl) nofun
  | stopping => exact hself
  | _ => cases hnot

theorem step_settles {a : Action} (h : Inv s) (hok : Heeds s a) (hs : step job settings s a = some s') :
    Settles s s' := by
  cases a with
  | prepare | loseDispatcher | openRecovery r =>
      cases hs
      exact h.others rfl rfl rfl rfl rfl h.asked
  | openPass stale =>
      simp only [step, openPass] at hs
      split at hs
      · cases hs
        exact h.others rfl rfl rfl rfl rfl h.asked
      · cases hs
  | resetStale =>
      simp only [step, resetStale] at hs
      split at hs
      · next stale pass hplace =>
          simp only [Heeds, hplace] at hok
          cases hs
          have hrequeued := h.requeue hok
          exact hrequeued.trans (hrequeued.inv.others rfl rfl rfl rfl rfl h.asked)
      · cases hs
  | consider now =>
      simp only [step, consider] at hs
      split at hs
      · next active available j rest oldest verdicts hplace =>
          split at hs
          · cases hs
          · split at hs
            · cases hs
              exact h.others rfl rfl rfl rfl rfl h.asked
            · split at hs
              · cases hs
                exact h.others rfl rfl rfl rfl rfl h.asked
              · split at hs
                · next hstate =>
                    cases hs
                    have hreserved : Settles s (s.write j .reserved) :=
                      h.waits (by rw [hstate]; rfl) (by rw [hstate]; rfl)
                    exact hreserved.trans (hreserved.inv.others rfl rfl rfl rfl rfl h.asked)
                · cases hs
                  exact h.others rfl rfl rfl rfl rfl h.asked
      · cases hs
  | reach =>
      simp only [step, reach] at hs
      split at hs
      · cases hs
        exact h.others rfl rfl rfl rfl rfl h.asked
      · cases hs
  | sendReturns =>
      simp only [step, sendReturns] at hs
      split at hs
      · split at hs
        · cases hs
          exact h.others rfl rfl rfl rfl rfl h.asked
        · cases hs
      · cases hs
  | sendRaises =>
      simp only [step, sendRaises] at hs
      split at hs
      · next j pass hplace =>
          simp only [Heeds, hplace] at hok
          cases hs
          have hqueued : Settles s (s.write j .queued) :=
            h.waits (by rw [hok]; rfl) (by rw [hok]; rfl)
          exact hqueued.trans (hqueued.inv.others rfl rfl rfl rfl rfl h.asked)
      · cases hs
  | closePass =>
      simp only [step, closePass] at hs
      split at hs
      · split at hs
        · cases hs
          exact h.others rfl rfl rfl rfl rfl h.asked
        · cases hs
      · cases hs
  | openStop c j =>
      simp only [step, openStop] at hs
      split at hs
      · next hnot =>
          cases hs
          refine h.others rfl rfl rfl rfl rfl fun d k seen hasked => ?_
          by_cases hd : d = c
          · subst hd
            simp only [Function.update_self, Option.some.injEq, Prod.mk.injEq] at hasked
            rw [← hasked.2]
            exact hnot.2
          · simp only [Function.update_of_ne hd] at hasked
            exact h.asked d k seen hasked
      · cases hs
  | commitStop c =>
      simp only [step, commitStop] at hs
      split at hs
      · next j seen hasked =>
          simp only [Heeds, hasked] at hok
          cases hs
          have hstopped := h.stops c hasked hok
          refine hstopped.trans (hstopped.inv.others rfl rfl rfl rfl rfl fun d k x hx => ?_)
          by_cases hd : d = c
          · subst hd
            simp at hx
          · simp only [Function.update_of_ne hd] at hx
            exact h.asked d k x hx
      · cases hs
  | commitRecovery r =>
      simp only [step, commitRecovery] at hs
      split at hs
      · next requeued interrupted hread =>
          simp only [Heeds, hread] at hok
          cases hs
          have hrequeued := h.requeue hok.1
          have hinterrupted : Settles _ ((s.writeAll requeued .queued).writeAll interrupted .failed) :=
            hrequeued.inv.interrupt fun j hj => by
              have hnot : j ∉ requeued := fun hmem => by
                rcases (hok.2 j hj).1 with hstate | hstate <;> rw [hok.1 j hmem] at hstate <;> cases hstate
              simpa [System.writeAll, hnot] using hok.2 j hj
          exact (hrequeued.trans hinterrupted).trans
            (hinterrupted.inv.others rfl rfl rfl rfl rfl h.asked)
      · cases hs
  | _ => exact step_worker h hs trivial

/-! ### Runs -/

theorem run_settles {as : List Action} (hrun : Run (step job settings) Heeds s as s') (h : Inv s) :
    Settles s s' :=
  hrun.invariant (I := fun s' => Settles s s') (h.others rfl rfl rfl rfl rfl h.asked)
    fun _ _ _ hok hs hsettles => hsettles.trans (step_settles hsettles.inv hok hs)

/-- In every run whose writes find the states they were decided on a terminal state never changes again,
a cancelled job has no table executed, and no two workers begin the tables of a job. -/
theorem heeded_settled {as : List Action} (hrun : Run (step job settings) Heeds {} as s) :
    (∀ more s', Run (step job settings) Heeds s more s' →
      ∀ j, (s.state j).isTerminal = true → s'.state j = s.state j) ∧
    (∀ j, s.state j = .cancelled → s.executed j = false) ∧
    ∀ j, ∀ i ∈ s.runners j, ∀ k ∈ s.runners j, i = k := by
  have h := (run_settles hrun initial_inv).inv
  refine ⟨fun more s' hmore => (run_settles hmore h).kept, fun j hj => ?_, fun j i hi k hk => ?_⟩
  · by_contra hexecuted
    exact h.executed j (by simpa using hexecuted) (h.unclaimed j (by rw [hj]; rfl))
  · rcases h.runner j with hr | hr
    · rw [hr] at hi
      cases hi
    · have honce := h.once j
      rw [← hr] at honce
      match hrunners : s.runners j, honce with
      | [], _ =>
          rw [hrunners] at hi
          cases hi
      | [l], _ =>
          rw [hrunners, List.mem_singleton] at hi hk
          rw [hi, hk]

/-- A job is dispatched and stopped in its table. -/
theorem heeded_settled_stopped : ∃ s, Run (step oneTable oneWorker) Heeds {}
    [.prepare, .openPass [], .resetStale, .consider 0, .reach, .sendReturns, .closePass, .deliver 0 0,
      .load 0, .beginTables 0, .look 0, .openStop 0 0, .commitStop 0, .tableRaises 0, .leave 0] s ∧
    s.state 0 = .stopped ∧ s.executed 0 = true ∧ ∀ more s',
      Run (step oneTable oneWorker) Heeds s more s' → s'.state 0 = .stopped := by
  have hrun : Run (step oneTable oneWorker) Heeds {}
      [.prepare, .openPass [], .resetStale, .consider 0, .reach, .sendReturns, .closePass, .deliver 0 0,
        .load 0, .beginTables 0, .look 0, .openStop 0 0, .commitStop 0, .tableRaises 0, .leave 0] _ :=
    .step trivial rfl (.step trivial rfl (.step nofun rfl (.step trivial rfl (.step trivial rfl
      (.step trivial rfl (.step trivial rfl (.step trivial rfl (.step trivial rfl (.step trivial rfl
      (.step trivial rfl (.step trivial rfl (.step rfl rfl (.step trivial rfl (.step trivial rfl
      (.refl _)))))))))))))))
  exact ⟨_, hrun, rfl, rfl, fun more s' hmore => (heeded_settled hrun).1 more s' hmore 0 rfl⟩

/-- A stop request that has read the job running writes `stopping` over its success; one that has read it
reserved cancels it behind its table; a reservation that is reset behind its claim has two workers run
the tables. -/
theorem unheeded_unsettled : (∃ m s, Run (step oneTable oneWorker) Free {}
        [.prepare, .openPass [], .resetStale, .consider 0, .reach, .sendReturns, .closePass, .deliver 0 0,
          .load 0, .beginTables 0, .look 0, .openStop 0 0, .tableSucceeds 0, .finish 0] m ∧
      Run (step oneTable oneWorker) Free m [.commitStop 0] s ∧
      m.state 0 = .succeeded ∧ s.state 0 = .stopping) ∧
    (∃ s, Run (step oneTable oneWorker) Free {}
        [.prepare, .openPass [], .resetStale, .consider 0, .reach, .sendReturns, .openStop 0 0,
          .deliver 0 0, .load 0, .beginTables 0, .look 0, .commitStop 0] s ∧
      s.state 0 = .cancelled ∧ s.executed 0 = true) ∧
    ∃ s, Run (step oneTable oneWorker) Free {}
        [.prepare, .openPass [], .resetStale, .consider 0, .reach, .sendReturns, .closePass, .openPass [0],
          .deliver 0 0, .resetStale, .consider 0, .reach, .sendReturns, .deliver 1 0, .load 0,
          .beginTables 0, .look 0, .tableSucceeds 0, .finish 0, .load 1, .beginTables 1] s ∧
      s.runners 0 = [0, 1] :=
  ⟨exists_run_run (by decide +kernel), exists_run (by decide +kernel), exists_run (by decide +kernel)⟩

end RecoveryService.Sm4Batch
