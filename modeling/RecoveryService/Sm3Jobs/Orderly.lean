import RecoveryService.Sm3Jobs.Jobs

/-! # Orderly runs of SM3 jobs

A request or a worker writes in order where it finds the job in the state it has read.  `Orderly` asks for
that, and for what the code does not look at: a worker starts no job that has ended or that another worker
has started, a job is inserted while no job of its table is active, and a worker dies only where a message
for its job is left.  Then a table has one active job at most, the terminal states stay, and a job
that runs or is to be cancelled has a worker or a message. -/

namespace RecoveryService.Sm3Jobs

open Runs JobState

variable {K : Type}

/-! ### The condition -/

/-- The job of the worker is in the state it has read, and has not succeeded or failed. -/
def MayBegin (s : System K) (j : ℕ) (seen : JobState) : Prop :=
  s.state j = seen ∧ seen ≠ .succeeded ∧ seen ≠ .failed

def Alone (s : System K) (i j : ℕ) : Prop := ∀ k, k ≠ i → (s.workers k).started? ≠ some j

def Orderly (s : System K) : Action K → Prop
  | .insertJob c => ∀ table, s.creators c = .checked table → ∀ j, ¬ s.Active table j
  | .refuse i => ∀ j seen flag, s.workers i = .read j seen flag → MayBegin s j seen
  | .missProfile i | .startJob i => ∀ j seen flag, s.workers i = .read j seen flag →
      MayBegin s j seen ∧ Alone s i j
  | .finishJob i _ => ∀ j seen, (s.workers i = .executing j seen ∨ s.workers i = .failing j seen ∨
      s.workers i = .ending j seen) → s.state j = seen ∨ s.state j = .cancelling
  | .loseWorker i requeued => ∀ j, (s.workers i).job? = some j → requeued = true ∨ 0 < s.messages j
  | .commitCancel c => ∀ j seen, s.cancels c = some (j, seen) → s.state j = seen
  | _ => True

/-! ### The invariant -/

/-- The states of a job that a worker has started. -/
def JobState.isOngoing : JobState → Bool
  | running | cancelling | cancelled => true
  | queued | succeeded | failed => false

/-- The states of a job that a cancel request was made for while it was not over. -/
def JobState.isCancel : JobState → Bool
  | cancelling | cancelled => true
  | queued | running | succeeded | failed => false

/-- The states that someone has to bring to an end. -/
def JobState.isOpen : JobState → Bool
  | running | cancelling => true
  | queued | succeeded | failed | cancelled => false

def WorkerOk (count : ℕ) (state : ℕ → JobState) (cancelRequested : ℕ → Bool) : WorkerPlace → Prop
  | .idle | .done => True
  | .read j seen false => j < count ∧ seen.isCancel = false
  | .read j seen true => j < count ∧ cancelRequested j = true ∧ seen ≠ .queued ∧ seen ≠ .running
  | .executing j seen | .failing j seen => j < count ∧ seen = .running ∧ (state j).isOngoing = true
  | .ending j seen => j < count ∧ cancelRequested j = true ∧ (state j).isCancel = true ∧
      (seen = .cancelled → state j = .cancelled)

structure Inv (s : System K) : Prop where
  worker : ∀ i, WorkerOk s.count s.state s.cancelRequested (s.workers i)
  flagged : ∀ j < s.count, (s.state j).isCancel = true → s.cancelRequested j = true
  unflagged : ∀ j < s.count, s.cancelRequested j = true → s.state j ≠ .queued ∧ s.state j ≠ .running
  single : ∀ i k j, (s.workers i).started? = some j → (s.workers k).started? = some j → i = k
  tracked : ∀ j < s.count, (s.state j).isOpen = true →
    (∃ i, (s.workers i).job? = some j) ∨ 0 < s.messages j
  unique : ∀ table i j, s.Active table i → s.Active table j → i = j
  cancels : ∀ c j seen, s.cancels c = some (j, seen) → j < s.count ∧ seen.isTerminal = false

theorem initial_inv : Inv ({} : System K) :=
  ⟨fun _ => trivial, fun _ h => absurd h (Nat.not_lt_zero _), fun _ h => absurd h (Nat.not_lt_zero _),
    nofun, fun _ h => absurd h (Nat.not_lt_zero _), fun _ _ _ h => absurd h.1 (Nat.not_lt_zero _), nofun⟩

/-- What an orderly step does. -/
structure Goes (s s' : System K) : Prop where
  inv : Inv s'
  count : s.count ≤ s'.count
  kept : ∀ j < s.count, (s.state j).isTerminal = true → s'.state j = s.state j

theorem Goes.refl {s : System K} (h : Inv s) : Goes s s := ⟨h, le_rfl, fun _ _ _ => rfl⟩

theorem Goes.trans {s s₁ s₂ : System K} (h₁ : Goes s s₁) (h₂ : Goes s₁ s₂) : Goes s s₂ := by
  refine ⟨h₂.inv, h₁.count.trans h₂.count, fun j hj hterminal => ?_⟩
  have hsame := h₁.kept j hj hterminal
  rw [h₂.kept j (hj.trans_le h₁.count) (by rw [hsame]; exact hterminal), hsame]

variable {s s' : System K} {i j : ℕ} {seen : JobState}

/-! ### The shapes of the steps -/

variable {place : WorkerPlace}

/-- A worker goes on; its job is not lost. -/
theorem Inv.goto (h : Inv s) {messages : ℕ → ℕ} (hok : WorkerOk s.count s.state s.cancelRequested place)
    (hstarted : ∀ j, place.started? = some j → Alone s i j)
    (htracked : ∀ j < s.count, (s.state j).isOpen = true → (s.workers i).job? = some j ∨ 0 < s.messages j →
      place.job? = some j ∨ 0 < messages j) : Goes s { s.goto i place with messages := messages } := by
  refine ⟨⟨fun k => ?_, h.flagged, h.unflagged, fun k l j hk hl => ?_, fun j hj hopen => ?_, h.unique,
    h.cancels⟩, le_rfl, fun _ _ _ => rfl⟩
  · simp only [System.goto, Function.update_apply]
    split
    · exact hok
    · exact h.worker k
  · simp only [System.goto, Function.update_apply] at hk hl
    by_cases hki : k = i <;> by_cases hli : l = i
    · rw [hki, hli]
    · rw [if_pos hki] at hk
      rw [if_neg hli] at hl
      exact (hstarted j hk l hli hl).elim
    · rw [if_neg hki] at hk
      rw [if_pos hli] at hl
      exact (hstarted j hl k hki hk).elim
    · rw [if_neg hki] at hk
      rw [if_neg hli] at hl
      exact h.single k l j hk hl
  · have hmine : (s.workers i).job? = some j ∨ 0 < s.messages j →
        (∃ k, (Function.update s.workers i place k).job? = some j) ∨ 0 < messages j := by
      intro hbefore
      refine (htracked j hj hopen hbefore).imp_left fun hplace => ⟨i, ?_⟩
      rw [Function.update_self]
      exact hplace
    rcases h.tracked j hj hopen with ⟨k, hk⟩ | hmessage
    · by_cases hki : k = i
      · exact hmine (.inl (hki ▸ hk))
      · exact .inl ⟨k, by
          simp only [System.goto, Function.update_of_ne hki]
          exact hk⟩
    · exact hmine (.inr hmessage)

variable {state : ℕ → JobState} {flag : ℕ → Bool}
variable {count : ℕ}

/-- A worker on another job does not mind. -/
theorem workerOk_update (h : WorkerOk count state flag place) (hstarted : place.started? ≠ some j)
    (new : JobState) : WorkerOk count (Function.update state j new) flag place := by
  have hother : ∀ l, l ≠ j → Function.update state j new l = state l :=
    fun l hl => Function.update_of_ne hl _ _
  cases place with
  | idle | done => exact trivial
  | read l seen requested => cases requested <;> exact h
  | executing l seen | failing l seen =>
      have hne : l ≠ j := fun he => hstarted (congrArg some he)
      exact ⟨h.1, h.2.1, (congrArg isOngoing (hother l hne)).trans h.2.2⟩
  | ending l seen =>
      have hne : l ≠ j := fun he => hstarted (congrArg some he)
      exact ⟨h.1, h.2.1, (congrArg isCancel (hother l hne)).trans h.2.2.1,
        fun hseen => (hother l hne).trans (h.2.2.2 hseen)⟩

variable {new : JobState}

/-- The new state of a job, where a terminal one stays. -/
theorem active_of_update (hnew : (state j).isTerminal = true → new = state j) {k : ℕ}
    (hk : (Function.update state j new k).isRunning = true) : (state k).isRunning = true := by
  by_cases hkj : k = j
  · rw [hkj, Function.update_self] at hk
    rw [hkj]
    by_contra hnot
    have hterminal : (state j).isTerminal = true := by
      cases hstate : state j <;> rw [hstate] at hnot <;> first | rfl | exact (hnot rfl).elim
    rw [hnew hterminal] at hk
    exact hnot hk
  · rwa [Function.update_of_ne hkj] at hk

theorem kept_of_update (hnew : (state j).isTerminal = true → new = state j) (k : ℕ)
    (hk : (state k).isTerminal = true) : Function.update state j new k = state k := by
  by_cases hkj : k = j
  · rw [hkj, Function.update_self]
    exact hnew (hkj ▸ hk)
  · rw [Function.update_of_ne hkj]

/-- A worker writes the state of its job and goes on. -/
theorem Inv.writes (h : Inv s) (hjob : (s.workers i).job? = some j)
    (hnew : (s.state j).isTerminal = true → new = s.state j)
    (hplace : WorkerOk s.count (Function.update s.state j new) s.cancelRequested place)
    (hstarted : ∀ l, place.started? = some l → Alone s i l)
    (hothers : ∀ k, k ≠ i → (s.workers k).started? = some j →
      WorkerOk s.count (Function.update s.state j new) s.cancelRequested (s.workers k))
    (hcancel : new.isCancel = true → s.cancelRequested j = true)
    (hflag : s.cancelRequested j = true → new ≠ .queued ∧ new ≠ .running)
    (hopen : new.isOpen = true → place.job? = some j) :
    Goes s ({ s with state := Function.update s.state j new }.goto i place) := by
  refine ⟨⟨fun k => ?_, fun k hk hstate => ?_, fun k hk hset => ?_, fun k l x hk hl => ?_,
    fun k hk hstate => ?_, fun table k l hk hl => ?_, h.cancels⟩, le_rfl,
    fun k _ => kept_of_update hnew k⟩
  · simp only [System.goto, Function.update_apply s.workers]
    split
    · exact hplace
    · next hki =>
        by_cases hk : (s.workers k).started? = some j
        · exact hothers k hki hk
        · exact workerOk_update (h.worker k) hk new
  · simp only [System.goto, Function.update_apply] at hstate
    split at hstate
    · next hkj =>
        rw [hkj]
        exact hcancel hstate
    · exact h.flagged k hk hstate
  · simp only [System.goto, Function.update_apply]
    split
    · next hkj => exact hflag (hkj ▸ hset)
    · exact h.unflagged k hk hset
  · simp only [System.goto, Function.update_apply] at hk hl
    by_cases hki : k = i <;> by_cases hli : l = i
    · rw [hki, hli]
    · rw [if_pos hki] at hk
      rw [if_neg hli] at hl
      exact (hstarted x hk l hli hl).elim
    · rw [if_neg hki] at hk
      rw [if_pos hli] at hl
      exact (hstarted x hl k hki hk).elim
    · rw [if_neg hki] at hk
      rw [if_neg hli] at hl
      exact h.single k l x hk hl
  · by_cases hkj : k = j
    · rw [hkj] at hstate ⊢
      simp only [System.goto, Function.update_self] at hstate
      refine .inl ⟨i, ?_⟩
      simp only [System.goto, Function.update_self]
      exact hopen hstate
    · simp only [System.goto, Function.update_of_ne hkj] at hstate
      refine (h.tracked k hk hstate).imp_left ?_
      rintro ⟨l, hl⟩
      have hli : l ≠ i := by
        rintro rfl
        rw [hjob] at hl
        exact hkj (Option.some.inj hl).symm
      refine ⟨l, ?_⟩
      simp only [System.goto, Function.update_of_ne hli]
      exact hl
  · exact h.unique table k l ⟨hk.1, hk.2.1, active_of_update hnew hk.2.2⟩
      ⟨hl.1, hl.2.1, active_of_update hnew hl.2.2⟩

theorem System.store_eq (h : new = seen → s.state j = new) :
    s.store j seen new = { s with state := Function.update s.state j new } := by
  unfold System.store
  split
  · next hsame =>
      have hstate : Function.update s.state j new = s.state := by
        rw [← h hsame, Function.update_eq_self]
      rw [hstate]
  · rfl

/-- A worker ends its job. -/
theorem Inv.ends (h : Inv s) (hjob : (s.workers i).job? = some j)
    (hnew : (s.state j).isTerminal = true → new = s.state j) (hterminal : new.isTerminal = true)
    (hothers : ∀ k, k ≠ i → (s.workers k).started? = some j →
      WorkerOk s.count (Function.update s.state j new) s.cancelRequested (s.workers k))
    (hcancel : new.isCancel = true → s.cancelRequested j = true) :
    Goes s ({ s with state := Function.update s.state j new }.goto i .done) := by
  refine h.writes hjob hnew trivial nofun hothers hcancel (fun _ => ?_) fun hopen => ?_
  · cases new with
    | succeeded | failed | cancelled => exact ⟨nofun, nofun⟩
    | queued | running | cancelling => cases hterminal
  · cases new with
    | succeeded | failed | cancelled | queued => cases hopen
    | running | cancelling => cases hterminal

/-! ### The steps -/

theorem started_job (h : place.started? = some j) : place.job? = some j := by
  cases place with
  | idle | read j seen flag | done => cases h
  | executing j seen | ending j seen | failing j seen => exact h

/-- A worker that has started its job is the only one. -/
theorem Inv.alone (h : Inv s) (hi : (s.workers i).started? = some j) : Alone s i j :=
  fun k hk hother => hk (h.single k i j hother hi)

theorem cancelSeen_false (h : ¬ cancelSeen s j = true) :
    s.cancelRequested j = false ∧ s.state j ≠ .cancelling := by
  unfold cancelSeen at h
  simpa using h

/-- What a refresh of a started job shows. -/
theorem Inv.refreshed (h : Inv s) (hj : j < s.count) (hongoing : (s.state j).isOngoing = true) :
    (cancelSeen s j = true → s.cancelRequested j = true ∧ (s.state j).isCancel = true) ∧
      (¬ cancelSeen s j = true → s.state j = .running) := by
  constructor
  · intro hseen
    have hflag : s.cancelRequested j = true := by
      unfold cancelSeen at hseen
      rw [Bool.or_eq_true, decide_eq_true_eq] at hseen
      exact hseen.elim id fun hstate => h.flagged j hj (by rw [hstate]; rfl)
    have hnot := h.unflagged j hj hflag
    cases hstate : s.state j with
    | cancelling | cancelled => exact ⟨hflag, rfl⟩
    | running => exact (hnot.2 hstate).elim
    | queued | succeeded | failed => rw [hstate] at hongoing; cases hongoing
  · intro hseen
    obtain ⟨hflag, -⟩ := cancelSeen_false hseen
    by_contra hrunning
    have hcancel : (s.state j).isCancel = true := by
      cases hstate : s.state j with
      | cancelling | cancelled => rfl
      | running => exact (hrunning hstate).elim
      | queued | succeeded | failed => rw [hstate] at hongoing; cases hongoing
    exact Bool.noConfusion (hflag.symm.trans (h.flagged j hj hcancel))

/-- A worker that executes its job goes on with it. -/
theorem Inv.continues (h : Inv s) (hplace : s.workers i = .executing j seen) (hjob : place.started? = some j)
    (hok : WorkerOk s.count s.state s.cancelRequested place) : Goes s (s.goto i place) := by
  refine h.goto hok (fun k hk => ?_) fun k _ _ hk => ?_
  · rw [hjob, Option.some.injEq] at hk
    subst hk
    exact h.alone (by rw [hplace]; rfl)
  · rw [hplace] at hk
    rw [started_job hjob]
    exact hk

theorem Inv.checkCancel (h : Inv s) (hs : checkCancel s i = some s') : Goes s s' := by
  have hok := h.worker i
  unfold Sm3Jobs.checkCancel at hs
  split at hs
  · next j seen hplace =>
      rw [hplace] at hok
      obtain ⟨hj, -, hongoing⟩ := hok
      obtain ⟨hcancel, hrunning⟩ := h.refreshed hj hongoing
      split at hs
      · next hseen =>
          cases hs
          exact h.continues hplace rfl ⟨hj, (hcancel hseen).1, (hcancel hseen).2, id⟩
      · next hseen =>
          cases hs
          exact h.continues hplace rfl ⟨hj, hrunning hseen, hongoing⟩
  · cases hs

theorem Inv.raises (h : Inv s) (hs : raises s i = some s') : Goes s s' := by
  have hok := h.worker i
  unfold Sm3Jobs.raises at hs
  split at hs
  · next j seen hplace =>
      rw [hplace] at hok
      obtain ⟨hj, -, hongoing⟩ := hok
      obtain ⟨hcancel, hrunning⟩ := h.refreshed hj hongoing
      split at hs
      · next hseen =>
          cases hs
          exact h.continues hplace rfl ⟨hj, (hcancel hseen).1, (hcancel hseen).2, id⟩
      · next hseen =>
          cases hs
          exact h.continues hplace rfl ⟨hj, hrunning hseen, hongoing⟩
  · cases hs

variable {x : JobState}

theorem cancelled_of_terminal (hterminal : x.isTerminal = true) (hcancel : x.isCancel = true) : x = .cancelled := by
  cases x with
  | cancelled => rfl
  | queued | running | cancelling => cases hterminal
  | succeeded | failed => cases hcancel

theorem Inv.finishJob (h : Inv s) {succeeds : Bool} (hok : Orderly s (.finishJob i succeeds))
    (hs : finishJob s i succeeds = some s') : Goes s s' := by
  have hplace := h.worker i
  -- a job that is running or to be cancelled has no other worker
  have hstop : ∀ j new, (s.workers i).started? = some j → new.isTerminal = true →
      ((s.state j).isTerminal = true → new = s.state j) →
      (new.isCancel = true → s.cancelRequested j = true) →
      Goes s ({ s with state := Function.update s.state j new }.goto i .done) :=
    fun j new hstarted hterminal hnew hcancel => h.ends (started_job hstarted) hnew hterminal
      (fun k hk hother => (h.alone hstarted k hk hother).elim) hcancel
  have hrunning : ∀ j, s.state j = .running ∨ s.state j = .cancelling → (s.state j).isTerminal = false := by
    rintro j (hstate | hstate) <;> rw [hstate] <;> rfl
  unfold Sm3Jobs.finishJob at hs
  split at hs
  · next j seen heq =>
      split at hs
      · cases hs
        rw [heq] at hplace
        obtain ⟨-, rfl, -⟩ := hplace
        have hopen := hrunning j (hok j _ (.inl heq))
        have hstored : s.store j .running .succeeded = _ :=
          System.store_eq fun hsame => JobState.noConfusion hsame
        rw [hstored]
        exact hstop j .succeeded (by rw [heq]; rfl) rfl
          (fun hterminal => Bool.noConfusion (hopen.symm.trans hterminal)) nofun
      · cases hs
  · next j seen heq =>
      split at hs
      · cases hs
      · cases hs
        rw [heq] at hplace
        obtain ⟨-, rfl, -⟩ := hplace
        have hopen := hrunning j (hok j _ (.inr (.inl heq)))
        have hstored : s.store j .running .failed = _ :=
          System.store_eq fun hsame => JobState.noConfusion hsame
        rw [hstored]
        exact hstop j .failed (by rw [heq]; rfl) rfl
          (fun hterminal => Bool.noConfusion (hopen.symm.trans hterminal)) nofun
  · next j seen heq =>
      split at hs
      · cases hs
      · cases hs
        rw [heq] at hplace
        obtain ⟨-, hflag, hcancel, hcancelled⟩ := hplace
        rw [System.store_eq fun hsame => hcancelled hsame.symm]
        exact hstop j .cancelled (by rw [heq]; rfl) rfl
          (fun hterminal => (cancelled_of_terminal hterminal hcancel).symm) fun _ => hflag
  · cases hs

/-- A job that is begun is queued or running. -/
theorem begins_cases (hsucceeded : x ≠ .succeeded) (hfailed : x ≠ .failed) (hcancel : x.isCancel = false) :
    x = .queued ∨ x = .running := by
  cases x with
  | queued => exact .inl rfl
  | running => exact .inr rfl
  | succeeded => exact (hsucceeded rfl).elim
  | failed => exact (hfailed rfl).elim
  | cancelling | cancelled => cases hcancel

theorem Inv.refuse (h : Inv s) (hok : Orderly s (.refuse i)) (hs : refuse s i = some s') : Goes s s' := by
  have hplace := h.worker i
  unfold Sm3Jobs.refuse at hs
  split at hs
  · next j seen heq =>
      cases hs
      obtain ⟨hstate, hsucceeded, hfailed⟩ := hok j seen true heq
      rw [heq] at hplace
      obtain ⟨hj, hflag, hqueued, hrunning⟩ := hplace
      have hcancel : (s.state j).isCancel = true := by
        rw [hstate]
        by_contra hnot
        rcases begins_cases hsucceeded hfailed (Bool.eq_false_iff.mpr hnot) with hseen | hseen
        · exact hqueued hseen
        · exact hrunning hseen
      rw [System.store_eq fun hsame => hstate.trans hsame.symm]
      refine h.ends (by rw [heq]; rfl) (fun hterminal => (cancelled_of_terminal hterminal hcancel).symm)
        rfl (fun k hk hother => ?_) fun _ => hflag
      · -- the job is cancelled under a worker that executes it
        have hothers := h.worker k
        cases hk : s.workers k <;> rw [hk] at hother hothers <;> cases hother
        · exact ⟨hj, hothers.2.1, by rw [Function.update_self]; rfl⟩
        · exact ⟨hj, hflag, by rw [Function.update_self]; rfl, fun _ => Function.update_self ..⟩
        · exact ⟨hj, hothers.2.1, by rw [Function.update_self]; rfl⟩
  · cases hs

theorem Inv.missProfile (h : Inv s) (hok : Orderly s (.missProfile i)) (hs : missProfile s i = some s') :
    Goes s s' := by
  have hplace := h.worker i
  unfold Sm3Jobs.missProfile at hs
  split at hs
  · next j seen heq =>
      cases hs
      obtain ⟨⟨hstate, hsucceeded, hfailed⟩, halone⟩ := hok j seen false heq
      rw [heq] at hplace
      rw [System.store_eq fun hsame => (hfailed hsame.symm).elim]
      refine h.ends (by rw [heq]; rfl) (fun hterminal => ?_) rfl
        (fun k hk hother => (halone k hk hother).elim) nofun
      rw [hstate] at hterminal
      rcases begins_cases hsucceeded hfailed hplace.2 with rfl | rfl <;> cases hterminal
  · cases hs

theorem Inv.startJob (h : Inv s) (hok : Orderly s (.startJob i)) (hs : startJob s i = some s') : Goes s s' := by
  have hplace := h.worker i
  unfold Sm3Jobs.startJob at hs
  split at hs
  · next j seen heq =>
      cases hs
      obtain ⟨⟨hstate, hsucceeded, hfailed⟩, halone⟩ := hok j seen false heq
      rw [heq] at hplace
      have hbegins := begins_cases hsucceeded hfailed hplace.2
      rw [System.store_eq fun hsame => hstate.trans hsame.symm]
      refine h.writes (by rw [heq]; rfl) (fun hterminal => ?_)
        ⟨hplace.1, rfl, by rw [Function.update_self]; rfl⟩ (fun k hk => ?_)
        (fun k hk hother => (halone k hk hother).elim) nofun (fun hflag => ?_) fun _ => rfl
      · rw [hstate] at hterminal
        rcases hbegins with rfl | rfl <;> cases hterminal
      · cases hk
        exact halone
      · have hnot := h.unflagged j hplace.1 hflag
        rw [hstate] at hnot
        exact (hbegins.elim hnot.1 hnot.2).elim
  · cases hs

theorem Inv.deliver (h : Inv s) (hs : deliver s i j = some s') : Goes s s' := by
  unfold Sm3Jobs.deliver at hs
  split at hs
  · next hready =>
      cases hs
      obtain ⟨hidle, hmessage, hj⟩ := hready
      refine h.goto ?_ nofun fun k hk _ hjob => ?_
      · cases hflag : s.cancelRequested j with
        | false =>
            refine ⟨hj, ?_⟩
            by_contra hcancel
            have hset := h.flagged j hj (by simpa using hcancel)
            exact Bool.noConfusion (hflag.symm.trans hset)
        | true => exact ⟨hj, hflag, h.unflagged j hj hflag⟩
      · by_cases hkj : k = j
        · exact .inl (congrArg some hkj.symm)
        · rw [hidle] at hjob
          rw [Function.update_of_ne hkj]
          exact .inr (hjob.resolve_left nofun)
  · cases hs

theorem Inv.loseWorker (h : Inv s) {requeued : Bool} (hok : Orderly s (.loseWorker i requeued))
    (hs : loseWorker s i requeued = some s') : Goes s s' := by
  unfold Sm3Jobs.loseWorker at hs
  split at hs
  · next j hjob =>
      cases hs
      have hleft := hok j hjob
      refine h.goto trivial nofun fun k _ _ hk => .inr ?_
      by_cases hkj : k = j
      · rw [hkj]
        split
        · rw [Function.update_self]
          exact Nat.succ_pos _
        · next hnot => exact hleft.resolve_left hnot
      · have hmessage : 0 < s.messages k := by
          refine hk.resolve_left fun hother => hkj ?_
          rw [hjob] at hother
          exact (Option.some.inj hother).symm
        split
        · rwa [Function.update_of_ne hkj]
        · exact hmessage
  · cases hs

/-- More messages do no harm. -/
theorem Inv.messages (h : Inv s) {messages : ℕ → ℕ} (hle : ∀ j, s.messages j ≤ messages j)
    {creators : ℕ → CreatorPlace K} : Goes s { s with messages := messages, creators := creators } :=
  ⟨⟨h.worker, h.flagged, h.unflagged, h.single, fun j hj hopen =>
    (h.tracked j hj hopen).imp_right fun hm => hm.trans_le (hle j), h.unique, h.cancels⟩, le_rfl,
    fun _ _ _ => rfl⟩

theorem le_update_succ (messages : ℕ → ℕ) (j k : ℕ) :
    messages k ≤ Function.update messages j (messages j + 1) k := by
  rw [Function.update_apply]
  split
  · next hkj =>
      rw [hkj]
      exact Nat.le_succ _
  · exact le_rfl

/-! ### Creation and cancellation -/

/-- A worker's job is not the one that is inserted. -/
theorem workerOk_insert (h : WorkerOk count state flag place) :
    WorkerOk (count + 1) (Function.update state count .queued)
      (Function.update flag count false) place := by
  have hstate : ∀ j < count, Function.update state count .queued j = state j :=
    fun j hj => Function.update_of_ne hj.ne _ _
  have hflag : ∀ j < count, Function.update flag count false j = flag j :=
    fun j hj => Function.update_of_ne hj.ne _ _
  cases place with
  | idle | done => exact trivial
  | read j seen requested =>
      cases requested with
      | false => exact ⟨h.1.trans (Nat.lt_succ_self _), h.2⟩
      | true => exact ⟨h.1.trans (Nat.lt_succ_self _), (hflag j h.1).trans h.2.1, h.2.2⟩
  | executing j seen | failing j seen =>
      exact ⟨h.1.trans (Nat.lt_succ_self _), h.2.1, (congrArg isOngoing (hstate j h.1)).trans h.2.2⟩
  | ending j seen =>
      exact ⟨h.1.trans (Nat.lt_succ_self _), (hflag j h.1).trans h.2.1,
        (congrArg isCancel (hstate j h.1)).trans h.2.2.1, fun hseen => (hstate j h.1).trans (h.2.2.2 hseen)⟩

theorem Inv.insertJob (h : Inv s) {c : ℕ} (hok : Orderly s (.insertJob c)) (hs : insertJob s c = some s') :
    Goes s s' := by
  unfold Sm3Jobs.insertJob at hs
  split at hs
  · next table hplace =>
      cases hs
      have hnone := hok table hplace
      have hold : ∀ j, j < s.count + 1 → j ≠ s.count → j < s.count := fun j hj hne => by omega
      refine ⟨⟨fun i => workerOk_insert (h.worker i), fun j hj hcancel => ?_, fun j hj hflag => ?_, h.single,
        fun j hj hopen => ?_, fun other i j hi hj => ?_, fun d j seen hd => ?_⟩, Nat.le_succ _,
        fun j hj _ => Function.update_of_ne hj.ne _ _⟩
      · by_cases hnew : j = s.count
        · simp only [hnew, Function.update_self] at hcancel
          cases hcancel
        · simp only [Function.update_of_ne hnew] at hcancel ⊢
          exact h.flagged j (hold j hj hnew) hcancel
      · by_cases hnew : j = s.count
        · simp only [hnew, Function.update_self] at hflag
          cases hflag
        · simp only [Function.update_of_ne hnew] at hflag ⊢
          exact h.unflagged j (hold j hj hnew) hflag
      · by_cases hnew : j = s.count
        · simp only [hnew, Function.update_self] at hopen
          cases hopen
        · simp only [Function.update_of_ne hnew] at hopen
          exact h.tracked j (hold j hj hnew) hopen
      · -- an older job of the table would have been active before
        have hbefore : ∀ k, k ≠ s.count → k < s.count + 1 →
            Function.update s.table s.count (some table) k = some other →
            (Function.update s.state s.count .queued k).isRunning = true → s.Active other k := by
          intro k hk hlt htable hrunning
          rw [Function.update_of_ne hk] at htable hrunning
          exact ⟨hold k hlt hk, htable, hrunning⟩
        by_cases hi' : i = s.count <;> by_cases hj' : j = s.count
        · rw [hi', hj']
        · have htable := hi.2.1
          simp only [hi', Function.update_self, Option.some.injEq] at htable
          subst htable
          exact (hnone j (hbefore j hj' hj.1 hj.2.1 hj.2.2)).elim
        · have htable := hj.2.1
          simp only [hj', Function.update_self, Option.some.injEq] at htable
          subst htable
          exact (hnone i (hbefore i hi' hi.1 hi.2.1 hi.2.2)).elim
        · exact h.unique other i j (hbefore i hi' hi.1 hi.2.1 hi.2.2) (hbefore j hj' hj.1 hj.2.1 hj.2.2)
      · obtain ⟨hj, hseen⟩ := h.cancels d j seen hd
        exact ⟨hj.trans (Nat.lt_succ_self _), hseen⟩
  · cases hs

theorem Inv.readCancel (h : Inv s) {c : ℕ} (hs : readCancel s c j = some s') : Goes s s' := by
  unfold Sm3Jobs.readCancel at hs
  split at hs
  · next hread =>
      cases hs
      refine ⟨⟨h.worker, h.flagged, h.unflagged, h.single, h.tracked, h.unique, fun d k seen hd => ?_⟩,
        le_rfl, fun _ _ _ => rfl⟩
      simp only [Function.update_apply] at hd
      split at hd
      · cases hd
        exact hread.2
      · exact h.cancels d k seen hd
  · cases hs

/-- The state a cancel request writes. -/
theorem requested_cases (hnot : x.isTerminal = false)
    (hnew : new = if x = .queued then .cancelled else .cancelling) :
    x = .queued ∧ new = .cancelled ∨ (x = .running ∨ x = .cancelling) ∧ new = .cancelling := by
  cases x with
  | queued => exact .inl ⟨rfl, hnew⟩
  | running => exact .inr ⟨.inl rfl, hnew⟩
  | cancelling => exact .inr ⟨.inr rfl, hnew⟩
  | succeeded | failed | cancelled => cases hnot

/-- A cancel request on the job of a worker. -/
theorem workerOk_cancel (h : WorkerOk count state flag place) (hcancel : new.isCancel = true)
    (hnot : state j ≠ .cancelled) :
    WorkerOk count (Function.update state j new) (Function.update flag j true) place := by
  have hflag : ∀ k, flag k = true → Function.update flag j true k = true := by
    intro k hk
    rw [Function.update_apply]
    split
    · rfl
    · exact hk
  cases place with
  | idle | done => exact trivial
  | read k seen requested =>
      cases requested with
      | false => exact h
      | true => exact ⟨h.1, hflag k h.2.1, h.2.2⟩
  | executing k seen | failing k seen =>
      refine ⟨h.1, h.2.1, ?_⟩
      rw [Function.update_apply]
      split
      · cases new <;> first | rfl | cases hcancel
      · exact h.2.2
  | ending k seen =>
      refine ⟨h.1, hflag k h.2.1, ?_, fun hseen => ?_⟩
      · rw [Function.update_apply]
        split
        · exact hcancel
        · exact h.2.2.1
      · have hcancelled := h.2.2.2 hseen
        rw [Function.update_of_ne]
        · exact hcancelled
        · rintro rfl
          exact hnot hcancelled

theorem Inv.commitCancel (h : Inv s) {c : ℕ} (hok : Orderly s (.commitCancel c))
    (hs : commitCancel s c = some s') : Goes s s' := by
  unfold Sm3Jobs.commitCancel at hs
  split at hs
  · next j seen hread =>
      cases hs
      have hstate := hok j seen hread
      obtain ⟨hj, hopen⟩ := h.cancels c j seen hread
      rw [← hstate] at hopen
      have hnot : s.state j ≠ .cancelled := by
        intro hcancelled
        rw [hcancelled] at hopen
        cases hopen
      rw [← hstate, System.store_eq fun hsame => hsame.symm]
      generalize hnew : (if s.state j = .queued then JobState.cancelled else .cancelling) = new
      have hcases := requested_cases hopen hnew.symm
      have hcancel : new.isCancel = true := by
        rcases hcases with ⟨-, rfl⟩ | ⟨-, rfl⟩ <;> rfl
      have hkept : (s.state j).isTerminal = true → new = s.state j :=
        fun hterminal => Bool.noConfusion (hopen.symm.trans hterminal)
      refine ⟨⟨fun k => workerOk_cancel (h.worker k) hcancel hnot, fun k hk hset => ?_, fun k hk hset => ?_,
        h.single, fun k hk hset => ?_, fun table k l hk hl => ?_, fun d k other hd => ?_⟩, le_rfl,
        fun k _ => kept_of_update hkept k⟩
      · by_cases hkj : k = j
        · simp only [hkj, Function.update_self]
        · simp only [Function.update_of_ne hkj] at hset ⊢
          exact h.flagged k hk hset
      · by_cases hkj : k = j
        · simp only [hkj, Function.update_self]
          rcases hcases with ⟨-, rfl⟩ | ⟨-, rfl⟩ <;> exact ⟨nofun, nofun⟩
        · simp only [Function.update_of_ne hkj] at hset ⊢
          exact h.unflagged k hk hset
      · by_cases hkj : k = j
        · rw [hkj] at hset ⊢
          simp only [Function.update_self] at hset
          rcases hcases with ⟨-, rfl⟩ | ⟨hrunning, -⟩
          · cases hset
          · refine h.tracked j hj ?_
            rcases hrunning with hrunning | hrunning <;> rw [hrunning] <;> rfl
        · simp only [Function.update_of_ne hkj] at hset
          exact h.tracked k hk hset
      · exact h.unique table k l ⟨hk.1, hk.2.1, active_of_update hkept hk.2.2⟩
          ⟨hl.1, hl.2.1, active_of_update hkept hl.2.2⟩
      · simp only [Function.update_apply] at hd
        split at hd
        · cases hd
        · exact h.cancels d k other hd
  · cases hs

/-! ### Runs -/

theorem Inv.goes [DecidableEq K] (h : Inv s) {a : Action K} (hok : Orderly s a) (hs : step s a = some s') :
    Goes s s' := by
  cases a with
  | checkCreate c table =>
      simp only [step, checkCreate] at hs
      split at hs
      · cases hs
        exact h.messages fun _ => le_rfl
      · cases hs
  | insertJob c => exact h.insertJob hok hs
  | enqueueWorker c sent =>
      simp only [step, enqueueWorker] at hs
      split at hs
      · next j _ =>
          cases hs
          refine h.messages fun k => ?_
          split
          · exact le_update_succ s.messages j k
          · exact le_rfl
      · cases hs
  | redeliver j =>
      simp only [step, redeliver] at hs
      split at hs
      · cases hs
        exact h.messages (le_update_succ s.messages j)
      · cases hs
  | deliver i j => exact h.deliver hs
  | refuse i => exact h.refuse hok hs
  | missProfile i => exact h.missProfile hok hs
  | startJob i => exact h.startJob hok hs
  | checkCancel i => exact h.checkCancel hs
  | raises i => exact h.raises hs
  | finishJob i succeeds => exact h.finishJob hok hs
  | loseWorker i requeued => exact h.loseWorker hok hs
  | readCancel c j => exact h.readCancel hs
  | commitCancel c => exact h.commitCancel hok hs

theorem Inv.run [DecidableEq K] (h : Inv s) {as : List (Action K)} (hrun : Run step Orderly s as s') :
    Goes s s' := by
  induction hrun with
  | refl => exact Goes.refl h
  | step hok hs _ ih =>
      have hgoes := h.goes hok hs
      exact hgoes.trans (ih hgoes.inv)

/-- What holds from a state `s` to a later one. -/
structure Behaves (s s' : System K) : Prop where
  unique : ∀ table i j, s'.Active table i → s'.Active table j → i = j
  kept : ∀ j < s.count, (s.state j).isTerminal = true → s'.state j = s.state j
  tracked : ∀ j < s'.count, (∀ i, (s'.workers i).job? ≠ some j) → s'.messages j = 0 →
    s'.state j ≠ .running ∧ s'.state j ≠ .cancelling

/-- A job is created for a table and a worker succeeds with it. -/
def succeeds : List (Action String) :=
  [.checkCreate 0 "users", .insertJob 0, .enqueueWorker 0 true, .deliver 0 0, .startJob 0, .checkCancel 0,
    .finishJob 0 true]

end RecoveryService.Sm3Jobs
