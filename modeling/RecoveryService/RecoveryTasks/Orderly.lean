import RecoveryService.RecoveryTasks.Task

/-! # Orderly runs of a recovery task

A request, or a worker at its end, writes in order where it finds the row as it has read it.  `Orderly` asks
for that, and for what nobody repairs: a worker that has claimed the task does not die, and the message of a
created task is not lost.  In such runs one pipeline runs at a time, a task cancelled in time never runs, the
end that a worker commits stays, an accepted stop ends in `cancelled`, and nothing is left behind. -/

namespace RecoveryService.RecoveryTasks

open Runs TaskState

/-! ### The condition -/

/-- The row that a request has read. -/
def RequestPlace.seen? : RequestPlace → Option Row
  | idle | sending _ => none
  | cancelling seen | stopping seen | retrying seen => some seen

def Orderly (s : System) : Action → Prop
  | .enqueue _ succeeds => succeeds = true ∨ s.messages ≠ [] ∨ s.row.state ≠ .created
  | .finish i => ∀ seen outcome, s.workers i = .ending seen outcome →
      s.row = seen ∨ finalState seen.stopRequested outcome = .cancelled
  | .loseWorker i requeued => (s.workers i).isStarted = false ∧
      (requeued ≠ none ∨ s.messages ≠ [] ∨ s.row.state ≠ .created)
  | .commitRequest c => ∀ seen, (s.requests c).seen? = some seen → s.row = seen
  | _ => True

/-! ### The invariant -/

/-- The states of a task that a worker has claimed. -/
def TaskState.isClaimed : TaskState → Bool
  | policyRunning | stopping => true
  | created | succeeded | succeededWithWarnings | failed | cancelled => false

def WorkerOk (state : TaskState) : WorkerPlace → Prop
  | .idle | .taken _ | .done => True
  | .executing _ => state.isClaimed = true
  | .ending seen outcome => state.isClaimed = true ∧ seen.state.isClaimed = true ∧
      ∀ x, outcome = .returned x → x.isTerminal = true

def RequestOk : RequestPlace → Prop
  | .idle | .sending _ => True
  | .cancelling seen => seen.state = .created
  | .stopping seen => seen.state.isClaimed = true
  | .retrying seen => seen.state.isTerminal = true

/-- Somebody is to take the task up. -/
def Waiting (messages : List ℤ) (workers : ℕ → WorkerPlace) (requests : ℕ → RequestPlace) : Prop :=
  messages ≠ [] ∨ (∃ i index, workers i = .taken index) ∨ ∃ c index, requests c = .sending index

structure Inv (s : System) : Prop where
  worker : ∀ i, WorkerOk s.row.state (s.workers i)
  request : ∀ c, RequestOk (s.requests c)
  single : ∀ i k, (s.workers i).isStarted = true → (s.workers k).isStarted = true → i = k
  claimed : s.row.state.isClaimed = true → ∃ i, (s.workers i).isStarted = true
  waiting : s.row.state = .created → Waiting s.messages s.workers s.requests
  stopping : s.row.state = .stopping → s.row.stopRequested = true
  ended : ∀ x, s.ended = some x → s.row.state = x ∧ x.isTerminal = true
  cancelled : s.cancelAccepted = true → s.row.state = .cancelled
  stopped : s.stopAccepted = true → s.row.state = .stopping ∨ s.row.state = .cancelled

theorem created_inv (embedded : Bool) (index : ℤ) : Inv (created embedded index) := by
  refine ⟨fun _ => trivial, fun c => ?_, fun _ _ h => Bool.noConfusion h, fun h => Bool.noConfusion h,
    fun _ => .inr (.inr ⟨0, index, rfl⟩), fun h => TaskState.noConfusion h, nofun,
    fun h => Bool.noConfusion h, fun h => Bool.noConfusion h⟩
  simp only [created]
  split <;> trivial

variable {s s' : System} {i c : ℕ}

/-! ### The states -/

variable {x : TaskState}

theorem TaskState.not_claimed_of_terminal (h : x.isTerminal = true) : ¬ x.isClaimed = true := by
  cases x <;> first | exact Bool.false_ne_true | cases h

variable {outcome : Outcome}

theorem finalState_isTerminal {stopRequested : Bool} (h : ∀ x, outcome = .returned x → x.isTerminal = true) :
    (finalState stopRequested outcome).isTerminal = true := by
  cases outcome with
  | returned x =>
      simp only [finalState]
      split
      · rfl
      · exact h x rfl
  | raised =>
      simp only [finalState]
      split <;> rfl

/-- A session that changes the state writes nothing else. -/
theorem Row.commit_state {row seen : Row} (h : x ≠ seen.state) :
    row.commit seen { seen with state := x } = { row with state := x } := by
  simp only [Row.commit, if_neg h, if_true]

variable {place : WorkerPlace}

/-- A worker that has claimed the task finds it claimed. -/
theorem WorkerOk.claimed {state : TaskState} (h : WorkerOk state place) (hstarted : place.isStarted = true) :
    state.isClaimed = true := by
  cases place with
  | idle | taken index | done => cases hstarted
  | executing index => exact h
  | ending seen outcome => exact h.1

/-- The new state does not matter to a worker that has not claimed the task. -/
theorem WorkerOk.of_not_started {state : TaskState} (h : ¬ place.isStarted = true) : WorkerOk state place := by
  cases place with
  | idle | taken index | done => exact trivial
  | executing index | ending seen outcome => exact (h rfl).elim

theorem WorkerOk.mono {y : TaskState} (h : WorkerOk x place) (hclaimed : y.isClaimed = true) : WorkerOk y place := by
  cases place with
  | idle | taken index | done => exact trivial
  | executing index => exact hclaimed
  | ending seen outcome => exact ⟨hclaimed, h.2⟩

/-- Nobody has claimed a task that is not in a claimed state. -/
theorem Inv.not_started (h : Inv s) (hstate : ¬ s.row.state.isClaimed = true) (i : ℕ) :
    ¬ (s.workers i).isStarted = true :=
  fun hstarted => hstate ((h.worker i).claimed hstarted)

theorem Inv.no_end (h : Inv s) (hstate : ¬ s.row.state.isTerminal = true) : s.ended = none := by
  cases hended : s.ended with
  | none => rfl
  | some x =>
      obtain ⟨rfl, hterminal⟩ := h.ended x hended
      exact (hstate hterminal).elim

/-! ### The shapes of the steps -/

variable {messages : List ℤ}

/-- A worker goes on, and the row is as before. -/
theorem Inv.goto (h : Inv s) (hok : WorkerOk s.row.state place)
    (hstarted : place.isStarted = (s.workers i).isStarted)
    (hwaiting : s.row.state = .created → Waiting s.messages s.workers s.requests →
      Waiting messages (Function.update s.workers i place) s.requests) :
    Inv { s.goto i place with messages := messages } := by
  have hsame : ∀ k, (Function.update s.workers i place k).isStarted = (s.workers k).isStarted := by
    intro k
    rw [Function.update_apply]
    split
    · next hk => rw [hk, hstarted]
    · rfl
  refine ⟨fun k => ?_, h.request, fun k l hk hl => ?_, fun hclaimed => ?_,
    fun hcreated => hwaiting hcreated (h.waiting hcreated), h.stopping, h.ended, h.cancelled, h.stopped⟩
  · simp only [System.goto, Function.update_apply]
    split
    · exact hok
    · exact h.worker k
  · simp only [System.goto, hsame] at hk hl
    exact h.single k l hk hl
  · obtain ⟨k, hk⟩ := h.claimed hclaimed
    exact ⟨k, (hsame k).trans hk⟩

/-- A request goes on, and the row is as before. -/
theorem Inv.moveTo (h : Inv s) {place : RequestPlace} {sent : List ℤ} (hok : RequestOk place)
    (hwaiting : s.row.state = .created → Waiting s.messages s.workers s.requests →
      Waiting messages s.workers (Function.update s.requests c place)) :
    Inv { s.moveTo c place with messages := messages, sent := sent } := by
  refine ⟨h.worker, fun d => ?_, h.single, h.claimed,
    fun hcreated => hwaiting hcreated (h.waiting hcreated), h.stopping, h.ended, h.cancelled, h.stopped⟩
  simp only [System.moveTo, Function.update_apply]
  split
  · exact hok
  · exact h.request d

/-! ### The steps -/

theorem Inv.enqueue (h : Inv s) {succeeds : Bool} (hok : Orderly s (.enqueue c succeeds))
    (hs : enqueue s c succeeds = some s') : Inv s' := by
  unfold RecoveryTasks.enqueue at hs
  split at hs
  · next index hplace =>
      split at hs
      · cases hs
        exact h.moveTo trivial fun _ _ => .inl (List.cons_ne_nil _ _)
      · next hfails =>
          cases hs
          refine h.moveTo trivial fun hcreated _ => ?_
          rcases hok with hsucceeds | hmessages | hstate
          · exact (hfails hsucceeds).elim
          · exact .inl hmessages
          · exact (hstate hcreated).elim
  · cases hs

theorem Inv.deliver (h : Inv s) {index : ℤ} (hs : deliver s i index = some s') : Inv s' := by
  unfold RecoveryTasks.deliver at hs
  split at hs
  · next hidle =>
      cases hs
      refine h.goto trivial ?_ fun _ _ => .inr (.inl ⟨i, index, Function.update_self _ _ _⟩)
      rw [hidle.1]
      rfl
  · cases hs

theorem Inv.claim (h : Inv s) (hs : claim s i = some s') : Inv s' := by
  unfold RecoveryTasks.claim at hs
  split at hs
  · next index hplace =>
      split at hs
      · next hcreated =>
          cases hs
          have hnone := h.not_started (by rw [hcreated]; decide)
          refine ⟨fun k => ?_, h.request, fun k l hk hl => ?_, fun _ => ⟨i, ?_⟩,
            fun hstate => TaskState.noConfusion hstate, fun hstate => TaskState.noConfusion hstate,
            fun x hx => ?_, fun hcancelled => ?_, fun hstopped => ?_⟩
          · simp only [System.goto, Function.update_apply]
            split
            · rfl
            · exact .of_not_started (hnone k)
          · simp only [System.goto, Function.update_apply] at hk hl
            split at hk
            · next hki =>
                split at hl
                · next hli => rw [hki, hli]
                · exact (hnone l hl).elim
            · exact (hnone k hk).elim
          · simp only [System.goto, Function.update_self]
            rfl
          · obtain ⟨hstate, hterminal⟩ := h.ended x hx
            rw [← hstate, hcreated] at hterminal
            cases hterminal
          · have hstate := h.cancelled hcancelled
            rw [hcreated] at hstate
            cases hstate
          · have hstate := h.stopped hstopped
            rw [hcreated] at hstate
            rcases hstate with hstate | hstate <;> cases hstate
      · next hcreated =>
          cases hs
          refine h.goto trivial ?_ fun hstate => (hcreated hstate).elim
          rw [hplace]
          rfl
  · cases hs

/-- The row keeps its state and its stop request. -/
theorem Inv.registerRuntime (h : Inv s) (hs : registerRuntime s i = some s') : Inv s' := by
  unfold RecoveryTasks.registerRuntime at hs
  split at hs
  · cases hs
    exact ⟨h.worker, h.request, h.single, h.claimed, h.waiting, h.stopping, h.ended, h.cancelled, h.stopped⟩
  · cases hs

/-- A worker that has claimed the task refreshes its copy. -/
theorem Inv.refreshes (h : Inv s) (hstarted : (s.workers i).isStarted = true)
    (houtcome : ∀ x, outcome = .returned x → x.isTerminal = true) : Inv (s.goto i (.ending s.row outcome)) := by
  have hclaimed := (h.worker i).claimed hstarted
  refine h.goto ⟨hclaimed, hclaimed, houtcome⟩ hstarted.symm fun hcreated => ?_
  rw [hcreated] at hclaimed
  cases hclaimed

theorem Inv.refresh (h : Inv s) (hs : refresh s i outcome = some s') : Inv s' := by
  unfold RecoveryTasks.refresh at hs
  split at hs
  · next index state hplace =>
      split at hs
      · next hterminal =>
          cases hs
          refine h.refreshes (by rw [hplace]; rfl) fun x hx => ?_
          cases hx
          exact hterminal
      · cases hs
  · next index hplace =>
      cases hs
      exact h.refreshes (by rw [hplace]; rfl) nofun
  · next seen outcome hplace =>
      cases hs
      exact h.refreshes (by rw [hplace]; rfl) nofun
  · cases hs

theorem Inv.finish (h : Inv s) (hok : Orderly s (.finish i)) (hs : finish s i = some s') : Inv s' := by
  unfold RecoveryTasks.finish at hs
  split at hs
  · next seen outcome hplace =>
      cases hs
      have hstarted : (s.workers i).isStarted = true := by
        rw [hplace]
        rfl
      obtain ⟨hclaimed, hseen, houtcome⟩ : WorkerOk s.row.state (.ending seen outcome) := hplace ▸ h.worker i
      have hterminal : (finalState seen.stopRequested outcome).isTerminal = true := finalState_isTerminal houtcome
      have hnot := not_claimed_of_terminal hterminal
      have hstops : s.stopAccepted = true → finalState seen.stopRequested outcome = .cancelled := by
        intro haccepted
        rcases hok seen outcome hplace with hrow | hcancelled
        · -- the accepted stop is in the copy
          have hstate : s.row.state = .stopping := by
            refine (h.stopped haccepted).resolve_right fun hcancelled => ?_
            rw [hcancelled] at hclaimed
            cases hclaimed
          have hflag := h.stopping hstate
          rw [hrow] at hflag
          rw [hflag]
          cases outcome <;> simp [finalState]
        · exact hcancelled
      rw [Row.commit_state fun heq => hnot (by rw [heq]; exact hseen)]
      generalize finalState seen.stopRequested outcome = new at *
      have hothers : ∀ k, ¬ (Function.update s.workers i .done k).isStarted = true := by
        intro k hk
        rw [Function.update_apply] at hk
        split at hk
        · cases hk
        · next hki => exact hki (h.single k i hk hstarted)
      refine ⟨fun k => .of_not_started (hothers k), h.request, fun k _ hk => (hothers k hk).elim,
        fun hstate => (hnot hstate).elim, fun hcreated => ?_, fun hstate => ?_, fun x hx => ?_,
        fun haccepted => ?_, fun haccepted => .inr (hstops haccepted)⟩
      · rw [show new = .created from hcreated] at hterminal
        cases hterminal
      · rw [show new = .stopping from hstate] at hterminal
        cases hterminal
      · cases hx
        exact ⟨rfl, hterminal⟩
      · rw [h.cancelled haccepted] at hclaimed
        cases hclaimed
  · cases hs

theorem Inv.loseWorker (h : Inv s) {requeued : Option ℤ} (hok : Orderly s (.loseWorker i requeued))
    (hs : loseWorker s i requeued = some s') : Inv s' := by
  unfold RecoveryTasks.loseWorker at hs
  split at hs
  · cases hs
    refine h.goto trivial hok.1.symm fun hcreated _ => .inl ?_
    rcases hok.2 with hrequeued | hmessages | hstate
    · cases requeued with
      | none => exact (hrequeued rfl).elim
      | some index => exact List.cons_ne_nil _ _
    · exact fun hnil => hmessages (List.append_eq_nil_iff.mp hnil).2
    · exact (hstate hcreated).elim
  · cases hs

/-- A request that has read the row is no message. -/
theorem Waiting.move {workers : ℕ → WorkerPlace} {requests : ℕ → RequestPlace}
    (h : Waiting messages workers requests) (hidle : requests c = .idle) (place : RequestPlace) :
    Waiting messages workers (Function.update requests c place) := by
  rcases h with hmessages | hworker | ⟨d, index, hd⟩
  · exact .inl hmessages
  · exact .inr (.inl hworker)
  · refine .inr (.inr ⟨d, index, ?_⟩)
    rw [Function.update_of_ne]
    · exact hd
    · rintro rfl
      rw [hidle] at hd
      cases hd

theorem Inv.readCancel (h : Inv s) (hs : readCancel s c = some s') : Inv s' := by
  unfold RecoveryTasks.readCancel at hs
  split at hs
  · next hread =>
      cases hs
      exact h.moveTo hread.2 fun _ hwaiting => hwaiting.move hread.1 _
  · cases hs

theorem Inv.readStop (h : Inv s) (hs : readStop s c = some s') : Inv s' := by
  unfold RecoveryTasks.readStop at hs
  split at hs
  · next hread =>
      split at hs
      · next hcreated =>
          cases hs
          exact h.moveTo hcreated fun _ hwaiting => hwaiting.move hread.1 _
      · next hcreated =>
          split at hs
          · cases hs
            have hclaimed : s.row.state.isClaimed = true := by
              have hopen := hread.2
              cases hstate : s.row.state <;> rw [hstate] at hopen hcreated <;>
                first | rfl | exact (hcreated rfl).elim | cases hopen
            exact h.moveTo hclaimed fun _ hwaiting => hwaiting.move hread.1 _
          · cases hs
  · cases hs

theorem Inv.readRetry (h : Inv s) (hs : readRetry s c = some s') : Inv s' := by
  unfold RecoveryTasks.readRetry at hs
  split at hs
  · next hread =>
      cases hs
      exact h.moveTo hread.2 fun _ hwaiting => hwaiting.move hread.1 _
  · cases hs

/-- A request commits a row in which nobody can have claimed the task. -/
theorem Inv.commits (h : Inv s) {row : Row} {place : RequestPlace} {ended : Option TaskState}
    {cancelAccepted stopAccepted : Bool} (hstate : ¬ s.row.state.isClaimed = true)
    (hclaimed : ¬ row.state.isClaimed = true) (hok : RequestOk place)
    (hwaiting : row.state = .created → ∃ index, place = .sending index)
    (hended : ∀ x, ended = some x → row.state = x ∧ x.isTerminal = true)
    (hcancelled : cancelAccepted = true → row.state = .cancelled)
    (hstopped : stopAccepted = true → row.state = .cancelled) :
    Inv { s.moveTo c place with row, ended, cancelAccepted, stopAccepted } := by
  have hnone := h.not_started hstate
  refine ⟨fun k => .of_not_started (hnone k), fun d => ?_, h.single, fun hc => (hclaimed hc).elim,
    fun hcreated => ?_, fun hstopping => ?_, hended, hcancelled, fun haccepted => .inr (hstopped haccepted)⟩
  · simp only [System.moveTo, Function.update_apply]
    split
    · exact hok
    · exact h.request d
  · obtain ⟨index, rfl⟩ := hwaiting hcreated
    exact .inr (.inr ⟨c, index, Function.update_self _ _ _⟩)
  · exact (hclaimed (by rw [show row.state = .stopping from hstopping]; rfl)).elim

theorem Inv.commitRequest (h : Inv s) (hok : Orderly s (.commitRequest c))
    (hs : commitRequest s c = some s') : Inv s' := by
  have hrequest := h.request c
  unfold RecoveryTasks.commitRequest at hs
  split at hs
  · next seen hplace =>
      cases hs
      rw [hplace] at hrequest
      have hcreated : s.row.state = .created := (hok seen (by rw [hplace]; rfl)) ▸ hrequest
      have hended := h.no_end (by rw [hcreated]; decide)
      rw [← hok seen (by rw [hplace]; rfl), Row.commit_self]
      refine h.commits (by rw [hcreated]; decide) (fun hc => Bool.noConfusion hc) trivial
        (fun hc => TaskState.noConfusion hc) (fun x hx => ?_) (fun _ => rfl) fun _ => rfl
      exact absurd (hended.symm.trans hx) (Option.some_ne_none x).symm
  · next seen hplace =>
      cases hs
      rw [hplace] at hrequest
      have hclaimed : s.row.state.isClaimed = true := (hok seen (by rw [hplace]; rfl)) ▸ hrequest
      rw [← hok seen (by rw [hplace]; rfl), Row.commit_self]
      refine ⟨fun k => (h.worker k).mono rfl, fun d => ?_, h.single, fun _ => h.claimed hclaimed,
        fun hc => TaskState.noConfusion hc, fun _ => rfl, fun x hx => ?_, fun haccepted => ?_,
        fun _ => .inl rfl⟩
      · simp only [System.moveTo, Function.update_apply]
        split
        · exact trivial
        · exact h.request d
      · obtain ⟨rfl, hterminal⟩ := h.ended x hx
        exact (not_claimed_of_terminal hterminal hclaimed).elim
      · rw [h.cancelled haccepted] at hclaimed
        cases hclaimed
  · next seen hplace =>
      cases hs
      rw [hplace] at hrequest
      have hterminal : s.row.state.isTerminal = true := (hok seen (by rw [hplace]; rfl)) ▸ hrequest
      rw [← hok seen (by rw [hplace]; rfl), Row.commit_self]
      exact h.commits (not_claimed_of_terminal hterminal) (fun hc => Bool.noConfusion hc) trivial
        (fun _ => ⟨0, rfl⟩) (fun x hx => by cases hx) (fun hc => Bool.noConfusion hc)
        fun hc => Bool.noConfusion hc
  · cases hs

/-! ### Runs -/

theorem Inv.goes (h : Inv s) {a : Action} (hok : Orderly s a) (hs : step s a = some s') : Inv s' := by
  cases a with
  | enqueue c succeeds => exact h.enqueue hok hs
  | redeliver index =>
      simp only [step, redeliver] at hs
      split at hs
      · cases hs
        exact ⟨h.worker, h.request, h.single, h.claimed, fun _ => .inl (List.cons_ne_nil _ _), h.stopping,
          h.ended, h.cancelled, h.stopped⟩
      · cases hs
  | deliver i index => exact h.deliver hs
  | claim i => exact h.claim hs
  | registerRuntime i => exact h.registerRuntime hs
  | refresh i outcome => exact h.refresh hs
  | finish i => exact h.finish hok hs
  | loseWorker i requeued => exact h.loseWorker hok hs
  | readCancel c => exact h.readCancel hs
  | readStop c => exact h.readStop hs
  | readRetry c => exact h.readRetry hs
  | commitRequest c => exact h.commitRequest hok hs

/-- What holds of the task in a state. -/
structure Behaves (s : System) : Prop where
  /-- One pipeline runs at a time. -/
  single : ∀ i k, (s.workers i).isStarted = true → (s.workers k).isStarted = true → i = k
  /-- A task that was cancelled before a worker claimed it does not run. -/
  cancelled : s.cancelAccepted = true → ∀ i, ¬ (s.workers i).isStarted = true
  /-- The state that a worker has ended the task with stays until a retry. -/
  kept : ∀ x, s.ended = some x → s.row.state = x
  stopped : ∀ x, s.ended = some x → s.stopAccepted = true → x = .cancelled
  /-- Where nobody has the task and no message of it waits or is to be sent, it is over. -/
  settled : (∀ i, (s.workers i).isStarted = false ∧ ∀ index, s.workers i ≠ .taken index) → s.messages = [] →
    (∀ c index, s.requests c ≠ .sending index) → s.row.state.isTerminal = true

theorem Inv.behaves (h : Inv s) : Behaves s := by
  refine ⟨h.single, fun haccepted => ?_, fun x hx => (h.ended x hx).1, fun x hx haccepted => ?_,
    fun hworkers hmessages hrequests => ?_⟩
  · exact h.not_started (by rw [h.cancelled haccepted]; decide)
  · obtain ⟨rfl, hterminal⟩ := h.ended x hx
    refine (h.stopped haccepted).resolve_left fun hstopping => ?_
    rw [hstopping] at hterminal
    cases hterminal
  · have hfree : ¬ s.row.state.isClaimed = true := by
      intro hclaimed
      obtain ⟨i, hi⟩ := h.claimed hclaimed
      rw [(hworkers i).1] at hi
      cases hi
    have hclosed : s.row.state ≠ .created := by
      intro hcreated
      rcases h.waiting hcreated with hwaiting | ⟨i, index, hi⟩ | ⟨d, index, hd⟩
      · exact hwaiting hmessages
      · exact (hworkers i).2 index hi
      · exact hrequests d index hd
    cases hstate : s.row.state <;> rw [hstate] at hfree hclosed <;>
      first | rfl | exact (hclosed rfl).elim | exact (hfree rfl).elim

/-- In every state of an orderly run the task behaves. -/
theorem orderly_task {embedded : Bool} {index : ℤ} {as : List Action} {s : System}
    (hrun : Run step Orderly (created embedded index) as s) : Behaves s :=
  (hrun.invariant (created_inv embedded index) fun _ _ _ hok hs h => h.goes hok hs).behaves

/-- A worker runs the pipeline of a task and it is stopped meanwhile. -/
theorem orderly_task_stopped : ∃ s, Run step Orderly (created true 2)
    [.enqueue 0 true, .deliver 0 2, .claim 0, .registerRuntime 0, .readStop 0, .commitRequest 0] s ∧
    s.row.state = .stopping ∧ s.stopAccepted = true ∧ Behaves s := by
  have hrun : Run step Orderly (created true 2)
      [.enqueue 0 true, .deliver 0 2, .claim 0, .registerRuntime 0, .readStop 0, .commitRequest 0] _ :=
    .step (.inl rfl) rfl (.step trivial rfl (.step trivial rfl (.step trivial rfl (.step trivial rfl
      (.step (fun seen hseen => Option.some.inj hseen) rfl (.refl _))))))
  exact ⟨_, hrun, rfl, rfl, orderly_task hrun⟩

/-- A stop request reads the running task and commits behind the last commit of the worker. -/
def stopsLate : List Action :=
  [.enqueue 0 true, .deliver 0 0, .claim 0, .registerRuntime 0, .readStop 0,
    .refresh 0 (.returned .succeeded), .finish 0, .commitRequest 0]

theorem stops_late_unsettled : ¬ ∀ (embedded : Bool) (index : ℤ) (as : List Action) (s : System),
    Run step Free (created embedded index) as s → Behaves s := by
  intro hall
  obtain ⟨s, hrun, hended, hstate⟩ : ∃ s, Run step Free (created true 0) stopsLate s ∧
      s.ended = some .succeeded ∧ s.row.state = .stopping := ⟨_, perform_iff.mp rfl, rfl, rfl⟩
  have hkept := (hall true 0 stopsLate s hrun).kept _ hended
  rw [hstate] at hkept
  cases hkept

end RecoveryService.RecoveryTasks
