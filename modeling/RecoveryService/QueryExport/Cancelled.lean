import RecoveryService.QueryExport.Job

/-! # Cancelled and succeeded jobs

A cancellation is noticed by the progress reports of the worker only; the claim, the result of the
worker and the expiry of the file are stored whatever the state is by then.  In a run in which no
cancellation falls between a look at the job and the store that follows it, a cancelled job stays
cancelled, and a succeeded one has its file. -/

namespace RecoveryService.QueryExport

open Runs

/-- The worker has not ended. -/
def WorkerPlace.active : WorkerPlace → Bool
  | .idle | .done => false
  | _ => true

/-- The worker has put its file in place and not yet stored its success. -/
def WorkerPlace.finishing : WorkerPlace → Bool
  | .written _ | .storing _ _ => true
  | _ => false

/-- A party that stores a state has looked at the job since the last cancellation; no file is cleaned
up while a worker has put its own in place and not yet stored the success. -/
def Heeds (s : System) : Action → Prop
  | .claim w _ => s.unseen (.worker w) = false
  | .succeed w => s.unseen (.worker w) = false
  | .fail w => s.unseen (.worker w) = false
  | .unlink _ => ∀ w, (s.workers w).finishing = false
  | .expire e => s.unseen (.expiry e) = false ∧ ∀ w, (s.workers w).finishing = false
  | _ => True

/-- A succeeded job has a path and its file, or a cleanup has just removed the file and is about to
store that. -/
def Downloadable (s : System) : Prop :=
  s.job.state = .succeeded → s.job.filePath ≠ none ∧
    (s.file = true ∨ ∃ e seen, s.expiries e = .removed seen)

/-! ### Columns -/

@[simp] theorem column_self {α : Type} [DecidableEq α] (stored seen : α) :
    column stored seen seen = stored := if_pos rfl

theorem column_of_ne {α : Type} [DecidableEq α] {stored seen new : α} (h : new ≠ seen) :
    column stored seen new = new := if_neg h

@[simp] theorem claimed_filePath (stored seen : Job) :
    (stored.store seen seen.claimed).filePath = stored.filePath := column_self _ _

@[simp] theorem reported_state (stored seen : Job) (count : ℕ) :
    (stored.store seen (seen.reported count)).state = stored.state := column_self _ _

@[simp] theorem reported_filePath (stored seen : Job) (count : ℕ) :
    (stored.store seen (seen.reported count)).filePath = stored.filePath := column_self _ _

@[simp] theorem failed_filePath (stored seen : Job) :
    (stored.store seen seen.failed).filePath = stored.filePath := column_self _ _

@[simp] theorem cancelled_filePath (stored seen : Job) :
    (stored.store seen seen.cancelled).filePath = stored.filePath := column_self _ _

@[simp] theorem downloaded_state (stored seen : Job) :
    (stored.store seen seen.downloaded).state = stored.state := column_self _ _

@[simp] theorem downloaded_filePath (stored seen : Job) :
    (stored.store seen seen.downloaded).filePath = stored.filePath := column_self _ _

/-- The failure is stored, unless the job was read as failed. -/
theorem failed_state (stored seen : Job) : (stored.store seen seen.failed).state = .failed ∨
      (stored.store seen seen.failed).state = stored.state := by
  by_cases h : JobState.failed = seen.state
  · exact Or.inr (if_pos h)
  · exact Or.inl (column_of_ne h)

theorem finished_state (stored seen : Job) (rows : ℕ) (path : String) (expiresAt : ℕ) :
    (stored.store seen (seen.finished rows path expiresAt)).state = .succeeded ∨
      (stored.store seen (seen.finished rows path expiresAt)).state = stored.state := by
  by_cases h : JobState.succeeded = seen.state
  · exact Or.inr (if_pos h)
  · exact Or.inl (column_of_ne h)

variable {stored seen : Job}

/-- A result has a path, also when the path was read with the job. -/
theorem finished_filePath (rows : ℕ) (path : String) (expiresAt : ℕ)
    (h : seen.filePath ≠ none → stored.filePath ≠ none) :
    (stored.store seen (seen.finished rows path expiresAt)).filePath ≠ none := by
  change column stored.filePath seen.filePath (some path) ≠ none
  by_cases he : some path = seen.filePath
  · rw [← he, column_self]
    exact h (he ▸ Option.some_ne_none path)
  · rw [column_of_ne he]
    exact Option.some_ne_none path

/-! ### The invariant -/

structure Inv (s : System) : Prop where
  staleWorker : s.job.state = .cancelled → ∀ w, (s.workers w).active = true →
    s.unseen (.worker w) = true
  staleExpiry : s.job.state = .cancelled → ∀ e, s.expiries e ≠ .idle → s.unseen (.expiry e) = true
  written : ∀ w, (s.workers w).finishing = true → s.file = true
  kept : ∀ w seen rows, s.workers w = .storing seen rows → seen.filePath ≠ none →
    s.job.filePath ≠ none
  claimable : ∀ w seen, s.workers w = .loaded seen → seen.state = .queued
  cancellable : ∀ c seen, s.cancels c = some seen → seen.state = .queued ∨ seen.state = .running
  expirable : ∀ e seen, s.expiries e = .loaded seen ∨ s.expiries e = .removed seen →
    seen.state = .succeeded
  stored : Downloadable s

theorem initial_inv : Inv {} where
  staleWorker := nofun
  staleExpiry := nofun
  written := nofun
  kept := nofun
  claimable := nofun
  cancellable := nofun
  expirable _ _ h := by
    obtain h | h := h
    · cases h
    · cases h
  stored := nofun

variable {s s' : System} {w : ℕ}

/-- A worker goes on without a store. -/
theorem Inv.goto (h : Inv s) (place : WorkerPlace)
    (hactive : s.job.state = .cancelled → place.active = true → s.unseen (.worker w) = true)
    (hfile : place.finishing = true → s.file = true)
    (hkept : ∀ seen rows, place = .storing seen rows → seen.filePath ≠ none →
      s.job.filePath ≠ none)
    (hloaded : ∀ seen, place = .loaded seen → seen.state = .queued) : Inv (s.goto w place) := by
  have hplace : ∀ w', (s.goto w place).workers w' = if w' = w then place else s.workers w' :=
    fun w' => Function.update_apply _ _ _ _
  refine ⟨?_, h.staleExpiry, ?_, ?_, ?_, h.cancellable, h.expirable, h.stored⟩
  · intro hc w' ha
    rw [hplace] at ha
    split at ha
    · rename_i he
      exact he ▸ hactive hc ha
    · exact h.staleWorker hc w' ha
  · intro w' hf
    rw [hplace] at hf
    split at hf
    · exact hfile hf
    · exact h.written w' hf
  · intro w' seen rows he
    rw [hplace] at he
    split at he
    · exact hkept seen rows he
    · exact h.kept w' seen rows he
  · intro w' seen he
    rw [hplace] at he
    split at he
    · exact hloaded seen he
    · exact h.claimable w' seen he

/-- A worker ends, or goes to a place without obligations. -/
theorem Inv.goto_done (h : Inv s) : Inv (s.goto w .done) :=
  h.goto .done (fun _ ha => by cases ha) (fun hf => by cases hf) (fun _ _ he => by cases he)
    (fun _ he => by cases he)

/-- A worker goes on from an active place to one that needs no file. -/
theorem Inv.goto_active (h : Inv s) (hw : (s.workers w).active = true) (place : WorkerPlace)
    (hfinish : place.finishing = false) (hloaded : ∀ seen, place ≠ .loaded seen) : Inv (s.goto w place) := by
  apply h.goto place (fun hc _ => h.staleWorker hc w hw)
  · intro hf
    rw [hfinish] at hf
    cases hf
  · rintro seen rows rfl
    cases hfinish
  · exact fun seen he => absurd he (hloaded seen)

/-- A party looks at a job that is not cancelled. -/
theorem Inv.looked (h : Inv s) (p : Party) (hs : s.job.state ≠ .cancelled) : Inv (s.looked p) :=
  { h with
    staleWorker := fun hc => absurd hc hs
    staleExpiry := fun hc => absurd hc hs }

/-- A store of a party that does not cancel. -/
theorem Inv.commit (h : Inv s) (seen new : Job)
    (hc : (s.job.store seen new).state = .cancelled → s.job.state = .cancelled)
    (hp : (∃ w, (s.workers w).finishing = true) → s.job.filePath ≠ none →
      (s.job.store seen new).filePath ≠ none)
    (hs : (s.job.store seen new).state = .succeeded → (s.job.store seen new).filePath ≠ none ∧
      (s.file = true ∨ ∃ e seen, s.expiries e = .removed seen)) :
    Inv (s.commit seen new) where
  staleWorker hcancelled := h.staleWorker (hc hcancelled)
  staleExpiry hcancelled := h.staleExpiry (hc hcancelled)
  written := h.written
  kept w seen rows he hne := by
    apply hp ⟨w, _⟩ (h.kept w seen rows he hne)
    have hw : s.workers w = .storing seen rows := he
    rw [hw]
    rfl
  claimable := h.claimable
  cancellable := h.cancellable
  expirable := h.expirable
  stored := hs

/-! ### Steps of a worker -/

theorem Inv.deliver (h : Inv s) (hs : deliver s w = some s') : Inv s' := by
  unfold QueryExport.deliver at hs
  split at hs
  · split at hs
    · rename_i hqueued
      cases hs
      have hne : s.job.state ≠ .cancelled := by
        rw [hqueued]
        decide
      refine Inv.looked ?_ _ hne
      apply h.goto
      · exact fun hc => absurd hc hne
      · exact fun hf => by cases hf
      · exact fun _ _ he => by cases he
      · intro seen he
        cases he
        exact hqueued
    · cases hs
      exact h.goto_done
  · cases hs

theorem claimed_state (h : seen.state = .queued) : (stored.store seen seen.claimed).state = .running := by
  apply column_of_ne
  rw [h]
  show JobState.running ≠ .queued
  decide

theorem Inv.claim {format : Format} {rows : ℕ} (h : Inv s) (hs : claim format s w rows = some s') : Inv s' := by
  unfold QueryExport.claim at hs
  split at hs
  · rename_i seen hw
    cases hs
    have hstate : (s.job.store seen seen.claimed).state = .running :=
      claimed_state (h.claimable w seen hw)
    have hcommit : Inv (s.commit seen seen.claimed) := by
      apply h.commit
      · rw [hstate]
        exact fun hc => by cases hc
      · rw [claimed_filePath]
        exact fun _ hne => hne
      · rw [hstate]
        exact fun hc => by cases hc
    apply hcommit.goto_active
    · change (s.workers w).active = true
      rw [hw]
      rfl
    · rfl
    · exact fun _ he => by cases he
  · cases hs

theorem Inv.look (h : Inv s) (hs : look s w = some s') : Inv s' := by
  unfold QueryExport.look at hs
  split at hs
  · rename_i hw
    split at hs
    · cases hs
      exact h.goto_done
    · rename_i hne
      cases hs
      refine Inv.looked ?_ _ hne
      apply h.goto_active
      · rw [hw]
        rfl
      · rfl
      · exact fun _ he => by cases he
  · cases hs

theorem Inv.report (h : Inv s) (hs : report s w = some s') : Inv s' := by
  unfold QueryExport.report at hs
  split at hs
  · rename_i seen count rows left hw
    cases hs
    have hcommit : Inv (s.commit seen (seen.reported count)) := by
      apply h.commit
      · rw [reported_state]
        exact id
      · rw [reported_filePath]
        exact fun _ hne => hne
      · rw [reported_state, reported_filePath]
        exact h.stored
    apply hcommit.goto_active
    · change (s.workers w).active = true
      rw [hw]
      rfl
    · rfl
    · exact fun _ he => by cases he
  · cases hs

theorem Inv.write (h : Inv s) (hs : write s w = some s') : Inv s' := by
  unfold QueryExport.write at hs
  split at hs
  · rename_i rows hw
    cases hs
    have hfile : Inv { s with file := true } :=
      { h with
        written := fun _ _ => rfl
        stored := fun hstate => ⟨(h.stored hstate).1, Or.inl rfl⟩ }
    apply hfile.goto
    · intro hc _
      apply h.staleWorker hc w
      rw [hw]
      rfl
    · exact fun _ => rfl
    · exact fun _ _ he => by cases he
    · exact fun _ he => by cases he
  · cases hs

theorem Inv.load (h : Inv s) (hs : load s w = some s') : Inv s' := by
  unfold QueryExport.load at hs
  split at hs
  · rename_i rows hw
    cases hs
    apply h.goto
    · intro hc _
      apply h.staleWorker hc w
      rw [hw]
      rfl
    · intro _
      apply h.written w
      rw [hw]
      rfl
    · intro seen _ he hne
      cases he
      exact hne
    · exact fun _ he => by cases he
  · cases hs

theorem Inv.succeed {path : String} {expireAfter : ℕ} (h : Inv s)
    (hs : succeed path expireAfter s w = some s') : Inv s' := by
  unfold QueryExport.succeed at hs
  split at hs
  · rename_i seen rows hw
    cases hs
    have hpath : (s.job.store seen (seen.finished rows path (s.now + max 1 expireAfter))).filePath ≠
        none := finished_filePath rows path _ (h.kept w seen rows hw)
    have hstate := finished_state s.job seen rows path (s.now + max 1 expireAfter)
    apply Inv.goto_done
    apply h.commit
    · intro hc
      obtain he | he := hstate
      · rw [hc] at he
        cases he
      · exact he.symm.trans hc
    · exact fun _ _ => hpath
    · refine fun _ => ⟨hpath, Or.inl (h.written w ?_)⟩
      rw [hw]
      rfl
  · cases hs

theorem Inv.raiseError (h : Inv s) (hs : raiseError s w = some s') : Inv s' := by
  have hgoto : (s.workers w).active = true → Inv (s.goto w .failing) := fun ha =>
    h.goto_active ha .failing rfl fun _ he => by cases he
  unfold QueryExport.raiseError at hs
  split at hs
  all_goals cases hs
  all_goals
    rename_i hw
    apply hgoto
    rw [hw]
    rfl

theorem Inv.loadFailure (h : Inv s) (hs : loadFailure s w = some s') : Inv s' := by
  unfold QueryExport.loadFailure at hs
  split at hs
  · rename_i hw
    cases hs
    apply h.goto_active
    · rw [hw]
      rfl
    · rfl
    · exact fun _ he => by cases he
  · cases hs

theorem Inv.fail (h : Inv s) (hs : fail s w = some s') : Inv s' := by
  unfold QueryExport.fail at hs
  split at hs
  · rename_i seen hw
    cases hs
    have hstate := failed_state s.job seen
    apply Inv.goto_done
    apply h.commit
    · intro hc
      obtain he | he := hstate
      · rw [hc] at he
        cases he
      · exact he.symm.trans hc
    · rw [failed_filePath]
      exact fun _ hne => hne
    · intro hsucceeded
      rw [failed_filePath]
      obtain he | he := hstate
      · rw [hsucceeded] at he
        cases he
      · exact h.stored (he.symm.trans hsucceeded)
  · cases hs

/-! ### Requests -/

theorem Inv.openCancel {c : ℕ} (h : Inv s) (hs : openCancel s c = some s') : Inv s' := by
  unfold QueryExport.openCancel at hs
  split at hs
  · rename_i hstate
    cases hs
    refine { h with cancellable := ?_ }
    intro c' seen hseen
    change Function.update s.cancels c (some s.job) c' = some seen at hseen
    rw [Function.update_apply] at hseen
    split at hseen
    · cases hseen
      exact hstate
    · exact h.cancellable c' seen hseen
  · cases hs

theorem cancelled_state (h : seen.state = .queued ∨ seen.state = .running) :
    (stored.store seen seen.cancelled).state = .cancelled := by
  apply column_of_ne
  intro he
  obtain hq | hr := h
  · rw [← he] at hq
    cases hq
  · rw [← he] at hr
    cases hr

theorem Inv.cancel {c : ℕ} (h : Inv s) (hs : cancel s c = some s') : Inv s' ∧ s'.job.state = .cancelled := by
  unfold QueryExport.cancel at hs
  split at hs
  · rename_i seen hseen
    cases hs
    have hstate : (s.job.store seen seen.cancelled).state = .cancelled :=
      cancelled_state (h.cancellable c seen hseen)
    refine ⟨?_, hstate⟩
    refine ⟨fun _ _ _ => rfl, fun _ _ _ => rfl, h.written, ?_, h.claimable, ?_, h.expirable, ?_⟩
    · intro w seen' rows hw hne
      change (s.job.store seen seen.cancelled).filePath ≠ none
      rw [cancelled_filePath]
      exact h.kept w seen' rows hw hne
    · intro c' seen' hseen'
      change Function.update s.cancels c none c' = some seen' at hseen'
      rw [Function.update_apply] at hseen'
      split at hseen'
      · cases hseen'
      · exact h.cancellable c' seen' hseen'
    · exact fun hsucceeded => absurd (hstate.symm.trans hsucceeded) (by decide)
  · cases hs

theorem Inv.openExpiry {e : ℕ} (h : Inv s) (hs : openExpiry s e = some s') : Inv s' := by
  unfold QueryExport.openExpiry at hs
  split at hs
  · rename_i hopen
    obtain ⟨hidle, hstate, -⟩ := hopen
    cases hs
    have hne : s.job.state ≠ .cancelled := by
      rw [hstate]
      decide
    refine { h with staleWorker := fun hc => absurd hc hne, staleExpiry := fun hc => absurd hc hne,
                    expirable := ?_, stored := ?_ }
    · intro e' seen hseen
      change Function.update s.expiries e (.loaded s.job) e' = .loaded seen ∨
        Function.update s.expiries e (.loaded s.job) e' = .removed seen at hseen
      rw [Function.update_apply] at hseen
      split at hseen
      · obtain hseen | hseen := hseen
        · cases hseen
          exact hstate
        · cases hseen
      · exact h.expirable e' seen hseen
    · intro hsucceeded
      obtain ⟨hpath, hfile | ⟨e', seen, hremoved⟩⟩ := h.stored hsucceeded
      · exact ⟨hpath, Or.inl hfile⟩
      · refine ⟨hpath, Or.inr ⟨e', seen, ?_⟩⟩
        change Function.update s.expiries e (.loaded s.job) e' = .removed seen
        rw [Function.update_of_ne, hremoved]
        rintro rfl
        rw [hidle] at hremoved
        cases hremoved
  · cases hs

theorem Inv.unlink {e : ℕ} (h : Inv s) (hok : ∀ w, (s.workers w).finishing = false)
    (hs : unlink s e = some s') : Inv s' := by
  unfold QueryExport.unlink at hs
  split at hs
  · rename_i seen hseen
    cases hs
    refine { h with staleExpiry := ?_, written := ?_, expirable := ?_, stored := ?_ }
    · intro hc e' he'
      apply h.staleExpiry hc e'
      intro hidle
      change Function.update s.expiries e (.removed seen) e' ≠ .idle at he'
      rw [Function.update_apply] at he'
      split at he'
      · rename_i heq
        rw [heq, hseen] at hidle
        cases hidle
      · exact he' hidle
    · intro w hw
      rw [hok w] at hw
      cases hw
    · intro e' seen' hseen'
      change Function.update s.expiries e (.removed seen) e' = .loaded seen' ∨
        Function.update s.expiries e (.removed seen) e' = .removed seen' at hseen'
      rw [Function.update_apply] at hseen'
      split at hseen'
      · obtain hseen' | hseen' := hseen'
        · cases hseen'
        · cases hseen'
          exact h.expirable e seen (Or.inl hseen)
      · exact h.expirable e' seen' hseen'
    · exact fun hsucceeded => ⟨(h.stored hsucceeded).1, Or.inr ⟨e, seen, Function.update_self _ _ _⟩⟩
  · cases hs

theorem Inv.expire {e : ℕ} (h : Inv s) (hok : ∀ w, (s.workers w).finishing = false)
    (hs : expire s e = some s') : Inv s' := by
  unfold QueryExport.expire at hs
  split at hs
  · rename_i seen hseen
    cases hs
    have hstate : (s.job.store seen seen.expired).state = .expired := by
      apply column_of_ne
      rw [h.expirable e seen (Or.inr hseen)]
      show JobState.expired ≠ .succeeded
      decide
    have hcommit : Inv (s.commit seen seen.expired) := by
      apply h.commit
      · rw [hstate]
        exact fun hc => by cases hc
      · rintro ⟨w, hw⟩
        rw [hok w] at hw
        cases hw
      · rw [hstate]
        exact fun hc => by cases hc
    have hplace : ∀ e' place, Function.update s.expiries e .idle e' = place → place ≠ .idle →
        s.expiries e' = place := by
      intro e' place he' hne
      rw [Function.update_apply] at he'
      split at he'
      · exact absurd he'.symm hne
      · exact he'
    refine { hcommit with staleExpiry := ?_, expirable := ?_, stored := ?_ }
    · exact fun hc => absurd (hstate.symm.trans hc) (by decide)
    · rintro e' seen' (hseen' | hseen')
      · exact h.expirable e' seen' (Or.inl (hplace e' _ hseen' nofun))
      · exact h.expirable e' seen' (Or.inr (hplace e' _ hseen' nofun))
    · exact fun hsucceeded => absurd (hstate.symm.trans hsucceeded) (by decide)
  · cases hs

theorem Inv.download {d : ℕ} (h : Inv s) (hs : download s d = some s') : Inv s' := by
  unfold QueryExport.download at hs
  split at hs
  · rename_i seen hseen
    cases hs
    have hcommit : Inv (s.commit seen seen.downloaded) := by
      apply h.commit
      · rw [downloaded_state]
        exact id
      · rw [downloaded_filePath]
        exact fun _ hne => hne
      · rw [downloaded_state, downloaded_filePath]
        exact h.stored
    exact { hcommit with }
  · cases hs

theorem Inv.openDownload {d : ℕ} (h : Inv s) (hs : openDownload s d = some s') : Inv s' := by
  unfold QueryExport.openDownload at hs
  split at hs
  · cases hs
    exact { h with }
  · cases hs

/-! ### Runs -/

variable {path : String} {format : Format} {expireAfter : ℕ} {a : Action}

theorem step_inv (h : Inv s) (hok : Heeds s a) (hs : step path format expireAfter s a = some s') : Inv s' := by
  cases a with
  | deliver w => exact h.deliver hs
  | claim w rows => exact h.claim hs
  | look w => exact h.look hs
  | report w => exact h.report hs
  | write w => exact h.write hs
  | load w => exact h.load hs
  | succeed w => exact h.succeed hs
  | raise w => exact h.raiseError hs
  | loadFailure w => exact h.loadFailure hs
  | fail w => exact h.fail hs
  | openCancel c => exact h.openCancel hs
  | cancel c => exact (h.cancel hs).1
  | openExpiry e => exact h.openExpiry hs
  | unlink e => exact h.unlink hok hs
  | expire e => exact h.expire hok.2 hs
  | openDownload d => exact h.openDownload hs
  | download d => exact h.download hs
  | tick =>
      cases hs
      exact { h with }

/-- The actions that store no state. -/
def Action.isQuiet : Action → Bool
  | .claim _ _ | .succeed _ | .fail _ | .cancel _ | .expire _ => false
  | _ => true

theorem step_quiet (ha : a.isQuiet = true) (hs : step path format expireAfter s a = some s') :
    s'.job.state = s.job.state := by
  cases a with
  | deliver w =>
      change deliver s w = some s' at hs
      unfold deliver at hs
      split at hs
      · split at hs <;> (cases hs; rfl)
      · cases hs
  | claim w rows | succeed w | fail w | cancel c | expire e => cases ha
  | look w =>
      change look s w = some s' at hs
      unfold look at hs
      split at hs
      · split at hs <;> (cases hs; rfl)
      · cases hs
  | report w =>
      change report s w = some s' at hs
      unfold report at hs
      split at hs
      · cases hs
        exact reported_state _ _ _
      · cases hs
  | write w =>
      change write s w = some s' at hs
      unfold write at hs
      split at hs <;> cases hs
      rfl
  | load w =>
      change load s w = some s' at hs
      unfold load at hs
      split at hs <;> cases hs
      rfl
  | raise w =>
      change raiseError s w = some s' at hs
      unfold raiseError at hs
      split at hs <;> cases hs
      all_goals rfl
  | loadFailure w =>
      change loadFailure s w = some s' at hs
      unfold loadFailure at hs
      split at hs <;> cases hs
      rfl
  | openCancel c =>
      change openCancel s c = some s' at hs
      unfold openCancel at hs
      split at hs <;> cases hs
      rfl
  | openExpiry e =>
      change openExpiry s e = some s' at hs
      unfold openExpiry at hs
      split at hs <;> cases hs
      rfl
  | unlink e =>
      change unlink s e = some s' at hs
      unfold unlink at hs
      split at hs <;> cases hs
      rfl
  | openDownload d =>
      change openDownload s d = some s' at hs
      unfold openDownload at hs
      split at hs <;> cases hs
      rfl
  | download d =>
      change download s d = some s' at hs
      unfold download at hs
      split at hs
      · cases hs
        exact downloaded_state _ _
      · cases hs
  | tick =>
      cases hs
      rfl

/-- The party that is about to store a state has not seen a cancellation that is stored. -/
theorem Inv.not_heeding (h : Inv s) (hc : s.job.state = .cancelled) (hw : (s.workers w).active = true)
    (hok : s.unseen (.worker w) = false) : False := by
  rw [h.staleWorker hc w hw] at hok
  cases hok

theorem step_cancelled (h : Inv s) (hok : Heeds s a) (hs : step path format expireAfter s a = some s')
    (hc : s.job.state = .cancelled) : s'.job.state = .cancelled := by
  cases ha : a.isQuiet with
  | true => rw [step_quiet ha hs, hc]
  | false =>
      cases a with
      | claim w rows =>
          change claim format s w rows = some s' at hs
          unfold claim at hs
          split at hs
          · rename_i hw
            exact (h.not_heeding hc (by rw [hw]; rfl) hok).elim
          · cases hs
      | succeed w =>
          change succeed path expireAfter s w = some s' at hs
          unfold succeed at hs
          split at hs
          · rename_i hw
            exact (h.not_heeding hc (by rw [hw]; rfl) hok).elim
          · cases hs
      | fail w =>
          change fail s w = some s' at hs
          unfold fail at hs
          split at hs
          · rename_i hw
            exact (h.not_heeding hc (by rw [hw]; rfl) hok).elim
          · cases hs
      | cancel c => exact (h.cancel hs).2
      | expire e =>
          change expire s e = some s' at hs
          unfold expire at hs
          split at hs
          · rename_i seen hseen
            have hunseen := h.staleExpiry hc e (by rw [hseen]; nofun)
            rw [hok.1] at hunseen
            cases hunseen
          · cases hs
      | _ => cases ha

theorem run_inv {as : List Action} (hrun : Run (step path format expireAfter) Heeds s as s')
    (h : Inv s) : Inv s' :=
  hrun.invariant h fun _ _ _ hok hs h => step_inv h hok hs

theorem run_cancelled {as : List Action} (hrun : Run (step path format expireAfter) Heeds s as s')
    (h : Inv s) (hc : s.job.state = .cancelled) : s'.job.state = .cancelled :=
  (hrun.invariant (I := fun s => Inv s ∧ s.job.state = .cancelled) ⟨h, hc⟩
    fun _ _ _ hok hs h => ⟨step_inv h.1 hok hs, step_cancelled h.1 hok hs h.2⟩).2

/-- In every state of a run that heeds the cancellations a succeeded job has its file, and a cancelled
one stays cancelled. -/
theorem export_heeded {as : List Action} (hrun : Run (step path format expireAfter) Heeds {} as s) :
    Downloadable s ∧ ∀ more s', Run (step path format expireAfter) Heeds s more s' →
      s.job.state = .cancelled → s'.job.state = .cancelled :=
  ⟨(run_inv hrun initial_inv).stored, fun _ _ hmore => run_cancelled hmore (run_inv hrun initial_inv)⟩

/-- A job is cancelled while its worker reads, and the next progress report ends the worker. -/
theorem export_heeded_cancelled : ∃ s, Run (step "query-export.csv" .csv 24) Heeds {}
    [.deliver 0, .claim 0 1000, .openCancel 0, .look 0, .cancel 0, .report 0, .look 0] s ∧
    s.job.state = .cancelled ∧ s.workers 0 = .done ∧
    ∀ more s', Run (step "query-export.csv" .csv 24) Heeds s more s' → s'.job.state = .cancelled := by
  have hrun : Run (step "query-export.csv" .csv 24) Heeds {}
      [.deliver 0, .claim 0 1000, .openCancel 0, .look 0, .cancel 0, .report 0, .look 0] _ :=
    .step trivial rfl (.step rfl rfl (.step trivial rfl (.step trivial rfl (.step trivial rfl
      (.step trivial rfl (.step trivial rfl (.refl _)))))))
  exact ⟨_, hrun, rfl, rfl, fun more s' hmore => (export_heeded hrun).2 more s' hmore rfl⟩

/-- The job is cancelled behind the last progress report, and the worker stores its success. -/
theorem export_overwritten : ∃ m s, Run (step "query-export.csv" .csv 24) Free {}
      [.deliver 0, .claim 0 3, .look 0, .report 0, .openCancel 0, .cancel 0] m ∧
    Run (step "query-export.csv" .csv 24) Free m [.write 0, .load 0, .succeed 0] s ∧
    m.job.state = .cancelled ∧ s.job.state = .succeeded :=
  exists_run_run (by decide +kernel)

end RecoveryService.QueryExport
