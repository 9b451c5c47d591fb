import RecoveryService.Lib.Admission
import RecoveryService.Sm4Batch.Jobs

/-! # The limits of the dispatcher

The three limits and the table lock are rules of admission.  The list a pass keeps fits them, and has
every active job in it, as long as nobody but the dispatcher makes a job active: a stop request and the
begin of a table loop have to find the job active that they make active. -/

namespace RecoveryService.Sm4Batch

open Runs JobState Admission

variable {job : ℕ → Job} {settings : Settings} {s s' : System} {i j : ℕ}

/-! ### The rules -/

/-- The classes of jobs that have a limit. -/
inductive LimitOf where
  | everything
  | connection (name : String)
  | database (connection name : String)

/-- Two jobs on one connection and database that list one source table. -/
def sharesTable (job : ℕ → Job) (i j : ℕ) : Bool :=
  (job i).connection = (job j).connection && (job i).database = (job j).database &&
    (job i).tables.any fun name => (job j).tables.contains name

theorem sharesTable_symm (job : ℕ → Job) (i j : ℕ) : sharesTable job i j = sharesTable job j i := by
  rw [Bool.eq_iff_iff]
  simp only [sharesTable, Bool.and_eq_true, decide_eq_true_eq, List.any_eq_true, List.contains_iff_mem]
  constructor <;> rintro ⟨⟨hconnection, hdatabase⟩, name, hi, hj⟩ <;>
    exact ⟨⟨hconnection.symm, hdatabase.symm⟩, name, hj, hi⟩

def rules (job : ℕ → Job) (settings : Settings) : Rules ℕ LimitOf where
  bound
    | .everything => settings.maxGlobal
    | .connection _ => settings.maxConnection
    | .database _ _ => settings.maxDatabase
  member
    | .everything, _ => true
    | .connection c, i => (job i).connection = c
    | .database c d, i => (job i).connection = c && (job i).database = d
  conflict := sharesTable job
  symm := sharesTable_symm job

/-- What the dispatcher tests before it reserves a job. -/
def Allows (job : ℕ → Job) (settings : Settings) (active : List ℕ) (j : ℕ) : Prop :=
  active.length < settings.maxGlobal ∧ isBlocked job settings j active = false

theorem lockedTables_eq (job : Job) : job.lockedTables = job.tables :=
  List.filter_eq_self.mpr fun name hname => by
    have hne : name ≠ "" := fun h => job.named (h ▸ hname)
    simpa using hne

theorem length_onConnection (active : List ℕ) : (onConnection job j active).length =
      active.countP ((rules job settings).member (.connection (job j).connection)) :=
  (List.countP_eq_length_filter).symm

theorem length_onDatabase (active : List ℕ) : (onDatabase job j active).length =
      active.countP ((rules job settings).member (.database (job j).connection (job j).database)) := by
  unfold onDatabase onConnection
  rw [List.filter_filter, ← List.countP_eq_length_filter]
  congr 1
  funext i
  simp [rules, Bool.and_comm]

theorem onDatabase_any (active : List ℕ) : ((onDatabase job j active).any fun i =>
      (job j).lockedTables.any fun name => (job i).lockedTables.contains name) = false ↔
      ∀ i ∈ active, sharesTable job j i = false := by
  unfold onDatabase onConnection
  simp only [lockedTables_eq, List.any_eq_false, List.mem_filter, decide_eq_true_eq]
  constructor
  · intro h i hi
    by_contra hshares
    simp only [sharesTable, Bool.not_eq_false, Bool.and_eq_true, decide_eq_true_eq] at hshares
    exact h i ⟨⟨hi, hshares.1.1.symm⟩, hshares.1.2.symm⟩ hshares.2
  · rintro h i ⟨⟨hi, hconnection⟩, hdatabase⟩ hany
    have hshares := h i hi
    simp only [sharesTable, hconnection, hdatabase, decide_true, Bool.true_and] at hshares
    rw [hshares] at hany
    cases hany

theorem allows_iff (active : List ℕ) : Allows job settings active j ↔ (rules job settings).Admits active j := by
  have heverything : active.countP ((rules job settings).member .everything) = active.length :=
    List.countP_eq_length.mpr fun _ _ => rfl
  unfold Allows isBlocked
  have hconnection := @length_onConnection job settings j active
  have hdatabase := @length_onDatabase job settings j active
  rw [hconnection, hdatabase]
  constructor
  · rintro ⟨hglobal, hblocked⟩
    split at hblocked
    · cases hblocked
    · next hconnection =>
        split at hblocked
        · cases hblocked
        · next hdatabase =>
            refine ⟨fun k hk => ?_, (onDatabase_any active).mp hblocked⟩
            cases k with
            | everything =>
                rw [heverything]
                exact hglobal
            | connection c =>
                have hc : (job j).connection = c := by simpa [rules] using hk
                subst hc
                exact not_le.mp hconnection
            | database c d =>
                have hcd : (job j).connection = c ∧ (job j).database = d := by simpa [rules] using hk
                obtain ⟨rfl, rfl⟩ := hcd
                exact not_le.mp hdatabase
  · intro h
    have hconnection : _ < settings.maxConnection :=
      h.room (.connection (job j).connection) (by simp [rules])
    have hdatabase : _ < settings.maxDatabase :=
      h.room (.database (job j).connection (job j).database) (by simp [rules])
    refine ⟨heverything ▸ h.room .everything rfl, ?_⟩
    rw [if_neg (not_le.mpr hconnection), if_neg (not_le.mpr hdatabase)]
    exact (onDatabase_any active).mpr h.apart

/-! ### The property -/

/-- The active jobs are within the limits, and no two of them list one table. -/
structure WithinLimits (job : ℕ → Job) (settings : Settings) (s : System) : Prop where
  everything : s.activeJobs.length ≤ settings.maxGlobal
  connection : ∀ c, (s.activeJobs.filter fun i => (job i).connection = c).length ≤ settings.maxConnection
  database : ∀ c d, (s.activeJobs.filter fun i =>
    (job i).connection = c ∧ (job i).database = d).length ≤ settings.maxDatabase
  tables : ∀ i ∈ s.activeJobs, ∀ k ∈ s.activeJobs, i ≠ k → (job i).connection = (job k).connection →
    (job i).database = (job k).database → ∀ name ∈ (job i).tables, name ∉ (job k).tables

theorem within_of_fits (h : (rules job settings).Fits s.activeJobs) : WithinLimits job settings s where
  everything := by
    have hbound : s.activeJobs.countP (fun _ => true) ≤ settings.maxGlobal := h.bounded .everything
    rwa [List.countP_true] at hbound
  connection c := by
    rw [← List.countP_eq_length_filter]
    exact h.bounded (.connection c)
  database c d := by
    rw [← List.countP_eq_length_filter]
    simpa [rules] using h.bounded (.database c d)
  tables i hi k hk hne hconnection hdatabase name hname hin := by
    have hapart : sharesTable job i k = false := h.apart i hi k hk hne
    simp only [sharesTable, hconnection, hdatabase, decide_true, Bool.true_and, List.any_eq_false,
      List.contains_iff_mem] at hapart
    exact hapart name hname hin

/-- Of the oldest queued jobs of the pass, those that the limits allow with the jobs it counts as active
were reserved, if they were in their window and still queued. -/
def Pass.Complete (job : ℕ → Job) (settings : Settings) (pass : Pass) : Prop :=
  ∀ j ∈ pass.oldest, Allows job settings pass.active j →
    (j, .reserved) ∈ pass.verdicts ∨ (j, .lost) ∈ pass.verdicts ∨
      (j, .outOfWindow) ∈ pass.verdicts ∧ ∃ now, (job j).inWindow now = false

/-! ### The condition -/

/-- A job that the action makes active without the dispatcher is active. -/
def TakesNoSlot (s : System) : Action → Prop
  | .commitStop c =>
      match s.stops c with
      | some (j, seen) =>
          seen = .queued ∨ seen = .reserved ∨ seen = .stopping ∨ (s.state j).isActive = true
      | none => True
  | .beginTables i =>
      match s.workers i with
      | .loaded j seen => seen = .running ∨ (s.state j).isActive = true
      | _ => True
  | _ => True

/-! ### The active jobs -/

theorem nodup_activeJobs : s.activeJobs.Nodup := List.nodup_range.filter _

theorem mem_activeJobs : j ∈ s.activeJobs ↔ j < s.count ∧ (s.state j).isActive = true := by
  simp [System.activeJobs, System.select]

/-- No job becomes active. -/
def Shrinks (s s' : System) : Prop :=
  s'.count = s.count ∧ ∀ j, (s'.state j).isActive = true → (s.state j).isActive = true

theorem Shrinks.activeJobs (h : Shrinks s s') : s'.activeJobs ⊆ s.activeJobs := fun j hj => by
  rw [mem_activeJobs] at hj ⊢
  exact ⟨h.1 ▸ hj.1, h.2 j hj.2⟩

theorem shrinks_refl : Shrinks s s := ⟨rfl, fun _ h => h⟩

variable {new : JobState}

theorem shrinks_write (h : new.isActive = true → (s.state j).isActive = true) : Shrinks s (s.write j new) := by
  refine ⟨rfl, fun k hk => ?_⟩
  by_cases hkj : k = j
  · subst hkj
    simp only [System.write, Function.update_self] at hk
    exact h hk
  · simpa [System.write, Function.update_of_ne hkj] using hk

variable {seen : JobState}

theorem shrinks_store (h : new ≠ seen → new.isActive = true → (s.state j).isActive = true) :
    Shrinks s (s.store j seen new) := by
  unfold System.store
  split
  · exact shrinks_refl
  · next hne => exact shrinks_write (h hne)

theorem shrinks_writeAll {js : List ℕ} (h : new.isActive = false) : Shrinks s (s.writeAll js new) := by
  refine ⟨rfl, fun k hk => ?_⟩
  simp only [System.writeAll] at hk
  split at hk
  · rw [h] at hk
    cases hk
  · exact hk

theorem shrinks_stop (h : seen = .queued ∨ seen = .reserved ∨ seen = .stopping ∨ (s.state j).isActive = true) :
    Shrinks s (s.store j seen (stopped seen)) := by
  refine shrinks_store fun hne hactive => ?_
  rcases h with rfl | rfl | rfl | h
  · cases hactive
  · cases hactive
  · exact absurd rfl hne
  · exact h

theorem dispatcher_store : (s.store j seen new).dispatcher = s.dispatcher := by
  unfold System.store
  split <;> rfl

/-- A step that leaves the dispatcher alone keeps the jobs or lets them leave. -/
theorem step_shrinks {a : Action} (hok : TakesNoSlot s a) (hs : step job settings s a = some s')
    (ha : match a with
      | .prepare | .openPass _ | .resetStale | .consider _ | .reach | .sendReturns | .sendRaises
      | .closePass | .loseDispatcher => False
      | _ => True) : Shrinks s s' ∧ s'.dispatcher = s.dispatcher := by
  cases a with
  | deliver i j =>
      simp only [step, deliver] at hs
      split at hs
      · split at hs
        · next hstate =>
            cases hs
            have hwrite : Shrinks s (s.write j .running) := shrinks_write fun _ => by rw [hstate]; rfl
            exact ⟨hwrite, rfl⟩
        · cases hs
          exact ⟨shrinks_refl, rfl⟩
      · cases hs
  | missProfile i =>
      simp only [step, missProfile] at hs
      split at hs
      · next j hplace =>
          cases hs
          have hwrite : Shrinks s (s.write j .failed) := shrinks_write nofun
          exact ⟨hwrite, rfl⟩
      · cases hs
  | load i =>
      simp only [step, load] at hs
      split at hs
      · split at hs
        · cases hs
          exact ⟨shrinks_refl, rfl⟩
        · split at hs <;> cases hs <;> exact ⟨shrinks_refl, rfl⟩
      · cases hs
  | leave i =>
      simp only [step, leave] at hs
      split at hs
      · next j seen hplace =>
          cases hs
          have hstore : Shrinks s (s.store j seen .stopped) := shrinks_store fun _ => nofun
          exact ⟨hstore, dispatcher_store⟩
      · cases hs
  | beginTables i =>
      simp only [step, beginTables] at hs
      split at hs
      · next j seen hplace =>
          simp only [TakesNoSlot, hplace] at hok
          cases hs
          have hstore : Shrinks s (s.store j seen .running) := shrinks_store fun hne _ =>
            hok.resolve_left fun h => hne h.symm
          exact ⟨hstore, dispatcher_store⟩
      · cases hs
  | look i =>
      simp only [step, look] at hs
      split at hs
      · split at hs
        · split at hs <;> cases hs <;> exact ⟨shrinks_refl, rfl⟩
        · cases hs
      · cases hs
  | tableSucceeds i =>
      simp only [step, tableSucceeds] at hs
      split at hs <;> cases hs
      exact ⟨shrinks_refl, rfl⟩
  | tableRaises i =>
      simp only [step, tableRaises] at hs
      split at hs
      · split at hs <;> cases hs <;> exact ⟨shrinks_refl, rfl⟩
      · cases hs
  | tail i =>
      simp only [step, tail] at hs
      split at hs
      · next j seen hplace =>
          cases hs
          have hstore : Shrinks s (s.store j seen (if seen = .cancelled then .cancelled else .stopped)) :=
            shrinks_store fun _ hactive => by split at hactive <;> cases hactive
          exact ⟨hstore, dispatcher_store⟩
      · cases hs
  | finish i =>
      simp only [step, finish] at hs
      split at hs
      · next j seen index success failure hplace =>
          split at hs
          · cases hs
          · cases hs
            have hstore : Shrinks s (s.store j seen (outcome success failure)) :=
              shrinks_store fun _ hactive => by
                unfold outcome at hactive
                split at hactive
                · cases hactive
                · split at hactive <;> cases hactive
            exact ⟨hstore, dispatcher_store⟩
      · cases hs
  | raise i =>
      simp only [step, raiseError] at hs
      split at hs
      case h_6 => cases hs
      all_goals
        next j seen _ =>
          cases hs
          exact ⟨(shrinks_store fun _ => nofun : Shrinks s (s.store _ _ .failed)), dispatcher_store⟩
  | loseWorker i | openRecovery r =>
      cases hs
      exact ⟨shrinks_refl, rfl⟩
  | openStop c j =>
      simp only [step, openStop] at hs
      split at hs <;> cases hs
      exact ⟨shrinks_refl, rfl⟩
  | commitStop c =>
      simp only [step, commitStop] at hs
      split at hs
      · next j seen hasked =>
          simp only [TakesNoSlot, hasked] at hok
          cases hs
          exact ⟨(shrinks_stop hok : Shrinks s (s.store j seen (stopped seen))), dispatcher_store⟩
      · cases hs
  | commitRecovery r =>
      simp only [step, commitRecovery] at hs
      split at hs
      · next requeued interrupted hread =>
          cases hs
          have hqueued : Shrinks s (s.writeAll requeued .queued) := shrinks_writeAll rfl
          have hfailed : Shrinks (s.writeAll requeued .queued)
              ((s.writeAll requeued .queued).writeAll interrupted .failed) := shrinks_writeAll rfl
          exact ⟨⟨rfl, fun j hj => hqueued.2 j (hfailed.2 j hj)⟩, rfl⟩
      · cases hs
  | _ => cases ha

/-! ### The invariant -/

/-- The list of a pass fits the limits, its loop goes over other jobs, and what it told about a job it
blocked still holds. -/
structure Pass.Sound (job : ℕ → Job) (settings : Settings) (count : ℕ) (pass : Pass) : Prop where
  nodup : pass.active.Nodup
  fits : (rules job settings).Fits pass.active
  available : pass.available = settings.maxGlobal - pass.active.length
  todo : pass.todo.Nodup
  apart : ∀ j ∈ pass.todo, j ∉ pass.active
  created : ∀ j ∈ pass.todo, j < count
  told : pass.oldest = pass.verdicts.map Prod.fst ++ pass.todo
  blocked : ∀ j, (j, .blocked) ∈ pass.verdicts → ¬ Allows job settings pass.active j
  window : ∀ j, (j, .outOfWindow) ∈ pass.verdicts → ∃ now, (job j).inWindow now = false

/-- The active jobs are in the list of the pass. -/
def Covers (job : ℕ → Job) (settings : Settings) (s : System) : DispatcherPlace → Prop
  | .idle => True
  | .resetting stale pass => pass.Sound job settings s.count ∧ s.activeJobs ⊆ pass.active ++ stale
  | .choosing pass => pass.Sound job settings s.count ∧ s.activeJobs ⊆ pass.active
  | .sending j pass =>
      pass.Sound job settings s.count ∧ s.activeJobs ⊆ j :: pass.active ∧ j ∉ pass.todo ∧
        j ∉ pass.active ∧ (rules job settings).Admits pass.active j

structure Fitting (job : ℕ → Job) (settings : Settings) (s : System) : Prop where
  beyond : ∀ j, s.count ≤ j → (s.state j).isActive = false
  fits : (rules job settings).Fits s.activeJobs
  covers : Covers job settings s s.dispatcher

theorem initial_fitting : Fitting job settings {} :=
  ⟨fun _ _ => rfl, Rules.fits_nil, trivial⟩

variable {pass : Pass}

theorem Pass.Sound.mono {count count' : ℕ} (h : pass.Sound job settings count) (hle : count ≤ count') :
    pass.Sound job settings count' :=
  ⟨h.nodup, h.fits, h.available, h.todo, h.apart, fun j hj => (h.created j hj).trans_le hle, h.told,
    h.blocked, h.window⟩

/-- What is left of the active jobs is still covered. -/
theorem Covers.mono {place : DispatcherPlace} (h : Covers job settings s place)
    (hcount : s.count ≤ s'.count) (hsub : s'.activeJobs ⊆ s.activeJobs) : Covers job settings s' place := by
  cases place with
  | idle => trivial
  | resetting stale pass | choosing pass => exact ⟨h.1.mono hcount, List.Subset.trans hsub h.2⟩
  | sending j pass => exact ⟨h.1.mono hcount, List.Subset.trans hsub h.2.1, h.2.2⟩

theorem Fitting.mono (h : Fitting job settings s) (hcount : s.count ≤ s'.count)
    (hbeyond : ∀ j, s'.count ≤ j → (s'.state j).isActive = false)
    (hsub : s'.activeJobs ⊆ s.activeJobs) (hdispatcher : s'.dispatcher = s.dispatcher) :
    Fitting job settings s' :=
  ⟨hbeyond, h.fits.subset nodup_activeJobs hsub, hdispatcher ▸ h.covers.mono hcount hsub⟩

theorem Fitting.shrinks (h : Fitting job settings s) (hshrinks : Shrinks s s')
    (hdispatcher : s'.dispatcher = s.dispatcher) : Fitting job settings s' := by
  refine h.mono hshrinks.1.ge (fun j hj => ?_) hshrinks.activeJobs hdispatcher
  have hbefore := h.beyond j (hshrinks.1 ▸ hj)
  cases hactive : (s'.state j).isActive with
  | false => rfl
  | true => rw [hshrinks.2 j hactive] at hbefore; cases hbefore

/-- The dispatcher goes on, while no job becomes active. -/
theorem Fitting.goes (h : Fitting job settings s) (hshrinks : Shrinks s s')
    (hcovers : Covers job settings s' s'.dispatcher) : Fitting job settings s' := by
  have hfitting : Fitting job settings { s' with dispatcher := s.dispatcher } := h.shrinks hshrinks rfl
  exact ⟨hfitting.beyond, hfitting.fits, hcovers⟩

/-! ### The steps of the dispatcher -/

theorem Fitting.prepare (h : Fitting job settings s) :
    Fitting job settings { s with count := s.count + 1 } := by
  refine h.mono (Nat.le_succ _) (fun j hj => h.beyond j (Nat.le_of_succ_le hj)) (fun j hj => ?_) rfl
  rw [mem_activeJobs] at hj ⊢
  refine ⟨?_, hj.2⟩
  by_contra hle
  have hnot := h.beyond j (by omega)
  rw [hj.2] at hnot
  cases hnot

theorem openPass_sound (h : Fitting job settings s) {stale oldest : List ℕ}
    (holdest : oldest = ((List.range s.count).filter fun j => s.state j = .queued ∨ j ∈ stale).take 50) :
    Pass.Sound job settings s.count
      { active := s.activeJobs.filter (· ∉ stale)
        available := settings.maxGlobal - (s.activeJobs.filter (· ∉ stale)).length
        todo := oldest, oldest := oldest } := by
  have hmem : ∀ j ∈ oldest, j < s.count ∧ (s.state j = .queued ∨ j ∈ stale) := fun j hj => by
    have hj := List.mem_of_mem_take (holdest ▸ hj)
    simpa using hj
  constructor
  · exact nodup_activeJobs.filter _
  · exact h.fits.subset (nodup_activeJobs.filter _) List.filter_sublist.subset
  · rfl
  · rw [holdest]
    exact ((List.nodup_range.filter _).sublist (List.take_sublist _ _))
  · intro j hj hactive
    simp only [List.mem_filter, mem_activeJobs, decide_eq_true_eq] at hactive
    rcases (hmem j hj).2 with hqueued | hstale
    · rw [hqueued] at hactive
      cases hactive.1.2
    · exact hactive.2 hstale
  · exact fun j hj => (hmem j hj).1
  · rfl
  · nofun
  · nofun

/-- A job of the loop that is told about, but not reserved. -/
theorem Pass.Sound.tells {rest : List ℕ} {verdict : Verdict} (h : pass.Sound job settings s.count)
    (htodo : pass.todo = j :: rest) (hblocked : verdict = .blocked → ¬ Allows job settings pass.active j)
    (hwindow : verdict = .outOfWindow → ∃ now, (job j).inWindow now = false) : Pass.Sound job settings s.count
      { pass with todo := rest, verdicts := pass.verdicts ++ [(j, verdict)] } := by
  have htail : ∀ k ∈ rest, k ∈ pass.todo := fun k hk => htodo ▸ List.mem_cons_of_mem j hk
  have hold : ∀ k v, (k, v) ∈ pass.verdicts ++ [(j, verdict)] → (k, v) ∈ pass.verdicts ∨ k = j ∧ v = verdict := by
    intro k v hkv
    simpa using hkv
  constructor
  · exact h.nodup
  · exact h.fits
  · exact h.available
  · have hnodup := h.todo
    rw [htodo] at hnodup
    exact hnodup.of_cons
  · exact fun k hk => h.apart k (htail k hk)
  · exact fun k hk => h.created k (htail k hk)
  · simp [h.told, htodo]
  · intro k hk
    rcases hold k _ hk with hk | ⟨rfl, hv⟩
    · exact h.blocked k hk
    · exact hblocked hv.symm
  · intro k hk
    rcases hold k _ hk with hk | ⟨rfl, hv⟩
    · exact h.window k hk
    · exact hwindow hv.symm

theorem Fitting.openPass (h : Fitting job settings s) {stale : List ℕ}
    (hs : openPass settings s stale = some s') : Fitting job settings s' := by
  unfold Sm4Batch.openPass at hs
  split at hs
  · cases hs
    refine h.goes (shrinks_refl : Shrinks s s) ⟨openPass_sound h rfl, fun j hj => ?_⟩
    by_cases hstale : j ∈ stale
    · exact List.mem_append_right _ hstale
    · exact List.mem_append_left _ (List.mem_filter.mpr ⟨hj, by simpa using hstale⟩)
  · cases hs

theorem Fitting.resetStale (h : Fitting job settings s) (hs : resetStale s = some s') :
    Fitting job settings s' := by
  unfold Sm4Batch.resetStale at hs
  split at hs
  · next stale pass hplace =>
      obtain ⟨hsound, hsub⟩ : Covers job settings s (.resetting stale pass) := hplace ▸ h.covers
      cases hs
      have hshrinks : Shrinks s (s.writeAll stale .queued) := shrinks_writeAll rfl
      refine h.goes hshrinks ⟨hsound, fun j hj => ?_⟩
      have hnot : j ∉ stale := fun hmem => by
        have hactive := (mem_activeJobs.mp hj).2
        simp [System.dispatch, System.writeAll, hmem, isActive] at hactive
      exact (List.mem_append.mp (hsub (hshrinks.activeJobs hj))).resolve_right hnot
  · cases hs

theorem Fitting.consider (h : Fitting job settings s) {now : ℕ}
    (hs : consider job settings s now = some s') : Fitting job settings s' := by
  unfold Sm4Batch.consider at hs
  split at hs
  · next active available j rest oldest verdicts hplace =>
      obtain ⟨hsound, hsub⟩ : Covers job settings s (.choosing ⟨active, available, j :: rest, oldest,
        verdicts⟩) := hplace ▸ h.covers
      split at hs
      · cases hs
      · next havailable =>
          split at hs
          · next hwindow =>
              cases hs
              exact h.goes (shrinks_refl : Shrinks s s)
                ⟨hsound.tells rfl nofun fun _ => ⟨now, hwindow⟩, hsub⟩
          · split at hs
            · next hblocked =>
                cases hs
                refine h.goes (shrinks_refl : Shrinks s s) ⟨hsound.tells rfl (fun _ hallows => ?_) nofun, hsub⟩
                rw [hallows.2] at hblocked
                cases hblocked
            · next hblocked =>
                split at hs
                · next hqueued =>
                    cases hs
                    have hlength : active.length < settings.maxGlobal := by
                      have heq : available = settings.maxGlobal - active.length := hsound.available
                      omega
                    have hadmits := (allows_iff active).mp ⟨hlength, by simpa using hblocked⟩
                    have hnew : j ∉ active := hsound.apart j List.mem_cons_self
                    have hrest : j ∉ rest := (List.nodup_cons.mp hsound.todo).1
                    have hmore : (s.write j .reserved).activeJobs ⊆ j :: active := by
                      intro k hk
                      rw [mem_activeJobs] at hk
                      by_cases hkj : k = j
                      · exact hkj ▸ List.mem_cons_self
                      · simp only [System.write, Function.update_of_ne hkj] at hk
                        exact List.mem_cons_of_mem j (hsub (mem_activeJobs.mpr hk))
                    refine ⟨fun k hk => ?_, ?_, hsound.tells rfl nofun nofun, hmore, hrest, hnew, hadmits⟩
                    · have hkj : k ≠ j := fun heq => by
                        have hcreated := hsound.created j List.mem_cons_self
                        have hle : s.count ≤ k := hk
                        omega
                      simp only [System.dispatch, System.write, Function.update_of_ne hkj]
                      exact h.beyond k hk
                    · exact (hsound.fits.cons hadmits).subset nodup_activeJobs hmore
                · cases hs
                  exact h.goes (shrinks_refl : Shrinks s s) ⟨hsound.tells rfl nofun nofun, hsub⟩
  · cases hs

theorem Fitting.sendReturns (h : Fitting job settings s) (hs : sendReturns s = some s') :
    Fitting job settings s' := by
  unfold Sm4Batch.sendReturns at hs
  split at hs
  · next j pass hplace =>
      obtain ⟨hsound, hsub, hrest, hnew, hadmits⟩ : Covers job settings s (.sending j pass) :=
        hplace ▸ h.covers
      split at hs
      · cases hs
        have hperm : (pass.active ++ [j]).Perm (j :: pass.active) := List.perm_append_singleton _ _
        have hmore : pass.active.Sublist (pass.active ++ [j]) := List.sublist_append_left _ _
        refine h.goes (shrinks_refl : Shrinks s s) ⟨?_, fun k hk => hperm.symm.subset (hsub hk)⟩
        constructor
        · exact hperm.nodup_iff.mpr (List.nodup_cons.mpr ⟨hnew, hsound.nodup⟩)
        · exact (hsound.fits.cons hadmits).perm hperm
        · have heq := hsound.available
          simp only [List.length_append, List.length_singleton]
          omega
        · exact hsound.todo
        · intro k hk hmem
          rcases List.mem_cons.mp (hperm.subset hmem) with rfl | hactive
          · exact hrest hk
          · exact hsound.apart k hk hactive
        · exact hsound.created
        · exact hsound.told
        · intro k hk hallows
          refine hsound.blocked k hk ((allows_iff _).mpr ?_)
          exact ((allows_iff _).mp hallows).sublist hmore
        · exact hsound.window
      · cases hs
  · cases hs

theorem Fitting.sendRaises (h : Fitting job settings s) (hs : sendRaises s = some s') :
    Fitting job settings s' := by
  unfold Sm4Batch.sendRaises at hs
  split at hs
  · next j pass hplace =>
      obtain ⟨hsound, hsub, -⟩ : Covers job settings s (.sending j pass) := hplace ▸ h.covers
      cases hs
      have hshrinks : Shrinks s (s.write j .queued) := shrinks_write nofun
      refine h.goes hshrinks ⟨hsound, fun k hk => ?_⟩
      have hkj : k ≠ j := by
        rintro rfl
        have hactive := (mem_activeJobs.mp hk).2
        simp [System.dispatch, System.write, isActive] at hactive
      exact (List.mem_cons.mp (hsub (hshrinks.activeJobs hk))).resolve_left hkj
  · cases hs

theorem step_fitting {a : Action} (h : Fitting job settings s) (hok : TakesNoSlot s a)
    (hs : step job settings s a = some s') : Fitting job settings s' := by
  cases a with
  | prepare =>
      cases hs
      exact h.prepare
  | openPass stale => exact h.openPass hs
  | resetStale => exact h.resetStale hs
  | consider now => exact h.consider hs
  | reach =>
      simp only [step, reach] at hs
      split at hs
      · next j pass hplace =>
          cases hs
          exact h.shrinks (shrinks_refl : Shrinks s s) rfl
      · cases hs
  | sendReturns => exact h.sendReturns hs
  | sendRaises => exact h.sendRaises hs
  | closePass =>
      simp only [step, closePass] at hs
      split at hs
      · split at hs
        · cases hs
          exact h.goes (shrinks_refl : Shrinks s s) trivial
        · cases hs
      · cases hs
  | loseDispatcher =>
      cases hs
      exact h.goes (shrinks_refl : Shrinks s s) trivial
  | _ =>
      obtain ⟨hshrinks, hdispatcher⟩ := step_shrinks hok hs trivial
      exact h.shrinks hshrinks hdispatcher

/-! ### Runs -/

theorem Pass.Sound.complete {count : ℕ} (h : pass.Sound job settings count) (hover : pass.over) :
    pass.Complete job settings := by
  intro j hj hallows
  have htodo : pass.todo = [] := by
    refine hover.resolve_right fun havailable => ?_
    have hlength := hallows.1
    have heq := h.available
    omega
  rw [h.told, htodo, List.append_nil, List.mem_map] at hj
  obtain ⟨⟨k, verdict⟩, hmem, rfl⟩ := hj
  cases verdict with
  | outOfWindow => exact .inr (.inr ⟨hmem, h.window k hmem⟩)
  | blocked => exact absurd hallows (h.blocked k hmem)
  | lost => exact .inr (.inl hmem)
  | reserved => exact .inl hmem

/-- In every state of a run in which only the dispatcher makes a job active the active jobs are within
the limits, and a pass that is through its loop has reserved every job the limits allow. -/
theorem dispatched_within {as : List Action} (hrun : Run (step job settings) TakesNoSlot {} as s) :
    WithinLimits job settings s ∧
      ∀ pass, s.dispatcher = .choosing pass → pass.over → pass.Complete job settings := by
  have h : Fitting job settings s :=
    hrun.invariant initial_fitting fun _ _ _ hok hs h => step_fitting h hok hs
  refine ⟨within_of_fits h.fits, fun pass hplace hover => ?_⟩
  obtain ⟨hsound, -⟩ : Covers job settings s (.choosing pass) := hplace ▸ h.covers
  exact hsound.complete hover

/-- Of two jobs the first is reserved and runs, and the pass leaves no room for the second. -/
theorem dispatched_within_first : ∃ s, Run (step oneTable oneWorker) TakesNoSlot {}
    [.prepare, .prepare, .openPass [], .resetStale, .consider 0, .reach, .deliver 0 0, .load 0,
      .beginTables 0, .sendReturns] s ∧
    s.activeJobs = [0] ∧ WithinLimits oneTable oneWorker s ∧
    ∀ pass, s.dispatcher = .choosing pass → pass.Complete oneTable oneWorker := by
  have hrun : Run (step oneTable oneWorker) TakesNoSlot {}
      [.prepare, .prepare, .openPass [], .resetStale, .consider 0, .reach, .deliver 0 0, .load 0,
        .beginTables 0, .sendReturns] _ :=
    .step trivial rfl (.step trivial rfl (.step trivial rfl (.step trivial rfl (.step trivial rfl
      (.step trivial rfl (.step trivial rfl (.step trivial rfl (.step (.inl rfl) rfl (.step trivial rfl
      (.refl _))))))))))
  refine ⟨_, hrun, rfl, (dispatched_within hrun).1, fun pass hplace => ?_⟩
  refine (dispatched_within hrun).2 pass hplace ?_
  cases hplace
  exact .inr rfl

/-- The message of the first job is delivered, but sending it raises: the second job is reserved, and the
worker of the first begins its tables. -/
theorem resent_exceeds : ∃ s, Run (step oneTable oneWorker) Free {}
    [.prepare, .prepare, .openPass [], .resetStale, .consider 0, .reach, .deliver 0 0, .sendRaises,
      .consider 0, .load 0, .beginTables 0] s ∧
    s.activeJobs = [0, 1] ∧ ¬ WithinLimits oneTable oneWorker s := by
  obtain ⟨s, hrun, hactive⟩ : ∃ s, Run (step oneTable oneWorker) Free {}
      [.prepare, .prepare, .openPass [], .resetStale, .consider 0, .reach, .deliver 0 0, .sendRaises,
        .consider 0, .load 0, .beginTables 0] s ∧ s.activeJobs = [0, 1] :=
    exists_run (by decide +kernel)
  refine ⟨s, hrun, hactive, fun h => ?_⟩
  have hlength := h.everything
  rw [hactive] at hlength
  exact absurd hlength (by decide)

end RecoveryService.Sm4Batch
