import RecoveryService.AutoImport.Tool

/-! # Runs that see the stop request

Until a command sees `stop.request` nothing is different; from then on `run_process` refuses every command
and changes nothing (`spec_refused`).  What is left to follow are the handlers: most let the exception through to
`main`, three queries turn it into another one, and the clean-up of the work directory, which itself needs
commands, logs it and gives up. -/

namespace RecoveryService.AutoImport

open Program

namespace Job

variable (j : Job)

/-- The DIRECTORY of the run and its work files are gone. -/
def Removed (w : Container) : Prop :=
  w.workDir = false ∧ ∀ path ∈ w.directory, rstripSlash path ≠ j.workDirectory

/-- What is promised once the request was seen: no command starts, `main` ends with 130 and the report
`stopped`, without the lock and with the work directory removed. -/
def Heeded (r : Except Failure ℕ × State) : Prop :=
  ∀ v ∈ r.2.seen, r.2.started.length = v.started ∧ r.1 = .ok 130 ∧ (∃ m, r.2.report = some (.stopped m)) ∧
    r.2.locked = false ∧ (j.removesWork → j.Removed r.2.container)

/-- The queries whose exceptions end as another error: `v$pdbs`, the test of the connection `main` has
switched to, and the write check of a DIRECTORY. -/
def masks : Command → Bool
  | .openPdbs => true
  | .conName connect => decide (connect ≠ j.connect)
  | .writeCheck _ => true
  | _ => false

/-! ### Before and behind the request -/

/-- The request was not seen yet. -/
structure Unseen (s : State) : Prop where
  seen : s.seen = none
  finishing : s.finishing = false

/-- The request was seen by `v`, and nothing has changed since. -/
structure SeenBy (v : Seen) (s : State) : Prop where
  seen : s.seen = some v
  requested : j.stopRequested (2 * s.calls) = true
  started : s.started.length = v.started
  container : s.container = v.container
  finishing : v.finishing = false

/-- A program whose one command is `c` has raised. -/
def RaisedBy (c : Command) : Failure → State → Prop
  | .stopRequested _, s => ∃ v, j.SeenBy v s ∧ v.command = c
  | .error _, s => Unseen s

/-- A program has raised, `masked` where it has queries that mask the request. -/
def Raised (masked : Prop) : Failure → State → Prop
  | .stopRequested _, s => ∃ v, j.SeenBy v s ∧ j.masks v.command = false
  | .error _, s => Unseen s ∨ masked ∧ ∃ v, j.SeenBy v s ∧ j.masks v.command = true

/-- The program starts no command but `c`. -/
def Asks {α : Type} (c : Command) (x : Program State Failure α) : Prop :=
  Spec Unseen x (fun _ => Unseen) (j.RaisedBy c)

/-- The program lets the stop request through, but for the queries that mask it. -/
def Heeds {α : Type} (masked : Prop) (x : Program State Failure α) : Prop :=
  Spec Unseen x (fun _ => Unseen) (j.Raised masked)

/-- The program has been refused. -/
def RefusedBy (v : Seen) : Failure → State → Prop
  | .stopRequested _, s => j.SeenBy v s
  | .error _, _ => False

/-- Once the request was seen, the program does nothing. -/
def Refused {α : Type} (x : Program State Failure α) : Prop :=
  ∀ v, Spec (j.SeenBy v) x (fun _ _ => False) (j.RefusedBy v)

variable {j} {masked : Prop} {α β : Type} {c : Command} {x : Program State Failure α} {v : Seen}

theorem stopRequested_mono {m n : ℕ} (h : j.stopRequested m = true) (hmn : m ≤ n) :
    j.stopRequested n = true := by
  unfold stopRequested at h ⊢
  cases hs : j.stopAt with
  | none => rw [hs] at h; cases h
  | some t =>
      rw [hs, Option.any_some, decide_eq_true_eq] at h
      rw [Option.any_some, decide_eq_true_eq]
      omega

/-- The command that sees the request first is recorded. -/
theorem see_seenBy {s : State} (hs : Unseen s) (hrequested : j.stopRequested (2 * s.calls) = true) :
    ∃ v, j.SeenBy v (s.see c) ∧ v.command = c := by
  refine ⟨⟨c, s.finishing, s.started.length, s.container⟩, ⟨?_, hrequested, rfl, rfl, hs.finishing⟩, rfl⟩
  rw [State.see, hs.seen]
  rfl

theorem asks_run (c : Command) : j.Asks c (j.runProcess c) := by
  constructor
  intro s hs
  simp only [runProcess]
  by_cases hcheck : j.stopRequested (2 * s.calls) = true
  · rw [if_pos hcheck]
    refine see_seenBy ⟨hs.seen, hs.finishing⟩ ?_
    exact stopRequested_mono hcheck (Nat.mul_le_mul_left 2 (Nat.le_succ s.calls))
  · rw [if_neg hcheck]
    by_cases hpoll : j.stopRequested (2 * s.calls + 1) = true
    · rw [if_pos hpoll]
      refine see_seenBy ⟨hs.seen, hs.finishing⟩ (stopRequested_mono hpoll ?_)
      change 2 * s.calls + 1 ≤ 2 * (s.calls + 1)
      omega
    · rw [if_neg hpoll]
      exact ⟨hs.seen, hs.finishing⟩

theorem refused_run (c : Command) : j.Refused (j.runProcess c) := by
  intro v
  constructor
  intro s hs
  simp only [runProcess]
  rw [if_pos hs.requested]
  refine ⟨?_, ?_, hs.started, hs.container, hs.finishing⟩
  · simp only [State.see, hs.seen]
    rfl
  · exact stopRequested_mono hs.requested (Nat.mul_le_mul_left 2 (Nat.le_succ s.calls))

/-! ### Rules -/

theorem Asks.heeds (h : j.Asks c x) (hc : j.masks c = false) : j.Heeds masked x := by
  refine h.mono (fun _ hs => hs) (fun _ _ hs => hs) fun e s hs => ?_
  cases e with
  | stopRequested m =>
      obtain ⟨v, hv, rfl⟩ := hs
      exact ⟨v, hv, hc⟩
  | error m => exact .inl hs

theorem heeds_pure (a : α) : j.Heeds masked (pure a) := spec_pure fun _ hs => hs

theorem heeds_fail (message : String) : j.Heeds masked (fail message : Program State Failure α) :=
  spec_raise fun _ hs => .inl hs

variable {f : α → Program State Failure β}

theorem heeds_bind (hx : j.Heeds masked x) (hf : ∀ a, j.Heeds masked (f a)) :
    j.Heeds masked (x >>= f) := spec_bind hx hf

theorem heeds_ite {p : Prop} [Decidable p] {y : Program State Failure α} (hx : j.Heeds masked x) (hy : j.Heeds masked y) :
    j.Heeds masked (if p then x else y) := by
  split
  · exact hx
  · exact hy

theorem heeds_onlyIf {p : Prop} [Decidable p] {x : Program State Failure Unit} (hx : j.Heeds masked x) :
    j.Heeds masked (onlyIf p x) := heeds_ite hx (heeds_pure ())

theorem heeds_forM {γ : Type} {l : List γ} {f : γ → Program State Failure Unit} (h : ∀ a, j.Heeds masked (f a)) :
    j.Heeds masked (l.forM f) := spec_forM fun a _ => h a

theorem heeds_state : j.Heeds masked (state : Program State Failure State) := spec_state fun _ hs => hs

theorem heeds_call (r : Except String α) : j.Heeds masked (call r) := by
  cases r with
  | ok a => exact heeds_pure a
  | error message => exact heeds_fail message

theorem asks_bind (hx : j.Asks c x) (hf : ∀ a, Spec Unseen (f a) (fun _ => Unseen) (j.RaisedBy c)) :
    j.Asks c (x >>= f) := spec_bind hx hf

theorem asks_pure (a : α) : j.Asks c (pure a) := spec_pure fun _ hs => hs

theorem asks_onlyIf_fail {p : Prop} [Decidable p] (message : String) :
    j.Asks c (onlyIf p (fail message : Program State Failure Unit)) := by
  unfold onlyIf
  split
  · exact spec_raise fun _ hs => hs
  · exact asks_pure ()

/-- A query whose exceptions end as another error. -/
theorem Asks.heeds_orElse (h : j.Asks c x) (hc : j.masks c = true) (message : Failure → String) :
    j.Heeds True (orElse x fun e => fail (message e)) := by
  refine spec_attempt h (fun e handler hh => ?_) fun e hn => by cases hn
  rw [← Option.some.inj hh]
  refine spec_raise fun s hs => ?_
  cases e with
  | stopRequested m =>
      obtain ⟨v, hv, rfl⟩ := hs
      exact .inr ⟨trivial, v, hv, hc⟩
  | error m => exact .inl hs

theorem refused_bind (hx : j.Refused x) : j.Refused (x >>= f) :=
  fun v => spec_bind (hx v) fun _ => ⟨fun _ hs => hs.elim⟩

/-! ### Commands -/

theorem asks_sqlplus (c : Command) : j.Asks c (j.sqlplus c) :=
  asks_bind (asks_run c) fun _ => asks_bind (asks_onlyIf_fail _) fun _ => asks_pure _

theorem asks_sqlStatement (c : Command) : j.Asks c (j.sqlStatement c) :=
  asks_bind (asks_sqlplus c) fun _ => asks_pure _

theorem asks_sqlFirstValue (c : Command) : j.Asks c (j.sqlFirstValue c) :=
  asks_bind (asks_sqlplus c) fun _ => asks_pure _

theorem asks_checked (c : Command) (message : Answer → String) : j.Asks c (j.checked c message) :=
  asks_bind (asks_run c) fun _ => asks_onlyIf_fail _

theorem heeds_run (h : j.masks c = false) : j.Heeds masked (j.runProcess c) := (asks_run c).heeds h

theorem heeds_sqlplus (h : j.masks c = false) : j.Heeds masked (j.sqlplus c) := (asks_sqlplus c).heeds h

theorem heeds_sqlStatement (h : j.masks c = false) : j.Heeds masked (j.sqlStatement c) :=
  (asks_sqlStatement c).heeds h

theorem heeds_checked (h : j.masks c = false) (message : Answer → String) : j.Heeds masked (j.checked c message) :=
  (asks_checked c message).heeds h

theorem heeds_directoryPath (object : DirectoryObject) : j.Heeds masked (j.directoryPath object) :=
  (asks_sqlFirstValue _).heeds rfl

theorem heeds_output (h : j.masks c = false) : j.Heeds masked (j.output c) :=
  heeds_bind (heeds_run h) fun _ => heeds_pure _

theorem refused_directoryPath (object : DirectoryObject) : j.Refused (j.directoryPath object) :=
  refused_bind (refused_bind (refused_run _))

theorem refused_checked (c : Command) (message : Answer → String) : j.Refused (j.checked c message) :=
  refused_bind (refused_run c)

/-! ### Stages -/

theorem heeds_createDirectory (object : DirectoryObject) (path : Text) :
    j.Heeds masked (j.createDirectory object path) := heeds_sqlStatement rfl

theorem heeds_verifyDirectory (object : DirectoryObject) (path : Text) :
    j.Heeds True (j.verifyDirectory object path) :=
  heeds_bind (heeds_directoryPath object) fun _ => heeds_bind (heeds_onlyIf (heeds_fail _)) fun _ =>
    heeds_bind (heeds_checked rfl _) fun _ => (asks_sqlStatement _).heeds_orElse rfl _

theorem heeds_verifyDumpDirectory (files : List Text) : j.Heeds masked (j.verifyDumpDirectory files) :=
  heeds_bind (heeds_directoryPath .dump) fun _ => heeds_bind (heeds_onlyIf (heeds_fail _)) fun _ =>
    heeds_bind (heeds_checked rfl _) fun _ => heeds_sqlStatement rfl

theorem heeds_ensureReusableDumpDirectory (files : List Text) :
    j.Heeds masked (j.ensureReusableDumpDirectory files) := by
  refine heeds_bind (heeds_directoryPath .dump) fun existing => heeds_ite ?_ ?_
  · exact heeds_bind (heeds_onlyIf (heeds_fail _)) fun _ => heeds_bind (heeds_sqlStatement rfl) fun _ =>
      heeds_verifyDumpDirectory files
  · exact heeds_bind (heeds_createDirectory _ _) fun _ => heeds_verifyDumpDirectory files

theorem heeds_copyDumpToContainer (files : List Text) : j.Heeds masked (j.copyDumpToContainer files) :=
  heeds_bind (heeds_checked rfl _) fun _ => heeds_forM fun _ => heeds_checked rfl _

theorem heeds_replaceDirectory (old : Text) : j.Heeds masked (j.replaceDirectory old) := by
  refine heeds_bind (heeds_onlyIf (heeds_fail _)) fun _ => heeds_ite ?_ (heeds_ite ?_ (heeds_fail _))
  · exact heeds_bind (heeds_checked rfl _) fun _ => heeds_sqlStatement rfl
  · exact heeds_sqlStatement rfl

theorem heeds_cleanupDirectoryObject : j.Heeds masked j.cleanupDirectoryObject :=
  heeds_bind (heeds_directoryPath .work) fun old => heeds_onlyIf (heeds_replaceDirectory old)

theorem heeds_getDatafileDir : j.Heeds masked j.getDatafileDir :=
  heeds_ite (heeds_pure _) (heeds_bind ((asks_sqlFirstValue _).heeds rfl) fun _ => heeds_pure _)

theorem heeds_copyText (path : Text) : j.Heeds masked (j.copyText path) :=
  heeds_bind (heeds_run rfl) fun _ => heeds_pure _

theorem heeds_probeAttempt (number : ℕ) (excludeComment : Bool) :
    j.Heeds masked (j.probeAttempt number excludeComment) :=
  heeds_bind (heeds_checked rfl _) fun _ => heeds_bind (heeds_run rfl) fun _ =>
    heeds_bind (heeds_output rfl) fun _ => heeds_bind (heeds_output rfl) fun _ =>
      heeds_bind (heeds_copyText _) fun _ => heeds_bind (heeds_copyText _) fun _ => heeds_pure _

theorem heeds_firstAttempts : j.Heeds True j.firstAttempts := by
  refine heeds_bind (heeds_probeAttempt 1 false) fun p => heeds_ite ?_ (heeds_pure _)
  exact heeds_bind (heeds_createDirectory _ _) fun _ => heeds_bind (heeds_verifyDirectory _ _) fun _ =>
    heeds_bind (heeds_probeAttempt 2 false) fun _ => heeds_pure _

theorem heeds_legacyAttempt (attempts : ℕ) : j.Heeds masked (j.legacyAttempt attempts) :=
  heeds_bind (heeds_run rfl) fun _ => heeds_bind (heeds_output rfl) fun _ =>
    heeds_bind (heeds_copyText _) fun _ => heeds_ite (heeds_pure _) (heeds_pure _)

theorem heeds_byFailure (failureCode : String) (attempts : ℕ) : j.Heeds masked (j.byFailure failureCode attempts) :=
  heeds_ite (heeds_pure _) (heeds_ite (heeds_pure _) (heeds_legacyAttempt attempts))

theorem heeds_probeDump : j.Heeds True j.probeDump := by
  refine heeds_bind heeds_firstAttempts fun p => heeds_ite (heeds_pure _) (heeds_ite ?_ (heeds_byFailure _ _))
  exact heeds_bind (heeds_probeAttempt _ true) fun retry => heeds_ite (heeds_pure _) (heeds_byFailure _ _)

theorem heeds_ensureSafe (kind : String) (protectedNames : List String) (name : Text) :
    j.Heeds masked (ensureSafe kind protectedNames name) := heeds_onlyIf (heeds_fail _)

theorem heeds_found (h : j.masks c = false) : j.Heeds masked (j.found c) :=
  heeds_bind (heeds_bind (heeds_sqlplus h) fun _ => heeds_pure _) fun _ => heeds_pure _

theorem heeds_cleanupTargets (plan : ImportPlan) : j.Heeds masked (j.cleanupTargets plan) := by
  refine heeds_bind (heeds_forM fun user => ?_) fun _ => heeds_forM fun tablespace => ?_
  · exact heeds_bind (heeds_ensureSafe _ _ _) fun _ => heeds_bind (heeds_found rfl) fun _ =>
      heeds_onlyIf (heeds_bind (heeds_onlyIf (heeds_fail _)) fun _ => heeds_sqlStatement rfl)
  · exact heeds_bind (heeds_ensureSafe _ _ _) fun _ => heeds_bind (heeds_found rfl) fun _ =>
      heeds_onlyIf (heeds_bind (heeds_onlyIf (heeds_fail _)) fun _ => heeds_sqlStatement rfl)

theorem heeds_prepareTargets (plan : ImportPlan) : j.Heeds masked (j.prepareTargets plan) := by
  refine heeds_bind (heeds_forM fun tablespace => ?_) fun _ => heeds_forM fun user => ?_
  · exact heeds_bind (heeds_ensureSafe _ _ _) fun _ => heeds_bind (heeds_found rfl) fun _ =>
      heeds_onlyIf (heeds_sqlStatement rfl)
  · exact heeds_bind (heeds_ensureSafe _ _ _) fun _ => heeds_bind (heeds_found rfl) fun _ =>
      heeds_bind (heeds_onlyIf (heeds_sqlStatement rfl)) fun _ => heeds_bind (heeds_sqlStatement rfl) fun _ =>
        heeds_onlyIf (heeds_sqlStatement rfl)

/-! ### The import -/

theorem heeds_copyLog (name : Text) : j.Heeds masked (j.copyLog name) :=
  heeds_bind (heeds_run rfl) fun _ => heeds_onlyIf (spec_update fun _ hs => ⟨hs.seen, hs.finishing⟩)

theorem heeds_copyOracleImportLogs (plan : ImportPlan) : j.Heeds masked (j.copyOracleImportLogs plan) := by
  unfold copyOracleImportLogs
  cases plan.dumpType with
  | datapump =>
      exact heeds_bind (heeds_copyLog _) fun _ => heeds_bind (heeds_run rfl) fun _ =>
        heeds_onlyIf (heeds_copyLog _)
  | legacyExp => exact heeds_ite (heeds_forM fun _ => heeds_copyLog _) (heeds_copyLog _)
  | probeFailed | unknown => exact heeds_pure ()

theorem heeds_repaired (plan : ImportPlan) (base : ImportOutcome) : j.Heeds masked (j.repaired plan base) := by
  refine heeds_bind ?_ fun _ => heeds_pure _
  exact heeds_ite (heeds_pure _) (heeds_bind (heeds_sqlplus rfl) fun _ => heeds_pure _)

theorem heeds_afterFailure (plan : ImportPlan) (message : String) : j.Heeds masked (j.afterFailure plan message) :=
  heeds_bind heeds_state fun _ => heeds_ite (heeds_repaired plan _) (heeds_fail message)

theorem heeds_runFallbacks (plan : ImportPlan) (commands : List (List Text)) :
    j.Heeds masked (j.runFallbacks plan commands) := by
  induction commands with
  | nil => exact heeds_repaired plan _
  | cons c rest ih =>
      exact heeds_bind (heeds_run rfl) fun _ => heeds_bind (heeds_copyOracleImportLogs plan) fun _ =>
        heeds_ite (heeds_afterFailure plan _) ih

theorem heeds_retryImport (plan : ImportPlan) (code : ℤ) : j.Heeds masked (j.retryImport plan code) :=
  heeds_bind (heeds_copyOracleImportLogs plan) fun _ => heeds_bind heeds_state fun _ =>
    heeds_ite (heeds_runFallbacks plan _) (heeds_afterFailure plan _)

theorem heeds_runCommands (plan : ImportPlan) (commands : List (List Text)) :
    j.Heeds masked (j.runCommands plan commands) := by
  induction commands with
  | nil => exact heeds_repaired plan _
  | cons c rest ih => exact heeds_bind (heeds_run rfl) fun _ => heeds_ite (heeds_retryImport plan _) ih

theorem heeds_runImport (plan : ImportPlan) : j.Heeds masked (j.runImport plan) :=
  heeds_bind (heeds_onlyIf (heeds_fail _)) fun _ => heeds_runCommands plan _

/-- Behind the request the logs are not copied. -/
theorem copyOracleImportLogs_seen (plan : ImportPlan) :
    Spec (j.SeenBy v) (j.copyOracleImportLogs plan) (fun _ => j.SeenBy v) (j.RefusedBy v) := by
  have hcopy (name : Text) : j.Refused (j.copyLog name) := refused_bind (refused_run _)
  unfold copyOracleImportLogs
  cases plan.dumpType with
  | datapump => exact (refused_bind (hcopy _) v).mono (fun _ hs => hs) (fun _ _ h => h.elim) fun _ _ h => h
  | legacyExp =>
      cases plan.sourceSchemas with
      | nil => exact (hcopy _ v).mono (fun _ hs => hs) (fun _ _ h => h.elim) fun _ _ h => h
      | cons schema rest =>
          exact (refused_bind (hcopy _) v).mono (fun _ hs => hs) (fun _ _ h => h.elim) fun _ _ h => h
  | probeFailed | unknown => exact spec_pure fun _ hs => hs

theorem RefusedBy.raised {e : Failure} {s : State} (h : j.RefusedBy v e s) (hv : j.masks v.command = false) :
    j.Raised masked e s := by
  cases e with
  | stopRequested m => exact ⟨v, h, hv⟩
  | error m => exact h.elim

/-- The program has come to an end before the request was seen, and does not say that it was stopped. -/
def Done (code : ℕ) (s : State) : Prop := Unseen s ∧ code ≠ 130

theorem heeds_importAndReport (plan : ImportPlan) :
    Spec Unseen (j.importAndReport plan) Done (j.Raised True) := by
  have hrun : Spec Unseen (j.runImport plan) (fun _ => Unseen) (j.Raised False) := heeds_runImport plan
  have hlogs : j.Heeds True (j.copyOracleImportLogs plan) := heeds_copyOracleImportLogs plan
  refine spec_bind (spec_withFinally hrun (fun _ => hlogs) fun e => ?_) fun outcome => ?_
  · cases e with
    | stopRequested m =>
        refine spec_exists fun v => spec_and fun hv => ?_
        exact (copyOracleImportLogs_seen plan).mono (fun _ hs => hs) (fun _ s hs => ⟨v, hs, hv⟩) fun _ _ h =>
          h.raised hv
    | error m =>
        exact hlogs.mono (fun _ hs => hs.resolve_right fun h => h.1) (fun _ _ hs => .inl hs) fun _ _ h => h
  · exact spec_bind (spec_update fun _ hs => ⟨hs.seen, hs.finishing⟩) fun _ =>
      spec_pure fun _ hs => ⟨hs, by decide⟩

/-! ### The run -/

theorem heeds_writeReport (report : Report) : j.Heeds masked (writeReport report) :=
  spec_update fun _ hs => ⟨hs.seen, hs.finishing⟩

theorem heeds_probeAndImport : Spec Unseen j.probeAndImport Done (j.Raised True) := by
  refine spec_bind heeds_probeDump fun probe => spec_bind (heeds_call _) fun _ =>
    spec_bind heeds_getDatafileDir fun datafileDir => spec_bind (heeds_call _) fun plan => ?_
  have hend (report : Report) (code : ℕ) (hcode : code ≠ 130) :
      Spec Unseen (do writeReport report; pure code) Done (j.Raised True) :=
    spec_bind (heeds_writeReport report) fun _ => spec_pure fun _ hs => ⟨hs, hcode⟩
  split
  · exact hend _ 1 (by decide)
  · split
    · exact hend _ 0 (by decide)
    · exact spec_bind (heeds_cleanupTargets plan) fun _ => spec_bind (heeds_prepareTargets plan) fun _ =>
        heeds_importAndReport plan

theorem heeds_stages (files : List Text) : Spec Unseen (j.stages files) Done (j.Raised True) := by
  have hdumps : j.Heeds True (j.provideDumps files) :=
    heeds_ite (heeds_ensureReusableDumpDirectory files) (heeds_copyDumpToContainer files)
  have hdirectory : j.Heeds True j.provideDirectory :=
    heeds_bind (heeds_checked rfl _) fun _ => heeds_bind (heeds_createDirectory _ _) fun _ =>
      heeds_verifyDirectory _ _
  exact spec_bind (heeds_onlyIf heeds_cleanupDirectoryObject) fun _ => spec_bind hdumps fun _ =>
    spec_bind hdirectory fun _ => heeds_probeAndImport

/-- The stages begin with a command. -/
theorem refused_stages (files : List Text) : j.Refused (j.stages files) := by
  unfold stages provideDumps onlyIf
  split
  · exact refused_bind (refused_bind (refused_directoryPath _))
  · split
    · exact refused_bind (x := j.ensureReusableDumpDirectory files) (refused_bind (refused_directoryPath _))
    · exact refused_bind (x := j.copyDumpToContainer files) (refused_bind (refused_checked _ _))

/-- Behind `resolve_pdb_connect` the request may be seen already: its first query does not raise. -/
def Connected (s : State) : Prop := Unseen s ∨ ∃ v, j.SeenBy v s ∧ j.masks v.command = false

theorem heeds_pdbName : j.Heeds True j.pdbName :=
  heeds_ite (heeds_pure _) ((asks_sqlFirstValue _).heeds_orElse rfl _)

theorem heeds_switchPdb (hconnect : j.connect = []) (name : Text) : j.Heeds True (j.switchPdb name) := by
  refine heeds_bind (heeds_onlyIf (heeds_fail _)) fun _ =>
    heeds_bind (spec_update fun _ hs => ⟨hs.seen, hs.finishing⟩) fun _ => heeds_bind ?_ fun _ => heeds_pure _
  refine (asks_sqlFirstValue _).heeds_orElse ?_ _
  rw [masks, hconnect, decide_eq_true_eq]
  exact List.cons_ne_nil _ _

theorem heeds_useContext (context : Option Text) : j.Heeds True (j.useContext context) := by
  cases context with
  | none => exact heeds_pure ()
  | some name =>
      rw [useContext]
      by_cases hconnect : j.connect = []
      · rw [if_neg (not_not.mpr hconnect)]
        exact heeds_onlyIf (heeds_bind heeds_pdbName fun name => heeds_switchPdb hconnect name)
      · rw [if_pos hconnect]
        exact heeds_onlyIf (heeds_fail _)

theorem resolvePdbConnect_ends : Spec Unseen j.resolvePdbConnect (fun _ => j.Connected) (j.Raised True) := by
  have hquery : j.Asks (.conName j.connect) (do
      let name ← j.sqlFirstValue (.conName j.connect)
      pure (some name)) := asks_bind (asks_sqlFirstValue _) fun _ => asks_pure _
  have hmasks : j.masks (.conName j.connect) = false := by
    rw [masks, decide_eq_false_iff_not]
    exact not_not.mpr rfl
  have hcontext : Spec Unseen (orElse (do
      let name ← j.sqlFirstValue (.conName j.connect)
      pure (some name)) fun _ => pure none)
      (fun context s => Unseen s ∨ (∃ v, j.SeenBy v s ∧ j.masks v.command = false) ∧ context = none)
      (j.Raised True) := by
    refine spec_attempt (hquery.mono (fun _ hs => hs) (fun _ _ hs => .inl hs) fun _ _ h => h)
      (fun e handler hh => ?_) fun e hn => by cases hn
    rw [← Option.some.inj hh]
    refine spec_pure fun s hs => ?_
    cases e with
    | stopRequested m =>
        obtain ⟨v, hv, hcommand⟩ := hs
        exact .inr ⟨⟨v, hv, hcommand ▸ hmasks⟩, rfl⟩
    | error m => exact .inl hs
  refine spec_bind hcontext fun context => spec_or ?_ (spec_and ?_)
  · exact (heeds_useContext context).mono (fun _ hs => hs) (fun _ _ hs => .inl hs) fun _ _ h => h
  · rintro rfl
    exact spec_pure fun _ hs => .inr hs

theorem heeds_checkArguments : j.Heeds True j.checkArguments := by
  refine heeds_bind (heeds_onlyIf (heeds_fail _)) fun _ => heeds_bind (heeds_onlyIf ?_) fun _ =>
    heeds_onlyIf (heeds_fail _)
  refine heeds_bind (heeds_bind (heeds_run rfl) fun result =>
    heeds_bind (heeds_onlyIf (heeds_fail _)) fun _ => ?_) fun _ => heeds_pure _
  simp only
  split
  · exact heeds_pure _
  · exact heeds_fail _
  · exact heeds_fail _

theorem heeds_body (files : List Text) : Spec Unseen (j.body files) Done (j.Raised True) := by
  refine spec_bind heeds_checkArguments fun _ => spec_bind resolvePdbConnect_ends fun _ =>
    spec_or (heeds_stages files) (spec_exists fun v => spec_and fun hv => ?_)
  exact (refused_stages files v).mono (fun _ hs => hs) (fun _ _ h => h.elim) fun _ _ h => h.raised hv

/-! ### The end -/

/-- The run has ended, with the request seen or not. -/
def Over (code : ℕ) (s : State) : Prop :=
  Done code s ∨ ∃ v, j.SeenBy v s ∧
    (j.masks v.command = true ∧ code ≠ 130 ∨
      j.masks v.command = false ∧ code = 130 ∧ ∃ m, s.report = some (.stopped m))

theorem except_ends (e : Failure) : Spec (j.Raised True e) (Job.except e) j.Over (fun _ _ => False) := by
  cases e with
  | stopRequested m =>
      refine spec_bind (Q := fun _ s => ∃ v, j.SeenBy v s ∧ j.masks v.command = false ∧
        s.report = some (.stopped m)) (spec_update fun s hs => ?_) fun _ => spec_pure fun s hs => ?_
      · obtain ⟨v, hv, hmasks⟩ := hs
        exact ⟨v, ⟨hv.seen, hv.requested, hv.started, hv.container, hv.finishing⟩, hmasks, rfl⟩
      · obtain ⟨v, hv, hmasks, hreport⟩ := hs
        exact .inr ⟨v, hv, .inr ⟨hmasks, rfl, m, hreport⟩⟩
  | error m =>
      refine spec_bind (Q := fun _ => j.Raised True (.error m)) (spec_update fun s hs => ?_) fun _ =>
        spec_pure fun s hs => ?_
      · rcases hs with hs | ⟨h, v, hv, hmasks⟩
        · exact .inl ⟨hs.seen, hs.finishing⟩
        · exact .inr ⟨h, v, ⟨hv.seen, hv.requested, hv.started, hv.container, hv.finishing⟩, hmasks⟩
      · rcases hs with hs | ⟨-, v, hv, hmasks⟩
        · exact .inl ⟨hs, by decide⟩
        · exact .inr ⟨v, hv, .inl ⟨hmasks, by decide⟩⟩

theorem keeps_sqlplus {I : State → Prop} (h : Keeps I (j.runProcess c)) : Keeps I (j.sqlplus c) :=
  keeps_bind h fun _ => keeps_bind (keeps_onlyIf (keeps_raise _)) fun _ => keeps_pure _

/-- The clean-up keeps what its commands keep, and does not raise. -/
theorem cleanup_keeps {I : State → Prop} (h : ∀ c, Keeps I (j.runProcess c)) :
    Spec I j.cleanupZeroCopyWorkDirectory (fun _ => I) (fun _ _ => False) := by
  unfold cleanupZeroCopyWorkDirectory onlyIf
  split
  · refine spec_attempt (E := fun _ => I) ?_ (fun e handler hh => ?_) fun e hn => by cases hn
    · exact keeps_bind (keeps_bind (keeps_sqlplus (h _)) fun _ => keeps_pure _) fun _ =>
        keeps_bind (keeps_onlyIf (keeps_bind (keeps_sqlplus (h _)) fun _ => keeps_pure _)) fun _ =>
          keeps_bind (h _) fun _ => keeps_pure _
    · rw [← Option.some.inj hh]
      exact spec_pure fun _ hs => hs
  · exact spec_pure fun _ hs => hs

/-- A command behind the request changes nothing of what was seen and written. -/
theorem keeps_run_seen (r : Option Report) (c : Command) :
    Keeps (fun s => j.SeenBy v s ∧ s.report = r) (j.runProcess c) := by
  constructor
  intro s hs
  have hseen := (refused_run c v).ends s hs.1
  simp only [runProcess] at hseen ⊢
  rw [if_pos hs.1.requested] at hseen ⊢
  exact ⟨hseen, hs.2⟩

/-- In the `finally`, the request can only be seen by the clean-up itself. -/
def Finishing (s : State) : Prop := s.finishing = true ∧ ∀ v ∈ s.seen, v.finishing = true

theorem see_finishing {s : State} (hs : Finishing s) : Finishing (s.see c) := by
  refine ⟨hs.1, fun v hv => ?_⟩
  cases hseen : s.seen with
  | none =>
      rw [State.see, hseen] at hv
      rw [← Option.some.inj hv]
      exact hs.1
  | some w =>
      rw [State.see, hseen] at hv
      exact hs.2 v (hseen.trans hv)

theorem keeps_run_finishing (c : Command) : Keeps Finishing (j.runProcess c) := by
  constructor
  intro s hs
  simp only [runProcess]
  by_cases hcheck : j.stopRequested (2 * s.calls) = true
  · rw [if_pos hcheck]
    exact see_finishing hs
  · rw [if_neg hcheck]
    by_cases hpoll : j.stopRequested (2 * s.calls + 1) = true
    · rw [if_pos hpoll]
      exact see_finishing hs
    · rw [if_neg hpoll]
      exact hs

/-- How `main` ends: nothing was seen before the `finally`, or `v` saw the request and the state is still the
one of that moment. -/
def Closed (code : ℕ) (s : State) : Prop :=
  s.locked = false ∧ (code ≠ 130 ∧ (∀ v ∈ s.seen, v.finishing = true) ∨
    ∃ v, (s.seen = some v ∧ v.finishing = false ∧ s.started.length = v.started ∧ s.container = v.container) ∧
      (j.masks v.command = true ∧ code ≠ 130 ∨
        j.masks v.command = false ∧ code = 130 ∧ ∃ m, s.report = some (.stopped m)))

theorem finish_closed (code : ℕ) : Spec (j.Over code) j.finish (fun _ => j.Closed code) (fun _ _ => False) := by
  refine spec_or ?_ (spec_exists fun v => ?_)
  · refine spec_and fun hcode => ?_
    refine spec_bind (Q := fun _ => Finishing) (spec_update fun s hs => ⟨rfl, fun v hv => ?_⟩) fun _ =>
      spec_bind (cleanup_keeps keeps_run_finishing) fun _ => spec_update fun s hs => ⟨rfl, .inl ⟨hcode, hs.2⟩⟩
    rw [hs.seen] at hv
    cases hv
  · constructor
    intro s hs
    obtain ⟨hv, hcode⟩ := hs
    refine (spec_bind (P := fun t => j.SeenBy v t ∧ t.report = s.report)
      (Q := fun _ t => j.SeenBy v t ∧ t.report = s.report) (spec_update fun t ht => ?_) fun _ =>
      spec_bind (cleanup_keeps (keeps_run_seen s.report)) fun _ => spec_update fun t ht => ?_).ends s ⟨hv, rfl⟩
    · exact ⟨⟨ht.1.seen, ht.1.requested, ht.1.started, ht.1.container, ht.1.finishing⟩, ht.2⟩
    · refine ⟨rfl, .inr ⟨v, ⟨ht.1.seen, ht.1.finishing, ht.1.started, ht.1.container⟩, ?_⟩⟩
      rcases hcode with hcode | ⟨hmasks, hcode, m, hm⟩
      · exact .inl hcode
      · exact .inr ⟨hmasks, hcode, m, ht.2.trans hm⟩

theorem main_closed (s : State) (hs : Unseen s) (hlocked : s.locked = false) :
    ∃ code, (j.main s).1 = .ok code ∧ j.Closed code (j.main s).2 := by
  have hreturn (code : ℕ) (hcode : code ≠ 130) : j.Closed code s := by
    refine ⟨hlocked, .inl ⟨hcode, fun v hv => ?_⟩⟩
    rw [hs.seen] at hv
    cases hv
  have hbody (files : List Text) : Spec Unseen (withFinally (orElse (j.body files) except) j.finish) j.Closed
      (fun _ _ => False) := by
    refine spec_withFinally (Q := j.Over) (E := fun _ _ => False) ?_ finish_closed fun e => ⟨fun _ h => h.elim⟩
    refine spec_attempt ((heeds_body files).mono (fun _ h => h) (fun _ _ h => .inl h) fun _ _ h => h)
      (fun e handler hh => ?_) fun e hn => by cases hn
    rw [← Option.some.inj hh]
    exact except_ends e
  unfold main
  split
  · exact ⟨2, rfl, hreturn 2 (by decide)⟩
  · split
    · exact ⟨2, rfl, hreturn 2 (by decide)⟩
    · cases j.sourceFiles with
      | none => exact ⟨2, rfl, hreturn 2 (by decide)⟩
      | some files =>
          simp only
          split
          · exact ⟨75, rfl, hreturn 75 (by decide)⟩
          · refine (spec_bind (Q := fun _ => Unseen) ?_ fun _ => hbody files).returns hs
            exact spec_update fun _ ht => ⟨ht.seen, ht.finishing⟩

/-- A run heeds the request exactly when it is seen neither by a query that masks it nor by the clean-up
itself, and there is nothing to remove at that moment. -/
theorem heeded_iff (w : Container) (importLogs : List (Text × List Text)) (report : Option Report) :
    j.Heeded (j.main (j.begin w importLogs report)) ↔
      ∀ v ∈ (j.main (j.begin w importLogs report)).2.seen, v.finishing = false ∧ j.masks v.command = false ∧
        (j.removesWork → j.Removed v.container) := by
  obtain ⟨code, hcode, hlocked, hend⟩ := main_closed (j := j) (j.begin w importLogs report) ⟨rfl, rfl⟩ rfl
  unfold Heeded
  refine forall₂_congr fun v hv => ?_
  rw [hcode, hlocked]
  rcases hend with ⟨hne, hfinishing⟩ | ⟨v', ⟨hseen, hbody, hstarted, hcontainer⟩, hend⟩
  · -- the clean-up has seen the request
    constructor
    · rintro ⟨-, h, -⟩
      exact (hne (Except.ok.inj h)).elim
    · rintro ⟨h, -⟩
      rw [hfinishing v hv] at h
      cases h
  · obtain rfl : v' = v := Option.some.inj (hseen.symm.trans hv)
    rcases hend with ⟨hmasks, hne⟩ | ⟨hmasks, rfl, hreport⟩
    · constructor
      · rintro ⟨-, h, -⟩
        exact (hne (Except.ok.inj h)).elim
      · rintro ⟨-, h, -⟩
        rw [hmasks] at h
        cases h
    · rw [hcontainer]
      exact ⟨fun h => ⟨hbody, hmasks, h.2.2.2.2⟩, fun h => ⟨hstarted, rfl, hreport, rfl, h.2.2⟩⟩

/-! ### A run that leaves its work directory -/

/-- A zero-copy dry run; the request appears once the DIRECTORY was created. -/
def stoppedJob : Job where
  container := ['o', 'r', 'a']
  connect := []
  pdb := []
  containerDir := ['/', 't']
  runId := ['r']
  directContainerDir := ['/', 'd']
  directoryObject := ['W']
  dumpDirectoryObject := ['D']
  targetDatafileDir := []
  jobName := ['J']
  recreate := true
  execute := false
  defaultTablespace := []
  exportLogMissingCount := 0
  sourceFiles := some [['x']]
  generatedDirectory := []
  parseMetadata _ := ([], [], [])
  validate _ := .ok ()
  buildPlan _ _ := .error ""
  busy := false
  stopAt := some 16
  answer n := ⟨0, if n = 0 then [['O', 'R', 'C', 'L']] else if n = 3 then [['/', 'd']] else [], true⟩

theorem stopped_keeps_work :
    ¬ stoppedJob.Heeded (stoppedJob.main (stoppedJob.begin ⟨none, false⟩ [] none)) := by
  intro h
  have hseen : (stoppedJob.main (stoppedJob.begin ⟨none, false⟩ [] none)).2.seen =
      some ⟨.directoryPath .work, false, 8, ⟨some ['/', 't', '/', 'r'], true⟩⟩ := rfl
  have hremoves : stoppedJob.removesWork := by decide
  obtain ⟨-, -, -, -, hremoved⟩ := h _ hseen
  exact absurd (hremoved hremoves).1 (by decide +kernel)

end Job

end RecoveryService.AutoImport
