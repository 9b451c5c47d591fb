import RecoveryService.RecoveryTasks.Task

/-! # The dump group of a retried task

`RecoveryPipeline.run_task` chooses the pipeline by the options of the task, and each pipeline chooses a
group of the source directory by the `volume_group_index` of the message; with `import_source.mode`
`direct` the dump file is named in the options.  The creation endpoints send the index they were given,
`retry_task` sends none, so that a retried task restores its group where that is the first one. -/

namespace RecoveryService.RecoveryTasks

open Runs

/-! ### The pipelines -/

/-- The part of `options["professional_flow"]` that names the dump. -/
structure ProfessionalFlow where
  /-- `import_source.mode` is `direct`. -/
  direct : Bool
  manualDumpfile : String

/-- The options of a task that choose its pipeline. -/
structure Options where
  professionalFlow : Option ProfessionalFlow := none
  sqlserverFlow : Bool := false
  mysqlFlow : Bool := false

/-- What a pipeline restores, for the groups `G` of the source directory. -/
inductive Restored (G : Type) where
  | manual (dumpfile : String)
  | group (g : G)
deriving DecidableEq

variable {G : Type}

/-- `groups[index]`. -/
def item? (groups : List G) (index : ℤ) : Option G :=
  if 0 ≤ index then groups[index.toNat]?
  else if 0 ≤ index + groups.length then groups[(index + groups.length).toNat]? else none

/-- The choice of a group; `outOfRange` is the exception of the pipeline. -/
def chooseGroup (outOfRange : String) (groups : List G) (index : ℤ) : Except String (Restored G) :=
  if (groups.length : ℤ) ≤ index then .error s!"{outOfRange}: volume_group_index {index} out of range"
  else
    match item? groups index with
    | some g => .ok (.group g)
    | none => .error "IndexError: list index out of range"

/-- `RemoteScanner.scan`. -/
def scan (groups : List G) : Except String (List G) :=
  if groups.isEmpty then .error "DiscoveryError: No dump volume groups identified" else .ok groups

/-- `ProfessionalRecoveryPipeline.run`. -/
def ProfessionalFlow.run (flow : ProfessionalFlow) (groups : List G) (index : ℤ) : Except String (Restored G) :=
  if flow.direct = true then .ok (.manual flow.manualDumpfile)
  else do
    let found ← scan groups
    chooseGroup "IndexError" found index

/-- `SqlServerRecoveryPipeline.run`. -/
def sqlserverRun (groups : List G) (index : ℤ) : Except String (Restored G) :=
  if groups.isEmpty then .error "DiscoveryError: 没有发现 .bak/.mdf/.ndf/.ldf 文件"
  else chooseGroup "DiscoveryError" groups index

/-- `MySqlRecoveryPipeline.run`. -/
def mysqlRun (groups : List G) (index : ℤ) : Except String (Restored G) :=
  if groups.isEmpty then .error "DiscoveryError: 没有发现 .sql/.sql.gz/.sql.zip/.zip 文件"
  else chooseGroup "DiscoveryError" groups index

/-- `RecoveryPipeline.run_task`, on the groups that its pipeline finds in the source directory. -/
def runTask (options : Options) (groups : List G) (index : ℤ) : Except String (Restored G) :=
  match options.professionalFlow with
  | some flow => flow.run groups index
  | none =>
      if options.sqlserverFlow = true then sqlserverRun groups index
      else if options.mysqlFlow = true then mysqlRun groups index
      else do
        let found ← scan groups
        chooseGroup "DiscoveryError" found index

/-- The pipeline does not look at the source directory. -/
def Options.IsDirect (options : Options) : Prop :=
  ∃ flow, options.professionalFlow = some flow ∧ flow.direct = true

/-! ### Two indices -/

variable {groups : List G}
variable {index : ℤ}

theorem item?_lt {g : G} (h : item? groups index = some g) : index < groups.length := by
  unfold item? at h
  split at h
  · next hnonneg =>
      obtain ⟨hlt, -⟩ := List.getElem?_eq_some_iff.mp h
      omega
  · omega

theorem item?_first (h : groups ≠ []) : ∃ g, item? groups 0 = some g := by
  cases groups with
  | nil => exact (h rfl).elim
  | cons g rest => exact ⟨g, rfl⟩

/-- The choice is that of the first group exactly where the index names it. -/
theorem chooseGroup_eq_first {outOfRange : String} (h : groups ≠ []) :
    chooseGroup outOfRange groups 0 = chooseGroup outOfRange groups index ↔
      item? groups index = item? groups 0 := by
  obtain ⟨g, hfirst⟩ := item?_first h
  have hchoice : chooseGroup outOfRange groups 0 = .ok (.group g) := by
    have hlt := item?_lt hfirst
    rw [chooseGroup, if_neg (by omega), hfirst]
  rw [hchoice, hfirst]
  constructor
  · intro heq
    rw [chooseGroup] at heq
    split at heq
    · cases heq
    · split at heq
      · next g' hg' =>
          cases heq
          exact hg'
      · cases heq
  · intro hitem
    have hlt := item?_lt hitem
    rw [chooseGroup, if_neg (by omega), hitem]

/-- The condition of the theorem below. -/
def FirstGroup (options : Options) (groups : List G) (index : ℤ) : Prop :=
  options.IsDirect ∨ groups = [] ∨ item? groups index = item? groups 0

theorem scan_eq (h : groups ≠ []) : scan groups = .ok groups := by
  rw [scan, if_neg (by rw [List.isEmpty_iff]; exact h)]

theorem runTask_eq_first {options : Options} :
    runTask options groups 0 = runTask options groups index ↔ FirstGroup options groups index := by
  by_cases hdirect : options.IsDirect
  · obtain ⟨flow, hflow, htrue⟩ := hdirect
    refine iff_of_true ?_ (.inl ⟨flow, hflow, htrue⟩)
    simp only [runTask, hflow, ProfessionalFlow.run, if_pos htrue]
  by_cases hnil : groups = []
  · refine iff_of_true ?_ (.inr (.inl hnil))
    subst hnil
    unfold runTask ProfessionalFlow.run
    rfl
  · have hcondition : FirstGroup options groups index ↔ item? groups index = item? groups 0 := by
      unfold FirstGroup
      rw [or_iff_right hdirect, or_iff_right hnil]
    have hempty : ¬ groups.isEmpty = true := by
      rw [List.isEmpty_iff]
      exact hnil
    rw [hcondition, runTask, runTask]
    cases hflow : options.professionalFlow with
    | some flow =>
        have hcopy : ¬ flow.direct = true := fun htrue => hdirect ⟨flow, hflow, htrue⟩
        simp only [ProfessionalFlow.run, if_neg hcopy, scan_eq hnil]
        exact chooseGroup_eq_first hnil
    | none =>
        simp only [sqlserverRun, mysqlRun, if_neg hempty, scan_eq hnil]
        split
        · exact chooseGroup_eq_first hnil
        · split <;> exact chooseGroup_eq_first hnil

/-! ### The indices of the executions -/

/-- Every index of the system is the one given at creation, or 0. -/
structure Indices (given : ℤ) (s : System) : Prop where
  messages : ∀ j ∈ s.messages, j = given ∨ j = 0
  sent : ∀ j ∈ s.sent, j = given ∨ j = 0
  taken : ∀ i j, s.workers i = .taken j → j = given ∨ j = 0
  sending : ∀ c j, s.requests c = .sending j → j = given ∨ j = 0
  executions : ∀ j ∈ s.executions, j = given ∨ j = 0

theorem created_indices (embedded : Bool) (index : ℤ) : Indices index (created embedded index) := by
  refine ⟨nofun, nofun, fun i j hj => WorkerPlace.noConfusion hj, fun c j hj => ?_, nofun⟩
  simp only [created] at hj
  split at hj
  · cases hj
    exact .inl rfl
  · cases hj

variable {s s' : System} {given : ℤ}

/-- A worker goes on. -/
theorem Indices.taken_goto (h : Indices given s) {i : ℕ} {place : WorkerPlace}
    (hplace : ∀ j, place = .taken j → j = given ∨ j = 0) (k : ℕ) (j : ℤ)
    (hk : Function.update s.workers i place k = .taken j) : j = given ∨ j = 0 := by
  rw [Function.update_apply] at hk
  split at hk
  · exact hplace j hk
  · exact h.taken k j hk

theorem Indices.sending_moveTo (h : Indices given s) {c : ℕ} {place : RequestPlace}
    (hplace : ∀ j, place = .sending j → j = given ∨ j = 0) (d : ℕ) (j : ℤ)
    (hd : Function.update s.requests c place d = .sending j) : j = given ∨ j = 0 := by
  rw [Function.update_apply] at hd
  split at hd
  · exact hplace j hd
  · exact h.sending d j hd

theorem Indices.goto (h : Indices given s) {i : ℕ} {place : WorkerPlace} {messages : List ℤ}
    (hplace : ∀ j, place = .taken j → j = given ∨ j = 0) (hmessages : ∀ j ∈ messages, j = given ∨ j = 0) :
    Indices given { s.goto i place with messages := messages } :=
  ⟨hmessages, h.sent, h.taken_goto hplace, h.sending, h.executions⟩

theorem Indices.moveTo (h : Indices given s) {c : ℕ} {place : RequestPlace}
    (hplace : ∀ j, place = .sending j → j = given ∨ j = 0) : Indices given (s.moveTo c place) :=
  ⟨h.messages, h.sent, h.taken, h.sending_moveTo hplace, h.executions⟩

theorem sent_cons (hindex : index = given ∨ index = 0) {l : List ℤ} (hl : ∀ j ∈ l, j = given ∨ j = 0) :
    ∀ j ∈ index :: l, j = given ∨ j = 0 := by
  intro j hj
  rcases List.mem_cons.mp hj with rfl | hj
  · exact hindex
  · exact hl j hj

theorem Indices.goes (h : Indices given s) {a : Action} (hs : step s a = some s') : Indices given s' := by
  cases a with
  | enqueue c succeeds =>
      simp only [step, enqueue] at hs
      split at hs
      · next index hplace =>
          have hindex := h.sending c index hplace
          have hmove : Indices given (s.moveTo c .idle) := h.moveTo nofun
          split at hs
          · cases hs
            exact ⟨sent_cons hindex h.messages, sent_cons hindex h.sent, h.taken, hmove.sending, h.executions⟩
          · cases hs
            exact hmove
      · cases hs
  | redeliver index =>
      simp only [step, redeliver] at hs
      split at hs
      · next hsent =>
          cases hs
          exact ⟨sent_cons (h.sent index hsent) h.messages, h.sent, h.taken, h.sending, h.executions⟩
      · cases hs
  | deliver i index =>
      simp only [step, deliver] at hs
      split at hs
      · next hread =>
          cases hs
          refine h.goto (fun j hj => ?_) fun j hj => h.messages j (List.mem_of_mem_erase hj)
          cases hj
          exact h.messages index hread.2
      · cases hs
  | claim i =>
      simp only [step, claim] at hs
      split at hs
      · next index hplace =>
          split at hs
          · cases hs
            refine ⟨h.messages, h.sent, h.taken_goto nofun, h.sending, fun j hj => ?_⟩
            rcases List.mem_append.mp hj with hj | hj
            · exact h.executions j hj
            · rw [List.mem_singleton.mp hj]
              exact h.taken i index hplace
          · cases hs
            exact h.goto nofun h.messages
      · cases hs
  | registerRuntime i =>
      simp only [step, registerRuntime] at hs
      split at hs
      · cases hs
        exact ⟨h.messages, h.sent, h.taken, h.sending, h.executions⟩
      · cases hs
  | refresh i outcome =>
      simp only [step, refresh] at hs
      split at hs
      · split at hs
        · cases hs
          exact h.goto nofun h.messages
        · cases hs
      · cases hs
        exact h.goto nofun h.messages
      · cases hs
        exact h.goto nofun h.messages
      · cases hs
  | finish i =>
      simp only [step, finish] at hs
      split at hs
      · cases hs
        exact ⟨h.messages, h.sent, h.taken_goto nofun, h.sending, h.executions⟩
      · cases hs
  | loseWorker i requeued =>
      simp only [step, loseWorker] at hs
      split at hs
      · next hlost =>
          cases hs
          refine h.goto nofun fun j hj => ?_
          rcases List.mem_append.mp hj with hj | hj
          · exact h.sent j (hlost.2 j (Option.mem_toList.mp hj))
          · exact h.messages j hj
      · cases hs
  | readCancel c =>
      simp only [step, readCancel] at hs
      split at hs
      · cases hs
        exact h.moveTo nofun
      · cases hs
  | readStop c =>
      simp only [step, readStop] at hs
      split at hs
      · split at hs
        · cases hs
          exact h.moveTo nofun
        · split at hs
          · cases hs
            exact h.moveTo nofun
          · cases hs
      · cases hs
  | readRetry c =>
      simp only [step, readRetry] at hs
      split at hs
      · cases hs
        exact h.moveTo nofun
      · cases hs
  | commitRequest c =>
      simp only [step, commitRequest] at hs
      split at hs
      · cases hs
        exact ⟨h.messages, h.sent, h.taken, h.sending_moveTo nofun, h.executions⟩
      · cases hs
        exact ⟨h.messages, h.sent, h.taken, h.sending_moveTo nofun, h.executions⟩
      · cases hs
        refine ⟨h.messages, h.sent, h.taken, h.sending_moveTo fun j hj => ?_, h.executions⟩
        cases hj
        exact .inr rfl
      · cases hs

/-! ### The groups -/

/-- Every execution of a task restores what the index given at creation names. -/
def KeepsGroup (options : Options) (groups : List G) (index : ℤ) : Prop :=
  ∀ embedded as s, Run step Free (created embedded index) as s →
    ∀ j ∈ s.executions, runTask options groups j = runTask options groups index

theorem deliver_eq {i : ℕ} {j : ℤ} (hidle : s.workers i = .idle) (hj : j ∈ s.messages) :
    deliver s i j = some { s.goto i (.taken j) with messages := s.messages.erase j } :=
  if_pos ⟨hidle, hj⟩

/-- A worker fails with the task, and it is retried. -/
def failsAndRetries (index : ℤ) : List Action :=
  [.enqueue 0 true, .deliver 0 index, .claim 0, .refresh 0 .raised, .finish 0, .readRetry 0, .commitRequest 0,
    .enqueue 0 true, .deliver 1 0, .claim 1]

theorem retried_with_zero (index : ℤ) :
    ∃ s, Run step Free (created true index) (failsAndRetries index) s ∧ s.executions = [index, 0] := by
  have hrun : Run step Free (created true index) (failsAndRetries index) _ :=
    .step trivial rfl (.step trivial (deliver_eq rfl (List.mem_singleton_self index)) (.step trivial rfl
      (.step trivial rfl (.step trivial rfl (.step trivial rfl (.step trivial rfl (.step trivial rfl
        (.step trivial (deliver_eq rfl List.mem_cons_self) (.step trivial rfl (.refl _))))))))))
  exact ⟨_, hrun, rfl⟩

theorem keepsGroup_iff (options : Options) (groups : List G) (index : ℤ) :
    KeepsGroup options groups index ↔ FirstGroup options groups index := by
  constructor
  · intro hkeeps
    obtain ⟨s, hrun, hexecutions⟩ := retried_with_zero index
    refine runTask_eq_first.mp (hkeeps true _ s hrun 0 ?_)
    rw [hexecutions]
    exact List.mem_cons_of_mem _ (List.mem_singleton_self 0)
  · intro hfirst embedded as s hrun j hj
    have hindices : Indices index s :=
      hrun.invariant (created_indices embedded index) fun _ _ _ _ hs h => h.goes hs
    rcases hindices.executions j hj with rfl | rfl
    · rfl
    · exact runTask_eq_first.mpr hfirst

/-- The second group of a directory is restored, and the retry restores the first one. -/
theorem second_group_lost : ¬ ∀ (options : Options) (groups : List String) (index : ℤ),
    KeepsGroup options groups index := by
  intro hall
  obtain ⟨s, hrun, hexecutions⟩ := retried_with_zero 1
  have hkept := hall {} ["single:A.dmp", "single:B.dmp"] 1 true _ s hrun 0 (by rw [hexecutions]; decide)
  exact absurd hkept (by decide)

end RecoveryService.RecoveryTasks
