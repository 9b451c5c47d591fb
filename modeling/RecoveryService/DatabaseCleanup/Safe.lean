import RecoveryService.DatabaseCleanup.Cleanup

/-! # When a cleanup is safe

A name goes through `strip`, for Oracle through `upper`, and in a batch only the first of the names that differ
in case is kept.  A cleanup is safe, on every server and catalog, where these leave the names as they are. -/

namespace RecoveryService.DatabaseCleanup

open Text

variable (casing : Casing) (server : Server) (engine : Engine)

/-! ### The claim -/

def Catalog.names (c : Catalog) : List Name := c.entries.map Entry.name

/-- The name of a system database or system user. -/
def IsSystem (name : Name) : Prop :=
  match engine with
  | .mysql => casing.lower name ∈ mysqlSystemDatabases
  | .sqlserver => casing.lower name ∈ sqlserverSystemDatabases
  | .oracle => name ∈ oracleSystemUsers
  | .doris => casing.lower name ∈ dorisSystemDatabases
  | .ftp => False

def IsProtected (entry : Entry) : Prop :=
  IsSystem casing engine entry.name ∨ engine = .oracle ∧ entry.maintained = true

/-- The server tells the entries of its catalog apart. -/
def Distinct (c : Catalog) : Prop :=
  ∀ a ∈ c.entries, ∀ b ∈ c.entries, denotes server engine a.name b.name = true → a = b

/-- Only unprotected entries with a confirmed name are dropped, and only storage that no user is left in. -/
structure SafeDrops (dropStorage : Bool) (confirmed : List Name) (issued : List (Catalog × Drop)) : Prop where
  container : ∀ c name, (c, Drop.container name) ∈ issued → ∀ entry ∈ c.entries,
    denotes server engine name entry.name = true → entry.name ∈ confirmed ∧ ¬ IsProtected casing engine entry
  tablespace : ∀ c name, (c, Drop.tablespace name) ∈ issued → dropStorage = true ∧
    name ∉ oracleSystemTablespaces ∧
      ∀ entry ∈ c.entries, entry.defaultTablespace ≠ some name ∧ (entry.name, name) ∉ c.segments

/-- `execute_cleanup` is safe on every server and catalog that has the target. -/
def SafeCleanup (dropStorage cleanupFiles : Bool) (confirmation target : Name) : Prop :=
  ∀ server c, Distinct server engine c → target ∈ c.names →
    let result := executeCleanup casing server engine dropStorage cleanupFiles confirmation c target
    SafeDrops casing server engine dropStorage [confirmation] result.issued ∧
      (result.issued ≠ [] → buildCleanupPlan casing server engine c target ≠ none ∧
        ∀ entry ∈ c.entries, entry.name = target → ¬ IsProtected casing engine entry)

/-- `execute_cleanup_batch` is safe on every server and catalog that has the targets. -/
def SafeBatch (acknowledged dropStorage cleanupFiles : Bool) (targets : List Name) : Prop :=
  ∀ server c, Distinct server engine c → (∀ target ∈ targets, target ∈ c.names) →
    let result := executeCleanupBatch casing server engine acknowledged dropStorage cleanupFiles c targets
    SafeDrops casing server engine dropStorage (if acknowledged = true then targets else []) result.issued ∧
      (result.issued ≠ [] →
        (∀ target ∈ normalizeBatchTargets casing [] targets,
          buildCleanupPlan casing server engine c target ≠ none) ∧
        ∀ entry ∈ c.entries, entry.name ∈ targets → ¬ IsProtected casing engine entry) ∧
      (result.state = some .success → ∀ target ∈ targets, target ∉ result.catalog.names)

/-! ### The condition -/

/-- What a plan makes of a target. -/
def planName (target : Name) : Name :=
  if engine = .oracle then casing.upper (strip target) else strip target

/-- What an execution makes of it; MySQL and SQL Server get the target as it is. -/
def droppedName (target : Name) : Name :=
  match engine with
  | .mysql | .sqlserver | .ftp => target
  | .oracle => casing.upper (strip target)
  | .doris => strip target

/-- The names that a batch drops. -/
def batchNames (targets : List Name) : List Name :=
  (normalizeBatchTargets casing [] targets).map (planName casing engine)

/-- A confirmed name that is not protected is dropped as it is. -/
def CleanupHolds (confirmation target : Name) : Prop :=
  confirmation = target →
    IsSystem casing engine (droppedName casing engine target) ∨ droppedName casing engine target = target

/-- Two targets differ in case only, which the check of Doris notices behind its DROP. -/
def Noticed (targets : List Name) : Prop :=
  engine = .doris ∧ ∃ name ∈ batchNames casing engine targets, ∃ target ∈ targets,
    target ≠ name ∧ casing.lower target = casing.lower name

/-- In a batch without a protected name the dropped names are the requested ones. -/
def BatchHolds (acknowledged : Bool) (targets : List Name) : Prop :=
  acknowledged = true → engine = .ftp ∨ (∃ name ∈ batchNames casing engine targets, IsSystem casing engine name) ∨
    (∀ name ∈ batchNames casing engine targets, name ∈ targets) ∧
      (batchNames casing engine targets = [] ∨ (∀ target ∈ targets, target ∈ batchNames casing engine targets) ∨
        Noticed casing engine targets)

/-! ### The names -/

variable {casing server engine}

theorem strip_strip (name : Name) : strip (strip name) = strip name := stripChars_stripChars _ _

theorem strip_planName (target : Name) : strip (planName casing engine target) = planName casing engine target := by
  unfold planName
  split
  · rw [casing.strip_upper, strip_strip]
  · exact strip_strip target

theorem planName_planName (target : Name) :
    planName casing engine (planName casing engine target) = planName casing engine target := by
  by_cases horacle : engine = .oracle
  · simp only [planName, horacle, if_true, casing.strip_upper, strip_strip, casing.upper_upper]
  · simp only [planName, horacle, if_false, strip_strip]

theorem droppedName_planName (target : Name) :
    droppedName casing engine (planName casing engine target) = planName casing engine target := by
  have hplan : planName casing engine (planName casing engine target) = planName casing engine target :=
    planName_planName target
  have hstrip : strip (planName casing engine target) = planName casing engine target := strip_planName target
  cases engine with
  | mysql | sqlserver | ftp => rfl
  | doris => exact hstrip
  | oracle => exact hplan

theorem denotes_self (name : Name) : denotes server engine name name = true := by
  unfold denotes
  split
  · exact decide_eq_true rfl
  · exact server.same_self name

variable {systemDatabases : List Name} {name : Name}

/-- A blank around a name does not hide a system database. -/
theorem system_strip (hstrip : ∀ name ∈ systemDatabases, strip name = name)
    (h : casing.lower name ∈ systemDatabases) : casing.lower (strip name) = casing.lower name := by
  rw [← casing.strip_lower]
  exact hstrip _ h

theorem strip_mysql : ∀ name ∈ mysqlSystemDatabases, strip name = name := by decide
theorem strip_sqlserver : ∀ name ∈ sqlserverSystemDatabases, strip name = name := by decide
theorem strip_doris : ∀ name ∈ dorisSystemDatabases, strip name = name := by decide

/-! ### The plans -/

/-- What a plan that can be executed says of its target. -/
structure Planned (casing : Casing) (engine : Engine) (c : Catalog) (target : Name) (plan : Plan) : Prop where
  targetName : plan.targetName = planName casing engine target
  unprotected : ¬ IsSystem casing engine (planName casing engine target)
  maintained : engine = .oracle → oracleIsMaintainedUser c (planName casing engine target) = false
  database : engine ≠ .ftp

variable {c : Catalog} {target : Name} {plan : Plan}

theorem planDatabase_eq_some (h : planDatabase casing server systemDatabases c target = some plan)
    (hcan : plan.canExecute = true) :
    plan.targetName = strip target ∧ casing.lower (strip target) ∉ systemDatabases := by
  simp only [planDatabase] at h
  split at h
  · cases h
    cases hcan
  · next hsystem =>
      split at h
      · cases h
      · cases h
        exact ⟨rfl, hsystem⟩

theorem planOracle_eq_some (h : planOracle casing server c target = some plan) (hcan : plan.canExecute = true) :
    plan.targetName = casing.upper (strip target) ∧ casing.upper (strip target) ∉ oracleSystemUsers ∧
      oracleIsMaintainedUser c (casing.upper (strip target)) = false ∧
      plan.exclusive = (oracleUserTablespaces c (casing.upper (strip target))).filter
        fun tablespace => !isShared c (casing.upper (strip target)) tablespace := by
  simp only [planOracle] at h
  split at h
  · cases h
    cases hcan
  · next hsystem =>
      split at h
      · cases h
      · split at h
        · cases h
          cases hcan
        · next hmaintained =>
            cases h
            exact ⟨rfl, hsystem, Bool.eq_false_iff.mpr hmaintained, rfl⟩

theorem buildCleanupPlan_eq_some (h : buildCleanupPlan casing server engine c target = some plan)
    (hcan : plan.canExecute = true) : Planned casing engine c target plan := by
  cases engine with
  | mysql | sqlserver | doris =>
      obtain ⟨hname, hsystem⟩ := planDatabase_eq_some h hcan
      exact ⟨hname, hsystem, nofun, nofun⟩
  | oracle =>
      obtain ⟨hname, hsystem, hmaintained, -⟩ := planOracle_eq_some h hcan
      exact ⟨hname, hsystem, fun _ => hmaintained, nofun⟩
  | ftp =>
      cases h
      cases hcan

/-! ### The drops -/

theorem without_entries_subset (c : Catalog) (drop : Drop) :
    (c.without server engine drop).entries ⊆ c.entries := by
  cases drop with
  | container name => exact List.filter_subset_self _
  | tablespace name => exact List.Subset.refl _

theorem issue_entries_subset (c : Catalog) (drop : Drop) :
    (issue server engine c drop).1.entries ⊆ c.entries := by
  unfold issue
  split
  · exact List.Subset.refl _
  · exact without_entries_subset c drop
  · exact without_entries_subset c drop

/-- A DROP that comes back without an error has dropped. -/
theorem issue_ok {drop : Drop} (h : (issue server engine c drop).2 = true) :
    (issue server engine c drop).1 = c.without server engine drop := by
  unfold issue at h ⊢
  split at h
  · cases h
  · rfl
  · cases h

theorem issue_container_kept {entry : Entry} (h : entry ∈ c.entries)
    (hkept : denotes server engine name entry.name = false) :
    entry ∈ (issue server engine c (.container name)).1.entries := by
  have hleft : entry ∈ (c.without server engine (.container name)).entries := by
    refine List.mem_filter.mpr ⟨h, ?_⟩
    rw [hkept]
    rfl
  unfold issue
  split
  · exact h
  · exact hleft
  · exact hleft

theorem without_container {entry : Entry} (h : entry ∈ (c.without server engine (.container name)).entries) :
    entry.name ≠ name := by
  obtain ⟨-, hdenotes⟩ := List.mem_filter.mp h
  rintro rfl
  rw [denotes_self] at hdenotes
  cases hdenotes

/-- What is left of an owner's storage. -/
def StorageFree (c : Catalog) (tablespace : Name) : Prop :=
  ∀ entry ∈ c.entries, entry.defaultTablespace ≠ some tablespace ∧ (entry.name, tablespace) ∉ c.segments

theorem mem_sorted {names : List Name} : name ∈ sorted names ↔ name ∈ names := by
  unfold sorted
  rw [List.mem_mergeSort, List.mem_dedup]

/-- A tablespace that is not shared is free behind the drop of its user. -/
theorem storageFree_of_exclusive {owner tablespace : Name} (h : isShared c owner tablespace = false) :
    tablespace ∉ oracleSystemTablespaces ∧
      StorageFree (c.without server engine (.container owner)) tablespace := by
  rw [isShared, Bool.or_eq_false_iff, decide_eq_false_iff_not, Bool.not_eq_false', List.isEmpty_iff] at h
  obtain ⟨hsystem, hshared⟩ := h
  refine ⟨hsystem, fun entry hentry => ⟨fun hdefault => ?_, fun hsegment => ?_⟩⟩
  · have hmem : entry.name ∈ oracleTablespaceSharedWith c tablespace owner := by
      refine mem_sorted.mpr (List.mem_append_right _ (List.mem_map_of_mem (List.mem_filter.mpr ?_)))
      exact ⟨(List.mem_filter.mp hentry).1, decide_eq_true ⟨hdefault, without_container hentry⟩⟩
    rw [hshared] at hmem
    cases hmem
  · have hmem : entry.name ∈ oracleTablespaceSharedWith c tablespace owner := by
      refine mem_sorted.mpr (List.mem_append_left _ (List.mem_map.mpr ⟨(entry.name, tablespace), ?_, rfl⟩))
      exact List.mem_filter.mpr ⟨(List.mem_filter.mp hsegment).1,
        decide_eq_true ⟨rfl, without_container hentry⟩⟩
    rw [hshared] at hmem
    cases hmem

theorem issue_tablespace_entries (c : Catalog) (tablespace : Name) :
    (issue server engine c (.tablespace tablespace)).1.entries = c.entries := by
  unfold issue
  split <;> rfl

theorem StorageFree.issue {tablespace : Name} (h : StorageFree c tablespace) (other : Name) :
    StorageFree (issue server engine c (.tablespace other)).1 tablespace := by
  unfold DatabaseCleanup.issue
  split
  · exact h
  · exact fun entry hentry => ⟨(h entry hentry).1, fun hs => (h entry hentry).2 (List.mem_filter.mp hs).1⟩
  · exact fun entry hentry => ⟨(h entry hentry).1, fun hs => (h entry hentry).2 (List.mem_filter.mp hs).1⟩

/-- The tablespaces that are dropped are free when they are, and the users stay. -/
theorem dropTablespaces_free {tablespaces : List Name}
    (h : ∀ tablespace ∈ tablespaces, StorageFree c tablespace) :
    (dropTablespaces server c tablespaces).2.1.entries = c.entries ∧
      ∀ c' drop, (c', drop) ∈ (dropTablespaces server c tablespaces).1 →
        ∃ tablespace ∈ tablespaces, drop = .tablespace tablespace ∧ StorageFree c' tablespace := by
  induction tablespaces generalizing c with
  | nil => exact ⟨rfl, nofun⟩
  | cons first rest ih =>
      have hfirst := h first List.mem_cons_self
      rw [dropTablespaces]
      simp only
      split
      · have hleft : ∀ other ∈ rest, StorageFree (issue server .oracle c (.tablespace first)).1 other :=
          fun other hother => (h other (List.mem_cons_of_mem _ hother)).issue first
        obtain ⟨hentries, hrest⟩ := ih hleft
        refine ⟨hentries.trans (issue_tablespace_entries c first), fun c' drop hmem => ?_⟩
        rcases List.mem_cons.mp hmem with heq | hmem
        · cases heq
          exact ⟨first, List.mem_cons_self, rfl, hfirst⟩
        · obtain ⟨tablespace, htablespace, hdrop⟩ := hrest c' drop hmem
          exact ⟨tablespace, List.mem_cons_of_mem _ htablespace, hdrop⟩
      · refine ⟨issue_tablespace_entries c first, fun c' drop hmem => ?_⟩
        cases List.mem_singleton.mp hmem
        exact ⟨first, List.mem_cons_self, rfl, hfirst⟩

/-! ### The executions -/

/-- Nothing is dropped, and no success reported. -/
structure Idle (c : Catalog) (result : Execution) : Prop where
  issued : result.issued = []
  catalog : result.catalog = c
  state : result.state ≠ some .success

/-- A container is dropped, and perhaps its storage. -/
structure Drops (casing : Casing) (server : Server) (engine : Engine) (dropStorage : Bool) (c : Catalog)
    (name : Name) (result : Execution) : Prop where
  unprotected : ¬ IsSystem casing engine name
  maintained : engine = .oracle → oracleIsMaintainedUser c name = false
  entries : result.catalog.entries ⊆ c.entries
  kept : ∀ entry ∈ c.entries, denotes server engine name entry.name = false → entry ∈ result.catalog.entries
  issued : ∀ c' drop, (c', drop) ∈ result.issued → c' = c ∧ drop = .container name ∨
    ∃ tablespace, drop = .tablespace tablespace ∧ dropStorage = true ∧ tablespace ∉ oracleSystemTablespaces ∧
      StorageFree c' tablespace
  success : result.state = some .success → ∀ entry ∈ result.catalog.entries,
    entry.name ≠ name ∧ (engine = .doris → casing.lower entry.name ≠ casing.lower name)

variable {fails : Catalog → Bool}

theorem executeDatabase_cases {plan : Option Plan} : Idle c (executeDatabase server engine plan c name fails) ∨
      ∃ p, plan = some p ∧ p.canExecute = true ∧
        (executeDatabase server engine plan c name fails).issued = [(c, .container name)] ∧
        (executeDatabase server engine plan c name fails).catalog =
          (issue server engine c (.container name)).1 ∧
        ((executeDatabase server engine plan c name fails).state = some .success →
          (executeDatabase server engine plan c name fails).catalog = c.without server engine (.container name) ∧
            fails (executeDatabase server engine plan c name fails).catalog = false) := by
  unfold executeDatabase
  cases plan with
  | none => exact .inl ⟨rfl, rfl, nofun⟩
  | some plan =>
      simp only
      split
      · exact .inl ⟨rfl, rfl, nofun⟩
      · next hcan =>
          split
          · exact .inl ⟨rfl, rfl, nofun⟩
          · refine .inr ⟨plan, rfl, Bool.eq_true_of_not_eq_false hcan, rfl, rfl, fun h => ?_⟩
            simp only at h ⊢
            split at h
            · next hok => exact ⟨issue_ok hok.1, hok.2⟩
            · cases h

variable {dropStorage : Bool}

/-- The execution of a database that is planned by its stripped name. -/
theorem drops_database {plan : Option Plan}
    (hplan : ∀ p, plan = some p → p.canExecute = true → ¬ IsSystem casing engine name)
    (hengine : engine ≠ .oracle) (hfails : ∀ after, fails after = false → engine = .doris →
      ∀ entry ∈ after.entries, casing.lower entry.name ≠ casing.lower name) :
    Idle c (executeDatabase server engine plan c name fails) ∨ plan ≠ none ∧
      Drops casing server engine dropStorage c name (executeDatabase server engine plan c name fails) := by
  have hcases := @executeDatabase_cases server engine name c fails plan
  rcases hcases with hidle | ⟨p, hp, hcan, hissued, hcatalog, hsuccess⟩
  · exact .inl hidle
  · refine .inr ⟨hp ▸ Option.some_ne_none p, hplan p hp hcan, fun h => absurd h hengine, ?_,
      fun entry hentry hkept => ?_, fun c' drop hmem => ?_, fun hstate entry hentry => ?_⟩
    · rw [hcatalog]
      exact issue_entries_subset c _
    · rw [hcatalog]
      exact issue_container_kept hentry hkept
    · rw [hissued, List.mem_singleton, Prod.mk.injEq] at hmem
      exact .inl hmem
    · obtain ⟨hcatalog, hfailsnot⟩ := hsuccess hstate
      have hleft := hentry
      rw [hcatalog] at hleft
      exact ⟨without_container hleft, fun hdoris => hfails _ hfailsnot hdoris entry hentry⟩

theorem executeOracle_cases :
    Idle c (executeOracle casing server dropStorage c target) ∨ planOracle casing server c target ≠ none ∧
      Drops casing server .oracle dropStorage c (casing.upper (strip target))
        (executeOracle casing server dropStorage c target) := by
  have hplanName : casing.upper (strip (casing.upper (strip target))) = casing.upper (strip target) := by
    rw [casing.strip_upper, strip_strip, casing.upper_upper]
  have hsame : planOracle casing server c (casing.upper (strip target)) = planOracle casing server c target := by
    simp only [planOracle, hplanName]
  unfold executeOracle
  simp only
  split
  · exact .inl ⟨rfl, rfl, nofun⟩
  · next plan hplan =>
      split
      · exact .inl ⟨rfl, rfl, nofun⟩
      · next hcan =>
          obtain ⟨-, hsystem, hmaintained, hexclusive⟩ :=
            planOracle_eq_some hplan (Bool.eq_true_of_not_eq_false hcan)
          rw [hplanName] at hsystem hmaintained hexclusive
          have hplanned : planOracle casing server c target ≠ none := by
            rw [← hsame, hplan]
            exact Option.some_ne_none plan
          split
          · exact .inl ⟨rfl, rfl, nofun⟩
          · split
            · next hok =>
                have hafter := issue_ok hok
                have hfree : ∀ tablespace ∈ (if dropStorage = true then plan.exclusive else []),
                    dropStorage = true ∧ tablespace ∉ oracleSystemTablespaces ∧
                      StorageFree (issue server .oracle c (.container (casing.upper (strip target)))).1
                        tablespace := by
                  intro tablespace hmem
                  split at hmem
                  · next hstorage =>
                      rw [hexclusive] at hmem
                      have hnot := (List.mem_filter.mp hmem).2
                      rw [Bool.not_eq_true'] at hnot
                      rw [hafter]
                      exact ⟨hstorage, storageFree_of_exclusive hnot⟩
                  · cases hmem
                obtain ⟨hentries, hissued⟩ : _ ∧ ∀ c' drop, (c', drop) ∈ (dropTablespaces server
                    (issue server .oracle c (.container (casing.upper (strip target)))).1
                    (if dropStorage = true then plan.exclusive else [])).1 → _ :=
                  dropTablespaces_free fun tablespace hmem => (hfree tablespace hmem).2.2
                refine .inr ⟨hplanned, hsystem, fun _ => hmaintained, ?_, fun entry hentry hkept => ?_,
                  fun c' drop hmem => ?_, fun _ entry hentry => ?_⟩
                · simp only [hentries]
                  exact issue_entries_subset c _
                · simp only [hentries]
                  exact issue_container_kept hentry hkept
                · rcases List.mem_cons.mp hmem with heq | hmem
                  · cases heq
                    exact .inl ⟨rfl, rfl⟩
                  · obtain ⟨tablespace, htablespace, hdrop, hleft⟩ := hissued c' drop hmem
                    obtain ⟨hstorage, hnosystem, -⟩ := hfree tablespace htablespace
                    exact .inr ⟨tablespace, hdrop, hstorage, hnosystem, hleft⟩
                · simp only [hentries] at hentry
                  rw [hafter] at hentry
                  exact ⟨without_container hentry, nofun⟩
            · refine .inr ⟨hplanned, hsystem, fun _ => hmaintained, issue_entries_subset c _,
                fun entry hentry hkept => issue_container_kept hentry hkept, fun c' drop hmem => ?_, nofun⟩
              rw [List.mem_singleton, Prod.mk.injEq] at hmem
              exact .inl hmem

/-- `execute_cleanup` drops nothing, or what it has made of a confirmed target. -/
theorem executeCleanup_cases {cleanupFiles : Bool} {confirmation : Name} :
    Idle c (executeCleanup casing server engine dropStorage cleanupFiles confirmation c target) ∨
      confirmation = target ∧ buildCleanupPlan casing server engine c target ≠ none ∧
        Drops casing server engine dropStorage c (droppedName casing engine target)
          (executeCleanup casing server engine dropStorage cleanupFiles confirmation c target) := by
  have hblocked : ∀ plan : Option Plan,
      Idle c { issued := [], catalog := c, state := plan.map fun _ => State.blocked } := by
    intro plan
    refine ⟨rfl, rfl, ?_⟩
    cases plan <;> exact nofun
  unfold executeCleanup
  by_cases hconfirmed : confirmation = target
  · simp only [hconfirmed, ne_eq, not_true, if_false, true_and]
    cases engine with
    | mysql =>
        refine drops_database (fun p hp hcan hsystem => ?_) nofun nofun
        have hplanned := (planDatabase_eq_some hp hcan).2
        rw [system_strip strip_mysql hsystem] at hplanned
        exact hplanned hsystem
    | sqlserver =>
        refine drops_database (fun p hp hcan hsystem => ?_) nofun nofun
        have hplanned := (planDatabase_eq_some hp hcan).2
        rw [system_strip strip_sqlserver hsystem] at hplanned
        exact hplanned hsystem
    | doris =>
        have hcases : Idle c (executeDoris casing server c target) ∨
            planDoris casing server c target ≠ none ∧
              Drops casing server .doris dropStorage c (strip target) (executeDoris casing server c target) := by
          have hplan : ∀ p, planDoris casing server c target = some p → p.canExecute = true →
              ¬ IsSystem casing .doris (strip target) :=
            fun p hp hcan => (planDatabase_eq_some hp hcan).2
          unfold executeDoris
          simp only
          refine drops_database hplan (by decide) fun after hfails _ entry hentry heq => ?_
          rw [Bool.or_eq_false_iff] at hfails
          have hnone := List.any_eq_false.mp hfails.2 entry hentry
          exact hnone (decide_eq_true heq)
        exact hcases
    | oracle => exact executeOracle_cases
    | ftp => exact .inl (hblocked _)
  · simp only [ne_eq, hconfirmed, not_false_eq_true, if_true]
    exact .inl (hblocked _)

end RecoveryService.DatabaseCleanup
