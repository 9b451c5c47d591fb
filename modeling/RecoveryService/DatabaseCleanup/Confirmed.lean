import RecoveryService.DatabaseCleanup.Safe

/-! # Only what was confirmed is dropped

One direction holds on every server: behind an execution the entries are those of before without the dropped
name, so a batch is followed by its list of names.  For the other one a server is made on which nothing goes
wrong. -/

namespace RecoveryService.DatabaseCleanup

open Text

variable {casing : Casing} {server : Server} {engine : Engine} {dropStorage cleanupFiles : Bool}
  {c c₀ : Catalog} {confirmed : List Name}

/-! ### One target -/

theorem mem_names {c : Catalog} {name : Name} : name ∈ c.names ↔ ∃ entry ∈ c.entries, entry.name = name :=
  List.mem_map

/-- A name of the catalog denotes its own entry only. -/
theorem Distinct.name_eq (h : Distinct server engine c₀) {name : Name} (hname : name ∈ c₀.names) {entry : Entry}
    (hentry : entry ∈ c₀.entries) (hdenotes : denotes server engine name entry.name = true) :
    entry.name = name := by
  obtain ⟨own, hown, rfl⟩ := mem_names.mp hname
  rw [h own hown entry hentry hdenotes]

theorem Distinct.not_protected (hdistinct : Distinct server engine c₀) (hsub : c.entries ⊆ c₀.entries)
    {name : Name} (hunprotected : ¬ IsSystem casing engine name)
    (hmaintained : engine = .oracle → oracleIsMaintainedUser c name = false) {entry : Entry}
    (hentry : entry ∈ c.entries) (hname : entry.name = name) : ¬ IsProtected casing engine entry := by
  rintro (hsystem | ⟨horacle, hflag⟩)
  · exact hunprotected (hname ▸ hsystem)
  · have hnot := hmaintained horacle
    unfold oracleIsMaintainedUser at hnot
    cases hfind : c.entries.find? fun entry => entry.name = name with
    | none => exact List.find?_eq_none.mp hfind entry hentry (decide_eq_true hname)
    | some found =>
        rw [hfind] at hnot
        have hnamed := List.find?_some hfind
        have hfound : found.name = entry.name := (of_decide_eq_true hnamed).trans hname.symm
        have heq : found = entry := by
          refine hdistinct found (hsub (List.mem_of_find?_eq_some hfind)) entry (hsub hentry) ?_
          rw [hfound]
          exact denotes_self _
        simp only [heq, hflag] at hnot
        cases hnot

theorem Drops.safe {name : Name} {result : Execution}
    (h : Drops casing server engine dropStorage c name result) (hdistinct : Distinct server engine c₀)
    (hsub : c.entries ⊆ c₀.entries) (hname : name ∈ c₀.names) (hconfirmed : name ∈ confirmed) :
    SafeDrops casing server engine dropStorage confirmed result.issued := by
  refine ⟨fun c' other hmem entry hentry hdenotes => ?_, fun c' tablespace hmem => ?_⟩
  · rcases h.issued c' _ hmem with ⟨rfl, hdrop⟩ | ⟨tablespace, hdrop, -⟩
    · rw [Drop.container.injEq] at hdrop
      subst hdrop
      have hsame := hdistinct.name_eq hname (hsub hentry) hdenotes
      exact ⟨hsame ▸ hconfirmed, hdistinct.not_protected hsub h.unprotected h.maintained hentry hsame⟩
    · cases hdrop
  · rcases h.issued c' _ hmem with ⟨-, hdrop⟩ | ⟨other, hdrop, hstorage, hsystem, hfree⟩
    · cases hdrop
    · rw [Drop.tablespace.injEq] at hdrop
      subst hdrop
      exact ⟨hstorage, hsystem, hfree⟩

theorem safeDrops_nil : SafeDrops casing server engine dropStorage confirmed [] := ⟨nofun, nofun⟩

theorem SafeDrops.append {first second : List (Catalog × Drop)}
    (h₁ : SafeDrops casing server engine dropStorage confirmed first)
    (h₂ : SafeDrops casing server engine dropStorage confirmed second) :
    SafeDrops casing server engine dropStorage confirmed (first ++ second) := by
  refine ⟨fun c name hmem => ?_, fun c name hmem => ?_⟩
  · rcases List.mem_append.mp hmem with hmem | hmem
    · exact h₁.container c name hmem
    · exact h₂.container c name hmem
  · rcases List.mem_append.mp hmem with hmem | hmem
    · exact h₁.tablespace c name hmem
    · exact h₂.tablespace c name hmem

theorem safeCleanup_of_holds {confirmation target : Name} (h : CleanupHolds casing engine confirmation target) :
    SafeCleanup casing engine dropStorage cleanupFiles confirmation target := by
  intro server c hdistinct htarget
  simp only
  have hcases := @executeCleanup_cases casing server engine c target dropStorage cleanupFiles confirmation
  rcases hcases with hidle | hdrops
  · rw [hidle.issued]
    exact ⟨safeDrops_nil, fun hne => absurd rfl hne⟩
  · obtain ⟨rfl, hplan, hdrops⟩ := hdrops
    have hsame := (h rfl).resolve_left hdrops.unprotected
    rw [hsame] at hdrops
    refine ⟨hdrops.safe hdistinct (List.Subset.refl _) htarget (List.mem_singleton_self _), fun _ => ⟨hplan, ?_⟩⟩
    exact fun entry hentry hname =>
      hdistinct.not_protected (List.Subset.refl _) hdrops.unprotected hdrops.maintained hentry hname

/-! ### The list of names -/

/-- Behind an execution of the names an entry is left that none of them denotes. -/
structure Follows (casing : Casing) (server : Server) (engine : Engine) (dropStorage : Bool)
    (confirmed : List Name) (c : Catalog) (names : List Name)
    (result : List (Catalog × Drop) × Catalog × Option (List State)) : Prop where
  issued : SafeDrops casing server engine dropStorage confirmed result.1
  entries : result.2.1.entries ⊆ c.entries
  kept : ∀ entry ∈ c.entries, (∀ name ∈ names, denotes server engine name entry.name = false) →
    entry ∈ result.2.1.entries
  length : ∀ states, result.2.2 = some states → states.length = names.length
  success : ∀ states, result.2.2 = some states → (∀ state ∈ states, state = .success) →
    ∀ name ∈ names, ∀ entry ∈ result.2.1.entries,
      entry.name ≠ name ∧ (engine = .doris → casing.lower entry.name ≠ casing.lower name)

theorem executeAll_follows (hdistinct : Distinct server engine c₀) {names : List Name} {c : Catalog}
    (hsub : c.entries ⊆ c₀.entries) (hnames : ∀ name ∈ names, name ∈ c₀.names ∧ name ∈ confirmed)
    (hfixed : ∀ name ∈ names, droppedName casing engine name = name) :
    Follows casing server engine dropStorage confirmed c names
      (executeAll casing server engine dropStorage cleanupFiles c names) := by
  induction names generalizing c with
  | nil => exact ⟨safeDrops_nil, List.Subset.refl _, fun _ h _ => h, fun states h => by cases h; rfl, nofun⟩
  | cons target rest ih =>
      have hcases := @executeCleanup_cases casing server engine c target dropStorage cleanupFiles target
      rw [hfixed target List.mem_cons_self] at hcases
      rw [executeAll]
      simp only
      generalize executeCleanup casing server engine dropStorage cleanupFiles target c target = result at hcases
      have hissued : SafeDrops casing server engine dropStorage confirmed result.issued := by
        rcases hcases with hidle | ⟨-, -, hdrops⟩
        · rw [hidle.issued]
          exact safeDrops_nil
        · obtain ⟨hname, hconfirmed⟩ := hnames target List.mem_cons_self
          exact hdrops.safe hdistinct hsub hname hconfirmed
      have hentries : result.catalog.entries ⊆ c.entries := by
        rcases hcases with hidle | ⟨-, -, hdrops⟩
        · rw [hidle.catalog]
          exact List.Subset.refl _
        · exact hdrops.entries
      have hkept : ∀ entry ∈ c.entries, denotes server engine target entry.name = false →
          entry ∈ result.catalog.entries := by
        rcases hcases with hidle | ⟨-, -, hdrops⟩
        · rw [hidle.catalog]
          exact fun entry hentry _ => hentry
        · exact hdrops.kept
      have hsuccess : result.state = some .success → ∀ entry ∈ result.catalog.entries,
          entry.name ≠ target ∧ (engine = .doris → casing.lower entry.name ≠ casing.lower target) := by
        rcases hcases with hidle | ⟨-, -, hdrops⟩
        · exact fun hstate => absurd hstate hidle.state
        · exact hdrops.success
      cases hstate : result.state with
      | none =>
          refine ⟨hissued, hentries, fun entry hentry hnot => ?_, nofun, nofun⟩
          exact hkept entry hentry (hnot target List.mem_cons_self)
      | some state =>
          have hrest := ih (List.Subset.trans hentries hsub) (fun name hname => hnames name (List.mem_cons_of_mem _ hname))
            fun name hname => hfixed name (List.mem_cons_of_mem _ hname)
          simp only
          refine ⟨hissued.append hrest.issued, List.Subset.trans hrest.entries hentries, fun entry hentry hnot => ?_,
            fun states hstates => ?_, fun states hstates hall name hname entry hentry => ?_⟩
          · exact hrest.kept entry (hkept entry hentry (hnot target List.mem_cons_self))
              fun name hname => hnot name (List.mem_cons_of_mem _ hname)
          · obtain ⟨tail, htail, rfl⟩ := Option.map_eq_some_iff.mp hstates
            rw [List.length_cons, List.length_cons, hrest.length tail htail]
          · obtain ⟨tail, htail, rfl⟩ := Option.map_eq_some_iff.mp hstates
            rcases List.mem_cons.mp hname with rfl | hname
            · have hfirst := hall state List.mem_cons_self
              subst hfirst
              exact hsuccess hstate entry (hrest.entries hentry)
            · exact hrest.success tail htail (fun other hother => hall other (List.mem_cons_of_mem _ hother))
                name hname entry hentry

/-! ### The targets of a batch -/

theorem mem_normalizeBatchTargets {seen targets : List Name} {target : Name}
    (h : target ∈ normalizeBatchTargets casing seen targets) :
    target ≠ [] ∧ casing.lower target ∉ seen ∧ ∃ raw ∈ targets, strip raw = target := by
  induction targets generalizing seen with
  | nil => cases h
  | cons raw rest ih =>
      simp only [normalizeBatchTargets] at h
      split at h
      · obtain ⟨hne, hseen, other, hother, hstrip⟩ := ih h
        exact ⟨hne, hseen, other, List.mem_cons_of_mem _ hother, hstrip⟩
      · next hnew =>
          rw [not_or] at hnew
          rcases List.mem_cons.mp h with rfl | h
          · exact ⟨hnew.1, hnew.2, raw, List.mem_cons_self, rfl⟩
          · obtain ⟨hne, hseen, other, hother, hstrip⟩ := ih h
            exact ⟨hne, fun hmem => hseen (List.mem_cons_of_mem _ hmem), other, List.mem_cons_of_mem _ hother,
              hstrip⟩

/-- Of the targets that differ in case one is kept. -/
theorem exists_normalizeBatchTargets {seen targets : List Name} {raw : Name} (h : raw ∈ targets)
    (hne : strip raw ≠ []) : casing.lower (strip raw) ∈ seen ∨
      ∃ target ∈ normalizeBatchTargets casing seen targets, casing.lower target = casing.lower (strip raw) := by
  induction targets generalizing seen with
  | nil => cases h
  | cons first rest ih =>
      simp only [normalizeBatchTargets]
      rcases List.mem_cons.mp h with rfl | h
      · split
        · next hold => exact .inl (hold.resolve_left hne)
        · exact .inr ⟨strip raw, List.mem_cons_self, rfl⟩
      · split
        · exact ih h
        · have hrest := @ih (casing.lower (strip first) :: seen) h
          rcases hrest with hseen | ⟨target, htarget, hlower⟩
          · rcases List.mem_cons.mp hseen with heq | hseen
            · exact .inr ⟨strip first, List.mem_cons_self, heq.symm⟩
            · exact .inl hseen
          · exact .inr ⟨target, List.mem_cons_of_mem _ htarget, hlower⟩

theorem normalizeBatchTargets_inj {seen targets : List Name} {a b : Name}
    (ha : a ∈ normalizeBatchTargets casing seen targets) (hb : b ∈ normalizeBatchTargets casing seen targets)
    (hlower : casing.lower a = casing.lower b) : a = b := by
  induction targets generalizing seen with
  | nil => cases ha
  | cons first rest ih =>
      simp only [normalizeBatchTargets] at ha hb
      split at ha
      · next hold =>
          rw [if_pos hold] at hb
          exact ih ha hb
      · next hnew =>
          rw [if_neg hnew] at hb
          rcases List.mem_cons.mp ha with rfl | ha
          · rcases List.mem_cons.mp hb with rfl | hb
            · rfl
            · exact absurd (hlower ▸ List.mem_cons_self) (mem_normalizeBatchTargets hb).2.1
          · rcases List.mem_cons.mp hb with rfl | hb
            · exact absurd (hlower ▸ List.mem_cons_self) (mem_normalizeBatchTargets ha).2.1
            · exact ih ha hb

/-- Where the batch plan can be executed every target has its plan. -/
theorem planned_of_batchCanExecute {targets : List Name}
    (h : batchCanExecute casing server engine c targets = true) {target : Name} (htarget : target ∈ targets) :
    ∃ plan, buildCleanupPlan casing server engine c target = some plan ∧ Planned casing engine c target plan := by
  have hcan := List.all_eq_true.mp h target htarget
  cases hplan : buildCleanupPlan casing server engine c target with
  | none =>
      rw [hplan] at hcan
      cases hcan
  | some plan =>
      rw [hplan] at hcan
      exact ⟨plan, rfl, buildCleanupPlan_eq_some hplan hcan⟩

theorem plannedNames_eq {targets : List Name} (h : batchCanExecute casing server engine c targets = true) :
    plannedNames casing server engine c targets = targets.map (planName casing engine) := by
  unfold plannedNames
  rw [← List.filterMap_eq_map]
  refine List.filterMap_congr fun target htarget => ?_
  obtain ⟨plan, hplan, hplanned⟩ := planned_of_batchCanExecute h htarget
  rw [hplan, Option.map_some, hplanned.targetName]
  rfl

theorem batchState_success {states : List State} :
    batchState states = .success ↔ ∀ state ∈ states, state = .success := by
  have hcount : states.countP (· = .success) = states.length ↔ ∀ state ∈ states, state = .success := by
    rw [List.countP_eq_length]
    exact forall₂_congr fun _ _ => decide_eq_true_iff
  rw [← hcount]
  simp only [batchState]
  refine ⟨fun h => ?_, fun h => if_pos h⟩
  split at h
  · next hall => exact hall
  · split at h
    · cases h
    · split at h <;> cases h

/-- A requested name of a system database is among the names of the batch. -/
theorem system_batchNames {targets : List Name} {target : Name} (hengine : engine ≠ .oracle)
    (htarget : target ∈ targets) (hsystem : IsSystem casing engine target) :
    ∃ name ∈ batchNames casing engine targets, IsSystem casing engine name := by
  have hfind : ∀ systemDatabases : List Name, (∀ name ∈ systemDatabases, strip name = name) →
      [] ∉ systemDatabases → casing.lower target ∈ systemDatabases →
        ∃ name ∈ normalizeBatchTargets casing [] targets, casing.lower name ∈ systemDatabases ∧
          strip name = name := by
    intro systemDatabases hstrip hnil hmem
    have hlower := system_strip hstrip hmem
    have hne : strip target ≠ [] := fun h => by
      rw [h, casing.lower_nil] at hlower
      rw [← hlower] at hmem
      exact hnil hmem
    have hkept := @exists_normalizeBatchTargets casing [] targets target htarget hne
    rcases hkept with hseen | ⟨name, hname, heq⟩
    · cases hseen
    · obtain ⟨-, -, raw, -, rfl⟩ := mem_normalizeBatchTargets hname
      refine ⟨strip raw, hname, ?_, strip_strip raw⟩
      rw [heq, hlower]
      exact hmem
  have hmap : ∀ name ∈ normalizeBatchTargets casing [] targets, strip name = name →
      name ∈ batchNames casing engine targets := by
    intro name hname hstrip
    refine List.mem_map.mpr ⟨name, hname, ?_⟩
    unfold planName
    rw [if_neg hengine, hstrip]
  cases engine with
  | mysql =>
      obtain ⟨name, hname, hfound, hstrip⟩ := hfind _ strip_mysql (by decide) hsystem
      exact ⟨name, hmap name hname hstrip, hfound⟩
  | sqlserver =>
      obtain ⟨name, hname, hfound, hstrip⟩ := hfind _ strip_sqlserver (by decide) hsystem
      exact ⟨name, hmap name hname hstrip, hfound⟩
  | doris =>
      obtain ⟨name, hname, hfound, hstrip⟩ := hfind _ strip_doris (by decide) hsystem
      exact ⟨name, hmap name hname hstrip, hfound⟩
  | oracle => exact absurd rfl hengine
  | ftp => cases hsystem

/-! ### The batch -/

theorem batchNames_fixed {targets : List Name} {name : Name} (h : name ∈ batchNames casing engine targets) :
    droppedName casing engine name = name := by
  obtain ⟨target, -, rfl⟩ := List.mem_map.mp h
  exact droppedName_planName target

theorem batchNames_unprotected {targets : List Name}
    (hcan : batchCanExecute casing server engine c (normalizeBatchTargets casing [] targets) = true) {name : Name}
    (hname : name ∈ batchNames casing engine targets) : ¬ IsSystem casing engine name ∧
      (engine = .oracle → oracleIsMaintainedUser c name = false) ∧ engine ≠ .ftp := by
  obtain ⟨target, htarget, rfl⟩ := List.mem_map.mp hname
  obtain ⟨plan, -, hplanned⟩ := planned_of_batchCanExecute hcan htarget
  exact ⟨hplanned.unprotected, hplanned.maintained, hplanned.database⟩

/-- On Doris two names of a batch do not differ in case. -/
theorem batchNames_inj (hengine : engine = .doris) {targets : List Name} {a b : Name}
    (ha : a ∈ batchNames casing engine targets) (hb : b ∈ batchNames casing engine targets)
    (hlower : casing.lower a = casing.lower b) : a = b := by
  have hstripped : ∀ name ∈ batchNames casing engine targets, name ∈ normalizeBatchTargets casing [] targets := by
    intro name hname
    obtain ⟨target, htarget, rfl⟩ := List.mem_map.mp hname
    obtain ⟨-, -, raw, -, rfl⟩ := mem_normalizeBatchTargets htarget
    simp only [planName, hengine, reduceCtorEq, if_false, strip_strip]
    exact htarget
  exact normalizeBatchTargets_inj (hstripped a ha) (hstripped b hb) hlower

/-- A batch that goes through executes its names. -/
theorem executeCleanupBatch_eq {targets : List Name} (hsome : normalizeBatchTargets casing [] targets ≠ [])
    (hcan : batchCanExecute casing server engine c (normalizeBatchTargets casing [] targets) = true) :
    executeCleanupBatch casing server engine true dropStorage cleanupFiles c targets =
      { issued := (executeAll casing server engine dropStorage cleanupFiles c (batchNames casing engine targets)).1
        catalog :=
          (executeAll casing server engine dropStorage cleanupFiles c (batchNames casing engine targets)).2.1
        state := (executeAll casing server engine dropStorage cleanupFiles c
          (batchNames casing engine targets)).2.2.map batchState } := by
  unfold executeCleanupBatch
  simp only
  rw [if_neg hsome, if_neg (by rw [hcan]; decide), plannedNames_eq hcan]
  rfl

theorem executeCleanupBatch_cases {acknowledged : Bool} {targets : List Name} :
    (executeCleanupBatch casing server engine acknowledged dropStorage cleanupFiles c targets).issued = [] ∧
        (executeCleanupBatch casing server engine acknowledged dropStorage cleanupFiles c targets).state ≠
          some .success ∨
      acknowledged = true ∧ normalizeBatchTargets casing [] targets ≠ [] ∧
        batchCanExecute casing server engine c (normalizeBatchTargets casing [] targets) = true := by
  unfold executeCleanupBatch
  simp only
  split
  · exact .inl ⟨rfl, nofun⟩
  · next hsome =>
      split
      · exact .inl ⟨rfl, nofun⟩
      · next hgo =>
          rw [not_or] at hgo
          exact .inr ⟨Bool.eq_true_of_not_eq_false hgo.1, hsome, Bool.eq_true_of_not_eq_false hgo.2⟩

theorem safeBatch_of_holds {acknowledged : Bool} {targets : List Name}
    (h : BatchHolds casing engine acknowledged targets) :
    SafeBatch casing engine acknowledged dropStorage cleanupFiles targets := by
  intro server c hdistinct htargets
  simp only
  have hcases := @executeCleanupBatch_cases casing server engine dropStorage cleanupFiles c acknowledged targets
  rcases hcases with ⟨hissued, hstate⟩ | ⟨rfl, hsome, hcan⟩
  · rw [hissued]
    exact ⟨safeDrops_nil, fun hne => absurd rfl hne, fun hsuccess => absurd hsuccess hstate⟩
  · rw [executeCleanupBatch_eq hsome hcan, if_pos rfl]
    have hdatabase : engine ≠ .ftp ∧ ∀ name ∈ batchNames casing engine targets,
        ¬ IsSystem casing engine name := by
      refine ⟨?_, fun name hname => (batchNames_unprotected hcan hname).1⟩
      obtain ⟨target, htarget⟩ := List.exists_mem_of_ne_nil _ hsome
      exact (batchNames_unprotected hcan (List.mem_map_of_mem htarget)).2.2
    obtain ⟨hrequested, hleft⟩ : (∀ name ∈ batchNames casing engine targets, name ∈ targets) ∧
        ((∀ target ∈ targets, target ∈ batchNames casing engine targets) ∨
          Noticed casing engine targets) := by
      rcases h rfl with hftp | ⟨name, hname, hsystem⟩ | ⟨hrequested, hnone | hleft⟩
      · exact absurd hftp hdatabase.1
      · exact absurd hsystem (hdatabase.2 name hname)
      · exact absurd (List.map_eq_nil_iff.mp hnone) hsome
      · exact ⟨hrequested, hleft⟩
    have hfollows : Follows casing server engine dropStorage targets c (batchNames casing engine targets)
        (executeAll casing server engine dropStorage cleanupFiles c (batchNames casing engine targets)) :=
      executeAll_follows hdistinct (List.Subset.refl _)
        (fun name hname => ⟨htargets name (hrequested name hname), hrequested name hname⟩)
        fun name hname => batchNames_fixed hname
    refine ⟨hfollows.issued, fun _ => ⟨fun target htarget => ?_, fun entry hentry hname => ?_⟩,
      fun hsuccess target htarget => ?_⟩
    · obtain ⟨plan, hplan, -⟩ := planned_of_batchCanExecute hcan htarget
      rw [hplan]
      exact Option.some_ne_none plan
    · by_cases horacle : engine = .oracle
      · rcases hleft with hall | hnoticed
        · obtain ⟨hsystem, hmaintained, -⟩ := batchNames_unprotected hcan (hall entry.name hname)
          exact hdistinct.not_protected (List.Subset.refl _) hsystem hmaintained hentry rfl
        · rw [horacle] at hnoticed
          cases hnoticed.1
      · rintro (hsystem | ⟨hengine, -⟩)
        · obtain ⟨name, hmem, hfound⟩ := system_batchNames horacle hname hsystem
          exact hdatabase.2 name hmem hfound
        · exact horacle hengine
    · obtain ⟨states, hstates, hstate⟩ := Option.map_eq_some_iff.mp hsuccess
      have hgone := hfollows.success states hstates (batchState_success.mp hstate)
      rcases hleft with hall | ⟨hdoris, name, hname, other, hother, hne, hlower⟩
      · intro hmem
        obtain ⟨entry, hentry, hentryname⟩ := mem_names.mp hmem
        exact (hgone target (hall target htarget) entry hentry).1 hentryname
      · -- the other name is no name of the batch, so it is left, and the check has seen it
        obtain ⟨entry, hentry, rfl⟩ := mem_names.mp (htargets other hother)
        refine absurd hlower ((hgone name hname entry (hfollows.kept entry hentry ?_)).2 hdoris)
        intro dropped hdropped
        by_contra hdenotes
        have hsame := hdistinct.name_eq (htargets dropped (hrequested dropped hdropped)) hentry
          (Bool.eq_true_of_not_eq_false hdenotes)
        rw [← hsame] at hdropped
        exact hne (batchNames_inj hdoris hdropped hname hlower)

/-! ### A server on which nothing goes wrong -/

/-- It tells all names apart, and gives one answer to every DROP. -/
def obliging (answer : Answer) : Server where
  same a b := decide (a = b)
  same_self _ := decide_eq_true rfl
  planRaises _ _ := false
  prepareRaises _ _ := false
  answer _ _ := answer
  verifyRaises _ _ := false
  filesRaise _ _ := false

theorem denotes_obliging {answer : Answer} {a b : Name} : denotes (obliging answer) engine a b = decide (a = b) := by
  unfold denotes
  split <;> rfl

/-- A catalog of names without storage. -/
def plain (names : List Name) : Catalog := { entries := names.map fun name => { name } }

theorem mem_names_plain {names : List Name} {name : Name} : name ∈ (plain names).names ↔ name ∈ names := by
  have hid : names.map (Entry.name ∘ fun name => { name }) = names := List.map_id names
  unfold plain Catalog.names
  rw [List.map_map, hid]

theorem distinct_plain (answer : Answer) (names : List Name) : Distinct (obliging answer) engine (plain names) := by
  intro a ha b hb hdenotes
  rw [denotes_obliging] at hdenotes
  obtain ⟨first, -, rfl⟩ := List.mem_map.mp ha
  obtain ⟨second, -, rfl⟩ := List.mem_map.mp hb
  exact congrArg (fun name => ({ name } : Entry)) (of_decide_eq_true hdenotes)

theorem plain_without {answer : Answer} {names : List Name} {name : Name} :
    (plain names).without (obliging answer) engine (.container name) = plain (names.filter (· ≠ name)) := by
  unfold plain Catalog.without
  simp only [List.filter_map, List.filter_nil, Catalog.mk.injEq, and_true]
  refine congrArg _ (List.filter_congr fun other _ => ?_)
  simp only [Function.comp, denotes_obliging, eq_comm, decide_not]

/-- The dropped name is the only one with its lower case. -/
def Unnoticed (casing : Casing) (engine : Engine) (names : List Name) (name : Name) : Prop :=
  engine = .doris → ∀ other ∈ names, other ≠ name → casing.lower other ≠ casing.lower name

theorem any_plain {names : List Name} {p : Name → Bool} (h : ∀ name ∈ names, p name = false) :
    ((plain names).entries.any fun entry => p entry.name) = false := by
  rw [List.any_eq_false]
  intro entry hentry
  obtain ⟨name, hname, rfl⟩ := List.mem_map.mp hentry
  rw [h name hname]
  exact Bool.false_ne_true

/-- The execution of a plan that can be executed. -/
theorem executeDatabase_obliging {answer : Answer} {names : List Name} {plan : Option Plan} {name : Name}
    {fails : Catalog → Bool} (hplan : ∃ p, plan = some p ∧ p.canExecute = true)
    (hfails : answer = .dropped → fails (plain (names.filter (· ≠ name))) = false) :
    ∃ state, executeDatabase (obliging answer) engine plan (plain names) name fails =
        { issued := [(plain names, .container name)]
          catalog := (issue (obliging answer) engine (plain names) (.container name)).1
          state := some state } ∧ (answer = .dropped → state = .success) := by
  obtain ⟨p, rfl, hcan⟩ := hplan
  unfold executeDatabase
  simp only [hcan, Bool.true_eq_false, if_false, obliging, Bool.false_eq_true]
  refine ⟨_, rfl, ?_⟩
  rintro rfl
  refine if_pos ⟨rfl, ?_⟩
  have hleft : (plain names).without (obliging .dropped) engine (.container name) =
      plain (names.filter (· ≠ name)) := plain_without
  rw [← hleft] at hfails
  exact hfails rfl

theorem planDatabase_obliging {answer : Answer} {systemDatabases : List Name} {target : Name}
    (h : casing.lower (strip target) ∉ systemDatabases) :
    ∃ p, planDatabase casing (obliging answer) systemDatabases c target = some p ∧ p.canExecute = true := by
  simp only [planDatabase, h, if_false, obliging, Bool.false_eq_true]
  exact ⟨_, rfl, rfl⟩

theorem planOracle_obliging {answer : Answer} {names : List Name} {target : Name}
    (h : casing.upper (strip target) ∉ oracleSystemUsers) :
    planOracle casing (obliging answer) (plain names) target =
      some { targetName := casing.upper (strip target), canExecute := true } := by
  have hmaintained : oracleIsMaintainedUser (plain names) (casing.upper (strip target)) = false := by
    unfold oracleIsMaintainedUser
    split
    · next entry hfind =>
        obtain ⟨name, -, rfl⟩ := List.mem_map.mp (List.mem_of_find?_eq_some hfind)
        rfl
    · rfl
  have hdefault : ((plain names).entries.find? fun entry => entry.name = casing.upper (strip target)).bind
      Entry.defaultTablespace = none := by
    cases hfind : (plain names).entries.find? fun entry => entry.name = casing.upper (strip target) with
    | none => rfl
    | some entry =>
        obtain ⟨name, -, rfl⟩ := List.mem_map.mp (List.mem_of_find?_eq_some hfind)
        rfl
  have hstorage : oracleUserTablespaces (plain names) (casing.upper (strip target)) = [] := by
    have hsorted : sorted [] = [] := List.mergeSort_nil
    simp only [oracleUserTablespaces, hdefault]
    exact hsorted
  simp only [planOracle, h, if_false, obliging, Bool.false_eq_true, hmaintained, hstorage]
  rfl

theorem executeOracle_obliging {answer : Answer} {names : List Name} {target : Name}
    (h : casing.upper (strip target) ∉ oracleSystemUsers) :
    ∃ state, executeOracle casing (obliging answer) dropStorage (plain names) target =
        { issued := [(plain names, .container (casing.upper (strip target)))]
          catalog := (issue (obliging answer) .oracle (plain names)
            (.container (casing.upper (strip target)))).1
          state := some state } ∧ (answer = .dropped → state = .success) := by
  have hsame : casing.upper (strip (casing.upper (strip target))) = casing.upper (strip target) := by
    rw [casing.strip_upper, strip_strip, casing.upper_upper]
  have hplan : planOracle casing (obliging answer) (plain names) (casing.upper (strip target)) = _ :=
    planOracle_obliging (hsame.symm ▸ h)
  rw [hsame] at hplan
  unfold executeOracle
  simp only [hplan, Bool.true_eq_false, if_false]
  cases answer with
  | refused | lost => exact ⟨.failed, rfl, nofun⟩
  | dropped =>
      refine ⟨.success, ?_, fun _ => rfl⟩
      have hgone : ∀ plan : Plan, plan.storage = [] → oracleRemains plan dropStorage
          ((plain names).without (obliging .dropped) .oracle (.container (casing.upper (strip target))))
          (casing.upper (strip target)) = false := by
        intro plan hstorage
        rw [plain_without, oracleRemains, hstorage]
        have hnone : ((plain (names.filter (· ≠ casing.upper (strip target)))).entries.any fun entry =>
            decide (entry.name = casing.upper (strip target))) = false :=
          any_plain (p := fun name => decide (name = casing.upper (strip target))) fun other hother =>
            decide_eq_false (of_decide_eq_true (List.mem_filter.mp hother).2)
        exact Bool.or_eq_false_iff.mpr ⟨hnone, Bool.and_false _⟩
      have hissue : issue (obliging .dropped) .oracle (plain names) (.container (casing.upper (strip target))) =
          ((plain names).without (obliging .dropped) .oracle (.container (casing.upper (strip target))), true) := rfl
      have hprepare : ∀ c name, (obliging .dropped).prepareRaises c name = false := fun _ _ => rfl
      have hverify : ∀ c name, (obliging .dropped).verifyRaises c name = false := fun _ _ => rfl
      simp only [hissue, hprepare, hverify, ite_self, dropTablespaces, Bool.false_eq_true, if_false, if_true,
        Bool.false_or]
      rw [if_pos ⟨trivial, hgone _ rfl⟩]

/-- A target that is not protected is dropped, with success where nothing is noticed. -/
theorem executeCleanup_obliging {answer : Answer} {names : List Name} {target : Name} (hdatabase : engine ≠ .ftp)
    (hsystem : ¬ IsSystem casing engine (planName casing engine target))
    (hunnoticed : answer = .dropped → Unnoticed casing engine names (droppedName casing engine target)) :
    ∃ state, executeCleanup casing (obliging answer) engine dropStorage cleanupFiles target (plain names) target =
        { issued := [(plain names, .container (droppedName casing engine target))]
          catalog := (issue (obliging answer) engine (plain names)
            (.container (droppedName casing engine target))).1
          state := some state } ∧ (answer = .dropped → state = .success) := by
  have hother : ∀ name other : Name, other ∈ names.filter (· ≠ name) → other ≠ name :=
    fun name other h => of_decide_eq_true (List.mem_filter.mp h).2
  unfold executeCleanup
  simp only [ne_eq, not_true, if_false]
  cases engine with
  | mysql =>
      refine executeDatabase_obliging (planDatabase_obliging hsystem) fun _ => ?_
      refine Bool.or_eq_false_iff.mpr ⟨rfl, any_plain fun other h => ?_⟩
      exact decide_eq_false (hother target other h).symm
  | sqlserver =>
      refine executeDatabase_obliging (planDatabase_obliging hsystem) fun _ => ?_
      have hnone : ((plain (names.filter (· ≠ target))).entries.any fun entry =>
          decide (target = entry.name) && isRow entry.name) = false :=
        any_plain (p := fun name => decide (target = name) && isRow name) fun other h =>
          Bool.and_eq_false_iff.mpr (.inl (decide_eq_false (hother target other h).symm))
      exact Bool.or_eq_false_iff.mpr ⟨Bool.or_eq_false_iff.mpr ⟨rfl, hnone⟩, Bool.and_false _⟩
  | doris =>
      simp only [executeDoris, droppedName]
      refine executeDatabase_obliging (planDatabase_obliging hsystem) fun hanswer => ?_
      have hnone : ((plain (names.filter (· ≠ strip target))).entries.any fun entry =>
          decide (casing.lower entry.name = casing.lower (strip target))) = false :=
        any_plain (p := fun name => decide (casing.lower name = casing.lower (strip target))) fun other h =>
          decide_eq_false (hunnoticed hanswer rfl other (List.mem_filter.mp h).1 (hother _ other h))
      exact Bool.or_eq_false_iff.mpr ⟨rfl, hnone⟩
  | oracle => exact executeOracle_obliging hsystem
  | ftp => exact absurd rfl hdatabase

/-! ### What goes wrong otherwise -/

/-- A name that goes through plans and executions as it is. -/
structure Passes (casing : Casing) (engine : Engine) (name : Name) : Prop where
  database : engine ≠ .ftp
  planned : planName casing engine name = name
  dropped : droppedName casing engine name = name
  unprotected : ¬ IsSystem casing engine name

theorem Passes.execute {answer : Answer} {names : List Name} {name : Name} (h : Passes casing engine name)
    (hunnoticed : answer = .dropped → Unnoticed casing engine names name) :
    ∃ state, executeCleanup casing (obliging answer) engine dropStorage cleanupFiles name (plain names) name =
        { issued := [(plain names, .container name)]
          catalog := (issue (obliging answer) engine (plain names) (.container name)).1
          state := some state } ∧ (answer = .dropped → state = .success) := by
  have hsystem : ¬ IsSystem casing engine (planName casing engine name) := by
    rw [h.planned]
    exact h.unprotected
  have hrun : ∃ state, executeCleanup casing (obliging answer) engine dropStorage cleanupFiles name (plain names)
      name = _ ∧ _ := executeCleanup_obliging h.database hsystem (h.dropped.symm ▸ hunnoticed)
  rw [h.dropped] at hrun
  exact hrun

/-- A server that refuses has got a DROP for every name. -/
theorem executeAll_refused {names dropped : List Name} (h : ∀ name ∈ dropped, Passes casing engine name)
    {name : Name} (hname : name ∈ dropped) : (plain names, Drop.container name) ∈
      (executeAll casing (obliging .refused) engine dropStorage cleanupFiles (plain names) dropped).1 := by
  induction dropped with
  | nil => cases hname
  | cons first rest ih =>
      obtain ⟨state, hrun, -⟩ : ∃ state, executeCleanup casing (obliging .refused) engine dropStorage cleanupFiles
          first (plain names) first = _ ∧ _ := (h first List.mem_cons_self).execute nofun
      rw [executeAll, hrun]
      simp only
      rcases List.mem_cons.mp hname with rfl | hname
      · exact List.mem_append_left _ (List.mem_singleton_self _)
      · exact List.mem_append_right _ (ih (fun other hother => h other (List.mem_cons_of_mem _ hother)) hname)

/-- A server that drops is left with the other names. -/
theorem executeAll_dropped {dropped names : List Name} (h : ∀ name ∈ dropped, Passes casing engine name)
    (hunnoticed : ∀ name ∈ dropped, Unnoticed casing engine names name) :
    ∃ states, (executeAll casing (obliging .dropped) engine dropStorage cleanupFiles (plain names) dropped).2 =
      (plain (names.filter (· ∉ dropped)), some states) ∧ ∀ state ∈ states, state = .success := by
  induction dropped generalizing names with
  | nil =>
      refine ⟨[], ?_, nofun⟩
      simp only [executeAll, List.not_mem_nil, not_false_eq_true, decide_true, List.filter_true]
  | cons first rest ih =>
      obtain ⟨state, hrun, hstate⟩ : ∃ state, executeCleanup casing (obliging .dropped) engine dropStorage
          cleanupFiles first (plain names) first = _ ∧ _ :=
        (h first List.mem_cons_self).execute fun _ => hunnoticed first List.mem_cons_self
      have hleft : (issue (obliging .dropped) engine (plain names) (.container first)).1 =
          plain (names.filter (· ≠ first)) := plain_without
      have hrest : ∀ name ∈ rest, Unnoticed casing engine (names.filter (· ≠ first)) name :=
        fun name hname hengine other hother =>
          hunnoticed name (List.mem_cons_of_mem _ hname) hengine other (List.mem_filter.mp hother).1
      obtain ⟨states, hstates, hall⟩ := ih (fun name hname => h name (List.mem_cons_of_mem _ hname)) hrest
      rw [executeAll, hrun]
      simp only [hleft]
      refine ⟨state :: states, ?_, fun other hother => ?_⟩
      · simp only [hstates, List.filter_filter, Option.map_some, Prod.mk.injEq, and_true]
        refine congrArg plain (List.filter_congr fun name _ => ?_)
        simp only [List.mem_cons, not_or, ne_eq, Bool.decide_and, Bool.and_comm]
      · rcases List.mem_cons.mp hother with rfl | hother
        · exact hstate rfl
        · exact hall other hother

theorem holds_of_safeCleanup {confirmation target : Name}
    (h : SafeCleanup casing engine dropStorage cleanupFiles confirmation target) :
    CleanupHolds casing engine confirmation target := by
  rintro rfl
  by_contra hnot
  rw [not_or] at hnot
  obtain ⟨hsystem, hne⟩ := hnot
  have hplan : engine ≠ .ftp ∧ planName casing engine confirmation = droppedName casing engine confirmation := by
    cases engine with
    | mysql | sqlserver | ftp => exact absurd rfl hne
    | oracle | doris => exact ⟨nofun, rfl⟩
  obtain ⟨state, hrun, -⟩ : ∃ state, executeCleanup casing (obliging .refused) engine dropStorage cleanupFiles
      confirmation (plain [confirmation, droppedName casing engine confirmation]) confirmation = _ ∧ _ :=
    executeCleanup_obliging hplan.1 (hplan.2.symm ▸ hsystem) nofun
  have hsafe := (h (obliging .refused) (plain [confirmation, droppedName casing engine confirmation])
    (distinct_plain _ _) (mem_names_plain.mpr List.mem_cons_self)).1
  simp only [hrun] at hsafe
  have hentry := hsafe.container _ _ (List.mem_singleton_self _) { name := droppedName casing engine confirmation }
    (List.mem_map.mpr ⟨_, List.mem_cons_of_mem _ (List.mem_singleton_self _), rfl⟩) (denotes_self _)
  exact hne (List.mem_singleton.mp hentry.1)

theorem buildCleanupPlan_obliging {answer : Answer} {names : List Name} {target : Name} (hdatabase : engine ≠ .ftp)
    (hsystem : ¬ IsSystem casing engine (planName casing engine target)) :
    ∃ p, buildCleanupPlan casing (obliging answer) engine (plain names) target = some p ∧ p.canExecute = true := by
  cases engine with
  | mysql | sqlserver | doris => exact planDatabase_obliging hsystem
  | oracle => exact ⟨_, planOracle_obliging hsystem, rfl⟩
  | ftp => exact absurd rfl hdatabase

theorem holds_of_safeBatch {acknowledged : Bool} {targets : List Name}
    (h : SafeBatch casing engine acknowledged dropStorage cleanupFiles targets) :
    BatchHolds casing engine acknowledged targets := by
  rintro rfl
  by_cases hdatabase : engine = .ftp
  · exact .inl hdatabase
  by_cases hsystem : ∃ name ∈ batchNames casing engine targets, IsSystem casing engine name
  · exact .inr (.inl hsystem)
  refine .inr (.inr ?_)
  have hpasses : ∀ name ∈ batchNames casing engine targets, Passes casing engine name := by
    intro name hname
    refine ⟨hdatabase, ?_, batchNames_fixed hname, fun hfound => hsystem ⟨name, hname, hfound⟩⟩
    obtain ⟨target, -, rfl⟩ := List.mem_map.mp hname
    exact planName_planName target
  have hcan : ∀ answer names, batchCanExecute casing (obliging answer) engine (plain names)
      (normalizeBatchTargets casing [] targets) = true := by
    intro answer names
    refine List.all_eq_true.mpr fun target htarget => ?_
    obtain ⟨p, hp, hexecute⟩ : ∃ p, buildCleanupPlan casing (obliging answer) engine (plain names) target = some p ∧
        p.canExecute = true :=
      buildCleanupPlan_obliging hdatabase (hpasses _ (List.mem_map_of_mem htarget)).unprotected
    rw [hp]
    exact hexecute
  by_cases hnone : normalizeBatchTargets casing [] targets = []
  · have hempty : batchNames casing engine targets = [] := List.map_eq_nil_iff.mpr hnone
    rw [hempty]
    exact ⟨nofun, .inl rfl⟩
  refine ⟨fun name hname => ?_, .inr ?_⟩
  · have hsafe := (h (obliging .refused) (plain (targets ++ batchNames casing engine targets)) (distinct_plain _ _)
      fun target htarget => mem_names_plain.mpr (List.mem_append_left _ htarget)).1
    simp only [executeCleanupBatch_eq hnone (hcan _ _), if_true] at hsafe
    have hentry := hsafe.container _ _ (executeAll_refused hpasses hname) { name := name }
      (List.mem_map.mpr ⟨name, List.mem_append_right _ hname, rfl⟩) (denotes_self _)
    exact hentry.1
  · by_contra hneither
    rw [not_or] at hneither
    obtain ⟨hleft, hnoticed⟩ := hneither
    obtain ⟨target, htarget⟩ := not_forall.mp hleft
    obtain ⟨htarget, hnot⟩ := Classical.not_imp.mp htarget
    have hunnoticed : ∀ name ∈ batchNames casing engine targets, Unnoticed casing engine targets name :=
      fun name hname hdoris other hother hne hlower => hnoticed ⟨hdoris, name, hname, other, hother, hne, hlower⟩
    obtain ⟨states, hstates, hall⟩ : ∃ states, (executeAll casing (obliging .dropped) engine dropStorage cleanupFiles
        (plain targets) (batchNames casing engine targets)).2 = _ ∧ _ := executeAll_dropped hpasses hunnoticed
    have hgone := (h (obliging .dropped) (plain targets) (distinct_plain _ _)
      fun target htarget => mem_names_plain.mpr htarget).2.2
    simp only [executeCleanupBatch_eq hnone (hcan _ _), hstates, Option.map_some] at hgone
    refine hgone (congrArg some (batchState_success.mpr hall)) target htarget (mem_names_plain.mpr ?_)
    exact List.mem_filter.mpr ⟨htarget, decide_eq_true hnot⟩

/-- A cleanup, and a batch of them, is safe on every server and catalog exactly where the names that are dropped
are the ones that were confirmed. -/
theorem safe_iff (casing : Casing) (engine : Engine) (dropStorage cleanupFiles : Bool) :
    (∀ confirmation target, SafeCleanup casing engine dropStorage cleanupFiles confirmation target ↔
      CleanupHolds casing engine confirmation target) ∧
    ∀ acknowledged targets, SafeBatch casing engine acknowledged dropStorage cleanupFiles targets ↔
      BatchHolds casing engine acknowledged targets :=
  ⟨fun _ _ => ⟨holds_of_safeCleanup, safeCleanup_of_holds⟩, fun _ _ => ⟨holds_of_safeBatch, safeBatch_of_holds⟩⟩

/-! ### Names that differ in case -/

/-- Upper and lower case of ASCII names. -/
def asciiCasing : Casing where
  upper name := name.map Char.toUpper
  lower name := name.map Char.toLower
  strip_upper := stripChars_map isSpace_toUpper
  strip_lower := stripChars_map isSpace_toLower
  upper_upper name := by
    rw [List.map_map]
    exact List.map_congr_left fun c _ => toUpper_toUpper c
  lower_nil := rfl

/-- Of two databases that differ in case one is left behind a success, and for a user in lower case the one in
upper case is dropped. -/
theorem other_case_not_safe :
    ¬ SafeBatch asciiCasing .mysql true false false ["App".toList, "app".toList] ∧
      ¬ SafeCleanup asciiCasing .oracle false false "app".toList "app".toList := by
  refine ⟨fun h => ?_, fun h => ?_⟩
  · have hgone := (h (obliging .dropped) (plain ["App".toList, "app".toList]) (distinct_plain _ _)
      fun target htarget => mem_names_plain.mpr htarget).2.2 (by decide +kernel) "app".toList (by simp)
    exact hgone (by decide +kernel)
  · have hsafe := (h (obliging .dropped) (plain ["app".toList, "APP".toList]) (distinct_plain _ _)
      (mem_names_plain.mpr List.mem_cons_self)).1
    have hentry := hsafe.container (plain ["app".toList, "APP".toList]) "APP".toList (by decide +kernel)
      { name := "APP".toList } (by decide +kernel) (denotes_self _)
    have hnot : "APP".toList ∉ ["app".toList] := by decide
    exact hnot hentry.1

end RecoveryService.DatabaseCleanup
