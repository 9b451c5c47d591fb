import RecoveryService.RestorePlans.Restores

/-! # When no restore destroys another

The database of a group is named after a file of the group.  Runs of tasks without a target keep every
group's data apart exactly when the names read differently, and no system database is dropped exactly when
no name reads like one. -/

namespace RecoveryService.RestorePlans

open Text Program Runs

variable {lower : Name → Name} {fold : Char → Char} {dir : Directory}

/-! ### What the databases are named after -/

def Engine.naming : Engine → Naming
  | .mysql => mysqlNaming
  | .sqlServer => sqlServerNaming

/-- What the database of a group is named after, and whether it is dropped or replaced; `none` where
nothing is restored. -/
structure Source where
  value : Name
  replaces : Bool

def Directory.sources (lower : Name → Name) (dir : Directory) (target : Name) : List (Option Source) :=
  match dir.engine with
  | .mysql => (sortedFiles lower (dir.files.filter (isSupportedMysqlDump lower))).map fun file =>
      some ⟨mysqlValue lower file target, true⟩
  | .sqlServer => (groupSqlserverFiles lower dir.files).map fun fileSet =>
      match sortedFiles lower fileSet.bakFiles with
      | bak :: _ => some ⟨stem bak, true⟩
      | [] => fileSet.mdfFiles.head?.map fun mdf => ⟨stem mdf, false⟩

/-- The plan for a source. -/
def Source.planned (source : Source) (engine : Engine) (dropExisting : Bool) : Planned where
  database := engine.naming.name source.value
  method := match engine with
    | .mysql => .load dropExisting
    | .sqlServer => if source.replaces = true then .restore else .attach

theorem methodFor_ne (file : Name) : methodFor lower file ≠ .unsupported := by
  unfold methodFor
  split_ifs <;> nofun

theorem plans_eq (target : Name) (dropExisting : Bool) : dir.plans lower target dropExisting =
    (dir.sources lower target).map (Option.map (·.planned dir.engine dropExisting)) := by
  unfold Directory.plans Directory.sources
  cases dir.engine with
  | mysql =>
      simp only [groupMysqlFiles, List.map_map]
      refine List.map_congr_left fun file _ => ?_
      change MySqlRestorePlan.planned ⟨methodFor lower file, _, _, _⟩ = _
      rw [MySqlRestorePlan.planned, if_neg (methodFor_ne file)]
      rfl
  | sqlServer =>
      simp only [List.map_map]
      refine List.map_congr_left fun fileSet _ => ?_
      unfold chooseSqlserverPlan
      simp only [Function.comp_apply]
      cases sortedFiles lower fileSet.bakFiles with
      | cons bak baks => rfl
      | nil => cases fileSet.mdfFiles <;> cases fileSet.ldfFiles <;> rfl

/-! ### Choosing a group -/

variable {group : ℕ}
variable {t : Task}

theorem choose_eq_ok {plan : Option Planned} (h : dir.choose lower t = .ok (.group (plan, group))) :
    (dir.plans lower t.target t.dropExisting)[group]? = some plan := by
  have hgroup : ∀ {text : String} {plans : List (Option Planned)} {found : RecoveryTasks.Restored _},
      RecoveryTasks.chooseGroup text plans.zipIdx t.index = .ok found → found = .group (plan, group) →
        plans[group]? = some plan := by
    intro text plans found hfound hgroup
    unfold RecoveryTasks.chooseGroup at hfound
    split at hfound
    · cases hfound
    · cases hitem : RecoveryTasks.item? plans.zipIdx t.index with
      | none =>
          rw [hitem] at hfound
          cases hfound
      | some g =>
          rw [hitem, Except.ok.injEq] at hfound
          rw [← hfound, RecoveryTasks.Restored.group.injEq] at hgroup
          have hmem : g ∈ plans.zipIdx := by
            unfold RecoveryTasks.item? at hitem
            split_ifs at hitem
            · exact List.mem_of_getElem? hitem
            · exact List.mem_of_getElem? hitem
          rw [hgroup] at hmem
          exact List.mem_zipIdx_iff_getElem?.mp hmem
  unfold Directory.choose at h
  cases hengine : dir.engine with
  | mysql =>
      rw [hengine] at h
      simp only [RecoveryTasks.mysqlRun] at h
      split at h
      · cases h
      · exact hgroup h rfl
  | sqlServer =>
      rw [hengine] at h
      simp only [RecoveryTasks.sqlserverRun] at h
      split at h
      · cases h
      · exact hgroup h rfl

/-- The place of a group is an index that names it. -/
theorem choose_of_getElem? {plan : Option Planned} (hindex : t.index = group)
    (h : (dir.plans lower t.target t.dropExisting)[group]? = some plan) :
    dir.choose lower t = .ok (.group (plan, group)) := by
  have hlt : group < (dir.plans lower t.target t.dropExisting).length := (List.getElem?_eq_some_iff.mp h).1
  have hne : (dir.plans lower t.target t.dropExisting).zipIdx.isEmpty = false := by
    rw [List.isEmpty_eq_false_iff]
    exact List.ne_nil_of_length_pos (by rw [List.length_zipIdx]; omega)
  have hgroup : ∀ text, RecoveryTasks.chooseGroup text (dir.plans lower t.target t.dropExisting).zipIdx t.index =
      .ok (.group (plan, group)) := by
    intro text
    have hitem : RecoveryTasks.item? (dir.plans lower t.target t.dropExisting).zipIdx t.index =
        some (plan, group) := by
      rw [RecoveryTasks.item?, hindex, if_pos (Int.natCast_nonneg group), Int.toNat_natCast,
        List.getElem?_zipIdx, h, Option.map_some, Nat.zero_add]
    rw [RecoveryTasks.chooseGroup, List.length_zipIdx, hindex, if_neg (by omega), ← hindex, hitem]
  unfold Directory.choose
  cases dir.engine with
  | mysql =>
      simp only [RecoveryTasks.mysqlRun]
      rw [hne, if_neg Bool.false_ne_true, hgroup]
  | sqlServer =>
      simp only [RecoveryTasks.sqlserverRun]
      rw [hne, if_neg Bool.false_ne_true, hgroup]

/-! ### Names that are the same for the server -/

theorem naming_fixed (engine : Engine) : (∀ c ∈ engine.naming.empty, isNameChar c = true) ∧
    ∀ c ∈ engine.naming.lead, isNameChar c = true := by
  have hall : engine.naming.empty.all isNameChar = true ∧ engine.naming.lead.all isNameChar = true := by
    cases engine with
    | mysql | sqlServer => decide +kernel
  exact ⟨List.all_eq_true.mp hall.1, List.all_eq_true.mp hall.2⟩

theorem system_fixed (engine : Engine) {system : Name} (h : system ∈ systemDatabases engine) :
    (∀ c ∈ system, isNameChar c = true) ∧ system.length ≤ engine.naming.limit := by
  have hall : (systemDatabases engine).all (fun system =>
      system.all isNameChar && decide (system.length ≤ engine.naming.limit)) = true := by
    cases engine with
    | mysql | sqlServer => decide +kernel
  have hsystem := List.all_eq_true.mp hall system h
  rw [Bool.and_eq_true, decide_eq_true_eq] at hsystem
  exact ⟨List.all_eq_true.mp hsystem.1, hsystem.2⟩

/-- The server takes the names of two values for one where they read alike. -/
theorem same_iff_clash (engine : Engine) (v w : Name) :
    Same fold (engine.naming.name v) (engine.naming.name w) ↔
      engine.naming.Clash fold (engine.naming.spelling v) (engine.naming.spelling w) := by
  obtain ⟨hempty, hlead⟩ := naming_fixed engine
  rw [Same, name_eq_reading _ hempty hlead, name_eq_reading _ hempty hlead, Naming.Clash, alike_iff]

theorem same_system_iff (engine : Engine) (v : Name) {system : Name} (h : system ∈ systemDatabases engine) :
    Same fold (engine.naming.name v) system ↔
      engine.naming.Clash fold (engine.naming.spelling v) system := by
  obtain ⟨hempty, hlead⟩ := naming_fixed engine
  obtain ⟨hfixed, hlength⟩ := system_fixed engine h
  have hread : subRuns (fun c => !isNameChar c) '_' false system = system :=
    subRuns_eq_self (fun c hc => by rw [hfixed c hc]; rfl) false
  rw [Same, name_eq_reading _ hempty hlead, Naming.Clash, alike_iff, hread, List.take_of_length_le hlength]

theorem Same.symm {a b : Name} (h : Same fold a b) : Same fold b a := Eq.symm h

theorem Same.trans {a b c : Name} (h : Same fold a b) (h' : Same fold b c) : Same fold a c := Eq.trans h h'

/-! ### What a restore changes -/

/-- `I` is kept by whatever a plan does for a group. -/
structure Closed (fold : Char → Char) (I : Server → Prop) (planned : Planned) (group : ℕ) : Prop where
  drop : planned.method ≠ .attach → ∀ s, I s → I (s.drop fold group planned.database)
  create : ∀ s s' holds, (holds = [] ∨ holds = [group]) → I s → s.create fold planned.database holds = some s' →
    I s'
  load : ∀ s, I s → I (s.load fold group planned.database)

variable {I : Server → Prop}

theorem Closed.execute {planned : Planned} (h : Closed fold I planned group) (replies : Replies) :
    Keeps I (planned.execute fold group replies) := by
  have hcreate : Keeps I (submit replies.create "MySQL database prepare failed"
      fun s => some ((s.create fold planned.database []).getD s)) := by
    refine keeps_submit _ _ fun _ s s' hs hs' => ?_
    rw [Option.some.injEq] at hs'
    subst hs'
    cases hcreated : s.create fold planned.database [] with
    | none => exact hs
    | some s' => exact h.create s s' [] (.inl rfl) hs hcreated
  have hload : ∀ text, Keeps I (submit replies.load text fun s => some (s.load fold group planned.database)) :=
    fun text => keeps_submit _ _ fun _ s s' hs hs' => Option.some.inj hs' ▸ h.load s hs
  unfold Planned.execute
  cases hmethod : planned.method with
  | load dropExisting =>
      have hdrop := h.drop (by rw [hmethod]; nofun)
      refine keeps_bind ?_ fun _ => hload _
      unfold prepareDatabase
      refine keeps_ite (keeps_bind ?_ fun _ => ?_) hcreate
      · exact keeps_submit _ _ fun _ s s' hs hs' => Option.some.inj hs' ▸ hdrop s hs
      · exact keeps_submit _ _ fun _ s s' hs hs' => h.create s s' [] (.inl rfl) hs hs'
  | restore =>
      have hdrop := h.drop (by rw [hmethod]; nofun)
      refine keeps_bind ?_ fun _ => hload _
      exact keeps_submit _ _ fun _ s s' hs hs' => h.create _ s' [] (.inl rfl) (hdrop s hs) hs'
  | attach => exact keeps_submit _ _ fun _ s s' hs hs' => h.create s s' [group] (.inr rfl) hs hs'

/-- What every plan that a task can choose keeps, the task keeps. -/
theorem keeps_run (t : Task)
    (h : ∀ planned group, dir.choose lower t = .ok (.group (some planned, group)) → Closed fold I planned group) :
    Keeps I (dir.run lower fold t) := by
  refine keeps_lift_bind fun chosen hchosen => ?_
  split
  · next planned group => exact keeps_bind (keeps_lift _) fun _ => (h planned group hchosen).execute _
  · exact keeps_pure ()

theorem Keeps.run_snd {α : Type} {x : Program Server String α} {s : Server} (h : Keeps I x) (hs : I s) :
    I (x s).2 := h.ends_with hs rfl

/-! ### The sources of the groups -/

/-- The database of the group in tasks with the target. -/
def Directory.Named (lower : Name → Name) (dir : Directory) (target : Name) (group : ℕ) (source : Source) : Prop :=
  (dir.sources lower target)[group]? = some (some source)

theorem chosen_named {planned : Planned} (h : dir.choose lower t = .ok (.group (some planned, group))) :
    ∃ source, dir.Named lower t.target group source ∧ planned = source.planned dir.engine t.dropExisting := by
  have hplan := choose_eq_ok h
  rw [plans_eq, List.getElem?_map, Option.map_eq_some_iff] at hplan
  obtain ⟨found, hfound, hplanned⟩ := hplan
  obtain ⟨source, rfl, hsource⟩ := Option.map_eq_some_iff.mp hplanned
  exact ⟨source, hfound, hsource.symm⟩

variable {source : Source}

theorem Directory.Named.choose (h : dir.Named lower t.target group source) (hindex : t.index = group) :
    dir.choose lower t = .ok (.group (some (source.planned dir.engine t.dropExisting), group)) := by
  refine choose_of_getElem? hindex ?_
  rw [plans_eq, List.getElem?_map, h]
  rfl

/-- Only a source that is replaced is not attached. -/
theorem replaces_of_method {target : Name} {dropExisting : Bool} (h : dir.Named lower target group source)
    (hmethod : (source.planned dir.engine dropExisting).method ≠ .attach) : source.replaces = true := by
  cases hengine : dir.engine with
  | mysql =>
      unfold Directory.Named Directory.sources at h
      rw [hengine] at h
      obtain ⟨file, -, hfile⟩ := List.mem_map.mp (List.mem_of_getElem? h)
      rw [← Option.some.inj hfile]
  | sqlServer =>
      rw [hengine] at hmethod
      by_contra hreplaces
      exact hmethod (if_neg hreplaces)

/-! ### The condition -/

/-- The files of a group whose database is dropped or replaced do not read like those of another group, and
neither they nor a target read like a system database. -/
structure Directory.Apart (lower : Name → Name) (fold : Char → Char) (dir : Directory) (target : Name) : Prop where
  different : ∀ g h source other, dir.Named lower [] g source → dir.Named lower [] h other → g ≠ h →
    source.replaces = true →
    ¬ dir.engine.naming.Clash fold (dir.engine.naming.spelling source.value) (dir.engine.naming.spelling other.value)
  notSystem : ∀ t, (t = [] ∨ t = target) → ∀ g source, dir.Named lower t g source → source.replaces = true →
    ∀ system ∈ systemDatabases dir.engine,
      ¬ dir.engine.naming.Clash fold (dir.engine.naming.spelling source.value) system

/-! ### What holds in every run -/

/-- Every database that was dropped or replaced is that of its group. -/
def Logged (lower : Name → Name) (dir : Directory) (target : Name) (s : Server) : Prop :=
  ∀ e ∈ s.replaced, ∃ t source, (t = [] ∨ t = target) ∧ dir.Named lower t e.1 source ∧ source.replaces = true ∧
    e.2 = dir.engine.naming.name source.value

/-- The data of a group is in its database. -/
def Placed (lower : Name → Name) (fold : Char → Char) (dir : Directory) (s : Server) : Prop :=
  ∀ d ∈ s.databases, ∀ g ∈ d.holds, ∃ source, dir.Named lower [] g source ∧
    Same fold d.name (dir.engine.naming.name source.value)

variable {target : Name} {group : ℕ} {source : Source} {dropExisting : Bool} {s s' : Server}

theorem Server.create_eq_some {name : Name} {holds : List ℕ} (h : s.create fold name holds = some s') :
    s'.databases = s.databases ++ [{ name := name, holds := holds }] ∧ s'.replaced = s.replaced := by
  unfold Server.create at h
  split_ifs at h
  rw [← Option.some.inj h]
  exact ⟨rfl, rfl⟩

theorem closed_logged {t : Name} (ht : t = [] ∨ t = target) (h : dir.Named lower t group source) :
    Closed fold (Logged lower dir target) (source.planned dir.engine dropExisting) group where
  drop hmethod s hs e he := by
    rcases List.mem_append.mp he with he | he
    · exact hs e he
    · rw [List.mem_singleton.mp he]
      exact ⟨t, source, ht, h, replaces_of_method h hmethod, rfl⟩
  create s s' holds _ hs hcreate := by
    unfold Logged
    rw [(Server.create_eq_some hcreate).2]
    exact hs
  load s hs := hs

theorem closed_placed (h : dir.Named lower [] group source) :
    Closed fold (Placed lower fold dir) (source.planned dir.engine dropExisting) group where
  drop _ s hs d hd := hs d (List.mem_of_mem_filter hd)
  create s s' holds hholds hs hcreate d hd g hg := by
    rw [(Server.create_eq_some hcreate).1] at hd
    rcases List.mem_append.mp hd with hd | hd
    · exact hs d hd g hg
    · rw [List.mem_singleton.mp hd] at hg ⊢
      rcases hholds with rfl | rfl
      · cases hg
      · rw [List.mem_singleton.mp hg]
        exact ⟨source, h, rfl⟩
  load s hs d hd g hg := by
    obtain ⟨d', hd', rfl⟩ := List.mem_map.mp hd
    split_ifs at hg ⊢ with hsame
    · rcases List.mem_cons.mp hg with rfl | hg
      · exact ⟨source, h, hsame⟩
      · exact hs d' hd' g hg
    · exact hs d' hd' g hg

/-- The data of another group stays where the database is not taken for its own. -/
theorem closed_holds {h : ℕ} (hgroup : dir.Named lower [] group source)
    (hother : ∀ other, dir.Named lower [] h other → source.replaces = true →
      ¬ Same fold (dir.engine.naming.name source.value) (dir.engine.naming.name other.value)) :
    Closed fold (fun s => Placed lower fold dir s ∧ s.Holds h) (source.planned dir.engine dropExisting) group where
  drop hmethod s hs := by
    refine ⟨(closed_placed hgroup).drop hmethod s hs.1, ?_⟩
    obtain ⟨d, hd, hh⟩ := hs.2
    obtain ⟨other, hnamed, hsame⟩ := hs.1 d hd h hh
    refine ⟨d, List.mem_filter.mpr ⟨hd, ?_⟩, hh⟩
    rw [decide_eq_true_eq]
    exact fun hdrop => hother other hnamed (replaces_of_method hgroup hmethod) (hdrop.symm.trans hsame)
  create s s' holds hholds hs hcreate := by
    refine ⟨(closed_placed hgroup).create s s' holds hholds hs.1 hcreate, ?_⟩
    obtain ⟨d, hd, hh⟩ := hs.2
    exact ⟨d, (Server.create_eq_some hcreate).1 ▸ List.mem_append_left _ hd, hh⟩
  load s hs := by
    refine ⟨(closed_placed hgroup).load s hs.1, ?_⟩
    obtain ⟨d, hd, hh⟩ := hs.2
    refine ⟨_, List.mem_map.mpr ⟨d, hd, rfl⟩, ?_⟩
    split_ifs
    · exact List.mem_cons_of_mem _ hh
    · exact hh

theorem run_logged {s₀ : Server} {tasks : List Task} (hrun : Run (dir.step lower fold) (Targets target) s₀ tasks s)
    (hstart : s₀.replaced = []) : Logged lower dir target s := by
  refine hrun.invariant (fun e he => ?_) fun s t s' hok hs h => ?_
  · rw [hstart] at he
    cases he
  · rw [← Option.some.inj hs]
    refine Keeps.run_snd (keeps_run t fun planned group hchoose => ?_) h
    obtain ⟨source, hnamed, rfl⟩ := chosen_named hchoose
    exact closed_logged hok hnamed

theorem run_placed {s₀ : Server} {tasks : List Task} (hrun : Run (dir.step lower fold) Untargeted s₀ tasks s)
    (hstart : s₀.Fresh) : Placed lower fold dir s := by
  refine hrun.invariant (fun d hd g hg => ?_) fun s t s' hok hs h => ?_
  · rw [hstart.empty d hd] at hg
    cases hg
  · rw [← Option.some.inj hs]
    refine Keeps.run_snd (keeps_run t fun planned group hchoose => ?_) h
    obtain ⟨source, hnamed, rfl⟩ := chosen_named hchoose
    exact closed_placed (hok ▸ hnamed)

theorem Directory.Apart.safe (h : dir.Apart lower fold target) : dir.Safe lower fold target where
  different s₀ tasks s hstart hrun e he e' he' hne := by
    have hlogged : Logged lower dir [] s := run_logged (hrun.mono fun _ _ ht => .inl ht) hstart.replaced
    obtain ⟨t, source, ht, hnamed, hreplaces, hname⟩ := hlogged e he
    obtain ⟨t', other, ht', hnamed', -, hname'⟩ := hlogged e' he'
    rw [or_self] at ht ht'
    subst ht ht'
    rw [hname, hname', same_iff_clash]
    exact h.different _ _ source other hnamed hnamed' hne hreplaces
  undisturbed s₀ tasks s hstart hrun t g ht hgroup hholds := by
    have hplaced := run_placed hrun hstart
    refine (Keeps.run_snd (I := fun s => Placed lower fold dir s ∧ s.Holds g) (keeps_run t fun planned k hchoose => ?_)
      ⟨hplaced, hholds⟩).2
    obtain ⟨source, hnamed, rfl⟩ := chosen_named hchoose
    refine closed_holds (ht ▸ hnamed) fun other hother hreplaces => ?_
    rw [same_iff_clash]
    refine h.different k g source other (ht ▸ hnamed) hother ?_ hreplaces
    rintro rfl
    exact hgroup _ hchoose
  notSystem s₀ tasks s hstart hrun e he system hsystem := by
    obtain ⟨t, source, ht, hnamed, hreplaces, hname⟩ := run_logged hrun hstart e he
    rw [hname, same_system_iff _ _ hsystem]
    exact h.notSystem t ht _ source hnamed hreplaces system hsystem

/-! ### Runs that destroy data -/

/-- A task for the group at the place, to which the server answers everything. -/
def restoring (target : Name) (group : ℕ) : Task where
  index := group
  target := target

theorem load_created {name : Name} (hfree : ∀ d ∈ s.databases, ¬ Same fold d.name name)
    (hcreate : s.create fold name [] = some s') :
    (s'.load fold group name).databases = s.databases ++ [{ name := name, holds := [group] }] := by
  have hsame : Same fold name name := rfl
  rw [Server.load, (Server.create_eq_some hcreate).1, List.map_append, List.map_singleton]
  dsimp only
  rw [if_pos hsame]
  congr 1
  refine (List.map_congr_left fun d hd => if_neg (hfree d hd)).trans ?_
  exact List.map_id _

/-- Dropping and creating a database and filling it leaves only the new one under its name. -/
theorem run_restoring (h : dir.Named lower target group source) (hreplaces : source.replaces = true) (s : Server) :
    (dir.run lower fold (restoring target group) s).2.databases =
        (s.databases.filter fun d => ¬ Same fold d.name (dir.engine.naming.name source.value)) ++
          [{ name := dir.engine.naming.name source.value, holds := [group] }] ∧
      (dir.run lower fold (restoring target group) s).2.replaced =
        s.replaced ++ [(group, dir.engine.naming.name source.value)] := by
  have hchoose : dir.choose lower (restoring target group) =
      .ok (.group (some (source.planned dir.engine true), group)) := Directory.Named.choose h rfl
  generalize hname : dir.engine.naming.name source.value = name
  have hfree : ∀ d ∈ (s.drop fold group name).databases, ¬ Same fold d.name name :=
    fun d hd => of_decide_eq_true (List.mem_filter.mp hd).2
  obtain ⟨s', hs'⟩ : ∃ s', (s.drop fold group name).create fold name [] = some s' :=
    ⟨_, if_neg fun ⟨d, hd, hsame⟩ => hfree d hd hsame⟩
  have hrun : (dir.run lower fold (restoring target group) s).2 = s'.load fold group name := by
    unfold Directory.run
    rw [hchoose]
    cases hengine : dir.engine with
    | mysql =>
        rw [hengine] at hname
        simp only [Source.planned, Planned.execute, prepareDatabase, importDump, hname]
        simp [restoring, bind_apply, hs']
    | sqlServer =>
        rw [hengine] at hname
        simp only [Source.planned, Planned.execute, restoreBak, hname, if_pos hreplaces]
        simp [restoring, bind_apply, hs']
  rw [hrun]
  exact ⟨load_created hfree hs', (Server.create_eq_some hs').2⟩

/-- On an empty server every restored group has its database. -/
theorem run_restoring_empty (h : dir.Named lower target group source) :
    (dir.run lower fold (restoring target group) {}).2.databases =
      [{ name := dir.engine.naming.name source.value, holds := [group] }] := by
  by_cases hreplaces : source.replaces = true
  · exact (run_restoring h hreplaces {}).1
  · have hchoose : dir.choose lower (restoring target group) =
        .ok (.group (some (source.planned dir.engine true), group)) := Directory.Named.choose h rfl
    have hmethod : (source.planned dir.engine true).method = .attach := by
      by_contra hne
      exact hreplaces (replaces_of_method h hne)
    have hname : (source.planned dir.engine true).database = dir.engine.naming.name source.value := rfl
    generalize source.planned dir.engine true = planned at hchoose hmethod hname
    have hrun : (dir.run lower fold (restoring target group) {}).2 =
        (attachFiles fold group planned.database {} {}).2 := by
      unfold Directory.run
      rw [hchoose]
      simp [restoring, bind_apply, Planned.execute, hmethod]
    rw [hrun, hname]
    simp [attachFiles, Server.create]

theorem Directory.Safe.apart (h : dir.Safe lower fold target) : dir.Apart lower fold target where
  different g k source other hg hk hne hreplaces hclash := by
    rw [← same_iff_clash] at hclash
    have hfirst : Run (dir.step lower fold) Untargeted {} [restoring [] k]
        (dir.run lower fold (restoring [] k) {}).2 := Run.step rfl rfl (Run.refl _)
    have hholds : (dir.run lower fold (restoring [] k) {}).2.Holds k := by
      unfold Server.Holds
      rw [run_restoring_empty hk]
      exact ⟨_, List.mem_singleton_self _, List.mem_singleton_self k⟩
    have hchoose : dir.choose lower (restoring [] g) =
        .ok (.group (some (source.planned dir.engine true), g)) := Directory.Named.choose hg rfl
    -- the restore of the other group leaves only its own database
    obtain ⟨d, hd, hmem⟩ := h.undisturbed {} _ _ ⟨nofun, rfl⟩ hfirst (restoring [] g) k rfl
      (fun plan hplan => by
        rw [hchoose] at hplan
        cases hplan
        exact hne rfl) hholds
    rw [(run_restoring hg hreplaces _).1, run_restoring_empty hk, List.filter_singleton] at hd
    have hsame : Same fold (dir.engine.naming.name other.value) (dir.engine.naming.name source.value) := hclash.symm
    rw [decide_eq_false (not_not.mpr hsame)] at hd
    rw [List.mem_singleton.mp hd, List.mem_singleton] at hmem
    exact hne hmem.symm
  notSystem t ht g source hg hreplaces system hsystem hclash := by
    rw [← same_system_iff _ _ hsystem] at hclash
    have hrun : Run (dir.step lower fold) (Targets target) {} [restoring t g]
        (dir.run lower fold (restoring t g) {}).2 := Run.step ht rfl (Run.refl _)
    refine h.notSystem {} _ _ rfl hrun (g, dir.engine.naming.name source.value) ?_ system hsystem hclash
    rw [(run_restoring hg hreplaces {}).2]
    exact List.mem_singleton_self _

/-- The tasks of a directory keep the databases of its groups apart and leave the system databases alone
exactly where its files, and the target, read differently. -/
theorem safe_iff_apart (lower : Name → Name) (fold : Char → Char) (dir : Directory) (target : Name) :
    dir.Safe lower fold target ↔ dir.Apart lower fold target :=
  ⟨Directory.Safe.apart, Directory.Apart.safe⟩

/-- A compressed dump and a plain one are restored into one database, and `sys.sql` into `sys`. -/
theorem dumps_collide :
    ¬ Directory.Safe (List.map Char.toLower) id ⟨.mysql, ["shop.sql.gz", "shop.sql"].map String.toList⟩ [] ∧
      ¬ Directory.Safe (List.map Char.toLower) id ⟨.mysql, ["sys.sql".toList]⟩ [] ∧
      ¬ Directory.Safe (List.map Char.toLower) Char.toLower
        ⟨.sqlServer, ["crm-1.bak", "CRM_1.bak"].map String.toList⟩ [] := by
  refine ⟨fun h => ?_, fun h => ?_, fun h => ?_⟩
  · have hrun : Run (Directory.step (List.map Char.toLower) id ⟨.mysql, ["shop.sql.gz", "shop.sql"].map String.toList⟩)
        Untargeted {} [{ index := 0 }, { index := 1 }] _ := perform_iff.mp rfl
    exact h.different {} _ _ ⟨nofun, rfl⟩ hrun (0, "shop".toList) (by decide +kernel) (1, "shop".toList)
      (by decide +kernel) (by decide) rfl
  · have hrun : Run (Directory.step (List.map Char.toLower) id ⟨.mysql, ["sys.sql".toList]⟩) (Targets [])
        {} [{ index := 0 }] _ := perform_iff.mp rfl
    exact h.notSystem {} _ _ rfl hrun (0, "sys".toList) (by decide +kernel) "sys".toList (by decide +kernel) rfl
  · have hrun : Run (Directory.step (List.map Char.toLower) Char.toLower
        ⟨.sqlServer, ["crm-1.bak", "CRM_1.bak"].map String.toList⟩)
        Untargeted {} [{ index := 0 }, { index := 1 }] _ := perform_iff.mp rfl
    exact h.different {} _ _ ⟨nofun, rfl⟩ hrun (0, "crm_1".toList) (by decide +kernel) (1, "CRM_1".toList)
      (by decide +kernel) (by decide) (by decide +kernel)

end RecoveryService.RestorePlans
