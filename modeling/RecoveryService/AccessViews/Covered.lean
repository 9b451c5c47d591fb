import RecoveryService.AccessViews.Activation

/-! # Active views read encrypted tables

An active mapping should have a view of its own secured table, and every row in that table should
come from the mapping's own source, with its field encrypted (`Protected`).  Nothing keeps a table
some active view reads from a later job, and views are replaced by name.  `protected_iff` says which
statements and activations keep the views of a run so. -/

namespace RecoveryService.AccessViews

open Runs

variable (casefold : String → String)

/-- The portion comes from the mapping's source, and its field was encrypted. -/
def Portion.Covers (p : Portion) (m : Mapping) : Prop :=
  p.source = m.source ∧ m.sourceField ∈ p.columns

instance (p : Portion) (m : Mapping) : Decidable (p.Covers m) := by
  unfold Portion.Covers
  infer_instance

namespace Sys

variable (s : Sys)

/-- A succeeded result has produced the table, and what it holds covers the mapping. -/
def Holds (m : Mapping) (target : String × String) : Prop :=
  ∃ content ∈ s.tables (m.object target),
    (∃ p ∈ content, p.succeeded = true) ∧ ∀ p ∈ content, p.Covers m

instance (m : Mapping) (target : String × String) : Decidable (s.Holds m target) := by
  unfold Holds
  infer_instance

/-- The view of the mapping selects from its own secured table. -/
def Protects (m : Mapping) : Prop :=
  ∃ target ∈ m.secured, s.views m.view = some target ∧ s.Holds m target

instance (m : Mapping) : Decidable (s.Protects m) := by
  unfold Protects
  infer_instance

def Protected : Prop := ∀ m ∈ s.mappings, m.state = .active → s.Protects m

instance : Decidable s.Protected := by
  unfold Protected
  infer_instance

/-- The statement drops no table that an active mapping is secured by, and writes none of its rows
into such a table unless they cover the mapping. -/
def Spares : Statement → Prop
  | .drop t => ∀ m ∈ s.mappings, m.state = .active → ∀ target ∈ m.secured, m.object target ≠ t
  | .insert t p => ∀ m ∈ s.mappings, m.state = .active → ∀ target ∈ m.secured,
      m.object target = t → p.Covers m
  | .create _ | .skip => True

instance (statement : Statement) : Decidable (s.Spares statement) := by
  unfold Spares
  split <;> infer_instance

/-- No view of an active mapping is redirected to another table. -/
def KeepsViews (connection : ℕ) (ready : List (Mapping × (String × String))) (count : ℕ) : Prop :=
  ∀ m ∈ s.mappings, m.state = .active → m.source.connection = connection →
    m.access ∈ (accessNames ready).take count → groupTarget ready m.access = m.secured

instance (connection : ℕ) (ready : List (Mapping × (String × String))) (count : ℕ) :
    Decidable (s.KeepsViews connection ready count) := by
  unfold KeepsViews
  infer_instance

/-- The table a mapping is about to be secured by holds what covers it, on the connection of the
mapping. -/
def Serves (connection : ℕ) (r : Mapping × (String × String)) : Prop :=
  (r.1.source.connection = connection ∨ s.views r.1.view = some r.2) ∧ s.Holds r.1 r.2

instance (connection : ℕ) (r : Mapping × (String × String)) : Decidable (s.Serves connection r) := by
  unfold Serves
  infer_instance

/-- What an activation has to look at. -/
def ActivatesWell (job : Job) (owner : Owner) : Outcome → Prop
  | .recordedOnly | .unconnected => True
  | .failed replaced _ => s.KeepsViews job.connection (s.ready casefold job owner) replaced
  | .activated =>
      s.KeepsViews job.connection (s.ready casefold job owner)
        (accessNames (s.ready casefold job owner)).length ∧
      ∀ r ∈ s.ready casefold job owner, s.Serves job.connection r

instance (job : Job) (owner : Owner) (outcome : Outcome) :
    Decidable (s.ActivatesWell casefold job owner outcome) := by
  unfold ActivatesWell
  split <;> infer_instance

end Sys

/-- The condition on a statement and on an activation. -/
def Careful (s : Sys) : Action → Prop
  | .statement j recorded => ∀ job ∈ s.jobs[j]?, ∀ current ∈ job.current, ∀ target ∈ current.2.2,
      ∀ statement ∈ s.nextStatement job current.2.1 target.1 target.2 recorded, s.Spares statement
  | .activate j outcome => ∀ job ∈ s.jobs[j]?, ∀ owner ∈ job.owner,
      s.ActivatesWell casefold job owner outcome
  | _ => True

instance (s : Sys) (a : Action) : Decidable (Careful casefold s a) := by
  unfold Careful
  split <;> infer_instance

variable {casefold} {s s' : Sys}

/-! ### Submissions and statements -/

namespace Sys

/-- Whether the active mappings are protected depends on the active mappings, the tables and the
views. -/
theorem protected_congr (hmappings : ∀ m : Mapping, m.state = .active → (m ∈ s'.mappings ↔ m ∈ s.mappings))
    (htables : s'.tables = s.tables) (hviews : s'.views = s.views) : s'.Protected ↔ s.Protected := by
  have hprotects : ∀ m, s'.Protects m ↔ s.Protects m := by
    intro m
    unfold Protects Holds
    rw [htables, hviews]
  unfold Protected
  refine forall_congr' fun m => ?_
  constructor
  · intro h hm hactive
    exact (hprotects m).mp (h ((hmappings m hactive).mpr hm) hactive)
  · intro h hm hactive
    exact (hprotects m).mpr (h ((hmappings m hactive).mp hm) hactive)

end Sys

variable {mappings : List Mapping} {m : Mapping}

/-- A mapping that is planned leaves the active ones of other keys. -/
theorem mem_planMapping {n : Mapping} (hm : m.state = .planned) (hn : n.state = .active)
    (h : n ∈ planMapping mappings m) : n ∈ mappings := by
  have hne : n ≠ m := by
    rintro rfl
    rw [hm] at hn
    cases hn
  unfold planMapping at h
  split_ifs at h with hany
  · obtain ⟨k, hk, hkn⟩ := List.mem_map.mp h
    split_ifs at hkn with hkey
    · exact absurd hkn.symm hne
    · exact hkn ▸ hk
  · rw [List.mem_append, List.mem_singleton] at h
    exact h.resolve_right hne

theorem mem_foldl_planMapping {planned : List Mapping} {n : Mapping}
    (hplanned : ∀ m ∈ planned, m.state = .planned) (hn : n.state = .active)
    (h : n ∈ planned.foldl planMapping mappings) : n ∈ mappings := by
  induction planned generalizing mappings with
  | nil => exact h
  | cons m planned ih =>
      have hrest := ih (fun k hk => hplanned k (List.mem_cons_of_mem _ hk)) h
      exact mem_planMapping (hplanned m List.mem_cons_self) hn hrest

/-- A submission makes no mapping active. -/
theorem protected_submit (r : Submission) (h : s.Protected) : (s.submit r).Protected := by
  intro m hm hactive
  refine h m (mem_foldl_planMapping (fun n hn => ?_) hactive hm) hactive
  obtain ⟨item, -, rfl⟩ := List.mem_map.mp hn
  rfl

variable {target : String × String}
variable {content : Option (List Portion)}

/-- What a table holds is not changed by a statement about another one. -/
theorem holds_setTable_of_ne {t : ObjectName} (hne : m.object target ≠ t) :
    (s.setTable t content).Holds m target ↔ s.Holds m target := by
  unfold Sys.Holds Sys.setTable
  simp only [Function.update_of_ne hne]

theorem holds_setTable_self : (s.setTable (m.object target) content).Holds m target ↔
      ∃ portions ∈ content, (∃ p ∈ portions, p.succeeded = true) ∧ ∀ p ∈ portions, p.Covers m := by
  unfold Sys.Holds Sys.setTable
  simp only [Function.update_self]

/-- A table that covers the mapping still does after an insertion exactly when the portion does. -/
theorem holds_insert_iff {p : Portion} (h : s.Holds m target) :
    (s.setTable (m.object target) ((s.tables (m.object target)).map (· ++ [p]))).Holds m target ↔
      p.Covers m := by
  obtain ⟨content, hcontent, ⟨q, hq, hsucceeded⟩, hcovers⟩ := h
  rw [holds_setTable_self, Option.mem_def.mp hcontent, Option.map_some]
  constructor
  · rintro ⟨content', hcontent', -, hall⟩
    obtain rfl := Option.mem_some_iff.mp hcontent'
    exact hall p (List.mem_append_right _ List.mem_cons_self)
  · intro hp
    refine ⟨content ++ [p], rfl, ⟨q, List.mem_append_left _ hq, hsucceeded⟩, fun k hk => ?_⟩
    obtain hk | hk := List.mem_append.mp hk
    · exact hcovers k hk
    · rw [List.mem_singleton.mp hk]
      exact hp

/-- A statement keeps the active mappings protected exactly when it spares their tables; a table is
created only where there is none. -/
theorem protected_perform_iff {statement : Sys.Statement} (h : s.Protected)
    (hcreate : ∀ t, statement = .create t → s.tables t = none) :
    (s.perform statement).Protected ↔ s.Spares statement := by
  cases statement with
  | drop t =>
      constructor
      · intro h' m hm hactive target htarget ht
        obtain ⟨target', htarget', -, hholds⟩ := h' m hm hactive
        obtain rfl := Option.mem_unique htarget htarget'
        subst ht
        obtain ⟨content, hcontent, -⟩ := holds_setTable_self.mp hholds
        cases hcontent
      · intro hspares m hm hactive
        obtain ⟨target, htarget, hview, hholds⟩ := h m hm hactive
        refine ⟨target, htarget, hview, ?_⟩
        exact (holds_setTable_of_ne (hspares m hm hactive target htarget)).mpr hholds
  | create t =>
      refine iff_of_true (fun m hm hactive => ?_) trivial
      obtain ⟨target, htarget, hview, hholds⟩ := h m hm hactive
      have hne : m.object target ≠ t := by
        rintro rfl
        obtain ⟨content, hcontent, -⟩ := hholds
        rw [hcreate _ rfl] at hcontent
        cases hcontent
      exact ⟨target, htarget, hview, (holds_setTable_of_ne hne).mpr hholds⟩
  | insert t p =>
      constructor
      · intro h' m hm hactive target htarget ht
        subst ht
        obtain ⟨target', htarget', -, hholds'⟩ := h' m hm hactive
        obtain rfl := Option.mem_unique htarget htarget'
        obtain ⟨target', htarget', -, hholds⟩ := h m hm hactive
        obtain rfl := Option.mem_unique htarget htarget'
        exact (holds_insert_iff hholds).mp hholds'
      · intro hspares m hm hactive
        obtain ⟨target, htarget, hview, hholds⟩ := h m hm hactive
        refine ⟨target, htarget, hview, ?_⟩
        by_cases ht : m.object target = t
        · subst ht
          exact (holds_insert_iff hholds).mpr (hspares m hm hactive target htarget rfl)
        · exact (holds_setTable_of_ne ht).mpr hholds
  | skip => exact iff_of_true h trivial

/-- The next statement creates a table only where there is none. -/
theorem nextStatement_create {job : Job} {spec : TableSpec} {phase : Phase} {name : String}
    {recorded : Bool} {t : ObjectName}
    (h : s.nextStatement job spec phase name recorded = some (.create t)) : s.tables t = none := by
  cases phase with
  | resolved =>
      simp only [Sys.nextStatement, Option.some.injEq] at h
      split_ifs at h
  | dropped =>
      simp only [Sys.nextStatement] at h
      split_ifs at h with hcreate htaken
      · obtain rfl : job.target spec name = t := by simpa using h
        simpa [Sys.tableExists] using htaken
      · cases Option.some.inj h
  | created =>
      simp only [Sys.nextStatement] at h
      split_ifs at h
      cases Option.some.inj h

/-! ### Activations -/

namespace Sys

variable {job : Job} {owner : Owner}
variable {m : Mapping}

theorem readyTarget_of_active (hactive : m.state = .active) : s.readyTarget casefold job owner m = none := by
  unfold readyTarget
  rw [if_neg]
  rintro ⟨-, hplanned, -⟩
  rw [hactive] at hplanned
  cases hplanned

variable {r : Mapping × (String × String)}

theorem mem_ready : r ∈ s.ready casefold job owner ↔
      r.1 ∈ s.mappings ∧ s.readyTarget casefold job owner r.1 = some r.2 := by
  obtain ⟨m, target⟩ := r
  unfold ready
  rw [List.mem_filterMap]
  constructor
  · rintro ⟨n, hn, hmap⟩
    obtain ⟨target', htarget, heq⟩ := Option.map_eq_some_iff.mp hmap
    cases heq
    exact ⟨hn, htarget⟩
  · rintro ⟨hm, htarget⟩
    exact ⟨m, hm, by rw [htarget, Option.map_some]⟩

/-- The mappings that are settled were planned, so the active ones stay. -/
theorem mem_settle {state : MappingState} : m ∈ s.settle casefold job owner state ↔
      (m ∈ s.mappings ∧ s.readyTarget casefold job owner m = none) ∨
        ∃ r ∈ s.ready casefold job owner, m = { r.1 with secured := some r.2, state := state } := by
  unfold settle
  rw [List.mem_map]
  constructor
  · rintro ⟨n, hn, heq⟩
    cases htarget : s.readyTarget casefold job owner n with
    | none =>
        rw [htarget] at heq
        obtain rfl : n = m := heq
        exact Or.inl ⟨hn, htarget⟩
    | some target =>
        rw [htarget] at heq
        exact Or.inr ⟨(n, target), mem_ready.mpr ⟨hn, htarget⟩, heq.symm⟩
  · rintro (⟨hm, htarget⟩ | ⟨r, hr, rfl⟩)
    · exact ⟨m, hm, by rw [htarget]⟩
    · obtain ⟨hm, htarget⟩ := mem_ready.mp hr
      exact ⟨r.1, hm, by rw [htarget]⟩

/-- Mappings that are settled otherwise than active. -/
theorem mem_settle_of_active {state : MappingState} (hstate : state ≠ .active) (hactive : m.state = .active) :
    m ∈ s.settle casefold job owner state ↔ m ∈ s.mappings := by
  rw [mem_settle]
  constructor
  · rintro (⟨hm, -⟩ | ⟨r, -, rfl⟩)
    · exact hm
    · exact absurd hactive hstate
  · intro hm
    exact Or.inl ⟨hm, readyTarget_of_active hactive⟩

variable {connection : ℕ} {ready : List (Mapping × (String × String))}
variable {count : ℕ}

theorem replaceViews_of_mem (hconnection : m.source.connection = connection)
    (hmem : m.access ∈ (accessNames ready).take count) :
    s.replaceViews connection ready count m.view = groupTarget ready m.access := by
  unfold replaceViews
  rw [if_pos ⟨hconnection, hmem⟩]
  rfl

theorem replaceViews_of_not (h : m.source.connection = connection →
      m.access ∉ (accessNames ready).take count) :
    s.replaceViews connection ready count m.view = s.views m.view := by
  unfold replaceViews
  rw [if_neg]
  rintro ⟨hconnection, hmem⟩
  exact h hconnection hmem

/-- The view of a mapping that was protected. -/
theorem replaceViews_iff (h : s.Protects m) :
    Protects { s with views := s.replaceViews connection ready count } m ↔
      (m.source.connection = connection → m.access ∈ (accessNames ready).take count →
        groupTarget ready m.access = m.secured) := by
  obtain ⟨target, htarget, hview, hholds⟩ := h
  constructor
  · rintro ⟨target', htarget', hview', -⟩ hconnection hmem
    obtain rfl := Option.mem_unique htarget htarget'
    have hgroup : s.replaceViews connection ready count m.view = some target := hview'
    rw [replaceViews_of_mem hconnection hmem] at hgroup
    exact hgroup.trans (Option.mem_def.mp htarget).symm
  · intro hkeeps
    refine ⟨target, htarget, ?_, hholds⟩
    show s.replaceViews connection ready count m.view = some target
    by_cases hreplaced : m.source.connection = connection ∧ m.access ∈ (accessNames ready).take count
    · rw [replaceViews_of_mem hreplaced.1 hreplaced.2, hkeeps hreplaced.1 hreplaced.2]
      exact htarget
    · rw [replaceViews_of_not fun hconnection hmem => hreplaced ⟨hconnection, hmem⟩]
      exact hview

/-- Replacing views keeps the active mappings protected exactly when none of theirs is redirected. -/
theorem protected_replaceViews_iff (h : s.Protected) :
    Protected { s with views := s.replaceViews connection ready count } ↔
      s.KeepsViews connection ready count := by
  refine forall_congr' fun m => ?_
  constructor
  · intro h' hm hactive
    exact (replaceViews_iff (h m hm hactive)).mp (h' hm hactive)
  · intro hkeeps hm hactive
    exact (replaceViews_iff (h m hm hactive)).mpr (hkeeps hm hactive)

/-- A mapping that is made active is protected exactly when its table serves it. -/
theorem protects_activated_iff (hr : r ∈ ready)
    (hsingle : ∀ access ∈ accessNames ready, SingleTarget ready access) :
    Protects { s with views := s.replaceViews connection ready (accessNames ready).length }
        { r.1 with secured := some r.2, state := .active } ↔ s.Serves connection r := by
  have haccess : r.1.access ∈ accessNames ready := Dict.mem_fromKeys.mpr (List.mem_map_of_mem hr)
  have hview : s.replaceViews connection ready (accessNames ready).length r.1.view = some r.2 ↔
      r.1.source.connection = connection ∨ s.views r.1.view = some r.2 := by
    by_cases hconnection : r.1.source.connection = connection
    · rw [replaceViews_of_mem hconnection (by rwa [List.take_length]),
        hsingle _ haccess r hr rfl]
      exact iff_of_true rfl (Or.inl hconnection)
    · rw [replaceViews_of_not fun h => absurd h hconnection]
      exact ⟨Or.inr, fun h => h.resolve_left hconnection⟩
  constructor
  · rintro ⟨target, htarget, hview', hholds⟩
    obtain rfl := Option.mem_some_iff.mp htarget
    exact ⟨hview.mp hview', hholds⟩
  · rintro ⟨hserves, hholds⟩
    exact ⟨r.2, rfl, hview.mpr hserves, hholds⟩

/-- An activation keeps the active mappings protected exactly when it looks at what it should. -/
theorem protected_activate_iff {outcome : Outcome} (h : s.Protected)
    (hs : s.activate casefold job owner outcome = some s') :
    s'.Protected ↔ s.ActivatesWell casefold job owner outcome := by
  cases outcome with
  | recordedOnly =>
      obtain rfl := Option.some.inj hs
      exact iff_of_true h trivial
  | unconnected =>
      obtain rfl := Option.some.inj hs
      refine iff_of_true (Iff.mpr (protected_congr (s := s) ?_ rfl rfl) h) trivial
      exact fun m hm => mem_settle_of_active (by decide) hm
  | failed replaced committed =>
      simp only [activate] at hs
      split_ifs at hs with hreplaced hcommitted
      · obtain rfl := Option.some.inj hs
        rw [← show _ ↔ s.ActivatesWell casefold job owner (.failed replaced committed) from
          protected_replaceViews_iff h]
        exact protected_congr (fun m hm => mem_settle_of_active (by decide) hm) rfl rfl
      · obtain rfl := Option.some.inj hs
        exact protected_replaceViews_iff h
  | activated =>
      simp only [activate] at hs
      split_ifs at hs with hready
      obtain rfl := Option.some.inj hs
      obtain ⟨-, hsingle⟩ := hready
      constructor
      · intro h'
        refine ⟨(protected_replaceViews_iff h).mp fun m hm hactive => ?_, fun r hr => ?_⟩
        · exact h' m (mem_settle.mpr (Or.inl ⟨hm, readyTarget_of_active hactive⟩)) hactive
        · exact (protects_activated_iff hr hsingle).mp
            (h' _ (mem_settle.mpr (Or.inr ⟨r, hr, rfl⟩)) rfl)
      · rintro ⟨hkeeps, hserves⟩ m hm hactive
        obtain ⟨hm, -⟩ | ⟨r, hr, rfl⟩ := mem_settle.mp hm
        · exact (protected_replaceViews_iff h).mpr hkeeps m hm hactive
        · exact (protects_activated_iff hr hsingle).mpr (hserves r hr)

end Sys

/-! ### Runs -/

/-- What every action does to the active mappings. -/
theorem protected_step_iff {a : Action} (h : s.Protected) (hs : step casefold s a = some s') :
    s'.Protected ↔ Careful casefold s a := by
  cases a with
  | submit r =>
      simp only [step] at hs
      split_ifs at hs
      obtain rfl := Option.some.inj hs
      exact iff_of_true (protected_submit r h) trivial
  | start j | finish j =>
      obtain ⟨job, -, hs⟩ := Option.bind_eq_some_iff.mp hs
      split_ifs at hs
      obtain rfl := Option.some.inj hs
      exact iff_of_true h trivial
  | resolve j stamp =>
      obtain ⟨job, -, hs⟩ := Option.bind_eq_some_iff.mp hs
      refine iff_of_true ?_ trivial
      split at hs
      · split at hs
        · split_ifs at hs
          · obtain rfl := Option.some.inj hs
            exact h
          · obtain rfl := Option.some.inj hs
            exact h
        · obtain rfl := Option.some.inj hs
          exact h
      · cases hs
  | statement j recorded =>
      obtain ⟨job, hjob, hs⟩ := Option.bind_eq_some_iff.mp hs
      split at hs
      · rename_i index spec phase name hcurrent
        split at hs
        · rename_i statement hnext
          obtain rfl := Option.some.inj hs
          have hiff := protected_perform_iff h fun t ht => nextStatement_create (hnext.trans (congrArg some ht))
          refine Iff.trans hiff ?_
          simp [Careful, hjob, hcurrent, hnext]
        · rename_i hnext
          obtain rfl := Option.some.inj hs
          refine iff_of_true h ?_
          simp [Careful, hjob, hcurrent, hnext]
      · cases hs
  | failTable j =>
      obtain ⟨job, -, hs⟩ := Option.bind_eq_some_iff.mp hs
      obtain ⟨current, -, rfl⟩ := Option.map_eq_some_iff.mp hs
      exact iff_of_true h trivial
  | stop j | abort j =>
      obtain ⟨job, -, rfl⟩ := Option.map_eq_some_iff.mp hs
      exact iff_of_true h trivial
  | activate j outcome =>
      obtain ⟨job, hjob, hs⟩ := Option.bind_eq_some_iff.mp hs
      obtain ⟨owner, howner, hs⟩ := Option.bind_eq_some_iff.mp hs
      split_ifs at hs
      refine Iff.trans (Sys.protected_activate_iff h hs) ?_
      simp [Careful, hjob, howner]

/-- The active mappings are protected in every state of a run exactly when every statement spares
their tables and every activation keeps their views and publishes tables that serve its mappings. -/
theorem protected_throughout_iff {tables : ObjectName → Option (List Portion)}
    {views : ObjectName → Option (String × String)} {as : List Action}
    (h : Run (step casefold) Free (start tables views) as s') :
    Throughout (step casefold) Sys.Protected (start tables views) as ↔
      Run (step casefold) (Careful casefold) (start tables views) as s' := by
  have hstart : (start tables views).Protected := fun m hm => by cases hm
  exact h.throughout_iff (I := fun _ => True) trivial hstart
    fun s a s' _ hP hs => ⟨trivial, protected_step_iff hP hs⟩

/-! ### One table of two pipelines -/

def odsTable : ObjectName := ⟨1, "ods", "A"⟩

/-- A pipeline that encrypts one field of the table. -/
def fieldSubmission (pipeline : ℕ) (field : String) : Submission where
  pipeline := pipeline
  standardAsset := pipeline
  suggestions := [⟨odsTable, field, field, ("sec", "A")⟩]
  owner := some ⟨pipeline, some pipeline, ["A"]⟩
  connection := 1
  database := "ods"
  tableStrategy := .dropRecreate
  targetSuffix := none
  tables := [{ tableName := "A", columns := [field] }]

/-- The job of a pipeline, from its submission to the end. -/
def encryption (pipeline j : ℕ) (field : String) : List Action :=
  [.submit (fieldSubmission pipeline field), .start j, .resolve j "", .statement j true,
    .statement j true, .statement j true, .finish j]

/-- Only the raw table is there. -/
def odsOnly : Sys :=
  start (fun t => if t = odsTable then some [⟨odsTable, [], false⟩] else none) fun _ => none

/-- The view of an active mapping reads a row whose field was not encrypted. -/
def Sys.ReadsClear (s : Sys) : Prop :=
  ∃ m ∈ s.mappings, m.state = .active ∧ ∃ target ∈ s.views m.view,
    ∃ content ∈ s.tables (m.object target), ∃ p ∈ content, m.sourceField ∉ p.columns

instance (s : Sys) : Decidable s.ReadsClear := by
  unfold Sys.ReadsClear
  infer_instance

/-- A pipeline that encrypts another field of the table recreates the secured table, which the view of
the first pipeline still reads: the first field is read in clear. -/
theorem recreated_in_clear : ∃ s', Run (step id) Free odsOnly
    (encryption 1 0 "PHONE" ++ .activate 0 .activated :: encryption 2 1 "NAME") s' ∧
    ¬ s'.Protected ∧ s'.ReadsClear := by
  exact exists_run (by decide +kernel)

/-- A job that encrypts both fields into the table of the first pipeline, without recreating it. -/
def appended : List Action :=
  [.submit { fieldSubmission 2 "PHONE" with
      suggestions := []
      owner := none
      tableStrategy := .appendExisting
      tables := [{ tableName := "A", columns := ["PHONE", "NAME"] }] },
    .start 1, .resolve 1 "", .statement 1 true, .statement 1 true, .statement 1 true, .finish 1]

theorem appended_careful : ∃ s', Run (step id) (Careful id) odsOnly
    (encryption 1 0 "PHONE" ++ .activate 0 .activated :: appended) s' ∧
    ∃ m ∈ s'.mappings, m.state = .active := by
  exact exists_run (by decide +kernel)

theorem appended_protected : Throughout (step id) Sys.Protected odsOnly
    (encryption 1 0 "PHONE" ++ .activate 0 .activated :: appended) := by
  obtain ⟨s', hrun, -⟩ := appended_careful
  exact (protected_throughout_iff (hrun.mono fun _ _ _ => trivial)).mpr hrun

end RecoveryService.AccessViews
