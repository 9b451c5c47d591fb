import RecoveryService.DorisCsvImport.ImportTask

/-! # The rows of imported files

Behind a run of the import worker, the rows of an imported file are in the table it was loaded to once.
A run can break this in three ways: it drops a table (of a file imported by an earlier run, or by
an earlier file of the same run under another key), it loads a file whose rows came in with a lost answer,
and in `single_table` mode a retry takes its table and mapping from the files that are left.  `Careful`
excludes them; `Going` is the invariant of the loop over the files. -/

namespace RecoveryService.DorisCsvImport

open Program Tables

/-! ### What is kept -/

/-- The rows of every imported file are where they were loaded to, once. -/
def World.Once (w : World) : Prop :=
  ∀ i, (w.files i).state = .imported → ∃ load, (w.files i).loaded = some load ∧
    w.visible load.table i = [⟨i, load.mapping⟩]

structure Intact (w : World) : Prop where
  once : w.Once
  together : w.task.importMode = .singleTable → ∀ i j, (w.files i).state = .imported →
    (w.files j).state = .imported → (w.files i).loaded = (w.files j).loaded

namespace World

variable (w : World)

/-- The preview an importable file is to be imported with. -/
def planned (i : ℕ) : Option Preview :=
  match w.task.importMode with
  | .multipleTables => (w.files i).preview
  | .singleTable =>
      (w.importable.head?.bind fun first => (w.files first).preview).bind fun standard =>
        (w.files i).preview.map fun own =>
          { own with columns := standard.columns, tableName := standard.tableName }

def key (i : ℕ) (preview : Preview) : String := tableKey w.task.importMode (w.files i).filename preview

/-- The tables are dropped before the files are loaded. -/
def Overwrites : Prop := w.task.importCreateTable = true ∧ w.task.importOverwrite = true

/-- The files with the key of file `i` have its table. -/
def OwnTable (i : ℕ) (preview : Preview) : Prop :=
  ∀ j ∈ w.importable, ∀ other, w.planned j = some other → w.key i preview = w.key j other →
    preview.tableName = other.tableName

end World

/-- What a run has to find. -/
structure CarefulImport (w : World) (database : String) : Prop where
  /-- No table that is dropped holds a file imported before. -/
  spares : w.Overwrites → ∀ i ∈ w.importable, ∀ p, w.planned i = some p →
    ∀ j load, (w.files j).state = .imported → (w.files j).loaded = some load →
      load.table ≠ table database p
  /-- Files for one table have one key. -/
  keyed : w.Overwrites → ∀ i ∈ w.importable, ∀ j ∈ w.importable, ∀ p q, w.planned i = some p →
    w.planned j = some q → p.tableName = q.tableName → w.key i p = w.key j q
  /-- The rows of a file are not in its table yet, or the table is dropped first. -/
  fresh : ∀ i ∈ w.importable, ∀ p, w.planned i = some p →
    w.visible (table database p) i = [] ∨ w.Overwrites ∧ w.OwnTable i p
  /-- The files imported before went where this run loads to, in the same way. -/
  together : w.task.importMode = .singleTable → ∀ i ∈ w.importable, ∀ p, w.planned i = some p →
    ∀ j, (w.files j).state = .imported → (w.files j).loaded = some ⟨table database p, p.mapping⟩

/-- The condition on an action: a run that comes to load files is careful. -/
def Careful (w : World) : ImportAction → Prop
  | .runImport env => ∀ default, env.profile = some default →
      w.task.state = .waitingImport ∨ w.task.state = .completed →
      CarefulImport w (targetDatabase w.task default)
  | _ => True

/-- Only the imported files and the tables matter. -/
theorem Intact.of_imported {w w' : World} (h : Intact w) (hmode : w'.task.importMode = w.task.importMode)
    (htables : w'.tables = w.tables) (hfiles : ∀ j, (w'.files j).state = .imported →
      (w.files j).state = .imported ∧ (w'.files j).loaded = (w.files j).loaded) : Intact w' := by
  refine ⟨fun i hi => ?_, fun hsingle i j hi hj => ?_⟩
  · obtain ⟨hstate, hloaded⟩ := hfiles i hi
    obtain ⟨load, hload, honce⟩ := h.once i hstate
    refine ⟨load, hloaded.trans hload, ?_⟩
    rw [World.visible, htables]
    exact honce
  · rw [(hfiles i hi).2, (hfiles j hj).2]
    exact h.together (hmode.symm.trans hsingle) i j (hfiles i hi).1 (hfiles j hj).1

theorem Intact.onTask {s : ImportRun} (h : Intact s.world) {f : CsvTask → CsvTask}
    (hmode : (f s.world.task).importMode = s.world.task.importMode) : Intact (s.onTask f).world :=
  h.of_imported hmode rfl fun _ hj => ⟨hj, rfl⟩

theorem Intact.stopRemaining {s : ImportRun} (h : Intact s.world) (rest : List ℕ) :
    Intact (stopRemaining rest s).world := by
  refine h.of_imported rfl rfl fun j hj => ?_
  have hfile : (DorisCsvImport.stopRemaining rest s).world.files j =
      if j ∈ rest ∧ (s.world.files j).state.isStoppable = true then
        { s.world.files j with state := .stopped } else s.world.files j := rfl
  rw [hfile] at hj ⊢
  by_cases hstop : j ∈ rest ∧ (s.world.files j).state.isStoppable = true
  · rw [if_pos hstop] at hj
    cases hj
  · rw [if_neg hstop] at hj ⊢
    exact ⟨hj, rfl⟩

/-! ### Tables -/

section visible

variable {w : World} {t u : TableName} {i j : ℕ}

theorem visible_update (rows : Option (List Batch)) :
    World.visible { w with tables := Function.update w.tables t rows } u j =
      if u = t then (rows.getD []).filter fun batch => batch.file = j else w.visible u j := by
  unfold World.visible
  by_cases h : u = t
  · subst h
    simp only [Function.update_self, if_true]
  · simp only [Function.update_of_ne h, if_neg h]

/-- A load shows the rows of its file, and no others. -/
theorem visible_load {rows : List Batch} {m : Mapping} (h : w.tables t = some rows) :
    World.visible { w with tables := Function.update w.tables t (some (rows ++ [⟨i, m⟩])) } u j =
      w.visible u j ++ (if u = t ∧ j = i then [⟨i, m⟩] else []) := by
  rw [visible_update]
  by_cases hu : u = t
  · subst hu
    rw [if_pos rfl, Option.getD_some, List.filter_append, World.visible, h, Option.getD_some]
    by_cases hj : j = i
    · subst hj
      simp
    · have hne : ¬ i = j := fun he => hj he.symm
      simp [hj, hne]
  · simp [hu]

theorem visible_create (h : w.tables t = none) :
    World.visible { w with tables := Function.update w.tables t (some []) } u j = w.visible u j := by
  rw [visible_update]
  by_cases hu : u = t
  · subst hu
    rw [if_pos rfl, World.visible, h]
    rfl
  · rw [if_neg hu]

end visible

/-! ### The preview of a turn -/

section planned

variable {w : World} {i j : ℕ} {p q : Preview}

/-- In `single_table` mode the files share the table and the mapping. -/
theorem planned_shared (hmode : w.task.importMode = .singleTable) (hp : w.planned i = some p)
    (hq : w.planned j = some q) : p.tableName = q.tableName ∧ p.mapping = q.mapping := by
  unfold World.planned at hp hq
  rw [hmode] at hp hq
  obtain ⟨standard, hstandard, hp⟩ := Option.bind_eq_some_iff.mp hp
  obtain ⟨standard', hstandard', hq⟩ := Option.bind_eq_some_iff.mp hq
  obtain ⟨own, -, rfl⟩ := Option.map_eq_some_iff.mp hp
  obtain ⟨own', -, rfl⟩ := Option.map_eq_some_iff.mp hq
  rw [hstandard, Option.some.injEq] at hstandard'
  subst hstandard'
  exact ⟨rfl, rfl⟩

end planned

theorem validated_eq {file : CsvFile} {own : Preview} (h : validated file = .ok own) :
    file.preview = some own := by
  unfold validated at h
  split at h
  · next hpreview => rw [hpreview, Except.ok.inj h]
  · cases h

theorem prepareImportContent_eq {env : ImportEnv} {i : ℕ} {p : Preview} {filename : String} {m : Mapping}
    (h : prepareImportContent env i p filename = .ok m) : m = p.mapping := by
  unfold prepareImportContent at h
  split at h
  · cases h
  · split_ifs at h
    cases h
    rfl

/-! ### The invariant of the loop -/

/-- File `i` can be loaded: its rows are not in its table, or the table is still to be dropped. -/
def Fresh (w : World) (database : String) (s : ImportRun) (i : ℕ) (p : Preview) : Prop :=
  s.world.visible (table database p) i = [] ∨
    w.Overwrites ∧ w.key i p ∉ s.createdTables ∧ w.OwnTable i p

/-- The run over `w` with the files `rest` left. -/
structure Going (w : World) (database : String) (rest : List ℕ) (s : ImportRun) : Prop where
  mode : s.world.task.importMode = w.task.importMode
  creates : s.world.task.importCreateTable = w.task.importCreateTable
  overwrites : s.world.task.importOverwrite = w.task.importOverwrite
  names : ∀ j, (s.world.files j).filename = (w.files j).filename
  later : ∀ j ∈ rest, s.world.files j = w.files j
  other : ∀ j, j ∉ w.importable → s.world.files j = w.files j
  standard : w.task.importMode = .singleTable → s.baseline = none ∧ rest = w.importable ∨
    ∃ first standard, w.importable.head? = some first ∧ (w.files first).preview = some standard ∧
      s.baseline = some standard
  done : ∀ j ∈ w.importable, (s.world.files j).state = .imported → ∃ p, w.planned j = some p ∧
    (s.world.files j).loaded = some ⟨table database p, p.mapping⟩ ∧
    (w.Overwrites → w.key j p ∈ s.createdTables)
  once : s.world.Once
  fresh : ∀ j ∈ rest, ∀ p, w.planned j = some p → Fresh w database s j p

section going

variable {w : World} {database : String} {rest : List ℕ} {s s' : ImportRun} {i : ℕ} {p : Preview}

/-- What the run leaves, wherever it ends. -/
theorem Going.intact (h : Going w database rest s) (hw : Intact w) (hc : CarefulImport w database) :
    Intact s.world := by
  refine ⟨h.once, fun hmode => ?_⟩
  rw [h.mode] at hmode
  -- every imported file has the load of any file of this run
  have hold : ∀ j, (s.world.files j).state = .imported → ∀ k ∈ w.importable,
      (s.world.files k).state = .imported →
      (s.world.files j).loaded = (s.world.files k).loaded := by
    intro j hj k hk hkstate
    obtain ⟨p, hp, hpload, -⟩ := h.done k hk hkstate
    by_cases hjw : j ∈ w.importable
    · obtain ⟨q, hq, hqload, -⟩ := h.done j hjw hj
      obtain ⟨htable, hmapping⟩ := planned_shared hmode hp hq
      rw [hpload, hqload, table, table, htable, hmapping]
    · rw [h.other j hjw] at hj ⊢
      rw [hpload]
      exact hc.together hmode k hk p hp j hj
  intro j k hj hk
  by_cases hkw : k ∈ w.importable
  · exact hold j hj k hkw hk
  · by_cases hjw : j ∈ w.importable
    · exact (hold k hk j hjw hj).symm
    · rw [h.other j hjw] at hj ⊢
      rw [h.other k hkw] at hk ⊢
      exact hw.together hmode j k hj hk

variable {c : Catalog TableName (List Batch)}

/-- A statement on the tables that touches no imported file and shows no new rows of the others. -/
theorem Going.onTables (h : Going w database rest s)
    (hkept : ∀ j load, (s.world.files j).state = .imported → (s.world.files j).loaded = some load →
      (s.onTables c).world.visible load.table j = s.world.visible load.table j)
    (hrest : ∀ j ∈ rest, ∀ t, s.world.visible t j = [] → (s.onTables c).world.visible t j = []) :
    Going w database rest (s.onTables c) where
  mode := h.mode
  creates := h.creates
  overwrites := h.overwrites
  names := h.names
  later := h.later
  other := h.other
  standard := h.standard
  done := h.done
  once j hj := by
    obtain ⟨load, hload, honce⟩ := h.once j hj
    exact ⟨load, hload, (hkept j load hj hload).trans honce⟩
  fresh j hj p hp := (h.fresh j hj p hp).imp_left (hrest j hj _)

/-- A file of the run that is not left gets another row. -/
theorem Going.setFile (h : Going w database rest s) (hi : i ∈ w.importable) (hrest : i ∉ rest)
    {f : CsvFile → CsvFile} (results : List Bool)
    (hname : (f (s.world.files i)).filename = (s.world.files i).filename)
    (hdone : (f (s.world.files i)).state = .imported → ∃ p, w.planned i = some p ∧
      (f (s.world.files i)).loaded = some ⟨table database p, p.mapping⟩ ∧
      (w.Overwrites → w.key i p ∈ s.createdTables) ∧
      s.world.visible (table database p) i = [⟨i, p.mapping⟩]) :
    Going w database rest { s with world := s.world.setFile i f, results := results } := by
  have hself : (s.world.setFile i f).files i = f (s.world.files i) := Function.update_self ..
  have hothers : ∀ j, j ≠ i → (s.world.setFile i f).files j = s.world.files j :=
    fun j hj => Function.update_of_ne hj _ _
  have hne : ∀ j ∈ rest, j ≠ i := by
    rintro j hj rfl
    exact hrest hj
  refine ⟨h.mode, h.creates, h.overwrites, fun j => ?_, fun j hj => ?_, fun j hj => ?_, h.standard,
    fun j hj hstate => ?_, fun j hstate => ?_, h.fresh⟩
  · by_cases hj : j = i
    · subst hj
      exact (congrArg CsvFile.filename hself).trans (hname.trans (h.names j))
    · exact (congrArg CsvFile.filename (hothers j hj)).trans (h.names j)
  · exact (hothers j (hne j hj)).trans (h.later j hj)
  · refine (hothers j ?_).trans (h.other j hj)
    rintro rfl
    exact hj hi
  · simp only at hstate ⊢
    by_cases hji : j = i
    · subst hji
      rw [hself] at hstate ⊢
      obtain ⟨p, hp, hload, hkey, -⟩ := hdone hstate
      exact ⟨p, hp, hload, hkey⟩
    · rw [hothers j hji] at hstate ⊢
      exact h.done j hj hstate
  · simp only at hstate ⊢
    by_cases hji : j = i
    · subst hji
      rw [hself] at hstate ⊢
      obtain ⟨p, -, hload, -, hvisible⟩ := hdone hstate
      exact ⟨_, hload, hvisible⟩
    · rw [hothers j hji] at hstate ⊢
      exact h.once j hstate

/-- What the start of a turn picks is the preview the file was to be imported with. -/
theorem Going.adopted (h : Going w database (i :: rest) s) {own : Preview}
    (hown : (w.files i).preview = some own)
    (hp : adopted s.world.task.importMode s.baseline (s.world.files i).filename own = .ok p) :
    w.planned i = some p ∧ (w.task.importMode = .singleTable →
      ∃ first standard, w.importable.head? = some first ∧ (w.files first).preview = some standard ∧
        some (s.baseline.getD p) = some standard) := by
  rw [h.mode] at hp
  unfold World.planned
  cases hmode : w.task.importMode with
  | multipleTables =>
      rw [hmode] at hp
      cases hp
      exact ⟨hown, nofun⟩
  | singleTable =>
      rw [hmode] at hp
      obtain ⟨hbase, hrest⟩ | ⟨first, standard, hfirst, hstandard, hbase⟩ := h.standard hmode
      · -- the first file is its own standard
        rw [hbase] at hp ⊢
        cases hp
        have hhead : w.importable.head? = some i := by rw [← hrest, List.head?_cons]
        refine ⟨?_, fun _ => ⟨i, _, hhead, hown, rfl⟩⟩
        simp only [hhead, Option.bind_some, hown, Option.map_some]
      · rw [hbase] at hp ⊢
        simp only [DorisCsvImport.adopted] at hp
        split_ifs at hp
        cases hp
        refine ⟨?_, fun _ => ⟨first, standard, hfirst, hstandard, rfl⟩⟩
        simp only [hfirst, Option.bind_some, hstandard, hown, Option.map_some]

/-! ### A file -/

/-- The run in the turn of file `i`. -/
structure Loading (w : World) (database : String) (rest : List ℕ) (i : ℕ) (s : ImportRun) : Prop
    extends Going w database rest s where
  importing : (s.world.files i).state = .importing

theorem Loading.onTables (h : Loading w database rest i s) (hi : i ∉ rest)
    (hkept : ∀ j load, (s.world.files j).state = .imported → (s.world.files j).loaded = some load →
      (s.onTables c).world.visible load.table j = s.world.visible load.table j)
    (hrest : ∀ j, j ≠ i → ∀ t, s.world.visible t j = [] → (s.onTables c).world.visible t j = []) :
    Loading w database rest i (s.onTables c) := by
  refine ⟨h.toGoing.onTables hkept fun j hj => hrest j ?_, h.importing⟩
  rintro rfl
  exact hi hj

/-- No imported file is in a table that is about to be dropped. -/
theorem Going.target_ne (h : Going w database rest s) (hc : CarefulImport w database)
    (hover : w.Overwrites) (hi : i ∈ w.importable) (hp : w.planned i = some p)
    (hkey : w.key i p ∉ s.createdTables) {j : ℕ} {load : Load}
    (hj : (s.world.files j).state = .imported) (hload : (s.world.files j).loaded = some load) :
    load.table ≠ table database p := by
  by_cases hjw : j ∈ w.importable
  · obtain ⟨q, hq, hqload, hcreated⟩ := h.done j hjw hj
    rw [hload, Option.some.injEq] at hqload
    subst hqload
    intro he
    have hname : q.tableName = p.tableName := congrArg Prod.snd he
    apply hkey
    rw [← hc.keyed hover j hjw i hi q p hq hp hname]
    exact hcreated hover
  · rw [h.other j hjw] at hj hload
    exact hc.spares hover i hi p hp j load hj hload

theorem Loading.failed (h : Loading w database rest i s) (hi : i ∈ w.importable) (hrest : i ∉ rest) :
    Going w database rest (fileFailed i s) := h.setFile hi hrest _ rfl nofun

theorem Loading.imported (h : Loading w database rest i s) (hi : i ∈ w.importable) (hrest : i ∉ rest)
    (hp : w.planned i = some p) (hkey : w.Overwrites → w.key i p ∈ s.createdTables)
    (hvisible : s.world.visible (table database p) i = [⟨i, p.mapping⟩]) :
    Going w database rest (fileImported database i p p.mapping s) :=
  h.setFile hi hrest _ rfl fun _ => ⟨p, hp, rfl, hkey, hvisible⟩

/-- The begin of a turn. -/
theorem Going.startFile (h : Going w database (i :: rest) s) (hi : i ∈ w.importable) (hrest : i ∉ rest)
    (hstandard : w.task.importMode = .singleTable →
      ∃ first standard, w.importable.head? = some first ∧ (w.files first).preview = some standard ∧
        some (s.baseline.getD p) = some standard) :
    Loading w database rest i (startFile i p s) := by
  have hgoing : Going w database rest
      { s with baseline :=
          if s.world.task.importMode = .singleTable then some (s.baseline.getD p) else s.baseline } := by
    refine ⟨h.mode, h.creates, h.overwrites, h.names, fun j hj => h.later j (List.mem_cons_of_mem _ hj),
      h.other, fun hmode => ?_, h.done, h.once, fun j hj => h.fresh j (List.mem_cons_of_mem _ hj)⟩
    rw [if_pos (h.mode.trans hmode)]
    exact Or.inr (hstandard hmode)
  have hself : (DorisCsvImport.startFile i p s).world.files i =
      { s.world.files i with state := .importing } := Function.update_self ..
  exact ⟨hgoing.setFile hi hrest _ rfl nofun, congrArg CsvFile.state hself⟩

/-! ### The table of a file -/

/-- The run before the table of file `i` is created. -/
structure Creating (w : World) (database : String) (rest : List ℕ) (i : ℕ) (p : Preview)
    (s : ImportRun) : Prop extends Loading w database rest i s where
  notCreated : w.key i p ∉ s.createdTables
  ready : Fresh w database s i p

/-- The run before the rows of file `i` are loaded. -/
structure Ready (w : World) (database : String) (rest : List ℕ) (i : ℕ) (p : Preview)
    (s : ImportRun) : Prop extends Loading w database rest i s where
  created : w.Overwrites → w.key i p ∈ s.createdTables
  empty : s.world.visible (table database p) i = []

/-- Nothing of the task's files is in the table. -/
def Emptied (database : String) (p : Preview) (s : ImportRun) : Prop :=
  ∀ j, s.world.visible (table database p) j = []

theorem Creating.onTables (h : Creating w database rest i p s) (hi : i ∉ rest)
    (hkept : ∀ j load, (s.world.files j).state = .imported → (s.world.files j).loaded = some load →
      (s.onTables c).world.visible load.table j = s.world.visible load.table j)
    (hrest : ∀ j t, s.world.visible t j = [] → (s.onTables c).world.visible t j = []) :
    Creating w database rest i p (s.onTables c) :=
  ⟨h.toLoading.onTables hi hkept fun j _ => hrest j, h.notCreated, h.ready.imp_left (hrest i _)⟩

/-- The key is added behind the statements. -/
theorem Creating.added (h : Creating w database rest i p s) (hi : i ∈ w.importable)
    (hp : w.planned i = some p) (hempty : w.task.importOverwrite = true → Emptied database p s) :
    Ready w database rest i p { s with createdTables := w.key i p :: s.createdTables } := by
  refine ⟨⟨⟨h.mode, h.creates, h.overwrites, h.names, h.later, h.other, h.standard, fun j hj hstate => ?_,
    h.once, fun j hj q hq => ?_⟩, h.importing⟩, fun _ => List.mem_cons_self, ?_⟩
  · obtain ⟨q, hq, hload, hkey⟩ := h.done j hj hstate
    exact ⟨q, hq, hload, fun hover => List.mem_cons_of_mem _ (hkey hover)⟩
  · obtain hnone | ⟨hover, hkey, hown⟩ := h.fresh j hj q hq
    · exact Or.inl hnone
    · by_cases hsame : w.key j q = w.key i p
      · -- the table of file `j` was dropped as well
        have hname := hown i hi p hp hsame
        refine Or.inl ?_
        rw [table, hname]
        exact hempty hover.2 j
      · refine Or.inr ⟨hover, ?_, hown⟩
        rw [List.mem_cons, not_or]
        exact ⟨hsame, hkey⟩
  · obtain hnone | ⟨hover, -, -⟩ := h.ready
    · exact hnone
    · exact hempty hover.2 i

section statements

variable (env : ImportEnv) (hc : CarefulImport w database) (hi : i ∈ w.importable) (hrest : i ∉ rest)
  (hp : w.planned i = some p)
include hrest

section

include hc hi hp

theorem spec_dropTable (hover : w.Overwrites) : Spec (Creating w database rest i p) (dropTable env database i p)
      (fun _ s => Creating w database rest i p s ∧ Emptied database p s)
      (fun _ => Loading w database rest i) := by
  have hdrop : ∀ s s', Creating w database rest i p s →
      some (s.onTables (Function.update s.world.tables (table database p) none)) = some s' →
      Creating w database rest i p s' ∧ Emptied database p s' := by
    intro s s' h he
    cases he
    have hvisible : ∀ t j, (s.onTables (Function.update s.world.tables (table database p) none)).world.visible
        t j = if t = table database p then [] else s.world.visible t j := fun t j => visible_update none
    refine ⟨h.onTables hrest (fun j load hj hload => ?_) (fun j t hnone => ?_), fun j => ?_⟩
    · rw [hvisible, if_neg (h.target_ne hc hover hi hp h.notCreated hj hload)]
    · rw [hvisible, hnone, ite_self]
    · rw [hvisible, if_pos rfl]
  exact spec_submit hdrop (fun _ _ h => h.toLoading) (fun _ s s' h he => (hdrop s s' h he).1.toLoading)

end

theorem spec_createTableIfNotExists :
    Spec (fun s => Creating w database rest i p s ∧ (w.task.importOverwrite = true → Emptied database p s))
      (createTableIfNotExists env database i p)
      (fun _ s => Creating w database rest i p s ∧ (w.task.importOverwrite = true → Emptied database p s))
      (fun _ => Loading w database rest i) := by
  have hcreate : ∀ s s', (Creating w database rest i p s ∧
        (w.task.importOverwrite = true → Emptied database p s)) →
      (if s.world.tables (table database p) = none then
        some (s.onTables (Function.update s.world.tables (table database p) (some []))) else some s) = some s' →
      Creating w database rest i p s' ∧ (w.task.importOverwrite = true → Emptied database p s') := by
    intro s s' h he
    by_cases hnone : s.world.tables (table database p) = none
    · rw [if_pos hnone] at he
      cases he
      have hvisible : ∀ t j, (s.onTables (Function.update s.world.tables (table database p) (some []))).world.visible
          t j = s.world.visible t j := fun t j => visible_create hnone
      refine ⟨h.1.onTables hrest (fun j load _ _ => hvisible _ j) (fun j t h => (hvisible t j).trans h), ?_⟩
      exact fun hover j => (hvisible _ j).trans (h.2 hover j)
    · rw [if_neg hnone] at he
      cases he
      exact h
  exact spec_submit hcreate (fun _ _ h => h.1.toLoading) (fun _ s s' h he => (hcreate s s' h he).1.toLoading)

include hc hi hp

theorem spec_createTable (hcreates : w.task.importCreateTable = true) :
    Spec (Creating w database rest i p) (createTable env database i p w.task.importOverwrite)
      (fun _ s => Creating w database rest i p s ∧ (w.task.importOverwrite = true → Emptied database p s))
      (fun _ => Loading w database rest i) := by
  unfold createTable
  refine spec_bind (Q := fun _ => Creating w database rest i p)
    (spec_onlyIf (fun _ => spec_raise fun _ h => h.toLoading) fun _ _ h => h) fun _ => ?_
  refine spec_bind (Q := fun _ => Creating w database rest i p)
    (spec_onlyIf (fun _ => spec_raise fun _ h => h.toLoading) fun _ _ h => h) fun _ => ?_
  refine spec_bind (spec_onlyIf (fun hover => ?_) fun hnot s h => ⟨h, fun hover => (hnot hover).elim⟩)
    fun _ => spec_createTableIfNotExists env hrest
  exact (spec_dropTable env hc hi hrest hp ⟨hcreates, hover⟩).mono (fun _ h => h)
    (fun _ _ h => ⟨h.1, fun _ => h.2⟩) (fun _ _ h => h)

omit hc hi hp in
/-- The rows of a file come into its table with an answer, or the turn ends. -/
theorem spec_streamLoad : Spec (Ready w database rest i p) (streamLoad env database i p p.mapping)
      (fun _ s => Loading w database rest i s ∧ (w.Overwrites → w.key i p ∈ s.createdTables) ∧
        s.world.visible (table database p) i = [⟨i, p.mapping⟩])
      (fun _ => Loading w database rest i) := by
  have hload : ∀ s s', Ready w database rest i p s →
      (alter s.world.tables (table database p) (· ++ [⟨i, p.mapping⟩])).map s.onTables = some s' →
      Loading w database rest i s' ∧ (w.Overwrites → w.key i p ∈ s'.createdTables) ∧
        s'.world.visible (table database p) i = [⟨i, p.mapping⟩] := by
    intro s s' h he
    obtain ⟨c, hc, rfl⟩ := Option.map_eq_some_iff.mp he
    obtain ⟨rows, hrows, rfl⟩ := Option.map_eq_some_iff.mp hc
    have hvisible : ∀ t j, (s.onTables (Function.update s.world.tables (table database p)
        (some (rows ++ [⟨i, p.mapping⟩])))).world.visible t j =
          s.world.visible t j ++ (if t = table database p ∧ j = i then [⟨i, p.mapping⟩] else []) :=
      fun t j => visible_load hrows
    refine ⟨h.toLoading.onTables hrest (fun j load hj _ => ?_) (fun j hj t hnone => ?_), h.created, ?_⟩
    · have hne : j ≠ i := by
        rintro rfl
        rw [h.importing] at hj
        cases hj
      rw [hvisible, if_neg fun hboth => hne hboth.2, List.append_nil]
    · rw [hvisible, if_neg fun hboth => hj hboth.2, hnone, List.append_nil]
    · rw [hvisible, if_pos ⟨rfl, rfl⟩, h.empty, List.nil_append]
  exact spec_submit hload (fun _ _ h => h.toLoading) (fun _ s s' h he => (hload s s' h he).1)

/-- A turn behind the choice of its preview. -/
theorem spec_loadFile :
    Spec (fun s => Loading w database rest i s ∧ Fresh w database s i p) (loadFile env database i p)
      (fun _ => Going w database rest) (fun _ => Loading w database rest i) := by
  unfold loadFile
  refine spec_read fun a ha => ?_
  have hkey : tableKey a.world.task.importMode (a.world.files i).filename p = w.key i p := by
    rw [ha.1.mode, ha.1.names, World.key]
  rw [hkey, ha.1.creates, ha.1.overwrites]
  have hstart : ∀ s, s = a → Loading w database rest i s := by
    rintro s rfl
    exact ha.1
  refine spec_lift_bind (fun m hm => ?_) fun _ => hstart
  rw [prepareImportContent_eq hm]
  refine spec_bind (Q := fun _ => Ready w database rest i p) (spec_onlyIf (fun hnew => ?_) ?_) fun _ =>
    spec_bind (spec_streamLoad env hrest) fun _ => spec_update fun s h =>
      h.1.imported hi hrest hp h.2.1 h.2.2
  · have hcreating : ∀ s, s = a → Creating w database rest i p s := by
      rintro s rfl
      exact ⟨ha.1, hnew.2, ha.2⟩
    exact spec_bind ((spec_createTable env hc hi hrest hp hnew.1).mono hcreating (fun _ _ h => h)
      fun _ _ h => h) fun _ => spec_update fun s h => h.1.added hi hp h.2
  · rintro hnot s rfl
    have hcreated : w.Overwrites → w.key i p ∈ s.createdTables := fun hover =>
      by_contra fun hnew => hnot ⟨hover.1, hnew⟩
    exact ⟨ha.1, hcreated, ha.2.resolve_right fun h => h.2.1 (hcreated h.1)⟩

end statements

/-- A turn of the loop. -/
theorem spec_importFile (env : ImportEnv) (hc : CarefulImport w database)
    (hi : i ∈ w.importable) (hrest : i ∉ rest) :
    Spec (Going w database (i :: rest)) (importFile env database i) (fun _ => Going w database rest)
      (fun _ s => ∃ rest', Going w database rest' s) := by
  unfold importFile
  refine spec_read fun a ha => ?_
  have hraised : ∀ s, s = a → ∃ rest', Going w database rest' s := by
    rintro s rfl
    exact ⟨_, ha⟩
  refine spec_lift_bind (fun own hown => ?_) fun _ => hraised
  refine spec_lift_bind (fun p hp => ?_) fun _ => hraised
  rw [ha.later i List.mem_cons_self] at hown
  obtain ⟨hplanned, hstandard⟩ := ha.adopted (validated_eq hown) hp
  have hfresh : Fresh w database a i p := ha.fresh i List.mem_cons_self p hplanned
  refine spec_bind (Q := fun _ s => Loading w database rest i s ∧ Fresh w database s i p)
    (spec_update ?_) fun _ => ?_
  · rintro s rfl
    exact ⟨ha.startFile hi hrest hstandard, hfresh⟩
  · refine spec_attempt (spec_loadFile env hc hi hrest hplanned) ?_ nofun
    rintro e h he
    cases he
    exact spec_update fun _ hs => hs.failed hi hrest

/-! ### The run -/

theorem Going.onTask (h : Going w database rest s) {f : CsvTask → CsvTask}
    (hf : ∀ task, (f task).importMode = task.importMode ∧
      (f task).importCreateTable = task.importCreateTable ∧
      (f task).importOverwrite = task.importOverwrite) : Going w database rest (s.onTask f) :=
  ⟨(hf _).1.trans h.mode, (hf _).2.1.trans h.creates, (hf _).2.2.trans h.overwrites, h.names, h.later,
    h.other, h.standard, h.done, h.once, h.fresh⟩

theorem requestStop_keeps (task : CsvTask) : task.requestStop.importMode = task.importMode ∧
    task.requestStop.importCreateTable = task.importCreateTable ∧
    task.requestStop.importOverwrite = task.importOverwrite := by
  unfold CsvTask.requestStop
  split_ifs <;> exact ⟨rfl, rfl, rfl⟩

section run

variable (env : ImportEnv) (hc : CarefulImport w database) (hw : Intact w)
include hc hw

theorem spec_importFiles (hin : ∀ i ∈ rest, i ∈ w.importable) (hnodup : rest.Nodup) :
    Spec (Going w database rest) (importFiles env database rest) (fun _ s => Intact s.world)
      (fun _ s => Intact s.world) := by
  induction rest with
  | nil => exact spec_pure fun s h => h.intact hw hc
  | cons i rest ih =>
      obtain ⟨hi, hin⟩ := List.forall_mem_cons.mp hin
      obtain ⟨hrest, hnodup⟩ := List.nodup_cons.mp hnodup
      unfold importFiles
      refine spec_bind (Q := fun _ => Going w database (i :: rest)) (spec_update fun s h => ?_) fun _ =>
        spec_read fun a ha => ?_
      · refine h.onTask fun task => ?_
        split_ifs
        · exact requestStop_keeps task
        · exact ⟨rfl, rfl, rfl⟩
      have hstart : ∀ s, s = a → Going w database (i :: rest) s := by
        rintro s rfl
        exact ha
      split_ifs
      · refine spec_bind (Q := fun _ s => Intact s.world) (spec_update fun s hs => ?_) fun _ =>
          spec_pure fun _ h => h
        exact ((hstart s hs).intact hw hc).stopRemaining (i :: rest)
      · refine spec_bind ((spec_importFile env hc hi hrest).mono hstart (fun _ _ h => h) fun _ s h => ?_)
          fun _ => ih hin hnodup
        obtain ⟨rest', h⟩ := h
        exact h.intact hw hc

theorem spec_importTask : Spec (Going w database w.importable) (importTask env database w.importable)
      (fun _ s => Intact s.world) (fun _ s => Intact s.world) := by
  have hnodup : w.importable.Nodup := List.nodup_range.filter _
  refine spec_bind (Q := fun _ => Going w database w.importable)
    (spec_update fun s h => h.onTask fun _ => ⟨rfl, rfl, rfl⟩) fun _ => ?_
  refine spec_bind (spec_importFiles env hc hw (fun _ h => h) hnodup) fun finished => ?_
  exact spec_onlyIf (fun _ => spec_update fun s h => h.onTask rfl) fun _ _ h => h

end run

end going

/-- Where a run starts. -/
theorem going_start {w : World} {database : String} (hw : Intact w) (hc : CarefulImport w database) :
    Going w database w.importable ⟨w, [], none, []⟩ := by
  refine ⟨rfl, rfl, rfl, fun _ => rfl, fun _ _ => rfl, fun _ _ => rfl, fun _ => Or.inl ⟨rfl, rfl⟩,
    fun j hj hstate => ?_, hw.once, fun j hj p hp => ?_⟩
  · have himportable : (w.files j).state.isImportable = true := (List.mem_filter.mp hj).2
    rw [hstate] at himportable
    cases himportable
  · exact (hc.fresh j hj p hp).imp_right fun h => ⟨h.1, List.not_mem_nil, h.2⟩

/-- A careful run of the worker. -/
theorem Intact.afterImport {w : World} (hw : Intact w) {env : ImportEnv}
    (hc : Careful w (.runImport env)) : Intact (w.afterImport env) := by
  have hspec : Spec (fun s => s = (⟨w, [], none, []⟩ : ImportRun)) (runCsvImportTask env)
      (fun _ s => Intact s.world) (fun _ s => Intact s.world) := by
    refine spec_attempt (E := fun _ s => Intact s.world) (spec_read ?_) ?_ nofun
    swap
    · rintro e h he
      cases he
      exact spec_update fun s hs => hs.onTask rfl
    rintro s rfl
    have hstart : ∀ s, s = (⟨w, [], none, []⟩ : ImportRun) → Intact s.world := by
      rintro s rfl
      exact hw
    have htask : ∀ f : CsvTask → CsvTask, (∀ task, (f task).importMode = task.importMode) →
        Spec (fun s => s = (⟨w, [], none, []⟩ : ImportRun)) (update (ImportRun.onTask · f) : Import Unit)
          (fun _ s => Intact s.world) (fun _ s => Intact s.world) :=
      fun f hf => spec_update fun s hs => (hstart s hs).onTask (hf _)
    split
    · exact spec_pure hstart
    split
    · exact spec_raise hstart
    rename_i hstate
    cases hprofile : env.profile with
    | none => exact htask _ fun _ => rfl
    | some default =>
        simp only
        split
        · exact htask _ fun _ => rfl
        refine spec_bind (Q := fun _ s => s = (⟨w, [], none, []⟩ : ImportRun))
          (spec_onlyIf (fun _ => spec_raise hstart) fun _ _ h => h) fun _ => ?_
        split
        · exact htask _ fun _ => rfl
        have hcareful := hc default hprofile
          ((not_and_or.mp hstate).imp not_not.mp not_not.mp)
        refine (spec_importTask env hcareful hw).mono (fun s hs => ?_) (fun _ _ h => h) fun _ _ h => h
        rw [hs]
        exact going_start hw hcareful
  have hends := hspec.ends _ rfl
  unfold World.afterImport
  revert hends
  cases runCsvImportTask env ⟨w, [], none, []⟩ with
  | mk r s => cases r <;> exact id

/-- One step of the task. -/
theorem Intact.step {w w' : World} {a : ImportAction} (hw : Intact w) (hc : Careful w a)
    (hstep : importStep w a = some w') : Intact w' := by
  cases a with
  | runImport env =>
      cases hstep
      exact hw.afterImport hc
  | requestStop =>
      cases hstep
      exact hw.of_imported (requestStop_keeps w.task).1 rfl fun _ hj => ⟨hj, rfl⟩
  | requestImport create overwrite database =>
      obtain ⟨task, htask, rfl⟩ := Option.map_eq_some_iff.mp hstep
      refine hw.of_imported ?_ rfl fun _ hj => ⟨hj, rfl⟩
      unfold CsvTask.requestImport at htask
      split_ifs at htask
      · cases htask
      · cases htask
        rfl
  | updatePreview i preview =>
      simp only [importStep] at hstep
      split_ifs at hstep
      cases hstep
      refine hw.of_imported rfl rfl fun j hj => ?_
      by_cases hji : j = i
      · subst hji
        simp only [World.setFile, Function.update_self] at hj ⊢
        exact ⟨hj, trivial⟩
      · simp only [World.setFile, Function.update_of_ne hji] at hj ⊢
        exact ⟨hj, trivial⟩

/-- In every state a task comes to by careful steps, the rows of the imported files are in place. -/
theorem imported_in_place {w w' : World} {as : List ImportAction}
    (hstart : ∀ i, (w.files i).state ≠ .imported) (hrun : Runs.Run importStep Careful w as w') : Intact w' := by
  have hw : Intact w :=
    ⟨fun i hi => (hstart i hi).elim, fun _ i _ hi _ => (hstart i hi).elim⟩
  exact hrun.invariant hw fun _ _ _ hc hstep h => h.step hc hstep

/-- A parsed task with two files for the tables `first` and `second`. -/
def parsedTask (first second : String) : World where
  task := { importMode := .multipleTables, database := "ods", state := .completed }
  fileCount := 2
  files i := {
    filename := if i = 0 then "sales-2024.csv" else "sales_2024.csv"
    state := .succeeded
    preview := some {
      filename := if i = 0 then "sales-2024.csv" else "sales_2024.csv"
      tableName := if i = 0 then first else second
      expectedColumns := 1
      columns := [⟨"id", "INT"⟩] } }
  tables := fun _ => none

def overwriting : List ImportAction := [.requestImport true true none, .runImport {}]

/-- The same task behind the request. -/
def requested (first second : String) : World :=
  { parsedTask first second with
    task := { (parsedTask first second).task with importOverwrite := true, state := .waitingImport } }

theorem imported_in_place_overwriting : ∃ w', Runs.Run importStep Careful
    (parsedTask "sales" "sales_2024") overwriting w' ∧ (w'.files 1).state = .imported ∧ Intact w' := by
  have hrequest : importStep (parsedTask "sales" "sales_2024") (.requestImport true true none) =
      some (requested "sales" "sales_2024") := rfl
  have hrun : Runs.Run importStep Careful (parsedTask "sales" "sales_2024") overwriting
      ((requested "sales" "sales_2024").afterImport {}) := by
    refine .step trivial hrequest (.step (fun default _ _ => ?_) rfl (.refl _))
    refine ⟨fun _ _ _ _ _ _ _ h => FileState.noConfusion h, fun _ i hi j hj p q hp hq hname => ?_,
      fun _ _ _ _ => Or.inl rfl, nofun⟩
    have hi' : i < 2 := List.mem_range.mp (List.mem_filter.mp hi).1
    have hj' : j < 2 := List.mem_range.mp (List.mem_filter.mp hj).1
    cases hp
    cases hq
    interval_cases i <;> interval_cases j
    · rfl
    · exact absurd hname (by decide)
    · exact absurd hname (by decide)
    · rfl
  exact ⟨_, hrun, by decide +kernel, imported_in_place (fun _ h => FileState.noConfusion h) hrun⟩

/-- The table of the second file is the one the first was loaded to: it is dropped with the rows. -/
theorem overwritten_lost : ¬ ∀ w as w', (∀ i, (w.files i).state ≠ .imported) →
    Runs.Run importStep Runs.Free w as w' → Intact w' := by
  intro hall
  obtain ⟨w', hrun, hstate, hnone⟩ : ∃ w', Runs.Run importStep Runs.Free
      (parsedTask "sales_2024" "sales_2024") overwriting w' ∧ (w'.files 0).state = .imported ∧
      ∀ load ∈ (w'.files 0).loaded, w'.visible load.table 0 = [] :=
    Runs.exists_run (by decide +kernel)
  obtain ⟨load, hload, honce⟩ := (hall _ _ w' (fun _ h => FileState.noConfusion h) hrun).once 0 hstate
  rw [hnone load hload] at honce
  cases honce

end RecoveryService.DorisCsvImport
