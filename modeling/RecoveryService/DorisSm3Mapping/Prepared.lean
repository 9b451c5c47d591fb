import RecoveryService.DorisSm3Mapping.MappingJob

/-! # The steps of an SM3 mapping job before the rename

The checks and the tables of the mappings.  Up to here only the tables of the mappings change
(`prepare_before`), and the steps return exactly when everything they ask for is there
(`prepare_returns`). -/

namespace RecoveryService.DorisSm3Mapping

open Checks Program Tables DorisEncryption

section

variable {sm3 : String → String} {env : Sm3Env} {job : MappingJob} {w w' : Sm3World} {u : Unit}

/-! ### Statements -/

theorem ask_returns {α : Type} {failure : Option String} {answer : Sm3World → Except String α} {a : α} :
    ask failure answer w = (.ok a, w') ↔ failure = none ∧ answer w = .ok a ∧ w' = w := by
  unfold ask
  rw [query_returns, Option.map_eq_none_iff]
  cases answer w <;> simp [Except.mapError]

theorem check_returns {condition : Prop} [Decidable condition] {message : String} :
    check condition message w = (.ok u, w') ↔ ¬ condition ∧ w' = w := by
  unfold check
  rw [lift_returns]
  by_cases h : condition <;> simp [raiseIf, h, Except.mapError]

theorem checkCancel_returns {look : ℕ} :
    checkCancel env look w = (.ok u, w') ↔ env.cancel look = false ∧ w' = w := by
  unfold checkCancel
  rw [lift_returns]
  cases env.cancel look <;> simp

variable {effect : Catalog TableName MaskTable → Option (Catalog TableName MaskTable)}

theorem execute_returns {reply : Reply String} : execute reply effect w = (.ok u, w') ↔
      reply = .done ∧ ∃ c, effect w.tables = some c ∧ w' = w.setTables c := by
  unfold execute
  rw [submit_returns, Option.map_eq_some_iff]
  cases reply <;> simp [Reply.map, eq_comm]

variable {I : Sm3World → Prop}

theorem keeps_ask {α : Type} (failure : Option String) (answer : Sm3World → Except String α) :
    Keeps I (ask failure answer) := keeps_query _ _

theorem keeps_check (condition : Prop) [Decidable condition] (message : String) :
    Keeps I (check condition message) := keeps_lift _

theorem keeps_execute (reply : Reply String) (h : ∀ w c, I w → effect w.tables = some c → I (w.setTables c)) :
    Keeps I (execute reply effect) := by
  refine keeps_submit _ _ fun _ w w' hw he => ?_
  obtain ⟨c, hc, rfl⟩ := Option.map_eq_some_iff.mp he
  exact h w c hw hc

/-! ### Up to the rename -/

/-- The tables of the mappings. -/
def MappingJob.mappings (job : MappingJob) : List TableName := job.mappingNames.map (job.mappingDb, ·)

/-- Nothing but the tables in `names` has changed. -/
structure Before (names : List TableName) (tables : Catalog TableName MaskTable) (w : Sm3World) : Prop where
  elsewhere : ∀ name ∉ names, w.tables name = tables name
  renamed : w.renamed = false
  created : w.created = false

variable {tables : Catalog TableName MaskTable} {names : List TableName}

theorem Before.setStatus (h : Before names tables w) (f : JobStatus → JobStatus) :
    Before names tables (w.setStatus f) := ⟨h.elsewhere, h.renamed, h.created⟩

variable {c : Catalog TableName MaskTable}

theorem Before.setTables (h : Before names tables w) (hc : ∀ name ∉ names, c name = w.tables name) :
    Before names tables (w.setTables c) :=
  ⟨fun name hname => (hc name hname).trans (h.elsewhere name hname), h.renamed, h.created⟩

theorem Before.weaken (h : Before [] tables w) : Before names tables w :=
  ⟨fun name _ => h.elsewhere name List.not_mem_nil, h.renamed, h.created⟩

theorem Before.tables_eq (h : Before [] tables w) : w.tables = tables :=
  funext fun name => h.elsewhere name List.not_mem_nil

theorem setStep_before (index : ℕ) (state : StepState) (message : Option String) :
    Keeps (Before names tables) (setStep index state message) := keeps_update fun _ h => h.setStatus _

theorem checkNames_before : Keeps (Before names tables) (checkNames env job) := by
  unfold checkNames
  split
  · exact keeps_bind (keeps_ask _ _) fun _ => keeps_check _ _
  · exact keeps_pure _
  · split
    · exact keeps_bind (keeps_ask _ _) fun _ => keeps_check _ _
    · exact keeps_pure _

theorem precheck_before : Keeps (Before names tables) (precheck env job) := by
  unfold precheck
  exact keeps_bind (keeps_lift _) fun _ => keeps_bind (setStep_before _ _ _) fun _ =>
    keeps_bind (keeps_ask _ _) fun _ => keeps_bind (keeps_ask _ _) fun _ =>
      keeps_bind (keeps_check _ _) fun _ => keeps_bind (keeps_check _ _) fun _ =>
        keeps_bind checkNames_before fun _ => keeps_bind (keeps_ask _ _) fun _ =>
          keeps_bind (keeps_update fun _ h => h.setStatus _) fun _ =>
            keeps_bind (setStep_before _ _ _) fun _ => keeps_pure _

variable {other : TableName} {columns : List String}
variable {name : TableName}

theorem createMissing_ne (h : other ≠ name) : createMissing name columns c other = c other := by
  unfold createMissing
  split
  · exact Function.update_of_ne h _ _
  · rfl

theorem createMissing_self :
    createMissing name columns c name = some ((c name).getD { columns := columns, rows := [] }) := by
  unfold createMissing
  cases hc : c name with
  | none => rw [if_pos rfl, Function.update_self, Option.getD_none]
  | some t => rw [if_neg nofun, hc, Option.getD_some]

theorem mem_mappings {name : String} (h : name ∈ job.mappingNames) :
    (job.mappingDb, name) ∈ job.mappings := List.mem_map_of_mem h

theorem ne_of_mem_mappings {name : String} (h : name ∈ job.mappingNames) (hother : other ∉ job.mappings) :
    other ≠ (job.mappingDb, name) := by
  rintro rfl
  exact hother (mem_mappings h)

theorem prepareMappings_before : Keeps (Before job.mappings tables) (prepareMappings env job) := by
  unfold prepareMappings
  refine keeps_bind (keeps_lift _) fun _ => keeps_bind (setStep_before _ _ _) fun _ =>
    keeps_bind (keeps_execute _ ?_) fun _ => keeps_bind (keeps_forM ?_) fun _ =>
      keeps_bind (keeps_forM ?_) fun _ => setStep_before _ _ _
  · rintro w c hw ⟨⟩
    exact hw.setTables fun _ _ => rfl
  · intro name hname
    refine keeps_execute _ ?_
    rintro w c hw ⟨⟩
    exact hw.setTables fun other hother => createMissing_ne (ne_of_mem_mappings hname hother)
  · intro name _
    exact keeps_bind (keeps_ask _ _) fun _ => keeps_bind (keeps_ask _ _) fun _ => keeps_check _ _

variable {l : List (String × String)}

/-- The mapping tables that are written are those of the job. -/
theorem columnMappings_mem (h : columnMappings job = .ok l) : ∀ m ∈ l, m.2 ∈ job.mappingNames := by
  intro m hm
  obtain ⟨column, -, hcolumn⟩ := (mapM_eq_ok h).2 m hm
  cases hlookup : job.mappingTables.lookup column with
  | none => simp [hlookup] at hcolumn
  | some name =>
      rw [hlookup] at hcolumn
      obtain rfl : (column, name) = m := by simpa using hcolumn
      obtain ⟨before, after, hsplit, -⟩ := List.lookup_eq_some_iff.mp hlookup
      have hmem : (column, name) ∈ job.mappingTables := by
        rw [hsplit]
        exact List.mem_append_right _ List.mem_cons_self
      have hvalue : name ∈ job.mappingTables.map Prod.snd := List.mem_map.mpr ⟨_, hmem, rfl⟩
      exact (List.mem_insertionSort _).mpr (List.mem_dedup.mpr hvalue)

theorem insertValues_ne {source mapping : TableName} {column : String} {c' : Catalog TableName MaskTable}
    (h : insertValues sm3 source mapping column c = some c') (hother : other ≠ mapping) : c' other = c other := by
  unfold insertValues at h
  obtain ⟨s, -, h⟩ := Option.bind_eq_some_iff.mp h
  obtain ⟨t, -, rfl⟩ := Option.map_eq_some_iff.mp h
  exact Function.update_of_ne hother _ _

theorem insertMappings_before : Keeps (Before job.mappings tables) (insertMappings sm3 env job) := by
  unfold insertMappings
  refine keeps_bind (keeps_lift _) fun _ => keeps_lift_bind fun l hl =>
    keeps_bind (setStep_before _ _ _) fun _ => keeps_bind (keeps_forM ?_) fun _ => setStep_before _ _ _
  intro m hm
  refine keeps_execute _ fun w c hw hc => hw.setTables fun other hother => ?_
  have hname : m.1.2 ∈ job.mappingNames :=
    columnMappings_mem hl m.1 (List.fst_mem_of_mem_zipIdx hm)
  exact insertValues_ne hc (ne_of_mem_mappings hname hother)

theorem prepare_before : Keeps (Before job.mappings tables) (prepare sm3 env job) := by
  unfold prepare
  exact keeps_bind precheck_before fun _ => keeps_bind prepareMappings_before fun _ =>
    keeps_bind insertMappings_before fun _ => keeps_pure _

/-! ### When the preparations return -/

/-- The preparations pass; `t` is the table. -/
structure Prepared (env : Sm3Env) (job : MappingJob) (backup : String)
    (tables : Catalog TableName MaskTable) (t : MaskTable) : Prop where
  look : ∀ k < 3, env.cancel k = false
  connect : env.connect = none
  loadTableColumns : env.loadTableColumns = none
  table : tables (job.database, job.tableName) = some t
  columns_ne : t.columns ≠ []
  known : ∀ c ∈ job.hashedColumns, c ∈ t.columns
  tableExists : env.tableExists = none
  free : tables (job.database, backup) = none
  countSource : env.countSource = none
  createMappingDatabase : env.createMappingDatabase = .done
  createMapping : ∀ name ∈ job.mappingNames, env.createMapping name = .done
  loadMappingColumns : ∀ name ∈ job.mappingNames, env.loadMappingColumns name = none
  mappingDdl : ∀ name ∈ job.mappingNames, env.mappingDdl name = none
  mappingColumns : ∀ name ∈ job.mappingNames, ∀ m, tables (job.mappingDb, name) = some m →
    m.columns = mappingColumns
  columnMapping : ∀ c ∈ job.hashedColumns, job.mappingTables.lookup c ≠ none
  insertMapping : ∀ i < job.hashedColumns.length, env.insertMapping i = .done

variable {backup : String} (hmode : job.replaceOriginal = true) (hbackup : job.backup = some backup)
include hmode hbackup

theorem checkNames_returns : checkNames env job w = (.ok u, w') ↔
      env.tableExists = none ∧ w.tables (job.database, backup) = none ∧ w' = w := by
  unfold checkNames tableExists
  rw [hmode, hbackup]
  simp only [bind_returns, ask_returns, check_returns, Except.ok.injEq]
  constructor
  · rintro ⟨taken, m, ⟨hexists, rfl, rfl⟩, hfree, rfl⟩
    exact ⟨hexists, by simpa using hfree, rfl⟩
  · rintro ⟨hexists, hfree, rfl⟩
    exact ⟨_, w', ⟨hexists, rfl, rfl⟩, by simp [hfree], rfl⟩

/-- The checks return exactly when they pass. -/
theorem precheck_returns {sourceRows : ℕ} {tableColumns : List String} :
    (∃ w', precheck env job w = (.ok (sourceRows, tableColumns), w')) ↔
      ∃ t, (env.cancel 0 = false ∧ env.connect = none ∧ env.loadTableColumns = none ∧
        w.tables (job.database, job.tableName) = some t ∧ t.columns ≠ [] ∧
        (∀ c ∈ job.hashedColumns, c ∈ t.columns) ∧ env.tableExists = none ∧
        w.tables (job.database, backup) = none ∧ env.countSource = none) ∧
        sourceRows = t.rows.length ∧ tableColumns = t.columns := by
  unfold precheck setStep loadTableColumns countRows
  simp only [bind_returns, update_returns, ask_returns, check_returns, checkCancel_returns,
    Except.ok.injEq, checkNames_returns hmode hbackup, pure_returns, Prod.mk.injEq]
  constructor
  · rintro ⟨w', -, w₀, ⟨hlook, rfl⟩, -, w₁, rfl, -, w₂, ⟨hconnect, -, rfl⟩, loaded, w₃,
      ⟨hload, rfl, rfl⟩, -, w₄, ⟨hsome, rfl⟩, -, w₅, ⟨hknown, rfl⟩, -, w₆, ⟨hexists, hfree, rfl⟩, n, w₇,
      ⟨hcount, hn, rfl⟩, -, w₈, rfl, -, w₉, rfl, ⟨rfl, rfl⟩, rfl⟩
    cases ht : w₀.tables (job.database, job.tableName) with
    | none => simp [Sm3World.setStatus, ht] at hsome
    | some t =>
        have hrows : t.rows.length = sourceRows := by
          simpa [Sm3World.setStatus, ht] using hn
        refine ⟨t, ⟨hlook, hconnect, hload, rfl, ?_, ?_, hexists, hfree, hcount⟩, hrows.symm, ?_⟩
        · simpa [Sm3World.setStatus, ht] using hsome
        · simpa [Sm3World.setStatus, ht] using hknown
        · simp [Sm3World.setStatus, ht]
  · rintro ⟨t, ⟨hlook, hconnect, hload, ht, hne, hknown, hexists, hfree, hcount⟩, rfl, rfl⟩
    refine ⟨_, (), _, ⟨hlook, rfl⟩, (), _, rfl, (), _, ⟨hconnect, trivial, rfl⟩, t.columns, _,
      ⟨hload, ?_, rfl⟩, (), _, ⟨hne, rfl⟩, (), _, ⟨?_, rfl⟩, (), _, ⟨hexists, hfree, rfl⟩,
      t.rows.length, _, ⟨hcount, ?_, rfl⟩, (), _, rfl, (), _, rfl, ⟨rfl, rfl⟩, rfl⟩
    · simp [Sm3World.setStatus, ht]
    · simpa using hknown
    · simp [Sm3World.setStatus, ht]

omit hmode hbackup

theorem foldl_setTables {α : Type} (f : Catalog TableName MaskTable → α → Catalog TableName MaskTable)
    (l : List α) (w : Sm3World) :
    l.foldl (fun w a => w.setTables (f w.tables a)) w = w.setTables (l.foldl f w.tables) := by
  induction l generalizing w with
  | nil => rfl
  | cons a l ih => exact ih _

/-- The tables of the mappings, made where they are missing. -/
def withMappings (job : MappingJob) (c : Catalog TableName MaskTable) : Catalog TableName MaskTable :=
  job.mappingNames.foldl (fun c name => createMissing (job.mappingDb, name) mappingColumns c) c

theorem createMissing_getD : (createMissing name columns c other).getD { columns := columns, rows := [] } =
      (c other).getD { columns := columns, rows := [] } := by
  by_cases h : other = name
  · rw [h, createMissing_self, Option.getD_some]
  · rw [createMissing_ne h]

theorem foldl_createMissing_getD {α : Type} (f : α → TableName) (columns : List String) (l : List α)
    (c : Catalog TableName MaskTable) (other : TableName) :
    (l.foldl (fun c a => createMissing (f a) columns c) c other).getD { columns := columns, rows := [] } =
      (c other).getD { columns := columns, rows := [] } := by
  induction l generalizing c with
  | nil => rfl
  | cons a l ih => rw [List.foldl_cons, ih, createMissing_getD]

theorem foldl_createMissing_ne_none {α : Type} (f : α → TableName) (columns : List String) (l : List α)
    (c : Catalog TableName MaskTable) (h : c other ≠ none ∨ ∃ a ∈ l, f a = other) :
    l.foldl (fun c a => createMissing (f a) columns c) c other ≠ none := by
  induction l generalizing c with
  | nil => simpa using h
  | cons a l ih =>
      rw [List.foldl_cons]
      refine ih _ ?_
      by_cases ha : other = f a
      · left
        rw [ha, createMissing_self]
        exact nofun
      · rw [createMissing_ne ha]
        rcases h with h | ⟨b, hb, rfl⟩
        · exact Or.inl h
        · exact Or.inr ⟨b, (List.mem_cons.mp hb).resolve_left (fun hba => ha (hba ▸ rfl)), rfl⟩

/-- Each table of the mappings is there, as it was or new. -/
theorem withMappings_of_mem {name : String} (h : name ∈ job.mappingNames) :
    withMappings job c (job.mappingDb, name) =
      some ((c (job.mappingDb, name)).getD { columns := mappingColumns, rows := [] }) := by
  have hsome : withMappings job c (job.mappingDb, name) ≠ none :=
    foldl_createMissing_ne_none _ _ _ _ (Or.inr ⟨name, h, rfl⟩)
  obtain ⟨t, ht⟩ := Option.ne_none_iff_exists'.mp hsome
  have hget : (withMappings job c (job.mappingDb, name)).getD { columns := mappingColumns, rows := [] } = _ :=
    foldl_createMissing_getD _ _ _ _ _
  rw [ht, Option.getD_some] at hget
  rw [ht, hget]

theorem createMappings_returns : (job.mappingNames.forM fun name => execute (env.createMapping name) fun c =>
      some (createMissing (job.mappingDb, name) mappingColumns c)) w = (.ok u, w') ↔
      (∀ name ∈ job.mappingNames, env.createMapping name = .done) ∧
        w' = w.setTables (withMappings job w.tables) := by
  rw [forM_returns (I := fun _ => True)
    (g := fun name w => w.setTables (createMissing (job.mappingDb, name) mappingColumns w.tables))
    (fun name _ w w' _ => ?_) (fun _ _ _ _ => trivial) trivial]
  · rw [foldl_setTables fun c name => createMissing (job.mappingDb, name) mappingColumns c]
    rfl
  · rw [execute_returns]
    simp

theorem validateMappings_returns : job.mappingNames.forM (validateMapping env job) w = (.ok u, w') ↔
      (∀ name ∈ job.mappingNames, env.loadMappingColumns name = none ∧ env.mappingDdl name = none ∧
        (w.tables (job.mappingDb, name)).elim [] MaskTable.columns = mappingColumns) ∧ w' = w := by
  have hturn : ∀ name ∈ job.mappingNames, ∀ s s', s = w → (validateMapping env job name s = (.ok (), s') ↔
      (env.loadMappingColumns name = none ∧ env.mappingDdl name = none ∧
        (w.tables (job.mappingDb, name)).elim [] MaskTable.columns = mappingColumns) ∧ s' = s) := by
    rintro name - s s' rfl
    unfold validateMapping loadTableColumns
    simp only [bind_returns, ask_returns, check_returns, Except.ok.injEq]
    constructor
    · rintro ⟨columns, m, ⟨hload, rfl, rfl⟩, -, m', ⟨hddl, -, rfl⟩, hcolumns, rfl⟩
      exact ⟨⟨hload, hddl, not_not.mp hcolumns⟩, rfl⟩
    · rintro ⟨⟨hload, hddl, hcolumns⟩, rfl⟩
      exact ⟨_, s', ⟨hload, rfl, rfl⟩, (), s', ⟨hddl, trivial, rfl⟩, not_not.mpr hcolumns, rfl⟩
  have hfold : ∀ l : List String, l.foldl (fun s _ => s) w = w := by
    intro l
    induction l with
    | nil => rfl
    | cons a l ih => exact ih
  rw [forM_returns (I := (· = w)) (g := fun _ s => s) hturn (fun _ _ _ hs => hs) rfl, hfold]

theorem prepareMappings_returns :
    prepareMappings env job w = (.ok u, w') → w'.tables = withMappings job w.tables ∧
      env.cancel 1 = false ∧ env.createMappingDatabase = .done ∧
        (∀ name ∈ job.mappingNames, env.createMapping name = .done) ∧
        ∀ name ∈ job.mappingNames, env.loadMappingColumns name = none ∧ env.mappingDdl name = none ∧
          ∀ m, w.tables (job.mappingDb, name) = some m → m.columns = mappingColumns := by
  unfold prepareMappings setStep
  simp only [bind_returns, checkCancel_returns, update_returns, execute_returns,
    createMappings_returns, validateMappings_returns]
  rintro ⟨-, w₁, ⟨hlook, rfl⟩, -, w₂, rfl, -, w₃, ⟨hdb, c, hc, rfl⟩, -, w₄, ⟨hcreate, rfl⟩, -, w₅,
    ⟨hvalid, rfl⟩, rfl⟩
  obtain rfl : _ = c := Option.some.inj hc
  refine ⟨rfl, hlook, hdb, hcreate, fun name hname => ?_⟩
  obtain ⟨hload, hddl, hcolumns⟩ := hvalid name hname
  refine ⟨hload, hddl, fun m hm => ?_⟩
  have hmade := withMappings_of_mem (c := w₁.tables) hname
  rw [hm, Option.getD_some] at hmade
  rw [← hcolumns]
  exact congrArg (fun o => o.elim [] MaskTable.columns) hmade.symm

theorem prepareMappings_of (hlook : env.cancel 1 = false) (hdb : env.createMappingDatabase = .done)
    (hcreate : ∀ name ∈ job.mappingNames, env.createMapping name = .done)
    (hvalid : ∀ name ∈ job.mappingNames, env.loadMappingColumns name = none ∧
      env.mappingDdl name = none ∧
        ∀ m, w.tables (job.mappingDb, name) = some m → m.columns = mappingColumns) :
    ∃ w', prepareMappings env job w = (.ok (), w') := by
  unfold prepareMappings setStep
  simp only [bind_returns, checkCancel_returns, update_returns, execute_returns,
    createMappings_returns, validateMappings_returns]
  refine ⟨_, (), _, ⟨hlook, rfl⟩, (), _, rfl, (), _, ⟨hdb, _, rfl, rfl⟩, (), _, ⟨hcreate, rfl⟩, (), _,
    ⟨fun name hname => ?_, rfl⟩, rfl⟩
  obtain ⟨hload, hddl, hcolumns⟩ := hvalid name hname
  refine ⟨hload, hddl, ?_⟩
  have hmade := withMappings_of_mem (c := w.tables) hname
  refine (congrArg (fun o => o.elim [] MaskTable.columns) hmade).trans ?_
  cases hm : w.tables (job.mappingDb, name) with
  | none => rfl
  | some m => exact hcolumns m hm

/-- The mappings are there. -/
structure Mapped (job : MappingJob) (tables : Catalog TableName MaskTable) (w : Sm3World) : Prop where
  before : Before job.mappings tables w
  made : ∀ name ∈ job.mappingNames, w.tables (job.mappingDb, name) ≠ none

theorem insertValues_some {source mapping : TableName} {column : String} (hsource : c source ≠ none)
    (hmapping : c mapping ≠ none) :
    ∃ c', insertValues sm3 source mapping column c = some c' ∧ ∀ name, c name ≠ none → c' name ≠ none := by
  obtain ⟨s, hs⟩ := Option.ne_none_iff_exists'.mp hsource
  obtain ⟨m, hm⟩ := Option.ne_none_iff_exists'.mp hmapping
  unfold insertValues
  rw [hs, Option.bind_some, alter_eq hm]
  refine ⟨_, rfl, fun name hname => ?_⟩
  by_cases h : name = mapping
  · rw [h, Function.update_self]
    exact nofun
  · rwa [Function.update_of_ne h]

theorem columnMappings_returns :
    (∃ l, columnMappings job = .ok l) ↔ ∀ c ∈ job.hashedColumns, job.mappingTables.lookup c ≠ none := by
  constructor
  · rintro ⟨l, hl⟩ column hcolumn hlookup
    obtain ⟨m, -, hm⟩ := (mapM_eq_ok hl).1 column hcolumn
    simp [hlookup] at hm
  · intro h
    refine mapM_returns fun column hcolumn => ?_
    obtain ⟨name, hname⟩ := Option.ne_none_iff_exists'.mp (h column hcolumn)
    exact ⟨(column, name), by rw [hname]⟩

variable {t : MaskTable}

/-- The loop over the columns returns when every statement is answered. -/
theorem insertLoop_returns (hl : ∀ m ∈ l, m.2 ∈ job.mappingNames)
    (hsource : (job.database, job.tableName) ∉ job.mappings)
    (ht : tables (job.database, job.tableName) = some t) (hw : Mapped job tables w) :
    (∃ w', (l.zipIdx.forM fun m => execute (env.insertMapping m.2) (insertValues sm3
      (job.database, job.tableName) (job.mappingDb, m.1.2) m.1.1)) w = (.ok u, w')) ↔
      ∀ m ∈ l.zipIdx, env.insertMapping m.2 = .done := by
  have heffect : ∀ m ∈ l.zipIdx, ∀ w, Mapped job tables w → ∃ c, insertValues sm3
      (job.database, job.tableName) (job.mappingDb, m.1.2) m.1.1 w.tables = some c ∧
        Mapped job tables (w.setTables c) := by
    intro m hm w hw
    have hname : m.1.2 ∈ job.mappingNames := hl m.1 (List.fst_mem_of_mem_zipIdx hm)
    have hthere : w.tables (job.database, job.tableName) ≠ none := by
      rw [hw.before.elsewhere _ hsource, ht]
      exact nofun
    obtain ⟨c, hc, hkept⟩ := insertValues_some hthere (hw.made _ hname)
    refine ⟨c, hc, hw.before.setTables fun other hother => ?_, fun name hmem => hkept _ (hw.made name hmem)⟩
    exact insertValues_ne hc (ne_of_mem_mappings hname hother)
  have hloop : ∀ w', (l.zipIdx.forM fun m => execute (env.insertMapping m.2) (insertValues sm3
      (job.database, job.tableName) (job.mappingDb, m.1.2) m.1.1)) w = (.ok u, w') ↔ _ := fun w' =>
    forM_returns (I := Mapped job tables) (p := fun m => env.insertMapping m.2 = .done)
      (g := fun m w => w.setTables ((insertValues sm3 (job.database, job.tableName)
        (job.mappingDb, m.1.2) m.1.1 w.tables).getD w.tables))
      (fun m hm w w' hw => by
        obtain ⟨c, hc, -⟩ := heffect m hm w hw
        rw [execute_returns, hc]
        simp)
      (fun m hm w hw => by
        obtain ⟨c, hc, hmapped⟩ := heffect m hm w hw
        rw [hc]
        exact hmapped) hw
  simp only [hloop, exists_and_left, exists_eq, and_true]

theorem insertMappings_returns (hsource : (job.database, job.tableName) ∉ job.mappings)
    (ht : tables (job.database, job.tableName) = some t) (hw : Mapped job tables w) :
    (∃ w', insertMappings sm3 env job w = (.ok u, w')) ↔
      env.cancel 2 = false ∧ (∀ c ∈ job.hashedColumns, job.mappingTables.lookup c ≠ none) ∧
        ∀ i < job.hashedColumns.length, env.insertMapping i = .done := by
  have hindex : ∀ l : List (String × String), (∀ m ∈ l.zipIdx, env.insertMapping m.2 = .done) ↔
      ∀ i < l.length, env.insertMapping i = .done := by
    intro l
    constructor
    · intro h i hi
      exact h (l[i], i) (by simp [List.mem_zipIdx_iff_getElem?, hi])
    · intro h m hm
      exact h m.2 (List.snd_lt_of_mem_zipIdx hm)
  rw [← columnMappings_returns]
  unfold insertMappings setStep
  simp only [bind_returns, checkCancel_returns, lift_returns, update_returns]
  constructor
  · rintro ⟨w', -, w₁, ⟨hlook, rfl⟩, l, w₂, ⟨hl, rfl⟩, -, w₃, rfl, u, w₄, hloop, -⟩
    refine ⟨hlook, ⟨l, hl⟩, ?_⟩
    rw [← length_of_mapM hl]
    exact (hindex l).mp ((insertLoop_returns (columnMappings_mem hl) hsource ht
      ⟨hw.before.setStatus _, hw.made⟩).mp ⟨w₄, hloop⟩)
  · rintro ⟨hlook, ⟨l, hl⟩, hdone⟩
    rw [← length_of_mapM hl] at hdone
    obtain ⟨w₄, hloop⟩ := (insertLoop_returns (u := ()) (columnMappings_mem hl) hsource ht
      ⟨hw.before.setStatus _, hw.made⟩).mpr ((hindex l).mpr hdone)
    exact ⟨_, (), w, ⟨hlook, rfl⟩, l, w, ⟨hl, rfl⟩, (), _, rfl, (), w₄, hloop, rfl⟩

theorem prepareMappings_mapped (hw : Before [] tables w) (h : prepareMappings env job w = (.ok u, w')) :
    Mapped job tables w' where
  before := prepareMappings_before.ends_with hw.weaken h
  made name hname := by
    rw [(prepareMappings_returns h).1, withMappings_of_mem hname]
    exact nofun

/-- The preparations return exactly when they pass. -/
theorem prepare_returns (hmode : job.replaceOriginal = true) (hbackup : job.backup = some backup)
    (hsource : (job.database, job.tableName) ∉ job.mappings) (hw : Before [] tables w) {r : ℕ × List String} :
    (∃ w', prepare sm3 env job w = (.ok r, w')) ↔
      ∃ t, Prepared env job backup tables t ∧ r = (t.rows.length, t.columns) := by
  have htables := hw.tables_eq
  unfold prepare
  simp only [bind_returns, pure_returns]
  constructor
  · rintro ⟨w', r', w₁, hcheck, u₁, w₂, hprepare, u₂, w₃, hinsert, rfl, rfl⟩
    obtain ⟨t, ⟨hlook, hconnect, hload, ht, hne, hknown, hexists, hfree, hcount⟩, hrows, hcolumns⟩ :=
      (precheck_returns hmode hbackup).mp ⟨w₁, hcheck⟩
    rw [htables] at ht hfree
    have hw₁ : Before [] tables w₁ := precheck_before.ends_with hw hcheck
    obtain ⟨-, hlook₁, hdb, hcreate, hvalid⟩ := prepareMappings_returns hprepare
    rw [hw₁.tables_eq] at hvalid
    obtain ⟨hlook₂, hcolumn, hdone⟩ := (insertMappings_returns hsource ht
      (prepareMappings_mapped hw₁ hprepare)).mp ⟨w', hinsert⟩
    refine ⟨t, ⟨?_, hconnect, hload, ht, hne, hknown, hexists, hfree, hcount, hdb, hcreate,
      fun name hname => (hvalid name hname).1, fun name hname => (hvalid name hname).2.1,
      fun name hname => (hvalid name hname).2.2, hcolumn, hdone⟩, Prod.ext hrows hcolumns⟩
    intro k hk
    match k, hk with
    | 0, _ => exact hlook
    | 1, _ => exact hlook₁
    | 2, _ => exact hlook₂
  · rintro ⟨t, h, rfl⟩
    obtain ⟨w₁, hcheck⟩ := (precheck_returns hmode hbackup (w := w)).mpr
      ⟨t, ⟨h.look 0 (by omega), h.connect, h.loadTableColumns, htables ▸ h.table, h.columns_ne, h.known,
        h.tableExists, htables ▸ h.free, h.countSource⟩, rfl, rfl⟩
    have hw₁ : Before [] tables w₁ := precheck_before.ends_with hw hcheck
    obtain ⟨w₂, hprepare⟩ := prepareMappings_of (w := w₁) (h.look 1 (by omega)) h.createMappingDatabase
      h.createMapping fun name hname => ⟨h.loadMappingColumns name hname, h.mappingDdl name hname,
        hw₁.tables_eq ▸ h.mappingColumns name hname⟩
    obtain ⟨w₃, hinsert⟩ := (insertMappings_returns (u := ()) hsource h.table
      (prepareMappings_mapped hw₁ hprepare)).mpr ⟨h.look 2 (by omega), h.columnMapping, h.insertMapping⟩
    exact ⟨w₃, _, w₁, hcheck, (), w₂, hprepare, (), w₃, hinsert, rfl, rfl⟩

end

end RecoveryService.DorisSm3Mapping
