import RecoveryService.DorisSm3Mapping.Prepared

/-! # The ways an SM3 mapping job ends

The exception handlers, the steps from the rename on, and what each way out leaves of the original
table.  Only one of them takes the rename back: a failure that is not a cancellation, before the new
table was created (`mappingRun_notCreated`). -/

namespace RecoveryService.DorisSm3Mapping

open Checks Program Tables DorisEncryption

section

variable {sm3 : String → String} {env : Sm3Env} {job : MappingJob} {w w' : Sm3World} {u : Unit}
  {backup : String} {t : MaskTable}

/-! ### The exception handlers -/

/-- The tables and the flags are as they were. -/
structure SameTables (w w' : Sm3World) : Prop where
  tables : w'.tables = w.tables
  renamed : w'.renamed = w.renamed
  created : w'.created = w.created

theorem failJob_eq (m : String) : ∃ f g : JobStatus → JobStatus, (∀ s, (g s).state = .failed) ∧
      (failJob env job m w).2 = (rollback env job (w.setStatus f) (w.setStatus f)).2.setStatus g := by
  refine ⟨fun s => { s with steps := failRunning m s.steps }, fun s => { s with
    state := .failed, message := s!"表 {job.tableName} SM3 映射脱敏失败：{m}", error := some m },
    fun _ => rfl, ?_⟩
  have hends : ∀ flags w : Sm3World, ∃ w', rollback env job flags w = (.ok (), w') := by
    intro flags w
    unfold rollback onlyIf
    cases job.backup with
    | none => exact ⟨_, rfl⟩
    | some backup => split <;> exact ⟨_, rfl⟩
  unfold failJob markCurrentStepFailed finishJob
  simp only [bind_apply, update_apply, state_apply]
  obtain ⟨w', hw'⟩ := hends (w.setStatus fun s => { s with steps := failRunning m s.steps })
    (w.setStatus fun s => { s with steps := failRunning m s.steps })
  rw [hw']

/-- A job that raised has not succeeded. -/
theorem handle_state (e : Sm3Exception) :
    (handle env job e w).2.status.state = .failed ∨ (handle env job e w).2.status.state = .cancelled := by
  cases e with
  | cancelled => exact Or.inr rfl
  | error m =>
      unfold handle
      split
      · exact Or.inr rfl
      · obtain ⟨f, g, hg, h⟩ := failJob_eq (w := w) m
        rw [h]
        exact Or.inl (hg _)

/-- Nothing was renamed, or the name of the table is taken: the tables stay as they are. -/
theorem handle_kept (e : Sm3Exception) (h : w.renamed = false ∨ w.tables (job.database, job.tableName) ≠ none) :
    (handle env job e w).2.tables = w.tables := by
  cases e with
  | cancelled => rfl
  | error m =>
      unfold handle
      split
      · rfl
      · obtain ⟨f, g, -, heq⟩ := failJob_eq (w := w) m
        rw [heq]
        unfold rollback onlyIf
        cases job.backup with
        | none => rfl
        | some backup =>
            simp only
            split
            · next hflags =>
                have htaken : w.tables (job.database, job.tableName) ≠ none := h.resolve_left fun hr =>
                  absurd (hr.symm.trans hflags.1) nofun
                exact rolledBack_taken htaken
            · rfl

/-- A cancelled job leaves the tables alone. -/
theorem handle_cancelled (h : env.cancelAfter = true) (m : String) :
    (handle env job (.error m) w).2.tables = w.tables := by
  have hhandle : handle env job (.error m) = finishJob .cancelled "任务已取消。" := if_pos h
  rw [hhandle]
  rfl

/-- Between the rename and the new table, a failure gives the table its name back. -/
theorem handle_restores (m : String) (hbackup : job.backup = some backup)
    (hlook : env.cancelAfter = false) (hrenamed : w.renamed = true) (hcreated : w.created = false)
    (hfree : w.tables (job.database, job.tableName) = none)
    (hmoved : w.tables (job.database, backup) = some t) : (env.rollback.Works →
        (handle env job (.error m) w).2.tables (job.database, job.tableName) = some t) ∧
      (¬ env.rollback.Works →
        (handle env job (.error m) w).2.tables (job.database, job.tableName) = none) := by
  have hhandle : handle env job (.error m) = failJob env job m :=
    if_neg (Bool.eq_false_iff.mp hlook)
  rw [hhandle]
  obtain ⟨f, g, -, heq⟩ := failJob_eq (w := w) m
  have hflags : (w.setStatus f).renamed ∧ ¬ (w.setStatus f).created :=
    ⟨hrenamed, by rw [show (w.setStatus f).created = w.created from rfl, hcreated]; nofun⟩
  rw [heq]
  unfold rollback onlyIf
  rw [hbackup]
  simp only [if_pos hflags]
  exact rolledBack_restores hfree hmoved

/-! ### The rename and the new table -/

section execute

variable {effect : Catalog TableName MaskTable → Option (Catalog TableName MaskTable)}
  {c : Catalog TableName MaskTable}

theorem execute_done (h : effect w.tables = some c) : execute .done effect w = (.ok (), w.setTables c) := by
  simp [execute, Reply.map, h]

@[simp] theorem execute_refused (e : String) : execute (.refused e) effect w = (.error (.error e), w) := rfl

theorem execute_lost (e : String) (h : effect w.tables = some c) :
    execute (.lost e) effect w = (.error (.error e), w.setTables c) := by
  simp [execute, Reply.map, h]

end execute

theorem checkCancel_false {look : ℕ} (h : env.cancel look = false) :
    checkCancel env look w = (.ok (), w) := checkCancel_returns.mpr ⟨h, rfl⟩

theorem checkCancel_true {look : ℕ} (h : env.cancel look = true) :
    checkCancel env look w = (.error .cancelled, w) := by
  unfold checkCancel
  rw [lift_apply, if_pos h]

section moveOriginal

variable (hmode : job.replaceOriginal = true) (hbackup : job.backup = some backup)
include hmode hbackup

theorem moveOriginal_refused (h : env.cancel 3 = true ∨ ∃ e, env.rename = .refused e) :
    ∃ e w', moveOriginal env job w = (.error e, w') ∧ SameTables w w' := by
  unfold moveOriginal setStep
  by_cases hlook : env.cancel 3 = true
  · rw [bind_apply, checkCancel_true hlook]
    exact ⟨_, w, rfl, rfl, rfl, rfl⟩
  · obtain ⟨e, he⟩ := h.resolve_left hlook
    rw [bind_apply, checkCancel_false (Bool.eq_false_iff.mpr hlook), hmode, hbackup, he]
    simp only [bind_apply, update_apply, execute_refused]
    exact ⟨_, _, rfl, rfl, rfl, rfl⟩

variable (hlook : env.cancel 3 = false) (hsource : w.tables (job.database, job.tableName) = some t)
  (hfree : w.tables (job.database, backup) = none)
include hlook hsource hfree

theorem moveOriginal_lost {e : String} (h : env.rename = .lost e) :
    ∃ w', moveOriginal env job w = (.error (.error e), w') ∧
      w'.tables = movedTables w.tables job.database job.tableName backup t ∧ w'.renamed = w.renamed := by
  unfold moveOriginal setStep
  rw [bind_apply, checkCancel_false hlook, hmode, hbackup, h]
  simp only [bind_apply, update_apply]
  rw [execute_lost e (by exact rename_eq hsource hfree)]
  exact ⟨_, rfl, rfl, rfl⟩

theorem moveOriginal_done (h : env.rename = .done) : ∃ w', moveOriginal env job w = (.ok backup, w') ∧
      w'.tables = movedTables w.tables job.database job.tableName backup t ∧ w'.renamed = true ∧
      w'.created = w.created := by
  unfold moveOriginal setStep
  rw [bind_apply, checkCancel_false hlook, hmode, hbackup, h]
  simp only [bind_apply, update_apply]
  rw [execute_done (by exact rename_eq hsource hfree)]
  exact ⟨_, rfl, rfl, rfl, rfl⟩

end moveOriginal

section createMasked

variable {source : String} {tableColumns : List String}

/-- The new table is not made: the tables and the flags are as they were. -/
theorem createMasked_refused (hlook : env.cancel 4 = false)
    (h : env.createSql ≠ none ∨ ∃ e, env.create = .refused e)
    (hsource : w.tables (job.database, source) = some t) :
    ∃ m w', createMasked env job source tableColumns w = (.error (.error m), w') ∧ SameTables w w' := by
  unfold createMasked setStep ask
  rw [bind_apply, checkCancel_false hlook]
  cases hsql : env.createSql with
  | some e => exact ⟨e, w, rfl, rfl, rfl, rfl⟩
  | none =>
      obtain ⟨e, he⟩ := h.resolve_left (by simp [hsql])
      simp only [bind_apply, Option.map_none, query_none, hsource, Option.isSome_some, if_true,
        Except.mapError, update_apply, he, execute_refused]
      exact ⟨e, _, rfl, rfl, rfl, rfl⟩

/-- The new table is made, answered or not. -/
theorem createMasked_creates (hlook : env.cancel 4 = false) (hsql : env.createSql = none)
    (hcreate : ∀ e, env.create ≠ .refused e) (hsource : w.tables (job.database, source) = some t)
    (hfree : w.tables (job.database, job.output) = none) :
    ∃ x w', createMasked env job source tableColumns w = (x, w') ∧ (x = .ok () ↔ env.create = .done) ∧
      w'.tables = Function.update w.tables (job.database, job.output)
        (some { columns := tableColumns, rows := [] }) := by
  have hnew : Tables.create w.tables (job.database, job.output)
    { columns := tableColumns, rows := [] } = _ := create_eq hfree
  unfold createMasked setStep ask
  rw [bind_apply, checkCancel_false hlook]
  simp only [bind_apply, hsql, Option.map_none, query_none, hsource, Option.isSome_some, if_true,
    Except.mapError, update_apply]
  cases hreply : env.create with
  | refused e => exact absurd hreply (hcreate e)
  | done =>
      rw [execute_done (by exact hnew)]
      exact ⟨.ok (), _, rfl, by simp, rfl⟩
  | lost e =>
      rw [execute_lost e (by exact hnew)]
      exact ⟨.error (.error e), _, rfl, by simp, rfl⟩

end createMasked

/-! ### From the new table on -/

/-- The rows are copied, answered or not. -/
def Sm3Env.Filled (env : Sm3Env) : Prop :=
  env.create = .done ∧ env.cancel 5 = false ∧ ∀ e, env.insert ≠ .refused e

/-- The relations are written; `tables` are those before the job. -/
structure RelationsWritten (env : Sm3Env) (job : MappingJob) (tables : Catalog TableName MaskTable) : Prop where
  createRelationDatabase : env.createRelationDatabase = .done
  createRelations : env.createRelations = .done
  deleteRelations : env.deleteRelations = .done
  insertRelations : env.insertRelations = .done
  columns : ∀ f, tables (job.relationDb, job.relationTable) = some f →
    ∀ column ∈ relationColumns, column ∈ f.columns
  hashed_ne : job.hashedColumns ≠ []

/-- Every step from the new table on is carried out and answered. -/
structure Completed (env : Sm3Env) (job : MappingJob) (tables : Catalog TableName MaskTable) : Prop where
  create : env.create = .done
  insert : env.insert = .done
  countTarget : env.countTarget = none
  look : ∀ k, 5 ≤ k → k < 8 → env.cancel k = false
  relations : RelationsWritten env job tables

/-- The relations of the job are in their table. -/
def RelationsStored (env : Sm3Env) (job : MappingJob) (tables : Catalog TableName MaskTable) : Prop :=
  ∃ f, tables (job.relationDb, job.relationTable) = some f ∧
    ∀ c ∈ job.hashedColumns, relationRow env job f.columns c ∈ f.rows

section replaceTable

variable {c : Catalog TableName MaskTable} {source : String} {tableColumns : List String}
  {sourceRows : ℕ}

theorem insertMasked_ends {o : MaskTable} (hsource : w.tables (job.database, source) = some t)
    (hnew : w.tables (job.database, job.output) = some o) :
    ∃ x w', insertMasked sm3 env job source tableColumns w = (x, w') ∧
      (x = .ok () ↔ env.cancel 5 = false ∧ env.insert = .done) ∧
      ((env.cancel 5 = false ∧ ∀ e, env.insert ≠ .refused e) →
        w'.tables = Function.update w.tables (job.database, job.output)
          (some { o with rows := o.rows ++ t.rows.map (maskRow sm3 tableColumns job.hashedColumns) })) ∧
      (¬ (env.cancel 5 = false ∧ ∀ e, env.insert ≠ .refused e) → w'.tables = w.tables) := by
  have hinsert : insertMaskedRows sm3 (job.database, source) (job.database, job.output) tableColumns
      job.hashedColumns w.tables = some (Function.update w.tables (job.database, job.output) (some
        { o with rows := o.rows ++ t.rows.map (maskRow sm3 tableColumns job.hashedColumns) })) := by
    unfold insertMaskedRows
    rw [hsource, Option.bind_some, alter_eq hnew]
  unfold insertMasked setStep
  cases hlook : env.cancel 5 with
  | true =>
      rw [bind_apply, checkCancel_true hlook]
      exact ⟨_, w, rfl, by simp, by simp, fun _ => rfl⟩
  | false =>
      rw [bind_apply, checkCancel_false hlook]
      cases hreply : env.insert with
      | refused e =>
          simp only [bind_apply, update_apply, execute_refused]
          exact ⟨_, _, rfl, by simp, fun h => absurd rfl (h.2 e), fun _ => rfl⟩
      | done =>
          simp only [bind_apply, update_apply]
          rw [execute_done (by exact hinsert)]
          exact ⟨_, _, rfl, by simp, fun _ => rfl, fun h => absurd ⟨trivial, nofun⟩ h⟩
      | lost e =>
          simp only [bind_apply, update_apply]
          rw [execute_lost e (by exact hinsert)]
          exact ⟨_, _, rfl, by simp, fun _ => rfl, fun h => absurd ⟨trivial, nofun⟩ h⟩

theorem compareRows_ends {o : MaskTable} (hnew : w.tables (job.database, job.output) = some o)
    (hrows : o.rows.length = sourceRows) : ∃ x w', compareRows env job sourceRows w = (x, w') ∧
      (x = .ok () ↔ env.cancel 6 = false ∧ env.countTarget = none) ∧ w'.tables = w.tables := by
  unfold compareRows countRows setStep ask
  cases hlook : env.cancel 6 with
  | true =>
      rw [bind_apply, checkCancel_true hlook]
      exact ⟨_, w, rfl, by simp, rfl⟩
  | false =>
      rw [bind_apply, checkCancel_false hlook]
      cases hcount : env.countTarget with
      | some e => exact ⟨_, w, rfl, by simp, rfl⟩
      | none =>
          have hequal : ¬ sourceRows ≠ o.rows.length := not_not.mpr hrows.symm
          simp only [bind_apply, Option.map_none, query_none, hnew, Except.mapError, update_apply, check,
            raiseIf, if_neg hequal, lift_apply]
          exact ⟨_, _, rfl, by simp, rfl⟩

variable {c' : Catalog TableName MaskTable}

theorem deleteRelations_ne {name other : TableName} (h : deleteRelations job name c = some c')
    (hother : other ≠ name) : c' other = c other := by
  obtain ⟨f, -, h⟩ := Option.bind_eq_some_iff.mp h
  split at h
  · obtain rfl := Option.some.inj h
    exact Function.update_of_ne hother _ _
  · cases h

theorem insertRelations_ne {name other : TableName} (h : insertRelations env job name c = some c')
    (hother : other ≠ name) : c' other = c other := by
  obtain ⟨f, -, h⟩ := Option.bind_eq_some_iff.mp h
  split at h
  · obtain rfl := Option.some.inj h
    exact Function.update_of_ne hother _ _
  · cases h

/-- Whatever happens to the relations, the other tables stay. -/
theorem writeRelations_others :
    Keeps (fun w => ∀ name ≠ (job.relationDb, job.relationTable), w.tables name = c name)
      (writeRelations env job) := by
  unfold writeRelations setStep
  refine keeps_bind (keeps_lift _) fun _ => keeps_bind (keeps_update fun _ h => h) fun _ =>
    keeps_bind (keeps_execute _ ?_) fun _ => keeps_bind (keeps_execute _ ?_) fun _ =>
      keeps_bind (keeps_execute _ ?_) fun _ => keeps_bind (keeps_execute _ ?_) fun _ =>
        keeps_update fun _ h => h
  · rintro w c' hw ⟨⟩ name hname
    exact hw name hname
  · rintro w c' hw ⟨⟩ name hname
    exact (createMissing_ne hname).trans (hw name hname)
  · intro w c' hw hc name hname
    exact (deleteRelations_ne hc hname).trans (hw name hname)
  · intro w c' hw hc name hname
    exact (insertRelations_ne hc hname).trans (hw name hname)

variable {name : TableName} {f : MaskTable} {c' : Catalog TableName MaskTable}

theorem deleteRelations_eq_some (hf : c name = some f) : deleteRelations job name c = some c' ↔
      (∀ column ∈ ["source_database", "source_table_name", "algorithm"], column ∈ f.columns) ∧
        c' = Function.update c name
          (some { f with rows := f.rows.filter fun row => ¬ ofTable job f.columns row }) := by
  unfold deleteRelations
  rw [hf, Option.bind_some, Option.ite_none_right_eq_some, Option.some.injEq, eq_comm (b := c')]

theorem insertRelations_eq_some (hf : c name = some f) : insertRelations env job name c = some c' ↔
      (job.hashedColumns ≠ [] ∧ ∀ column ∈ relationColumns, column ∈ f.columns) ∧
        c' = Function.update c name
          (some { f with rows := f.rows ++ job.hashedColumns.map (relationRow env job f.columns) }) := by
  unfold insertRelations
  rw [hf, Option.bind_some, Option.ite_none_right_eq_some, Option.some.injEq, eq_comm (b := c')]

/-- The table of the relations once it is made. -/
def relationsTable (job : MappingJob) (c : Catalog TableName MaskTable) : MaskTable :=
  (c (job.relationDb, job.relationTable)).getD { columns := relationColumns, rows := [] }

theorem relationColumns_iff : (∀ column ∈ relationColumns, column ∈ (relationsTable job c).columns) ↔
      ∀ f, c (job.relationDb, job.relationTable) = some f →
        ∀ column ∈ relationColumns, column ∈ f.columns := by
  unfold relationsTable
  cases c (job.relationDb, job.relationTable) with
  | none | some f => simp

theorem deleteColumns_of (h : ∀ column ∈ relationColumns, column ∈ f.columns) :
    ∀ column ∈ ["source_database", "source_table_name", "algorithm"], column ∈ f.columns := by
  intro column hcolumn
  refine h column ?_
  simp only [List.mem_cons, List.not_mem_nil, or_false] at hcolumn
  rcases hcolumn with rfl | rfl | rfl <;> decide

/-- Relations that are written are there, and fit their table. -/
theorem writeRelations_returns (h : writeRelations env job w = (.ok u, w')) :
    env.cancel 7 = false ∧ RelationsWritten env job w.tables ∧ RelationsStored env job w'.tables := by
  unfold writeRelations setStep at h
  simp only [bind_returns, checkCancel_returns, update_returns, execute_returns] at h
  obtain ⟨-, w₀, ⟨hlook, rfl⟩, -, w₁, rfl, -, w₂, ⟨hdb, c₀, hc₀, rfl⟩, -, w₃, ⟨htable, c₁, hc₁, rfl⟩, -,
    w₄, ⟨hdelete, c₂, hc₂, rfl⟩, -, w₅, ⟨hinsert, c₃, hc₃, rfl⟩, rfl⟩ := h
  obtain rfl := Option.some.inj hc₀
  obtain rfl := Option.some.inj hc₁
  have hmade : createMissing (job.relationDb, job.relationTable) relationColumns w₀.tables
      (job.relationDb, job.relationTable) = some (relationsTable job w₀.tables) := createMissing_self
  obtain ⟨-, rfl⟩ := (deleteRelations_eq_some hmade).mp hc₂
  obtain ⟨⟨hhashed, hcolumns⟩, rfl⟩ := (insertRelations_eq_some (Function.update_self _ _ _)).mp hc₃
  refine ⟨hlook, ⟨hdb, htable, hdelete, hinsert, relationColumns_iff.mp hcolumns, hhashed⟩,
    _, Function.update_self _ _ _, fun column hcolumn => ?_⟩
  exact List.mem_append_right _ (List.mem_map_of_mem hcolumn)

theorem writeRelations_of (hlook : env.cancel 7 = false) (h : RelationsWritten env job w.tables) :
    ∃ w', writeRelations env job w = (.ok (), w') := by
  have hmade : createMissing (job.relationDb, job.relationTable) relationColumns w.tables
      (job.relationDb, job.relationTable) = some (relationsTable job w.tables) := createMissing_self
  have hcolumns := relationColumns_iff.mpr h.columns
  unfold writeRelations setStep
  simp only [bind_returns, checkCancel_returns, update_returns, execute_returns]
  exact ⟨_, (), w, ⟨hlook, rfl⟩, (), _, rfl, (), _, ⟨h.createRelationDatabase, _, rfl, rfl⟩, (), _,
    ⟨h.createRelations, _, rfl, rfl⟩, (), _,
    ⟨h.deleteRelations, _, (deleteRelations_eq_some hmade).mpr ⟨deleteColumns_of hcolumns, rfl⟩, rfl⟩,
    (), _, ⟨h.insertRelations, _, (insertRelations_eq_some (Function.update_self _ _ _)).mpr
      ⟨⟨h.hashed_ne, hcolumns⟩, rfl⟩, rfl⟩, rfl⟩

theorem RelationsWritten.congr (h : RelationsWritten env job c)
    (heq : c' (job.relationDb, job.relationTable) = c (job.relationDb, job.relationTable)) :
    RelationsWritten env job c' :=
  { h with columns := heq ▸ h.columns }

/-- What the steps from the new table on leave: the new table with the masked rows or none, and the
original under the backup name. -/
structure Replaced (sm3 : String → String) (env : Sm3Env) (job : MappingJob) (backup : String)
    (t : MaskTable) (c : Catalog TableName MaskTable) : Prop where
  kept : c (job.database, backup) = some t
  made : ∃ m, c (job.database, job.tableName) = some m ∧
    (env.Filled → m.rows = t.rows.map (maskRow sm3 t.columns job.hashedColumns)) ∧
    (¬ env.Filled → m.rows = [])

theorem Replaced.of_others (h : Replaced sm3 env job backup t c)
    (hbackup : c' (job.database, backup) = c (job.database, backup))
    (hname : c' (job.database, job.tableName) = c (job.database, job.tableName)) :
    Replaced sm3 env job backup t c' := ⟨hbackup ▸ h.kept, hname ▸ h.made⟩

theorem replaceTable_ends (hout : job.output = job.tableName) (hlook : env.cancel 4 = false)
    (hsql : env.createSql = none) (hcreate : ∀ e, env.create ≠ .refused e)
    (hfree : w.tables (job.database, job.tableName) = none) (hmoved : w.tables (job.database, backup) = some t)
    (hname : (job.relationDb, job.relationTable) ≠ (job.database, job.tableName))
    (hbackup : (job.relationDb, job.relationTable) ≠ (job.database, backup)) :
    ∃ x w', replaceTable sm3 env job backup t.rows.length t.columns w = (x, w') ∧
      Replaced sm3 env job backup t w'.tables ∧ (x = .ok () ↔ Completed env job w.tables) ∧
      (x = .ok () → RelationsStored env job w'.tables) := by
  have hne : (job.database, backup) ≠ (job.database, job.tableName) := name_ne_of_free hmoved hfree
  obtain ⟨x₁, w₁, hmade, hx₁, ht₁⟩ := createMasked_creates hlook hsql hcreate
    hmoved (hout.symm ▸ hfree)
  rw [hout] at ht₁
  have hkept₁ : w₁.tables (job.database, backup) = some t := by
    rw [ht₁, Function.update_of_ne hne, hmoved]
  have hnew₁ : w₁.tables (job.database, job.tableName) = some { columns := t.columns, rows := [] } := by
    rw [ht₁, Function.update_self]
  unfold replaceTable
  rw [bind_apply, hmade]
  cases x₁ with
  | error e =>
      have hnot : ¬ env.create = .done := fun h => absurd (hx₁.mpr h) nofun
      refine ⟨_, w₁, rfl, ⟨hkept₁, _, hnew₁, fun h => absurd h.1 hnot, fun _ => rfl⟩, ?_, nofun⟩
      exact ⟨nofun, fun h => absurd h.create hnot⟩
  | ok u₁ =>
      have hdone : env.create = .done := hx₁.mp rfl
      obtain ⟨x₂, w₂, hinsert, hx₂, hcopied, hnone⟩ := insertMasked_ends
        hkept₁ (hout.symm ▸ hnew₁)
      rw [hout] at hcopied
      have hreplaced : Replaced sm3 env job backup t w₂.tables := by
        by_cases hfilled : env.cancel 5 = false ∧ ∀ e, env.insert ≠ .refused e
        · have ht₂ := hcopied hfilled
          refine ⟨by rw [ht₂, Function.update_of_ne hne, hkept₁], _,
            by rw [ht₂, Function.update_self], fun _ => List.nil_append _, fun h => ?_⟩
          exact absurd ⟨hdone, hfilled⟩ h
        · have ht₂ := hnone hfilled
          refine ⟨ht₂ ▸ hkept₁, _, ht₂ ▸ hnew₁, fun h => absurd h.2 hfilled, fun _ => rfl⟩
      simp only [bind_apply, hinsert]
      cases x₂ with
      | error e =>
          refine ⟨_, w₂, rfl, hreplaced, ⟨nofun, fun h => ?_⟩, nofun⟩
          exact absurd (hx₂.mpr ⟨h.look 5 (by omega) (by omega), h.insert⟩) nofun
      | ok u₂ =>
          obtain ⟨hlook₅, hinserted⟩ := hx₂.mp rfl
          have hfilled : env.Filled := ⟨hdone, hlook₅, fun e he => by rw [hinserted] at he; cases he⟩
          obtain ⟨m, hm, hrows, -⟩ := hreplaced.made
          have hlength : m.rows.length = t.rows.length := by rw [hrows hfilled, List.length_map]
          obtain ⟨x₃, w₃, hcompare, hx₃, ht₃⟩ : ∃ x w', compareRows env job t.rows.length w₂ = (x, w') ∧
              (x = .ok () ↔ env.cancel 6 = false ∧ env.countTarget = none) ∧ w'.tables = w₂.tables :=
            compareRows_ends (hout.symm ▸ hm) hlength
          simp only [hcompare]
          cases x₃ with
          | error e =>
              refine ⟨_, w₃, rfl, ht₃ ▸ hreplaced, ⟨nofun, fun h => ?_⟩, nofun⟩
              exact absurd (hx₃.mpr ⟨h.look 6 (by omega) (by omega), h.countTarget⟩) nofun
          | ok u₃ =>
              obtain ⟨hlook₆, hcounted⟩ := hx₃.mp rfl
              have hrelations : w₃.tables (job.relationDb, job.relationTable) =
                  w.tables (job.relationDb, job.relationTable) := by
                rw [ht₃, hcopied hfilled.2, Function.update_of_ne hname, ht₁, Function.update_of_ne hname]
              cases hwrite : writeRelations env job w₃ with
              | mk x w₄ =>
                  have hothers := (writeRelations_others (c := w₃.tables)).ends_with (fun _ _ => rfl) hwrite
                  refine ⟨x, w₄, hwrite, (ht₃ ▸ hreplaced).of_others (hothers _ hbackup.symm)
                    (hothers _ hname.symm), ⟨?_, fun h => ?_⟩, ?_⟩
                  · rintro rfl
                    obtain ⟨hlook₇, hwritten, -⟩ := writeRelations_returns hwrite
                    refine ⟨hdone, hinserted, hcounted, fun k hk hk' => ?_,
                      hwritten.congr hrelations.symm⟩
                    obtain rfl | rfl | rfl : k = 5 ∨ k = 6 ∨ k = 7 := by omega
                    · exact hlook₅
                    · exact hlook₆
                    · exact hlook₇
                  · obtain ⟨w₅, hdone₅⟩ := writeRelations_of (w := w₃) (h.look 7 (by omega) (by omega))
                      (h.relations.congr hrelations)
                    rw [hdone₅] at hwrite
                    exact (congrArg Prod.fst hwrite).symm
                  · rintro rfl
                    exact (writeRelations_returns hwrite).2.2

end replaceTable

/-! ### The run -/

/-- The tables of the job are different ones. -/
structure Separate (job : MappingJob) (backup : String) : Prop where
  source : (job.database, job.tableName) ∉ job.mappings
  moved : (job.database, backup) ∉ job.mappings
  relations : (job.relationDb, job.relationTable) ∉ job.mappings
  relations_source : (job.relationDb, job.relationTable) ≠ (job.database, job.tableName)
  relations_moved : (job.relationDb, job.relationTable) ≠ (job.database, backup)

/-- The job is started at all. -/
def Sm3Env.Starts (env : Sm3Env) : Prop := env.cancelRequested = false ∧ env.profile = true

variable {tables : Catalog TableName MaskTable}

/-- The run of a job on the tables. -/
def mappingRun (sm3 : String → String) (env : Sm3Env) (job : MappingJob)
    (tables : Catalog TableName MaskTable) : Sm3World :=
  (runSm3MappingJob sm3 env job { tables := tables }).2

/-- The world behind `_start_job`. -/
def started (tables : Catalog TableName MaskTable) : Sm3World :=
  (startJob { tables := tables }).2

theorem started_before : Before [] tables (started tables) := ⟨fun _ _ => rfl, rfl, rfl⟩

theorem mappingRun_unstarted (h : ¬ env.Starts) : (mappingRun sm3 env job tables).tables = tables ∧
      (mappingRun sm3 env job tables).status.state ≠ .succeeded := by
  unfold mappingRun runSm3MappingJob
  by_cases hcancel : env.cancelRequested = true
  · rw [if_pos hcancel]
    exact ⟨rfl, nofun⟩
  · rw [if_neg hcancel]
    by_cases hprofile : env.profile = false
    · rw [if_pos hprofile]
      exact ⟨rfl, nofun⟩
    · exact absurd ⟨Bool.eq_false_iff.mpr hcancel, Bool.eq_true_of_not_eq_false hprofile⟩ h

theorem mappingRun_started (h : env.Starts) : mappingRun sm3 env job tables =
      (attempt (maskTable sm3 env job) (fun e => some (handle env job e)) (started tables)).2 := by
  have hcancel : ¬ env.cancelRequested = true := Bool.eq_false_iff.mp h.1
  have hprofile : ¬ env.profile = false := by
    rw [h.2]
    exact nofun
  unfold mappingRun runSm3MappingJob
  rw [if_neg hcancel, if_neg hprofile]
  rfl

theorem mappingRun_raises (h : env.Starts) {e : Sm3Exception}
    (hraises : maskTable sm3 env job (started tables) = (.error e, w')) :
    mappingRun sm3 env job tables = (handle env job e w').2 := by
  rw [mappingRun_started h, attempt_apply, hraises]
  rfl

theorem mappingRun_returns (h : env.Starts) (hreturns : maskTable sm3 env job (started tables) = (.ok u, w')) :
    mappingRun sm3 env job tables = w' := by
  rw [mappingRun_started h, attempt_apply, hreturns]

theorem handle_ne_succeeded (e : Sm3Exception) : (handle env job e w).2.status.state ≠ .succeeded := by
  rcases handle_state (w := w) e with h | h
  · rw [h]
    exact nofun
  · rw [h]
    exact nofun

section steps

variable (hmode : job.replaceOriginal = true) (hbackup : job.backup = some backup)
  (hsep : Separate job backup)
include hmode hbackup hsep

/-- Preparations that fail leave the table alone. -/
theorem mappingRun_unprepared (hstarts : env.Starts) (h : ∀ t, ¬ Prepared env job backup tables t) :
    (mappingRun sm3 env job tables).tables (job.database, job.tableName) =
        tables (job.database, job.tableName) ∧
      (mappingRun sm3 env job tables).status.state ≠ .succeeded := by
  cases hp : prepare sm3 env job (started tables) with
  | mk x w' =>
      have hbefore := prepare_before.ends_with started_before.weaken hp
      cases x with
      | ok r =>
          obtain ⟨t, ht, -⟩ := (prepare_returns hmode hbackup hsep.source started_before).mp ⟨w', hp⟩
          exact absurd ht (h t)
      | error e =>
          have hraises : maskTable sm3 env job (started tables) = (.error e, w') := by
            unfold maskTable
            rw [bind_apply, hp]
          rw [mappingRun_raises hstarts hraises, handle_kept e (Or.inl hbefore.renamed)]
          exact ⟨hbefore.elsewhere _ hsep.source, handle_ne_succeeded e⟩

variable {t : MaskTable} (h : Prepared env job backup tables t)
include h

/-- Preparations that pass go on with the rename. -/
theorem maskTable_prepared : ∃ w₁, Before job.mappings tables w₁ ∧
    w₁.tables (job.database, job.tableName) = some t ∧ w₁.tables (job.database, backup) = none ∧
    maskTable sm3 env job (started tables) = (do
      let sourceTable ← moveOriginal env job
      replaceTable sm3 env job sourceTable t.rows.length t.columns
      finishJob .succeeded
        s!"表 {job.tableName} SM3 映射脱敏完成，原表已备份为 {shown job.backupTableName}。") w₁ := by
  obtain ⟨w₁, hp⟩ := (prepare_returns hmode hbackup hsep.source started_before).mpr
    ⟨t, h, rfl⟩
  have hbefore := prepare_before.ends_with started_before.weaken hp
  refine ⟨w₁, hbefore, (hbefore.elsewhere _ hsep.source).trans h.table,
    (hbefore.elsewhere _ hsep.moved).trans h.free, ?_⟩
  unfold maskTable
  rw [bind_apply, hp]
  simp only [hmode, if_true]

variable (hstarts : env.Starts)
include hstarts

/-- The rename is not carried out. -/
theorem mappingRun_notMoved (hmove : env.cancel 3 = true ∨ ∃ e, env.rename = .refused e) :
    (mappingRun sm3 env job tables).tables (job.database, job.tableName) = some t ∧
      (mappingRun sm3 env job tables).status.state ≠ .succeeded := by
  obtain ⟨w₁, hbefore, hsource, -, heq⟩ := maskTable_prepared hmode hbackup hsep h
  obtain ⟨e, w₂, hmoved, hsame⟩ := moveOriginal_refused (w := w₁) hmode hbackup hmove
  rw [bind_apply, hmoved] at heq
  rw [mappingRun_raises hstarts heq, handle_kept e (Or.inl (hsame.renamed.trans hbefore.renamed)),
    hsame.tables]
  exact ⟨hsource, handle_ne_succeeded e⟩

/-- The rename is carried out without an answer. -/
theorem mappingRun_lost (hlook : env.cancel 3 = false) {m : String} (hrename : env.rename = .lost m) :
    (mappingRun sm3 env job tables).tables (job.database, job.tableName) = none ∧
      (mappingRun sm3 env job tables).status.state ≠ .succeeded := by
  obtain ⟨w₁, hbefore, hsource, hfree, heq⟩ := maskTable_prepared hmode hbackup hsep h
  obtain ⟨w₂, hmoved, htables, hkept⟩ := moveOriginal_lost hmode hbackup hlook hsource hfree hrename
  rw [bind_apply, hmoved] at heq
  rw [mappingRun_raises hstarts heq, handle_kept _ (Or.inl (hkept.trans hbefore.renamed)), htables]
  exact ⟨movedTables_original (name_ne_of_free hsource hfree), handle_ne_succeeded _⟩

section moved

variable (hlook : env.cancel 3 = false) (hrename : env.rename = .done)
include hlook hrename

omit hstarts in
/-- Where the original was moved, the run goes on with the new table. -/
theorem maskTable_moved : ∃ w₂, w₂.renamed = true ∧ w₂.created = false ∧
    w₂.tables (job.database, job.tableName) = none ∧ w₂.tables (job.database, backup) = some t ∧
    (∀ name ∉ job.mappings, name ≠ (job.database, job.tableName) → name ≠ (job.database, backup) →
      w₂.tables name = tables name) ∧
    maskTable sm3 env job (started tables) = (do
      replaceTable sm3 env job backup t.rows.length t.columns
      finishJob .succeeded
        s!"表 {job.tableName} SM3 映射脱敏完成，原表已备份为 {shown job.backupTableName}。") w₂ := by
  obtain ⟨w₁, hbefore, hsource, hfree, heq⟩ := maskTable_prepared hmode hbackup hsep h
  obtain ⟨w₂, hmoved, htables, hrenamed, hcreated⟩ :=
    moveOriginal_done hmode hbackup hlook hsource hfree hrename
  rw [bind_apply, hmoved] at heq
  refine ⟨w₂, hrenamed, hcreated.trans hbefore.created, ?_, ?_, fun name hname h₁ h₂ => ?_, heq⟩
  · rw [htables, movedTables_original (name_ne_of_free hsource hfree)]
  · rw [htables, movedTables_backup]
  · rw [htables, movedTables, Function.update_of_ne h₂, Function.update_of_ne h₁]
    exact hbefore.elsewhere name hname

/-- Cancelled right behind the rename. -/
theorem mappingRun_cancelled (hlook₄ : env.cancel 4 = true) :
    (mappingRun sm3 env job tables).tables (job.database, job.tableName) = none ∧
      (mappingRun sm3 env job tables).status.state ≠ .succeeded := by
  obtain ⟨w₂, -, -, hfree, -, -, heq⟩ :=
    maskTable_moved hmode hbackup hsep h hlook hrename
  have hraises : maskTable sm3 env job (started tables) = (.error .cancelled, w₂) := by
    rw [heq]
    unfold replaceTable createMasked
    simp only [bind_apply, checkCancel_true hlook₄]
  rw [mappingRun_raises hstarts hraises]
  exact ⟨hfree, nofun⟩

/-- The new table is not made. -/
theorem mappingRun_notCreated (hlook₄ : env.cancel 4 = false)
    (hcreate : env.createSql ≠ none ∨ ∃ e, env.create = .refused e) :
    (env.cancelAfter = false ∧ env.rollback.Works →
        (mappingRun sm3 env job tables).tables (job.database, job.tableName) = some t) ∧
      (¬ (env.cancelAfter = false ∧ env.rollback.Works) →
        (mappingRun sm3 env job tables).tables (job.database, job.tableName) = none) ∧
      (mappingRun sm3 env job tables).status.state ≠ .succeeded := by
  obtain ⟨w₂, hrenamed, hcreated, hfree, hmoved, -, heq⟩ :=
    maskTable_moved hmode hbackup hsep h hlook hrename
  obtain ⟨m, w₃, hrefused, hsame⟩ : ∃ m w', createMasked env job backup t.columns w₂ =
      (.error (.error m), w') ∧ SameTables w₂ w' := createMasked_refused hlook₄ hcreate hmoved
  have hraises : maskTable sm3 env job (started tables) = (.error (.error m), w₃) := by
    rw [heq]
    unfold replaceTable
    simp only [bind_apply, hrefused]
  rw [mappingRun_raises hstarts hraises]
  refine ⟨?_, ?_, handle_ne_succeeded _⟩
  · rintro ⟨hafter, hworks⟩
    exact (handle_restores m hbackup hafter (hsame.renamed.trans hrenamed) (hsame.created.trans hcreated)
      (hsame.tables ▸ hfree) (hsame.tables ▸ hmoved)).1 hworks
  · intro hnot
    cases hafter : env.cancelAfter with
    | true => rw [handle_cancelled hafter, hsame.tables, hfree]
    | false =>
        exact (handle_restores m hbackup hafter (hsame.renamed.trans hrenamed)
          (hsame.created.trans hcreated) (hsame.tables ▸ hfree) (hsame.tables ▸ hmoved)).2
            fun hworks => hnot ⟨hafter, hworks⟩

/-- The new table is made. -/
theorem mappingRun_created (hout : job.output = job.tableName) (hlook₄ : env.cancel 4 = false)
    (hsql : env.createSql = none) (hcreate : ∀ e, env.create ≠ .refused e) :
    Replaced sm3 env job backup t (mappingRun sm3 env job tables).tables ∧
      ((mappingRun sm3 env job tables).status.state = .succeeded ↔ Completed env job tables) ∧
      ((mappingRun sm3 env job tables).status.state = .succeeded →
        RelationsStored env job (mappingRun sm3 env job tables).tables) := by
  obtain ⟨w₂, -, -, hfree, hmoved, helse, heq⟩ :=
    maskTable_moved hmode hbackup hsep h hlook hrename
  obtain ⟨x, w₃, hends, hreplaced, hcompleted, hstored⟩ := replaceTable_ends hout hlook₄ hsql
    hcreate hfree hmoved hsep.relations_source hsep.relations_moved
  have hrel := helse _ hsep.relations hsep.relations_source hsep.relations_moved
  have hcompleted' : x = .ok () ↔ Completed env job tables := by
    rw [hcompleted]
    exact ⟨fun hc => { hc with relations := hc.relations.congr hrel.symm },
      fun hc => { hc with relations := hc.relations.congr hrel }⟩
  cases x with
  | error e =>
      have hraises : maskTable sm3 env job (started tables) = (.error e, w₃) := by
        rw [heq, bind_apply, hends]
      obtain ⟨m, hm, -⟩ := hreplaced.made
      have htaken : w₃.tables (job.database, job.tableName) ≠ none := by
        rw [hm]
        exact nofun
      rw [mappingRun_raises hstarts hraises, handle_kept e (Or.inr htaken)]
      exact ⟨hreplaced, ⟨fun hs => absurd hs (handle_ne_succeeded e),
        fun hc => absurd (hcompleted'.mpr hc) nofun⟩, fun hs => absurd hs (handle_ne_succeeded e)⟩
  | ok u =>
      have hreturns : ∃ w', maskTable sm3 env job (started tables) = (.ok (), w') ∧
          w'.tables = w₃.tables ∧ w'.status.state = .succeeded := by
        rw [heq, bind_apply, hends]
        exact ⟨_, rfl, rfl, rfl⟩
      obtain ⟨w', hreturns, htables, hstate⟩ := hreturns
      rw [mappingRun_returns hstarts hreturns, htables]
      exact ⟨hreplaced, ⟨fun _ => hcompleted'.mp rfl, fun _ => hstate⟩, fun _ => hstored rfl⟩

end moved

end steps

end

end RecoveryService.DorisSm3Mapping
