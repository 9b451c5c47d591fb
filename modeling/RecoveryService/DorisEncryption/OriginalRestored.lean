import RecoveryService.DorisEncryption.EncryptionTask

/-! # The original table of an encryption task

In the mode `replace_original` the table is renamed to the backup name and created anew; the exception
handler takes the rename back as long as the flags say that the new table was not created.  The rows
are then under their name again if and only if the failure falls before the rename or between it and the
new table, and the way back works (`encryption_restores_iff`).  No run succeeds: the statement that
copies the rows is built with an argument missing. -/

namespace RecoveryService.DorisEncryption

open Checks Program Tables

/-- The request of `create_encryption_task` in the mode `replace_original`. -/
def replaceOriginal (database tableName backup : String) (columns : List String) : EncryptionRequest where
  database := database
  tableName := tableName
  outputTable := tableName
  backupTable := some backup
  encryptedColumns := columns
  tableMode := "replace_original"

/-- The checks before the rename pass; `t` is the table. -/
structure Prechecked (env : EncryptionEnv) (database tableName backup : String) (columns : List String)
    (tables : Catalog TableName DorisTable) (t : DorisTable) : Prop where
  connect : env.connect = none
  loadTableColumns : env.loadTableColumns = none
  table : tables (database, tableName) = some t
  columns_ne : t.columns ≠ []
  known : ∀ c ∈ columns, c ∈ t.columns
  tableExists : env.tableExists = none
  free : tables (database, backup) = none
  countSource : env.countSource = none
  backup_ne : backup ≠ ""

/-- No statement of the task fails. -/
structure EncryptionEnv.Clean (env : EncryptionEnv) : Prop where
  rename : env.rename = .done
  createSql : env.createSql = none
  create : env.create = .done
  insert : env.insert = .done
  countTarget : env.countTarget = none

/-- The condition under which the rows are readable under the name of the table after a failure: the
rename was not carried out; or it was answered and, where the new table was not created, the way back
works; or else there were no rows. -/
def Restorable (env : EncryptionEnv) (t : DorisTable) : Prop :=
  (∃ e, env.rename = .refused e) ∨
  env.rename = .done ∧
    ((env.createSql ≠ none ∨ ∃ e, env.create = .refused e) ∧ env.rollback.Works ∨
      (env.createSql = none ∧ ∀ e, env.create ≠ .refused e) ∧ t.rows = [])

section

variable {encrypt : String → String} {env : EncryptionEnv} {database tableName backup : String}
  {columns : List String} {w : EncryptionWorld}

/-- What the rows of a table are; `none` where there is no table. -/
def rowsOf (tables : Catalog TableName DorisTable) (name : TableName) : Option (List (List String)) :=
  (tables name).map DorisTable.rows

/-- The tables and the flags are as they were. -/
structure SameTables (w w' : EncryptionWorld) : Prop where
  tables : w'.tables = w.tables
  renamed : w'.renamed = w.renamed
  created : w'.created = w.created

theorem setTask_same (f : TaskStatus → TaskStatus) :
    Keeps (SameTables w) (update fun w => w.setTask f : Encryption Unit) :=
  keeps_update (fun _ hs => ⟨hs.tables, hs.renamed, hs.created⟩)

theorem checkNames_same (r : EncryptionRequest) : Keeps (SameTables w) (checkNames env r) := by
  unfold checkNames
  split
  · exact keeps_bind (keeps_query _ _) fun _ => keeps_lift _
  · exact keeps_pure _
  · exact keeps_bind (keeps_query _ _) fun _ => keeps_lift _

theorem precheck_same (r : EncryptionRequest) : Keeps (SameTables w) (precheck env r) := by
  unfold precheck setStep
  exact keeps_bind (setTask_same _) fun _ => keeps_bind (keeps_query _ _) fun _ =>
    keeps_bind (keeps_query _ _) fun _ => keeps_bind (keeps_lift _) fun _ =>
      keeps_bind (keeps_lift _) fun _ => keeps_bind (checkNames_same r) fun _ =>
        keeps_bind (keeps_query _ _) fun _ => keeps_bind (setTask_same _) fun _ =>
          keeps_bind (setTask_same _) fun _ => keeps_pure _

theorem backup_eq (hbackup : backup ≠ "") :
    (replaceOriginal database tableName backup columns).backup = some backup := by
  simp [EncryptionRequest.backup, replaceOriginal, hbackup]

variable {w' : EncryptionWorld}

theorem checkNames_returns (hbackup : backup ≠ "") {u : Unit} :
    checkNames env (replaceOriginal database tableName backup columns) w = (.ok u, w') ↔
      env.tableExists = none ∧ w.tables (database, backup) = none ∧ w' = w := by
  have hr : (replaceOriginal database tableName backup columns).renameOriginal = true := rfl
  unfold checkNames
  rw [backup_eq hbackup, hr]
  simp only [bind_returns, tableExists, query_returns, lift_returns, raiseIf_eq_ok, Except.ok.injEq]
  constructor
  · rintro ⟨taken, m, ⟨hexists, rfl, rfl⟩, hfree, rfl⟩
    exact ⟨hexists, by simpa [replaceOriginal] using hfree, rfl⟩
  · rintro ⟨hexists, hfree, rfl⟩
    exact ⟨_, w', ⟨hexists, rfl, rfl⟩, by simp [replaceOriginal, hfree], rfl⟩

/-- The checks return exactly when they pass. -/
theorem precheck_returns (hbackup : backup ≠ "") {sourceRows : ℕ} {tableColumns : List String} :
    (∃ w', precheck env (replaceOriginal database tableName backup columns) w =
      (.ok (sourceRows, tableColumns), w')) ↔
    ∃ t, Prechecked env database tableName backup columns w.tables t ∧
      sourceRows = t.rows.length ∧ tableColumns = t.columns := by
  unfold precheck setStep loadTableColumns countRows
  simp only [bind_returns, update_returns, query_returns, lift_returns, raiseIf_eq_ok,
    Except.ok.injEq, checkNames_returns hbackup, pure_returns, Prod.mk.injEq]
  constructor
  · rintro ⟨w', -, w₁, rfl, -, w₂, ⟨hconnect, -, rfl⟩, loaded, w₃, ⟨hload, rfl, rfl⟩, -, w₄,
      ⟨hsome, rfl⟩, -, w₅, ⟨hknown, rfl⟩, -, w₆, ⟨hexists, hfree, rfl⟩, n, w₇, ⟨hcount, hn, rfl⟩,
      -, w₈, rfl, -, w₉, rfl, ⟨rfl, rfl⟩, rfl⟩
    cases ht : w.tables (database, tableName) with
    | none => simp [EncryptionWorld.setTask, replaceOriginal, ht] at hsome
    | some t =>
        have hrows : t.rows.length = sourceRows := by
          simpa [EncryptionWorld.setTask, replaceOriginal, ht] using hn
        refine ⟨t, ⟨hconnect, hload, ht, ?_, ?_, hexists, hfree, hcount, hbackup⟩, hrows.symm, ?_⟩
        · simpa [EncryptionWorld.setTask, replaceOriginal, ht] using hsome
        · simpa [EncryptionWorld.setTask, replaceOriginal, ht] using hknown
        · simp [EncryptionWorld.setTask, replaceOriginal, ht]
  · rintro ⟨t, h, rfl, rfl⟩
    refine ⟨_, (), _, rfl, (), _, ⟨h.connect, trivial, rfl⟩, t.columns, _, ⟨h.loadTableColumns, ?_, rfl⟩,
      (), _, ⟨h.columns_ne, rfl⟩, (), _, ⟨?_, rfl⟩, (), _, ⟨h.tableExists, h.free, rfl⟩,
      t.rows.length, _, ⟨h.countSource, ?_, rfl⟩, (), _, rfl, (), _, rfl, ⟨rfl, rfl⟩, rfl⟩
    · simp [EncryptionWorld.setTask, replaceOriginal, h.table]
    · simpa [replaceOriginal] using h.known
    · simp [EncryptionWorld.setTask, replaceOriginal, h.table]

/-! ### Statements -/

section execute

variable {effect : Catalog TableName DorisTable → Option (Catalog TableName DorisTable)}
  {c : Catalog TableName DorisTable}

theorem execute_done (h : effect w.tables = some c) : execute .done effect w = (.ok (), w.setTables c) := by
  simp [execute, h]

@[simp] theorem execute_refused (e : String) : execute (.refused e) effect w = (.error e, w) := rfl

theorem execute_lost (e : String) (h : effect w.tables = some c) :
    execute (.lost e) effect w = (.error e, w.setTables c) := by
  simp [execute, h]

end execute

/-! ### The exception handler -/

variable {r : EncryptionRequest}

theorem rollback_ends (flags : EncryptionWorld) : (rollback env r flags w).1 = .ok () := by
  unfold rollback
  cases r.backup with
  | none => rfl
  | some backup =>
      unfold onlyIf
      split
      · rfl
      · rfl

/-- The handler is the way back, between two changes of the status. -/
theorem failTask_eq (e : String) : ∃ f g : TaskStatus → TaskStatus, (∀ task, (g task).state = .failed) ∧
      (failTask env r e w).2 = (rollback env r (w.setTask f) (w.setTask f)).2.setTask g := by
  refine ⟨fun task => { task with steps := failRunning e task.steps }, fun task => { task with
    state := .failed, message := s!"表 {r.tableName} 加密失败：{e}" }, fun _ => rfl, ?_⟩
  unfold failTask markCurrentStepFailed finishTask
  simp only [bind_apply, update_apply, state_apply]
  have hends : (rollback env r (w.setTask fun task => { task with steps := failRunning e task.steps })
      (w.setTask fun task => { task with steps := failRunning e task.steps })).1 = .ok () :=
    rollback_ends _
  split
  · next heq => rw [heq]
  · next heq => rw [heq] at hends; cases hends

theorem failTask_failed (e : String) : (failTask env r e w).2.task.state = .failed := by
  obtain ⟨f, g, hg, h⟩ := failTask_eq (w := w) (r := r) e
  rw [h]
  exact hg _

/-- Nothing was renamed, or the name of the table is taken: the tables stay as they are. -/
theorem failTask_kept (e : String) (h : w.renamed = false ∨ w.tables (r.database, r.tableName) ≠ none) :
    (failTask env r e w).2.tables = w.tables := by
  obtain ⟨f, g, -, heq⟩ := failTask_eq (w := w) (r := r) e
  rw [heq]
  unfold rollback onlyIf
  cases r.backup with
  | none => rfl
  | some backup =>
      simp only
      split
      · next hflags =>
          have htaken : w.tables (r.database, r.tableName) ≠ none := h.resolve_left fun hr =>
            absurd (hr.symm.trans hflags.1) nofun
          exact rolledBack_taken htaken
      · rfl

/-- Between the rename and the new table, the handler gives the table its name back. -/
theorem failTask_restores {t : DorisTable} (e : String) (hbackup : r.backup = some backup)
    (hrenamed : w.renamed = true) (hcreated : w.created = false)
    (hfree : w.tables (r.database, r.tableName) = none) (hmoved : w.tables (r.database, backup) = some t) :
    (env.rollback.Works → (failTask env r e w).2.tables (r.database, r.tableName) = some t) ∧
      (¬ env.rollback.Works → (failTask env r e w).2.tables (r.database, r.tableName) = none) := by
  obtain ⟨f, g, -, heq⟩ := failTask_eq (w := w) (r := r) e
  have hflags : (w.setTask f).renamed ∧ ¬ (w.setTask f).created :=
    ⟨hrenamed, by rw [show (w.setTask f).created = w.created from rfl, hcreated]; nofun⟩
  rw [heq]
  unfold rollback onlyIf
  rw [hbackup]
  simp only [if_pos hflags]
  exact rolledBack_restores hfree hmoved

/-! ### The run -/

section moveOriginal

variable {t : DorisTable} (hbackup : backup ≠ "")
include hbackup

theorem moveOriginal_refused {e : String} (h : env.rename = .refused e) :
    ∃ w', moveOriginal env (replaceOriginal database tableName backup columns) w = (.error e, w') ∧
      SameTables w w' := by
  have hr : (replaceOriginal database tableName backup columns).renameOriginal = true := rfl
  unfold moveOriginal setStep
  rw [if_pos hr, backup_eq hbackup, h]
  simp only [bind_apply, update_apply, execute_refused]
  exact ⟨_, rfl, rfl, rfl, rfl⟩

variable (hsource : w.tables (database, tableName) = some t) (hfree : w.tables (database, backup) = none)
include hsource hfree

theorem moveOriginal_lost {e : String} (h : env.rename = .lost e) :
    ∃ w', moveOriginal env (replaceOriginal database tableName backup columns) w = (.error e, w') ∧
      w'.tables = movedTables w.tables database tableName backup t ∧ w'.renamed = w.renamed := by
  have hr : (replaceOriginal database tableName backup columns).renameOriginal = true := rfl
  unfold moveOriginal setStep
  rw [if_pos hr, backup_eq hbackup, h]
  simp only [bind_apply, update_apply]
  rw [execute_lost e (by exact rename_eq hsource hfree)]
  exact ⟨_, rfl, rfl, rfl⟩

theorem moveOriginal_done (h : env.rename = .done) :
    ∃ w', moveOriginal env (replaceOriginal database tableName backup columns) w = (.ok backup, w') ∧
      w'.tables = movedTables w.tables database tableName backup t ∧ w'.renamed = true ∧
      w'.created = w.created := by
  have hr : (replaceOriginal database tableName backup columns).renameOriginal = true := rfl
  unfold moveOriginal setStep
  rw [if_pos hr, backup_eq hbackup, h]
  simp only [bind_apply, update_apply]
  rw [execute_done (by exact rename_eq hsource hfree)]
  exact ⟨_, rfl, rfl, rfl, rfl⟩

end moveOriginal

section createTable

variable {r : EncryptionRequest} {t : DorisTable} {source : String} {tableColumns : List String}

/-- The new table is not made: the tables and the flags are as they were. -/
theorem createTable_refused (h : env.createSql ≠ none ∨ ∃ e, env.create = .refused e)
    (hsource : w.tables (r.database, source) = some t) :
    ∃ e w', createTable env r source tableColumns w = (.error e, w') ∧ SameTables w w' := by
  unfold createTable setStep
  cases hsql : env.createSql with
  | some e => exact ⟨e, w, rfl, rfl, rfl, rfl⟩
  | none =>
      obtain ⟨e, he⟩ := h.resolve_left (by simp [hsql])
      simp only [bind_apply, query_none, hsource, Option.isSome_some, if_true, update_apply, he,
        execute_refused]
      exact ⟨e, _, rfl, rfl, rfl, rfl⟩

/-- The new table is made, answered or not. -/
theorem createTable_creates (hsql : env.createSql = none) (hcreate : ∀ e, env.create ≠ .refused e)
    (hsource : w.tables (r.database, source) = some t) (hfree : w.tables (r.database, r.outputTable) = none) :
    ∃ x w', createTable env r source tableColumns w = (x, w') ∧
      w'.tables = Function.update w.tables (r.database, r.outputTable)
        (some { columns := tableColumns, rows := [] }) := by
  have hnew : Tables.create w.tables (r.database, r.outputTable)
    { columns := tableColumns, rows := [] } = _ := create_eq hfree
  unfold createTable setStep
  simp only [bind_apply, hsql, query_none, hsource, Option.isSome_some, if_true, update_apply]
  cases hreply : env.create with
  | refused e => exact absurd hreply (hcreate e)
  | done =>
      rw [execute_done (by exact hnew)]
      exact ⟨.ok (), _, rfl, rfl⟩
  | lost e =>
      rw [execute_lost e (by exact hnew)]
      exact ⟨.error e, _, rfl, rfl⟩

end createTable

variable (encrypt)

/-- The task as `create_encryption_task` starts it on the tables. -/
def encryptionRun (env : EncryptionEnv) (database tableName backup : String) (columns : List String)
    (tables : Catalog TableName DorisTable) : EncryptionWorld :=
  (runEncryptionTask encrypt env (replaceOriginal database tableName backup columns)
    { tables := tables }).2

variable {encrypt} {tables : Catalog TableName DorisTable}

theorem encryptionRun_raises {e : String}
    (h : encryptTable encrypt env (replaceOriginal database tableName backup columns)
      { tables := tables } = (.error e, w')) :
    encryptionRun encrypt env database tableName backup columns tables =
      (failTask env (replaceOriginal database tableName backup columns) e w').2 := by
  unfold encryptionRun runEncryptionTask
  rw [attempt_apply, h]
  rfl

/-- Every run raises, at the latest where the rows would be copied. -/
theorem encryptTable_raises (r : EncryptionRequest) : ∃ e, (encryptTable encrypt env r w).1 = .error e := by
  cases hx : encryptTable encrypt env r w with
  | mk x w' =>
      cases x with
      | error e => exact ⟨e, rfl⟩
      | ok u =>
          unfold encryptTable at hx
          obtain ⟨_, _, -, hx⟩ := bind_returns.mp hx
          obtain ⟨_, _, -, hx⟩ := bind_returns.mp hx
          obtain ⟨_, _, -, hx⟩ := bind_returns.mp hx
          obtain ⟨_, m, hinsert, -⟩ := bind_returns.mp hx
          obtain ⟨_, _, hbuild, -⟩ := bind_returns.mp hinsert
          exact absurd (lift_returns.mp hbuild).1 nofun

theorem encryptionRun_failed :
    (encryptionRun encrypt env database tableName backup columns tables).task.state = .failed := by
  obtain ⟨e, he⟩ := encryptTable_raises (w := { tables := tables })
    (replaceOriginal database tableName backup columns)
  rw [encryptionRun_raises (Prod.ext he rfl)]
  exact failTask_failed e

theorem precheck_kept {x : Except String (ℕ × List String)}
    (h : precheck env (replaceOriginal database tableName backup columns) w = (x, w')) : SameTables w w' := by
  have hkeeps : Keeps (SameTables w) (precheck env (replaceOriginal database tableName backup columns)) :=
    precheck_same _
  have hsame := hkeeps.ends w ⟨rfl, rfl, rfl⟩
  rw [h] at hsame
  cases x <;> exact hsame

/-- Checks that fail leave the tables alone. -/
theorem encryptionRun_unchecked (h : ∀ t, ¬ Prechecked env database tableName backup columns tables t) :
    (encryptionRun encrypt env database tableName backup columns tables).tables = tables := by
  cases hp : precheck env (replaceOriginal database tableName backup columns) { tables := tables } with
  | mk x w' =>
      have hsame := precheck_kept hp
      have hraises : ∃ e, encryptTable encrypt env (replaceOriginal database tableName backup columns)
          { tables := tables } = (.error e, w') := by
        unfold encryptTable
        rw [bind_apply, hp]
        cases x with
        | error e => exact ⟨e, rfl⟩
        | ok a =>
            by_cases hbackup : backup = ""
            · subst hbackup
              exact ⟨_, rfl⟩
            · obtain ⟨t, ht, -⟩ := (precheck_returns hbackup).mp ⟨w', hp⟩
              exact absurd ht (h t)
      obtain ⟨e, he⟩ := hraises
      rw [encryptionRun_raises he, failTask_kept e (Or.inl hsame.renamed), hsame.tables]

section prechecked

variable {t : DorisTable} (h : Prechecked env database tableName backup columns tables t)
include h

theorem Prechecked.backup_ne_table : (database, tableName) ≠ (database, backup) :=
  name_ne_of_free h.table h.free

/-- Checks that pass go on with the rename. -/
theorem Prechecked.encryptTable_eq : ∃ w' : EncryptionWorld, w'.tables = tables ∧
    w'.renamed = false ∧ w'.created = false ∧ encryptTable encrypt env (replaceOriginal database tableName backup columns) { tables := tables } =
      (do
        let sourceTable ← moveOriginal env (replaceOriginal database tableName backup columns)
        createTable env (replaceOriginal database tableName backup columns) sourceTable t.columns
        insertRows encrypt env (replaceOriginal database tableName backup columns) sourceTable
          t.rows.length
        finishTask .succeeded s!"表 {tableName} 加密完成，原表已备份为 {backup}。") w' := by
  obtain ⟨w', hp⟩ := (precheck_returns (w := { tables := tables }) h.backup_ne).mpr ⟨t, h, rfl, rfl⟩
  have hsame := precheck_kept hp
  refine ⟨w', hsame.tables, hsame.renamed, hsame.created, ?_⟩
  unfold encryptTable
  rw [bind_apply, hp]
  have hname : (replaceOriginal database tableName backup columns).backup.getD "" = backup := by
    rw [backup_eq h.backup_ne]
    rfl
  simp only [hname]
  rfl

/-- The rename is refused. -/
theorem encryptionRun_refused {e : String} (hrename : env.rename = .refused e) :
    (encryptionRun encrypt env database tableName backup columns tables).tables = tables := by
  obtain ⟨w₁, htables, hrenamed, -, heq⟩ := h.encryptTable_eq
  obtain ⟨w₂, hmove, hsame⟩ := moveOriginal_refused (w := w₁)
    h.backup_ne hrename
  rw [bind_apply, hmove] at heq
  rw [encryptionRun_raises heq, failTask_kept e (Or.inl (hsame.renamed.trans hrenamed)),
    hsame.tables, htables]

/-- The rename is carried out without an answer: the table stays under the backup name. -/
theorem encryptionRun_lost {e : String} (hrename : env.rename = .lost e) :
    (encryptionRun encrypt env database tableName backup columns tables).tables =
      movedTables tables database tableName backup t := by
  obtain ⟨w₁, htables, hrenamed, -, heq⟩ := h.encryptTable_eq
  obtain ⟨w₂, hmove, hmoved, hkept⟩ := moveOriginal_lost (w := w₁) (t := t)
    h.backup_ne (htables ▸ h.table) (htables ▸ h.free) hrename
  rw [bind_apply, hmove] at heq
  rw [encryptionRun_raises heq, failTask_kept e (Or.inl (hkept.trans hrenamed)), hmoved, htables]

/-- The new table is not made after the rename: the way back decides. -/
theorem encryptionRun_notCreated (hrename : env.rename = .done)
    (hcreate : env.createSql ≠ none ∨ ∃ e, env.create = .refused e) :
    (env.rollback.Works → (encryptionRun encrypt env database tableName backup columns tables).tables
        (database, tableName) = some t) ∧
      (¬ env.rollback.Works → (encryptionRun encrypt env database tableName backup columns tables).tables
        (database, tableName) = none) := by
  obtain ⟨w₁, htables, -, hcreated, heq⟩ := h.encryptTable_eq
  obtain ⟨w₂, hmove, hmoved, hrenamed, hkept⟩ := moveOriginal_done (w := w₁)
    (t := t) h.backup_ne (htables ▸ h.table) (htables ▸ h.free) hrename
  rw [htables] at hmoved
  obtain ⟨e, w₃, hrefused, hsame⟩ : ∃ e w', createTable env
      (replaceOriginal database tableName backup columns) backup t.columns w₂ = (.error e, w') ∧
      SameTables w₂ w' :=
    createTable_refused hcreate (by rw [hmoved]; exact movedTables_backup)
  rw [bind_apply, hmove] at heq
  simp only [bind_apply, hrefused] at heq
  rw [encryptionRun_raises heq]
  exact failTask_restores e (backup_eq h.backup_ne) (hsame.renamed.trans hrenamed)
    (hsame.created.trans (hkept.trans hcreated))
    (by rw [hsame.tables, hmoved]; exact movedTables_original h.backup_ne_table)
    (by rw [hsame.tables, hmoved]; exact movedTables_backup)

/-- The new table is made: it stays, and has no rows. -/
theorem encryptionRun_created (hrename : env.rename = .done) (hsql : env.createSql = none)
    (hcreate : ∀ e, env.create ≠ .refused e) :
    (encryptionRun encrypt env database tableName backup columns tables).tables =
      Function.update (movedTables tables database tableName backup t) (database, tableName)
        (some { columns := t.columns, rows := [] }) := by
  obtain ⟨w₁, htables, -, -, heq⟩ := h.encryptTable_eq
  obtain ⟨w₂, hmove, hmoved, -, -⟩ := moveOriginal_done (w := w₁)
    (t := t) h.backup_ne (htables ▸ h.table) (htables ▸ h.free) hrename
  rw [htables] at hmoved
  obtain ⟨x, w₃, hmade, hnew⟩ : ∃ x w', createTable env
      (replaceOriginal database tableName backup columns) backup t.columns w₂ = (x, w') ∧
      w'.tables = Function.update w₂.tables (database, tableName)
        (some { columns := t.columns, rows := [] }) :=
    createTable_creates hsql hcreate (by rw [hmoved]; exact movedTables_backup)
      (by rw [hmoved]; exact movedTables_original h.backup_ne_table)
  rw [hmoved] at hnew
  have hraises : ∃ e, encryptTable encrypt env (replaceOriginal database tableName backup columns)
      { tables := tables } = (.error e, w₃) := by
    rw [heq, bind_apply, hmove]
    simp only [bind_apply, hmade]
    cases x with
    | error e => exact ⟨e, rfl⟩
    | ok u => exact ⟨_, rfl⟩
  obtain ⟨e, he⟩ := hraises
  rw [encryptionRun_raises he, failTask_kept e (Or.inr ?_), hnew]
  rw [hnew]
  exact Option.ne_none_iff_exists'.mpr ⟨_, Function.update_self _ _ _⟩

end prechecked

/-! ### When the rows are back -/

/-- A failed task leaves the rows of the table readable under its name. -/
def RowsRestored (w' : EncryptionWorld) (tables : Catalog TableName DorisTable) (name : TableName) : Prop :=
  w'.task.state = .failed → rowsOf w'.tables name = rowsOf tables name

/-- The task succeeded: the encrypted table has the name, and the table itself is the backup. -/
structure Replaced (encrypt : String → String) (w' : EncryptionWorld) (database tableName backup : String)
    (columns : List String) (t : DorisTable) : Prop where
  state : w'.task.state = .succeeded
  encrypted : rowsOf w'.tables (database, tableName) =
    some (t.rows.map (encryptRow encrypt t.columns columns))
  kept : w'.tables (database, backup) = some t

theorem rowsRestored_iff_of_prechecked {t : DorisTable}
    (h : Prechecked env database tableName backup columns tables t) :
    rowsOf (encryptionRun encrypt env database tableName backup columns tables).tables
      (database, tableName) = some t.rows ↔ Restorable env t := by
  have hname : rowsOf tables (database, tableName) = some t.rows := by
    rw [rowsOf, h.table]
    rfl
  unfold Restorable
  cases hrename : env.rename with
  | refused e =>
      rw [encryptionRun_refused h hrename]
      simp [hname]
  | lost e =>
      rw [encryptionRun_lost h hrename, rowsOf, movedTables_original h.backup_ne_table]
      simp
  | done =>
      by_cases hcreate : env.createSql ≠ none ∨ ∃ e, env.create = .refused e
      · obtain ⟨hback, hlost⟩ := encryptionRun_notCreated h hrename hcreate
        have hnot : ¬ (env.createSql = none ∧ ∀ e, env.create ≠ .refused e) := by
          rintro ⟨hsql, hno⟩
          rcases hcreate with hc | ⟨e, he⟩
          · exact hc hsql
          · exact hno e he
        by_cases hrolls : env.rollback.Works
        · rw [rowsOf, hback hrolls]
          simpa [hrolls] using Or.inl hcreate
        · rw [rowsOf, hlost hrolls]
          simpa [hrolls] using fun hsql hno => absurd ⟨hsql, hno⟩ hnot
      · have hmade : env.createSql = none ∧ ∀ e, env.create ≠ .refused e := by
          constructor
          · by_contra hsql
            exact hcreate (Or.inl hsql)
          · intro e he
            exact hcreate (Or.inr ⟨e, he⟩)
        rw [encryptionRun_created h hrename hmade.1 hmade.2, rowsOf, Function.update_self]
        simp [hmade.1, hmade.2, eq_comm]

/-- A failed task leaves the rows under the name of the table, and a task without failures replaces the
table, if and only if the checks do not pass, or the way back works where it is needed and something
fails. -/
theorem encryption_restores_iff (encrypt : String → String) (env : EncryptionEnv)
    (database tableName backup : String) (columns : List String) (tables : Catalog TableName DorisTable) :
    (RowsRestored (encryptionRun encrypt env database tableName backup columns tables) tables
        (database, tableName) ∧
      ∀ t, Prechecked env database tableName backup columns tables t → env.Clean →
        Replaced encrypt (encryptionRun encrypt env database tableName backup columns tables)
          database tableName backup columns t) ↔
      ∀ t, Prechecked env database tableName backup columns tables t →
        Restorable env t ∧ ¬ env.Clean := by
  constructor
  · rintro ⟨hrestored, hreplaced⟩ t h
    constructor
    · rw [← rowsRestored_iff_of_prechecked h, hrestored encryptionRun_failed,
        rowsOf, h.table]
      rfl
    · intro hclean
      exact absurd (encryptionRun_failed.symm.trans (hreplaced t h hclean).state) nofun
  · intro hall
    constructor
    · intro _
      by_cases hex : ∃ t, Prechecked env database tableName backup columns tables t
      · obtain ⟨t, h⟩ := hex
        rw [(rowsRestored_iff_of_prechecked h).mpr (hall t h).1, rowsOf, h.table]
        rfl
      · rw [encryptionRun_unchecked (not_exists.mp hex)]
    · intro t h hclean
      exact absurd hclean (hall t h).2

/-- Nothing fails, and the rows of the table are under the name of the backup only. -/
theorem encryption_loses_rows :
    ∃ (encrypt : String → String) (env : EncryptionEnv) (tables : Catalog TableName DorisTable),
      env.Clean ∧ rowsOf tables ("ods", "users") = some [["1"]] ∧
      (encryptionRun encrypt env "ods" "users" "users_bak" ["phone"] tables).task.state = .failed ∧
      rowsOf (encryptionRun encrypt env "ods" "users" "users_bak" ["phone"] tables).tables
        ("ods", "users") = some [] :=
  ⟨id, {}, Function.update (fun _ => none) ("ods", "users")
    (some { columns := ["phone"], rows := [["1"]] }), ⟨rfl, rfl, rfl, rfl, rfl⟩, by decide, by decide,
    by decide⟩

end

end RecoveryService.DorisEncryption
