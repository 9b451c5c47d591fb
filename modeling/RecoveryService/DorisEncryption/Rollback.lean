import RecoveryService.Lib.Statements

/-! # Taking a rename back

`_try_rollback_rename`, which `services/doris_encryption.py` and `services/doris_sm3_mapping.py` have in
the same words, and the tables between the rename of the original and the new table. -/

namespace RecoveryService.DorisEncryption

open Program Tables

/-- Database and name of a table. -/
abbrev TableName := String × String

/-- What comes back for the statements of the way back. -/
structure RollbackEnv where
  connect : Option String := none
  tableExists : Option String := none
  backupExists : Option String := none
  rename : Reply String := .done

/-- Every statement of the way back is carried out. -/
structure RollbackEnv.Works (env : RollbackEnv) : Prop where
  connect : env.connect = none
  tableExists : env.tableExists = none
  backupExists : env.backupExists = none
  rename : ∀ e, env.rename ≠ .refused e

section

variable {T : Type} (env : RollbackEnv) (database tableName backup : String)

/-- `_table_exists`. -/
def nameTaken (failure : Option String) (table : String) : Program (Catalog TableName T) String Bool :=
  query failure fun c => .ok (c (database, table)).isSome

/-- `_try_rollback_rename`: an exception ends it. -/
def tryRollbackRename : Program (Catalog TableName T) String Unit :=
  attempt (do
    query env.connect fun _ => .ok ()
    let original ← nameTaken database env.tableExists tableName
    onlyIf (original = false) do
      let moved ← nameTaken database env.backupExists backup
      onlyIf (moved = true)
        (submit env.rename "Doris rejected the statement." fun c =>
          Tables.rename c (database, backup) (database, tableName)))
    fun _ => some (pure ())

/-- The tables after the way back. -/
def rolledBack (c : Catalog TableName T) : Catalog TableName T :=
  (tryRollbackRename env database tableName backup c).2

end

variable {T : Type} {env : RollbackEnv} {database tableName backup : String}
  {c : Catalog TableName T} {t : T}

/-- The original name is taken: nothing is renamed. -/
theorem rolledBack_taken (h : c (database, tableName) ≠ none) :
    rolledBack env database tableName backup c = c := by
  obtain ⟨t, ht⟩ := Option.ne_none_iff_exists'.mp h
  unfold rolledBack tryRollbackRename nameTaken
  rw [attempt_apply]
  simp only [bind_apply]
  cases env.connect with
  | some e => rfl
  | none =>
      cases env.tableExists with
      | some e => rfl
      | none => simp [ht, onlyIf]

/-- The table gets its name back exactly when every statement of the way back is carried out. -/
theorem rolledBack_restores (hfree : c (database, tableName) = none) (hmoved : c (database, backup) = some t) :
    (env.Works → rolledBack env database tableName backup c (database, tableName) = some t) ∧
      (¬ env.Works → rolledBack env database tableName backup c (database, tableName) = none) := by
  have hback := rename_eq hmoved hfree
  unfold rolledBack tryRollbackRename nameTaken
  constructor
  · rintro ⟨h₁, h₂, h₃, hrename⟩
    cases hreply : env.rename with
    | refused e => exact absurd hreply (hrename e)
    | done | lost e => simp [attempt_apply, bind_apply, h₁, h₂, h₃, hfree, hmoved, onlyIf, hback]
  · intro h
    rw [attempt_apply]
    cases h₁ : env.connect with
    | some e => exact hfree
    | none =>
        cases h₂ : env.tableExists with
        | some e => exact hfree
        | none =>
            cases h₃ : env.backupExists with
            | some e => simp [hfree, onlyIf, bind_apply]
            | none =>
                cases hreply : env.rename with
                | refused e => simp [hfree, hmoved, onlyIf, bind_apply]
                | done | lost e => exact absurd ⟨h₁, h₂, h₃, by simp [hreply]⟩ h

/-! ### The original under the backup name -/

/-- The tables after the rename of the original. -/
def movedTables (c : Catalog TableName T) (database tableName backup : String) (t : T) : Catalog TableName T :=
  Function.update (Function.update c (database, tableName) none) (database, backup) (some t)

theorem name_ne_of_free {a b : TableName} (ha : c a = some t) (hb : c b = none) : a ≠ b := by
  intro h
  rw [h, hb] at ha
  exact absurd ha nofun

theorem movedTables_original (h : (database, tableName) ≠ (database, backup)) :
    movedTables c database tableName backup t (database, tableName) = none := by
  unfold movedTables
  rw [Function.update_of_ne h, Function.update_self]

theorem movedTables_backup : movedTables c database tableName backup t (database, backup) = some t :=
  Function.update_self _ _ _

end RecoveryService.DorisEncryption
