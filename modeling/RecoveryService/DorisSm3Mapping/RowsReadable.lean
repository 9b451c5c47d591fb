import RecoveryService.DorisSm3Mapping.MappingRun

/-! # The original rows of an SM3 mapping job

The rows are readable behind a job in the mode `replace_original` that did not succeed if and only if
the run does not get as far as the rename, or takes it back, or has made a table with the same rows; a job
that succeeded did what it says (`mapping_rows_iff`). -/

namespace RecoveryService.DorisSm3Mapping

open Program Tables DorisEncryption

section

variable {sm3 : String → String} {env : Sm3Env} {job : MappingJob} {backup : String} {t : MaskTable}
  {tables : Catalog TableName MaskTable}

/-- The rows of a table; `none` where there is no table. -/
def rowsOf (tables : Catalog TableName MaskTable) (name : TableName) :
    Option (List (List (Option String))) := (tables name).map MaskTable.rows

/-- A job that ends failed or cancelled leaves the rows under their name. -/
def RowsReadable (job : MappingJob) (tables : Catalog TableName MaskTable) (w' : Sm3World) : Prop :=
  w'.status.state ≠ .succeeded →
    rowsOf w'.tables (job.database, job.tableName) = rowsOf tables (job.database, job.tableName)

/-- What a job that succeeded says is so. -/
structure Masked (env : Sm3Env) (job : MappingJob) (backup : String)
    (tables : Catalog TableName MaskTable) (w' : Sm3World) : Prop where
  rows : ∃ t m, tables (job.database, job.tableName) = some t ∧
    w'.tables (job.database, job.tableName) = some m ∧ m.rows.length = t.rows.length ∧
    w'.tables (job.database, backup) = some t
  relations : RelationsStored env job w'.tables

/-- The run of a prepared job leaves the rows readable: it does not get as far as the rename, or takes
it back, or goes through, or has made a table with the same rows. -/
def Restorable (sm3 : String → String) (env : Sm3Env) (job : MappingJob)
    (tables : Catalog TableName MaskTable) (t : MaskTable) : Prop :=
  (env.cancel 3 = true ∨ ∃ e, env.rename = .refused e) ∨
  env.cancel 3 = false ∧ env.rename = .done ∧ env.cancel 4 = false ∧
    ((env.createSql ≠ none ∨ ∃ e, env.create = .refused e) ∧
        env.cancelAfter = false ∧ env.rollback.Works ∨
      (env.createSql = none ∧ ∀ e, env.create ≠ .refused e) ∧
        (Completed env job tables ∨
          env.Filled ∧ t.rows.map (maskRow sm3 t.columns job.hashedColumns) = t.rows ∨
          ¬ env.Filled ∧ t.rows = []))

theorem not_made_iff {α : Type} {r : Reply α} {o : Option String} :
    ¬ (o ≠ none ∨ ∃ e, r = .refused e) ↔ o = none ∧ ∀ e, r ≠ .refused e := by
  rw [not_or, not_not, not_exists]

section prepared

variable (hmode : job.replaceOriginal = true) (hbackup : job.backup = some backup)
  (hout : job.output = job.tableName) (hsep : Separate job backup) (hstarts : env.Starts)
include hmode hbackup hout hsep hstarts

theorem rowsReadable_iff_of_prepared (h : Prepared env job backup tables t) :
    RowsReadable job tables (mappingRun sm3 env job tables) ↔ Restorable sm3 env job tables t := by
  have hname : rowsOf tables (job.database, job.tableName) = some t.rows := by
    rw [rowsOf, h.table]
    rfl
  unfold RowsReadable Restorable
  rw [hname]
  by_cases hmove : env.cancel 3 = true ∨ ∃ e, env.rename = .refused e
  · obtain ⟨hrows, -⟩ := mappingRun_notMoved hmode hbackup hsep h hstarts hmove
    rw [rowsOf, hrows]
    simp [hmove]
  · obtain ⟨hlook, hnot⟩ := not_or.mp hmove
    have hlook₃ : env.cancel 3 = false := Bool.eq_false_iff.mpr hlook
    cases hrename : env.rename with
    | refused e => exact absurd ⟨e, hrename⟩ hnot
    | lost e =>
        obtain ⟨hrows, hstate⟩ := mappingRun_lost hmode hbackup hsep h hstarts hlook₃ hrename
        rw [rowsOf, hrows]
        simp [hstate, hlook₃]
    | done =>
        cases hlook₄ : env.cancel 4 with
        | true =>
            obtain ⟨hrows, hstate⟩ := mappingRun_cancelled hmode hbackup hsep h hstarts
              hlook₃ hrename hlook₄
            rw [rowsOf, hrows]
            simp [hstate, hlook₃]
        | false =>
            by_cases hcreate : env.createSql ≠ none ∨ ∃ e, env.create = .refused e
            · obtain ⟨hback, hlost, hstate⟩ := mappingRun_notCreated hmode hbackup hsep h
                hstarts hlook₃ hrename hlook₄ hcreate
              have hmade : ¬ (env.createSql = none ∧ ∀ e, env.create ≠ .refused e) := fun hmade =>
                not_made_iff.mpr hmade hcreate
              by_cases hworks : env.cancelAfter = false ∧ env.rollback.Works
              · rw [rowsOf, hback hworks]
                simp [hcreate, hworks]
              · rw [rowsOf, hlost hworks]
                constructor
                · intro hrows
                  exact absurd (hrows hstate) nofun
                · rintro ((hl | ⟨e, he⟩) | ⟨-, -, -, ⟨-, hw⟩ | ⟨hm, -⟩⟩)
                  · exact absurd hl hlook
                  · cases he
                  · exact absurd hw hworks
                  · exact absurd hm hmade
            · obtain ⟨hsql, hno⟩ := not_made_iff.mp hcreate
              obtain ⟨hreplaced, hcompleted, -⟩ := mappingRun_created hmode hbackup hsep h
                hstarts hlook₃ hrename hout hlook₄ hsql hno
              obtain ⟨m, hm, hfilled, hempty⟩ := hreplaced.made
              rw [rowsOf, hm, Option.map_some, Option.some.injEq]
              have hright : (env.createSql = none ∧ ∀ e, env.create ≠ .refused e) := ⟨hsql, hno⟩
              constructor
              · intro hrows
                refine Or.inr ⟨hlook₃, rfl, rfl, Or.inr ⟨hright, ?_⟩⟩
                by_cases hc : Completed env job tables
                · exact Or.inl hc
                · have hrows' := hrows fun hs => hc (hcompleted.mp hs)
                  by_cases hf : env.Filled
                  · exact Or.inr (Or.inl ⟨hf, (hfilled hf).symm.trans hrows'⟩)
                  · exact Or.inr (Or.inr ⟨hf, hrows'.symm.trans (hempty hf)⟩)
              · rintro ((hl | ⟨e, he⟩) | ⟨-, -, -, ⟨hw, -⟩ | ⟨-, hc | ⟨hf, hsame⟩ | ⟨hf, hnone⟩⟩⟩) hstate
                · exact absurd hl hlook
                · cases he
                · exact absurd hw hcreate
                · exact absurd (hcompleted.mpr hc) hstate
                · exact (hfilled hf).trans hsame
                · exact (hempty hf).trans hnone.symm

/-- Only a run that goes through succeeds, and it did what it says. -/
theorem masked_of_prepared (h : Prepared env job backup tables t)
    (hsucceeded : (mappingRun sm3 env job tables).status.state = .succeeded) :
    Masked env job backup tables (mappingRun sm3 env job tables) := by
  by_cases hmove : env.cancel 3 = true ∨ ∃ e, env.rename = .refused e
  · exact absurd hsucceeded (mappingRun_notMoved hmode hbackup hsep h hstarts hmove).2
  · obtain ⟨hlook, hnot⟩ := not_or.mp hmove
    have hlook₃ : env.cancel 3 = false := Bool.eq_false_iff.mpr hlook
    cases hrename : env.rename with
    | refused e => exact absurd ⟨e, hrename⟩ hnot
    | lost e =>
        exact absurd hsucceeded (mappingRun_lost hmode hbackup hsep h hstarts hlook₃ hrename).2
    | done =>
        cases hlook₄ : env.cancel 4 with
        | true =>
            exact absurd hsucceeded
              (mappingRun_cancelled hmode hbackup hsep h hstarts hlook₃ hrename hlook₄).2
        | false =>
            by_cases hcreate : env.createSql ≠ none ∨ ∃ e, env.create = .refused e
            · exact absurd hsucceeded
                (mappingRun_notCreated hmode hbackup hsep h hstarts hlook₃ hrename hlook₄ hcreate).2.2
            · obtain ⟨hsql, hno⟩ := not_made_iff.mp hcreate
              obtain ⟨hreplaced, hcompleted, hstored⟩ := mappingRun_created hmode hbackup
                hsep h hstarts hlook₃ hrename hout hlook₄ hsql hno
              have hc := hcompleted.mp hsucceeded
              have hfilled : env.Filled := ⟨hc.create, hc.look 5 (by omega) (by omega), fun e he => by
                rw [hc.insert] at he
                cases he⟩
              obtain ⟨m, hm, hrows, -⟩ := hreplaced.made
              have hlength : m.rows.length = t.rows.length := by rw [hrows hfilled, List.length_map]
              exact ⟨⟨t, m, h.table, hm, hlength, hreplaced.kept⟩, hstored hsucceeded⟩

end prepared

theorem Sm3Request.job_backup (r : Sm3Request) : r.job.backup = some r.backup := by
  have hne : r.backup ≠ "" := by
    unfold Sm3Request.backup
    intro h
    have hlength := congrArg String.length h
    simp at hlength
  simp [MappingJob.backup, Sm3Request.job, hne]

theorem Sm3Request.job_output (r : Sm3Request) : r.job.output = r.job.tableName := by
  unfold MappingJob.output Sm3Request.job
  by_cases h : r.tableName = ""
  · simp [h, Option.filter]
  · simp [h, Option.filter]

/-- A table with one row and one column to mask. -/
def usersRequest : Sm3Request :=
  ⟨"1", "ods", "users", "bak", ["phone"], none, [("phone", "sm3_map_phone")], none, none⟩

def usersTables : Catalog TableName MaskTable :=
  Function.update (fun _ => none) ("ods", "users") (some { columns := ["phone"], rows := [[some "1"]] })

end

end RecoveryService.DorisSm3Mapping
