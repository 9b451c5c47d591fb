import RecoveryService.DorisSm3Mapping.MappingRun

/-! # Rows that a job leaves in their table

Whatever an SM3 mapping job does and however it ends, a row stays in its table if the job does not move that
table away: pairs of a value with its SM3 value in the tables of mappings, and relations of other tables. -/

namespace RecoveryService.DorisSm3Mapping

open Checks Program Tables DorisEncryption

section

variable {sm3 : String → String} {env : Sm3Env} {job : MappingJob} {w w' : Sm3World} {u : Unit}
  {c c' : Catalog TableName MaskTable} {name other : TableName} {columns : List String}
  {row : List (Option String)}

/-! ### What the statements leave -/

/-- The row is in a table with these columns. -/
def HasRow (c : Catalog TableName MaskTable) (name : TableName) (columns : List String)
    (row : List (Option String)) : Prop := ∃ m, c name = some m ∧ m.columns = columns ∧ row ∈ m.rows

theorem HasRow.of_eq (h : HasRow c name columns row) (heq : c' name = c name) : HasRow c' name columns row := by
  obtain ⟨m, hm, hcolumns, hrow⟩ := h
  exact ⟨m, heq.trans hm, hcolumns, hrow⟩

theorem HasRow.ne_none (h : HasRow c name columns row) : c name ≠ none := by
  obtain ⟨m, hm, -⟩ := h
  rw [hm]
  exact nofun

variable {rows : List (List (Option String))}

/-- A change of one table that keeps its columns and the row. -/
theorem HasRow.update (h : HasRow c name columns row) {m : MaskTable} (hm : c other = some m)
    (hrows : m.columns = columns → row ∈ m.rows → row ∈ rows) :
    HasRow (Function.update c other (some { m with rows := rows })) name columns row := by
  by_cases hname : name = other
  · obtain ⟨m', hm', hcolumns, hrow⟩ := h
    rw [hname, hm] at hm'
    cases hm'
    rw [hname]
    exact ⟨_, Function.update_self _ _ _, hcolumns, hrows hcolumns hrow⟩
  · exact h.of_eq (Function.update_of_ne hname _ _)

theorem HasRow.createMissing (h : HasRow c name columns row) (made : List String) :
    HasRow (createMissing other made c) name columns row := by
  by_cases hname : name = other
  · rw [hname] at h ⊢
    obtain ⟨m, hm, hcolumns, hrow⟩ := h
    refine ⟨m, ?_, hcolumns, hrow⟩
    rw [createMissing_self, hm, Option.getD_some]
  · exact h.of_eq (createMissing_ne hname)

theorem HasRow.create (h : HasRow c name columns row) {t : MaskTable} (hc : Tables.create c other t = some c') :
    HasRow c' name columns row := by
  unfold Tables.create at hc
  split at hc
  · next hfree =>
      cases hc
      refine h.of_eq (Function.update_of_ne ?_ _ _)
      rintro rfl
      exact h.ne_none hfree
  · cases hc

theorem rename_eq_some {T : Type} {c c' : Catalog TableName T} {a b : TableName} (h : Tables.rename c a b = some c') :
    c b = none ∧ ∃ t, c a = some t ∧ c' = Function.update (Function.update c a none) b (some t) := by
  unfold Tables.rename at h
  split at h
  · next t ha hb =>
      cases h
      exact ⟨hb, t, ha, rfl⟩
  · cases h

theorem HasRow.rename (h : HasRow c name columns row) (hname : name ≠ other) {target : TableName}
    (hc : Tables.rename c other target = some c') : HasRow c' name columns row ∧ name ≠ target := by
  obtain ⟨hfree, t, -, rfl⟩ := rename_eq_some hc
  have htarget : name ≠ target := by
    rintro rfl
    exact h.ne_none hfree
  refine ⟨h.of_eq ?_, htarget⟩
  rw [Function.update_of_ne htarget, Function.update_of_ne hname]

/-- A value with what SM3 makes of it. -/
def pairRow (sm3 : String → String) (value : String) : List (Option String) := [some value, some (sm3 value)]

theorem mem_upsert_self (rows : List (List (Option String))) (value : String) :
    pairRow sm3 value ∈ upsert sm3 rows value := by
  unfold upsert
  split
  · next hany =>
      obtain ⟨old, hold, hhead⟩ := List.any_eq_true.mp hany
      exact List.mem_map.mpr ⟨old, hold, if_pos (of_decide_eq_true hhead)⟩
  · exact List.mem_append_right _ (List.mem_singleton_self _)

variable {value : String}

/-- A pair stays where other values are written, and where its own is written again. -/
theorem mem_upsert (h : pairRow sm3 value ∈ rows) (written : String) : pairRow sm3 value ∈ upsert sm3 rows written := by
  unfold upsert
  split
  · refine List.mem_map.mpr ⟨_, h, ?_⟩
    split
    · next hhead =>
        have hvalue : value = written := Option.some.inj (Option.some.inj hhead)
        rw [hvalue]
        rfl
    · rfl
  · exact List.mem_append_left _ h

theorem mem_foldl_upsert (values : List String) (h : pairRow sm3 value ∈ rows) :
    pairRow sm3 value ∈ values.foldl (upsert sm3) rows := by
  induction values generalizing rows with
  | nil => exact h
  | cons written rest ih => exact ih (mem_upsert h written)

theorem mem_foldl_upsert_of_mem {values : List String} (h : value ∈ values) :
    pairRow sm3 value ∈ values.foldl (upsert sm3) rows := by
  induction values generalizing rows with
  | nil => cases h
  | cons written rest ih =>
      rcases List.mem_cons.mp h with rfl | h
      · exact mem_foldl_upsert rest (mem_upsert_self rows value)
      · exact ih h

theorem insertValues_eq_some {source mapping : TableName} {column : String}
    (h : insertValues sm3 source mapping column c = some c') : ∃ s m, c source = some s ∧ c mapping = some m ∧
      c' = Function.update c mapping (some { m with
        rows := (s.rows.filterMap (cell s.columns · column)).dedup.foldl (upsert sm3) m.rows }) := by
  obtain ⟨s, hs, h⟩ := Option.bind_eq_some_iff.mp h
  obtain ⟨m, hm, rfl⟩ := Option.map_eq_some_iff.mp h
  exact ⟨s, m, hs, hm, rfl⟩

theorem HasRow.insertValues (h : HasRow c name columns (pairRow sm3 value)) {source mapping : TableName}
    {column : String} (hc : insertValues sm3 source mapping column c = some c') :
    HasRow c' name columns (pairRow sm3 value) := by
  obtain ⟨s, m, -, hm, rfl⟩ := insertValues_eq_some hc
  exact h.update hm fun _ hrow => mem_foldl_upsert _ hrow

theorem HasRow.insertMaskedRows (h : HasRow c name columns row) {source output : TableName}
    {tableColumns hashed : List String} (hc : insertMaskedRows sm3 source output tableColumns hashed c = some c') :
    HasRow c' name columns row := by
  obtain ⟨s, -, hc⟩ := Option.bind_eq_some_iff.mp hc
  obtain ⟨o, ho, rfl⟩ := Option.map_eq_some_iff.mp hc
  exact h.update ho fun _ hrow => List.mem_append_left _ hrow

theorem HasRow.deleteRelations (h : HasRow c name columns row) (hrow : ofTable job columns row = false)
    (hc : deleteRelations job other c = some c') : HasRow c' name columns row := by
  obtain ⟨f, hf, -⟩ := Option.bind_eq_some_iff.mp hc
  obtain ⟨-, rfl⟩ := (deleteRelations_eq_some hf).mp hc
  refine h.update hf fun hcolumns hmem => List.mem_filter.mpr ⟨hmem, ?_⟩
  rw [hcolumns, hrow]
  rfl

theorem HasRow.insertRelations (h : HasRow c name columns row) (hc : insertRelations env job other c = some c') :
    HasRow c' name columns row := by
  obtain ⟨f, hf, -⟩ := Option.bind_eq_some_iff.mp hc
  obtain ⟨-, rfl⟩ := (insertRelations_eq_some hf).mp hc
  exact h.update hf fun _ hmem => List.mem_append_left _ hmem

/-! ### The invariant of a run -/

/-- The row is there, and its table is not the one that was moved. -/
structure RowKept (job : MappingJob) (name : TableName) (columns : List String) (row : List (Option String))
    (w : Sm3World) : Prop where
  has : HasRow w.tables name columns row
  moved : w.renamed = true → ∀ backup, job.backup = some backup → name ≠ (job.database, backup)

/-- The job leaves the row alone: it does not move the table, nor is the row a relation that it replaces. -/
structure Leaves (job : MappingJob) (name : TableName) (columns : List String) (row : List (Option String)) :
    Prop where
  source : job.replaceOriginal = true → name ≠ (job.database, job.tableName)
  relation : ofTable job columns row = false

theorem RowKept.setStatus (h : RowKept job name columns row w) (f : JobStatus → JobStatus) :
    RowKept job name columns row (w.setStatus f) := ⟨h.has, h.moved⟩

theorem RowKept.setTables (h : RowKept job name columns row w) (hc : HasRow c name columns row) :
    RowKept job name columns row (w.setTables c) := ⟨hc, h.moved⟩

theorem setStep_kept (index : ℕ) (state : StepState) (message : Option String) :
    Keeps (RowKept job name columns row) (setStep index state message) := keeps_update fun _ h => h.setStatus _

/-! ### Up to the rename -/

theorem checkNames_kept : Keeps (RowKept job name columns row) (checkNames env job) := by
  unfold checkNames
  split
  · exact keeps_bind (keeps_ask _ _) fun _ => keeps_check _ _
  · exact keeps_pure _
  · split
    · exact keeps_bind (keeps_ask _ _) fun _ => keeps_check _ _
    · exact keeps_pure _

theorem precheck_kept : Keeps (RowKept job name columns row) (precheck env job) := by
  unfold precheck
  exact keeps_bind (keeps_lift _) fun _ => keeps_bind (setStep_kept _ _ _) fun _ =>
    keeps_bind (keeps_ask _ _) fun _ => keeps_bind (keeps_ask _ _) fun _ =>
      keeps_bind (keeps_check _ _) fun _ => keeps_bind (keeps_check _ _) fun _ =>
        keeps_bind checkNames_kept fun _ => keeps_bind (keeps_ask _ _) fun _ =>
          keeps_bind (keeps_update fun _ h => h.setStatus _) fun _ =>
            keeps_bind (setStep_kept _ _ _) fun _ => keeps_pure _

theorem prepareMappings_kept : Keeps (RowKept job name columns row) (prepareMappings env job) := by
  unfold prepareMappings
  refine keeps_bind (keeps_lift _) fun _ => keeps_bind (setStep_kept _ _ _) fun _ =>
    keeps_bind (keeps_execute _ ?_) fun _ => keeps_bind (keeps_forM ?_) fun _ =>
      keeps_bind (keeps_forM ?_) fun _ => setStep_kept _ _ _
  · rintro w c hw ⟨⟩
    exact hw.setTables hw.has
  · intro mapping _
    refine keeps_execute _ ?_
    rintro w c hw ⟨⟩
    exact hw.setTables (hw.has.createMissing _)
  · intro mapping _
    exact keeps_bind (keeps_ask _ _) fun _ => keeps_bind (keeps_ask _ _) fun _ => keeps_check _ _

/-- Behind the check of the mapping tables only a table with their columns is one. -/
theorem prepareMappings_checked : Spec (RowKept job name columns row) (prepareMappings env job)
    (fun _ w => RowKept job name columns row w ∧ (name ∈ job.mappings → columns = mappingColumns))
    (fun _ => RowKept job name columns row) := by
  constructor
  intro w hw
  cases hends : prepareMappings env job w with
  | mk x w' =>
      have hkept := prepareMappings_kept.ends_with hw hends
      cases x with
      | error e => exact hkept
      | ok u =>
          refine ⟨hkept, fun hname => ?_⟩
          obtain ⟨mapping, hmapping, rfl⟩ := List.mem_map.mp hname
          obtain ⟨m, hm, hcolumns, -⟩ := hw.has
          exact hcolumns.symm.trans (((prepareMappings_returns hends).2.2.2.2 mapping hmapping).2.2 m hm)

/-- The values go into the mapping tables; a pair stays in any case. -/
theorem insertMappings_kept (h : name ∉ job.mappings ∨ ∃ value, row = pairRow sm3 value) :
    Keeps (RowKept job name columns row) (insertMappings sm3 env job) := by
  unfold insertMappings
  refine keeps_bind (keeps_lift _) fun _ => keeps_lift_bind fun l hl =>
    keeps_bind (setStep_kept _ _ _) fun _ => keeps_bind (keeps_forM ?_) fun _ => setStep_kept _ _ _
  intro m hm
  refine keeps_execute _ fun w c hw hc => hw.setTables ?_
  rcases h with hname | ⟨value, rfl⟩
  · have hmem : m.1.2 ∈ job.mappingNames := columnMappings_mem hl m.1 (List.fst_mem_of_mem_zipIdx hm)
    exact hw.has.of_eq (insertValues_ne hc (ne_of_mem_mappings hmem hname))
  · exact hw.has.insertValues hc

theorem prepare_kept (h : columns = mappingColumns → ∃ value, row = pairRow sm3 value) :
    Keeps (RowKept job name columns row) (prepare sm3 env job) := by
  unfold prepare
  refine keeps_bind precheck_kept fun _ => spec_bind prepareMappings_checked fun _ => ?_
  have hinsert : Spec (fun w => RowKept job name columns row w ∧ (name ∈ job.mappings → columns = mappingColumns))
      (insertMappings sm3 env job) (fun _ => RowKept job name columns row)
      (fun _ => RowKept job name columns row) := by
    constructor
    rintro w ⟨hw, hname⟩
    refine (insertMappings_kept ?_).ends w hw
    by_cases hmem : name ∈ job.mappings
    · exact .inr (h (hname hmem))
    · exact .inl hmem
  exact spec_bind hinsert fun _ => keeps_pure _

/-! ### From the rename on -/

variable (h : Leaves job name columns row)
include h

theorem moveOriginal_kept : Keeps (RowKept job name columns row) (moveOriginal env job) := by
  unfold moveOriginal
  refine keeps_bind (keeps_lift _) fun _ => ?_
  split
  · exact keeps_raise _
  · next backup hmode hbackup =>
      refine keeps_bind (setStep_kept _ _ _) fun _ => ?_
      have hrename : Spec (RowKept job name columns row)
          (execute env.rename fun c => Tables.rename c (job.database, job.tableName) (job.database, backup))
          (fun _ w => RowKept job name columns row w ∧ name ≠ (job.database, backup))
          (fun _ => RowKept job name columns row) := by
        unfold execute
        refine spec_submit (fun w w' hw he => ?_) (fun _ _ hw => hw) fun _ w w' hw he => ?_
        · obtain ⟨c, hc, rfl⟩ := Option.map_eq_some_iff.mp he
          obtain ⟨hkept, hname⟩ := hw.has.rename (h.source hmode) hc
          exact ⟨hw.setTables hkept, hname⟩
        · obtain ⟨c, hc, rfl⟩ := Option.map_eq_some_iff.mp he
          exact hw.setTables (hw.has.rename (h.source hmode) hc).1
      refine spec_bind hrename fun _ => spec_bind (Q := fun _ => RowKept job name columns row)
        (spec_update ?_) fun _ => keeps_bind (setStep_kept _ _ _) fun _ => keeps_pure _
      rintro w ⟨hw, hname⟩
      refine ⟨hw.has, fun _ other hother => ?_⟩
      rw [hbackup] at hother
      cases hother
      exact hname
  · exact keeps_bind (setStep_kept _ _ _) fun _ => keeps_pure _

theorem writeRelations_kept : Keeps (RowKept job name columns row) (writeRelations env job) := by
  unfold writeRelations
  refine keeps_bind (keeps_lift _) fun _ => keeps_bind (setStep_kept _ _ _) fun _ =>
    keeps_bind (keeps_execute _ ?_) fun _ => keeps_bind (keeps_execute _ ?_) fun _ =>
      keeps_bind (keeps_execute _ ?_) fun _ => keeps_bind (keeps_execute _ ?_) fun _ => setStep_kept _ _ _
  · rintro w c hw ⟨⟩
    exact hw.setTables hw.has
  · rintro w c hw ⟨⟩
    exact hw.setTables (hw.has.createMissing _)
  · exact fun w c hw hc => hw.setTables (hw.has.deleteRelations h.relation hc)
  · exact fun w c hw hc => hw.setTables (hw.has.insertRelations hc)

theorem replaceTable_kept {source : String} {sourceRows : ℕ} {tableColumns : List String} :
    Keeps (RowKept job name columns row) (replaceTable sm3 env job source sourceRows tableColumns) := by
  unfold replaceTable createMasked insertMasked compareRows
  refine keeps_bind (keeps_bind (keeps_lift _) fun _ => keeps_bind (keeps_ask _ _) fun _ =>
    keeps_bind (setStep_kept _ _ _) fun _ => keeps_bind (keeps_execute _ ?_) fun _ =>
      keeps_bind (keeps_update fun _ hw => ⟨hw.has, hw.moved⟩) fun _ => setStep_kept _ _ _) fun _ =>
    keeps_bind (keeps_bind (keeps_lift _) fun _ => keeps_bind (setStep_kept _ _ _) fun _ =>
      keeps_bind (keeps_execute _ ?_) fun _ => setStep_kept _ _ _) fun _ =>
    keeps_bind (keeps_bind (keeps_lift _) fun _ => keeps_bind (keeps_ask _ _) fun _ =>
      keeps_bind (keeps_update fun _ hw => hw.setStatus _) fun _ => keeps_bind (keeps_check _ _) fun _ =>
        setStep_kept _ _ _) fun _ => writeRelations_kept h
  · exact fun w c hw hc => hw.setTables (hw.has.create hc)
  · exact fun w c hw hc => hw.setTables (hw.has.insertMaskedRows hc)

omit h in
theorem HasRow.rolledBack (hc : HasRow c name columns row) {rollbackEnv : RollbackEnv} {backup : String}
    (hname : name ≠ (job.database, backup)) :
    HasRow (rolledBack rollbackEnv job.database job.tableName backup c) name columns row := by
  have hkeeps : Keeps (fun c : Catalog TableName MaskTable => HasRow c name columns row)
      (tryRollbackRename rollbackEnv job.database job.tableName backup) := by
    unfold tryRollbackRename
    refine spec_attempt (E := fun _ c => HasRow c name columns row) (keeps_bind (keeps_query _ _) fun _ =>
      keeps_bind (keeps_query _ _) fun _ => keeps_onlyIf (keeps_bind (keeps_query _ _) fun _ =>
        keeps_onlyIf (keeps_submit _ _ fun _ c c' hc he => (hc.rename hname he).1))) ?_ ?_
    · rintro e handler ⟨⟩
      exact keeps_pure _
    · exact fun _ hnone => nomatch hnone
  have hends := hkeeps.ends c hc
  unfold DorisEncryption.rolledBack
  cases hrun : tryRollbackRename rollbackEnv job.database job.tableName backup c with
  | mk x c' =>
      rw [hrun] at hends
      cases x with
      | ok u | error e => exact hends

omit h in
theorem handle_row (e : Sm3Exception) (hw : RowKept job name columns row w) :
    HasRow (handle env job e w).2.tables name columns row := by
  cases e with
  | cancelled => exact hw.has
  | error m =>
      unfold handle
      split
      · exact hw.has
      · obtain ⟨f, g, -, heq⟩ := failJob_eq (w := w) m
        rw [heq]
        unfold rollback onlyIf
        cases hbackup : job.backup with
        | none => exact hw.has
        | some backup =>
            simp only
            split
            · next hflags => exact hw.has.rolledBack (hw.moved hflags.1 backup hbackup)
            · exact hw.has

/-- However a job ends, the row is where it was. -/
theorem mappingRun_row {tables : Catalog TableName MaskTable} (hhas : HasRow tables name columns row)
    (hpair : columns = mappingColumns → ∃ value, row = pairRow sm3 value) :
    HasRow (mappingRun sm3 env job tables).tables name columns row := by
  by_cases hstarts : env.Starts
  · have hkept : RowKept job name columns row (started tables) := ⟨hhas, nofun⟩
    have hmask : Keeps (RowKept job name columns row) (maskTable sm3 env job) := by
      unfold maskTable
      exact keeps_bind (prepare_kept hpair) fun _ => keeps_bind (moveOriginal_kept h) fun _ =>
        keeps_bind (replaceTable_kept h) fun _ => keeps_update fun _ hw => hw.setStatus _
    cases hrun : maskTable sm3 env job (started tables) with
    | mk x w' =>
        have hends := hmask.ends_with hkept hrun
        cases x with
        | error e =>
            rw [mappingRun_raises hstarts hrun]
            exact handle_row e hends
        | ok u =>
            rw [mappingRun_returns hstarts hrun]
            exact hends.has
  · rw [(mappingRun_unstarted hstarts).1]
    exact hhas

end

end RecoveryService.DorisSm3Mapping
