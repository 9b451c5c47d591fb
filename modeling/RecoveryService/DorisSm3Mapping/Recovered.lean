import RecoveryService.DorisSm3Mapping.Decrypt
import RecoveryService.DorisSm3Mapping.RowsKept

/-! # Masked values that are decrypted

The pairs and the relation that a succeeded job writes stay where they are, so its values are decrypted exactly
when every relation that the category's names match can be looked up and none of them has another original for
one of the values. -/

namespace RecoveryService.DorisSm3Mapping

open Checks Program Tables DorisEncryption Text

section

variable {sm3 : String → String} {env : Sm3Env} {job : MappingJob} {tables c : Catalog TableName MaskTable}
  {t : MaskTable} {column : String}

/-- The values of a column that are not NULL, as texts. -/
def columnValues (t : MaskTable) (column : String) : List String := t.rows.filterMap (cell t.columns · column)

/-! ### What a succeeded job has written -/

theorem returns_of_succeeded (h : (mappingRun sm3 env job tables).status.state = .succeeded) :
    maskTable sm3 env job (started tables) = (.ok (), mappingRun sm3 env job tables) := by
  by_cases hstarts : env.Starts
  · cases hrun : maskTable sm3 env job (started tables) with
    | mk x w' =>
        cases x with
        | error e =>
            rw [mappingRun_raises hstarts hrun] at h
            exact absurd h (handle_ne_succeeded e)
        | ok u => rw [mappingRun_returns hstarts hrun]
  · exact absurd h (mappingRun_unstarted hstarts).2

/-- Each value of a column is in its mapping table behind the inserts. -/
theorem insertMappings_writes (sm3 : String → String) (env : Sm3Env) {mapping value : String}
    (hown : (job.database, job.tableName) ∉ job.mappings)
    (hcolumn : column ∈ job.hashedColumns) (hlookup : job.mappingTables.lookup column = some mapping)
    (hvalue : value ∈ columnValues t column) :
    Spec (fun w : Sm3World => w.tables (job.database, job.tableName) = some t ∧
        ∃ m, w.tables (job.mappingDb, mapping) = some m ∧ m.columns = mappingColumns)
      (insertMappings sm3 env job)
      (fun _ w => HasRow w.tables (job.mappingDb, mapping) mappingColumns (pairRow sm3 value))
      (fun _ _ => True) := by
  unfold insertMappings checkCancel
  refine spec_lift_bind (fun _ _ => spec_lift_bind (fun l hl => ?_) fun _ _ _ => trivial) fun _ _ _ => trivial
  have hmem : (column, mapping) ∈ l := by
    obtain ⟨m, hm, hreturns⟩ := (mapM_eq_ok hl).1 column hcolumn
    rw [hlookup] at hreturns
    cases hreturns
    exact hm
  obtain ⟨i, hi⟩ : ∃ i, ((column, mapping), i) ∈ l.zipIdx := by
    obtain ⟨i, hi⟩ := List.mem_iff_getElem?.mp hmem
    exact ⟨i, List.mem_zipIdx_iff_getElem?.mpr hi⟩
  have hname : ∀ m ∈ l.zipIdx, (job.database, job.tableName) ≠ (job.mappingDb, m.1.2) := fun m hm =>
    ne_of_mem_mappings (columnMappings_mem hl m.1 (List.fst_mem_of_mem_zipIdx hm)) hown
  refine spec_bind (Q := fun _ (w : Sm3World) => w.tables (job.database, job.tableName) = some t ∧
    ∃ m, w.tables (job.mappingDb, mapping) = some m ∧ m.columns = mappingColumns)
    (spec_update fun _ hw => hw) fun _ => spec_bind (spec_forM_mem
    (D := fun w => HasRow w.tables (job.mappingDb, mapping) mappingColumns (pairRow sm3 value)) hi
    (fun m hm => ?_) ?_ fun m _ => ?_) fun _ => spec_update fun _ hw => hw
  · unfold execute
    refine spec_submit (fun w w' hw he => ?_) (fun _ _ _ => trivial) fun _ _ _ _ _ => trivial
    obtain ⟨c, hc, rfl⟩ := Option.map_eq_some_iff.mp he
    refine ⟨(insertValues_ne hc (hname m hm)).trans hw.1, ?_⟩
    obtain ⟨-, table, htable, hcolumns⟩ := hw
    obtain ⟨s, m', -, hm', rfl⟩ := insertValues_eq_some hc
    by_cases hsame : mapping = m.1.2
    · subst hsame
      rw [htable] at hm'
      cases hm'
      exact ⟨_, Function.update_self _ _ _, hcolumns⟩
    · refine ⟨table, (Function.update_of_ne ?_ _ _).trans htable, hcolumns⟩
      exact fun heq => hsame (Prod.mk.inj heq).2
  · unfold execute
    refine spec_submit (fun w w' hw he => ?_) (fun _ _ _ => trivial) fun _ _ _ _ _ => trivial
    obtain ⟨c, hc, rfl⟩ := Option.map_eq_some_iff.mp he
    obtain ⟨hsource, table, htable, hcolumns⟩ := hw
    obtain ⟨s, m', hs, hm', rfl⟩ := insertValues_eq_some hc
    rw [hsource] at hs
    cases hs
    rw [htable] at hm'
    cases hm'
    exact ⟨_, Function.update_self _ _ _, hcolumns, mem_foldl_upsert_of_mem (List.mem_dedup.mpr hvalue)⟩
  · unfold execute
    refine spec_submit (fun w w' hw he => ?_) (fun _ _ _ => trivial) fun _ _ _ _ _ => trivial
    obtain ⟨c, hc, rfl⟩ := Option.map_eq_some_iff.mp he
    exact hw.insertValues hc

/-- The relations that are written, in a table with all their columns. -/
theorem writeRelations_stored {w w' : Sm3World} {u : Unit} (h : writeRelations env job w = (.ok u, w')) :
    ∃ columns, (∀ name ∈ relationColumns, name ∈ columns) ∧ ∀ column ∈ job.hashedColumns,
      HasRow w'.tables (job.relationDb, job.relationTable) columns (relationRow env job columns column) := by
  unfold writeRelations setStep at h
  simp only [bind_returns, checkCancel_returns, update_returns, execute_returns] at h
  obtain ⟨-, w₀, ⟨-, rfl⟩, -, w₁, rfl, -, w₂, ⟨-, c₀, hc₀, rfl⟩, -, w₃, ⟨-, c₁, hc₁, rfl⟩, -,
    w₄, ⟨-, c₂, hc₂, rfl⟩, -, w₅, ⟨-, c₃, hc₃, rfl⟩, rfl⟩ := h
  obtain rfl := Option.some.inj hc₀
  obtain rfl := Option.some.inj hc₁
  have hmade : createMissing (job.relationDb, job.relationTable) relationColumns w₀.tables
      (job.relationDb, job.relationTable) = some (relationsTable job w₀.tables) := createMissing_self
  obtain ⟨-, rfl⟩ := (deleteRelations_eq_some hmade).mp hc₂
  obtain ⟨⟨-, hcolumns⟩, rfl⟩ := (insertRelations_eq_some (Function.update_self _ _ _)).mp hc₃
  exact ⟨_, hcolumns, fun column hcolumn => ⟨_, Function.update_self _ _ _, rfl,
    List.mem_append_right _ (List.mem_map_of_mem hcolumn)⟩⟩

/-- A pair is no relation. -/
theorem ofTable_pairRow (later : MappingJob) (value : String) :
    ofTable later mappingColumns (pairRow sm3 value) = false := by
  unfold ofTable
  have hcell : cell mappingColumns (pairRow sm3 value) "source_database" = none := rfl
  rw [hcell]
  simp

/-- What decryption reads of a job: the pairs of a column and its relation. -/
structure Written (sm3 : String → String) (env : Sm3Env) (job : MappingJob) (t : MaskTable) (column mapping : String)
    (columns : List String) (c : Catalog TableName MaskTable) : Prop where
  lookup : job.mappingTables.lookup column = some mapping
  pairs : ∀ value ∈ columnValues t column,
    HasRow c (job.mappingDb, mapping) mappingColumns (pairRow sm3 value)
  relation : HasRow c (job.relationDb, job.relationTable) columns (relationRow env job columns column)
  columns : ∀ name ∈ relationColumns, name ∈ columns

theorem mem_mappings_of_lookup {mapping : String} (h : job.mappingTables.lookup column = some mapping) :
    (job.mappingDb, mapping) ∈ job.mappings := by
  refine mem_mappings ((List.mem_insertionSort _).mpr (List.mem_dedup.mpr ?_))
  obtain ⟨before, after, hsplit, -⟩ := List.lookup_eq_some_iff.mp h
  refine List.mem_map.mpr ⟨(column, mapping), ?_, rfl⟩
  rw [hsplit]
  exact List.mem_append_right _ List.mem_cons_self

theorem written_of_succeeded (hown : (job.database, job.tableName) ∉ job.mappings)
    (ht : tables (job.database, job.tableName) = some t) (hcolumn : column ∈ job.hashedColumns)
    (h : (mappingRun sm3 env job tables).status.state = .succeeded) :
    ∃ mapping columns, Written sm3 env job t column mapping columns (mappingRun sm3 env job tables).tables := by
  have hreturns := returns_of_succeeded h
  unfold maskTable prepare at hreturns
  simp only [bind_returns, pure_returns] at hreturns
  obtain ⟨r, w₃, ⟨r', w₁, hcheck, u₁, w₂, hprepare, u₂, w₄, hinsert, rfl, rfl⟩, source, w₅, hmove, u₃, w₆,
    hreplace, hfinish⟩ := hreturns
  have hw₁ : Before [] tables w₁ := precheck_before.ends_with started_before hcheck
  have hw₂ : Before job.mappings tables w₂ := prepareMappings_before.ends_with hw₁.weaken hprepare
  have hw₃ : Before job.mappings tables w₃ := insertMappings_before.ends_with hw₂ hinsert
  have htables : (mappingRun sm3 env job tables).tables = w₆.tables :=
    (congrArg (fun p => p.2.tables) hfinish).symm
  obtain ⟨mapping, hlookup⟩ : ∃ mapping, job.mappingTables.lookup column = some mapping := by
    unfold insertMappings at hinsert
    simp only [bind_returns, lift_returns] at hinsert
    obtain ⟨_, _, -, l, _, ⟨hl, -⟩, -⟩ := hinsert
    exact Option.ne_none_iff_exists'.mp (columnMappings_returns.mp ⟨l, hl⟩ column hcolumn)
  have hmem : (job.mappingDb, mapping) ∈ job.mappings := mem_mappings_of_lookup hlookup
  obtain ⟨columns, hcolumns, hrelation⟩ : ∃ columns, (∀ name ∈ relationColumns, name ∈ columns) ∧
      ∀ column ∈ job.hashedColumns,
        HasRow w₆.tables (job.relationDb, job.relationTable) columns (relationRow env job columns column) := by
    unfold replaceTable at hreplace
    simp only [bind_returns] at hreplace
    obtain ⟨_, _, -, _, _, -, _, _, -, hwrite⟩ := hreplace
    exact writeRelations_stored hwrite
  refine ⟨mapping, columns, hlookup, fun value hvalue => ?_, ?_, hcolumns⟩
  · have hready : w₂.tables (job.database, job.tableName) = some t ∧
        ∃ m, w₂.tables (job.mappingDb, mapping) = some m ∧ m.columns = mappingColumns := by
      refine ⟨(hw₂.elsewhere _ hown).trans ht, ?_⟩
      obtain ⟨name, hname, heq⟩ := List.mem_map.mp hmem
      cases heq
      obtain ⟨hmade, -, -, -, hvalid⟩ := prepareMappings_returns hprepare
      refine ⟨_, (congrFun hmade _).trans (withMappings_of_mem hname), ?_⟩
      cases hm : w₁.tables (job.mappingDb, mapping) with
      | none => rfl
      | some m => exact (hvalid mapping hname).2.2 m hm
    have hpair := (insertMappings_writes sm3 env hown hcolumn hlookup hvalue).ends w₂ hready
    rw [hinsert] at hpair
    have hleaves : Leaves job (job.mappingDb, mapping) mappingColumns (pairRow sm3 value) := by
      refine ⟨fun _ heq => hown (heq ▸ hmem), ofTable_pairRow job value⟩
    have hkept : RowKept job (job.mappingDb, mapping) mappingColumns (pairRow sm3 value) w₃ :=
      ⟨hpair, fun hrenamed => absurd (hw₃.renamed.symm.trans hrenamed) Bool.false_ne_true⟩
    rw [htables]
    exact ((replaceTable_kept hleaves).ends_with ((moveOriginal_kept hleaves).ends_with hkept hmove) hreplace).has
  · rw [htables]
    exact hrelation column hcolumn

/-! ### Jobs behind it -/

/-- A later job for another table, which moves none of the tables that the first has written to. -/
structure Spares (job later : MappingJob) : Prop where
  other : (later.database, later.tableName) ≠ (job.database, job.tableName)
  kept : later.replaceOriginal = true →
    (later.database, later.tableName) ∉ (job.relationDb, job.relationTable) :: job.mappings

/-- The tables behind further jobs, however they end. -/
def afterJobs (sm3 : String → String) (later : List (Sm3Env × MappingJob)) (c : Catalog TableName MaskTable) :
    Catalog TableName MaskTable := later.foldl (fun c run => (mappingRun sm3 run.1 run.2 c).tables) c

theorem cell_map {columns : List String} {g : String → Option String} {name : String} (h : name ∈ columns) :
    cell columns (columns.map g) name = g name := by
  unfold cell
  induction columns with
  | nil => cases h
  | cons first rest ih =>
      rw [List.map_cons, List.zip_cons_cons, List.lookup_cons]
      by_cases hname : name = first
      · rw [hname, beq_self_eq_true]
        rfl
      · rw [beq_false_of_ne hname]
        exact ih ((List.mem_cons.mp h).resolve_left hname)

variable {mapping : String} {columns : List String}

/-- The relation of a column is not one of another table. -/
theorem ofTable_relationRow {later : MappingJob} (hcolumns : ∀ name ∈ relationColumns, name ∈ columns)
    (h : (later.database, later.tableName) ≠ (job.database, job.tableName)) :
    ofTable later columns (relationRow env job columns column) = false := by
  have hdatabase : cell columns (relationRow env job columns column) "source_database" = some job.database :=
    cell_map (hcolumns _ (by decide))
  have htable : cell columns (relationRow env job columns column) "source_table_name" = some job.tableName :=
    cell_map (hcolumns _ (by decide))
  unfold ofTable
  rw [hdatabase, htable]
  refine decide_eq_false ?_
  rintro ⟨hd, ht, -⟩
  exact h (Prod.ext (Option.some.inj hd).symm (Option.some.inj ht).symm)

theorem Written.later {later : MappingJob} {laterEnv : Sm3Env} (h : Written sm3 env job t column mapping columns c)
    (hspares : Spares job later) :
    Written sm3 env job t column mapping columns (mappingRun sm3 laterEnv later c).tables := by
  refine ⟨h.lookup, fun value hvalue => ?_, ?_, h.columns⟩
  · refine mappingRun_row ⟨fun hmode heq => ?_, ofTable_pairRow later value⟩ (h.pairs value hvalue)
      fun _ => ⟨value, rfl⟩
    exact hspares.kept hmode (heq ▸ List.mem_cons_of_mem _ (mem_mappings_of_lookup h.lookup))
  · refine mappingRun_row ⟨fun hmode heq => ?_, ofTable_relationRow h.columns hspares.other⟩ h.relation
      fun heq => ?_
    · exact hspares.kept hmode (heq ▸ List.mem_cons_self)
    · have hmem := h.columns "source_database" (by decide)
      rw [heq] at hmem
      exact absurd hmem (by decide)

theorem Written.afterJobs {later : List (Sm3Env × MappingJob)} (h : Written sm3 env job t column mapping columns c)
    (hspares : ∀ run ∈ later, Spares job run.2) :
    Written sm3 env job t column mapping columns (afterJobs sm3 later c) := by
  induction later generalizing c with
  | nil => exact h
  | cons run rest ih =>
      exact ih (h.later (hspares run List.mem_cons_self)) fun other hother =>
        hspares other (List.mem_cons_of_mem _ hother)

end

end RecoveryService.DorisSm3Mapping
