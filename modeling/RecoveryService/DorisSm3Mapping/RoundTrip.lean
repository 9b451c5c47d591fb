import RecoveryService.DorisSm3Mapping.Decrypted

/-! # Masked and decrypted

Behind a succeeded job, and further jobs that leave its tables where they are, every value of a masked column is
decrypted if and only if each relation that the column's name matches can be read and has no other original for
one of the values. -/

namespace RecoveryService.DorisSm3Mapping

open Checks Program Tables DorisEncryption Text

section

variable {sm3 : String → String} {env : Sm3Env} {job : MappingJob} {tables c : Catalog TableName MaskTable}
  {t : MaskTable} {column mapping : String} {columns : List String}

/-! ### The claim -/

/-- Every batch of masked values comes back with its originals, in the order of the batch. -/
def Decrypts (sm3 : String → String) (job : MappingJob) (t : MaskTable) (column : String)
    (c : Catalog TableName MaskTable) : Prop :=
  ∀ profile : DecryptProfile, profile.engine = "doris" → ∀ originals : List String, originals ≠ [] →
    originals.length ≤ 1000 → (∀ value ∈ originals, value ∈ columnValues t column) →
      ∃ response, decryptSm3ByMapping c profile (decryptRequest job column (originals.map sm3)) = .ok response ∧
        (response.results.map fun r => (r.index, r.encryptedValue, r.found, r.originalValue)) =
          (originals.zipIdx.map fun v => (v.2, sm3 v.1, true, some v.1)) ∧
        response.found + response.notFound + response.ambiguous = originals.length

/-! ### The condition -/

/-- The column has no values, or all that its name matches can be read and is truthful about them. -/
def DecryptsWhen (sm3 : String → String) (job : MappingJob) (t : MaskTable) (column : String)
    (c : Catalog TableName MaskTable) : Prop :=
  columnValues t column = [] ∨ ∀ s, Matched c job column s →
    Readable c s ∧ ∀ value ∈ columnValues t column, Truthful sm3 c s value

/-! ### Jobs that were created -/

theorem strip_of_stripped {value : Option String} {name : String} (h : stripped value = some name) :
    strip name = name := by
  obtain ⟨hname, -⟩ := Option.filter_eq_some_iff.mp h
  obtain ⟨text, -, rfl⟩ := Option.map_eq_some_iff.mp hname
  exact strip_strip text

theorem strip_getD {value : Option String} {default : String} (h : strip default = default) :
    strip ((stripped value).getD default) = (stripped value).getD default := by
  cases hvalue : stripped value with
  | none => exact h
  | some name => exact strip_of_stripped hvalue

/-- The names that creating a job has checked. -/
structure CreatedNames (job : MappingJob) : Prop where
  relation : RelationNames job
  columns : ∀ column ∈ job.hashedColumns, strip column = column ∧ column ≠ ""
  mappings : ∀ column name, job.mappingTables.lookup column = some name → isIdent name = true

theorem names_of_created {stamp id : String} {conflict : Option (String × String)} {r : Sm3TaskRequest}
    (h : createSm3MappingTask stamp id conflict r = .ok job) : CreatedNames job := by
  simp only [createSm3MappingTask, bind_eq_ok, raiseIf_eq_ok] at h
  obtain ⟨_, -, _, -, _, -, _, -, _, -, _, hdatabase, _, htable, mappings, hmappings, backup, -, output, -, _, -, _, -,
    _, -, _, -, _, -, hjob⟩ := h
  cases hjob
  rw [Bool.not_eq_false] at hdatabase htable
  have hdb : strip ((stripped r.fieldMappingDatabase).getD ((stripped r.mappingDatabase).getD (strip r.database))) =
      (stripped r.fieldMappingDatabase).getD ((stripped r.mappingDatabase).getD (strip r.database)) :=
    strip_getD (strip_getD (strip_strip r.database))
  have hname : strip ((stripped r.fieldMappingTable).getD "doris_mask_field_mappings") =
      (stripped r.fieldMappingTable).getD "doris_mask_field_mappings" := strip_getD (by decide +kernel)
  refine ⟨⟨?_, ?_⟩, fun column hcolumn => ?_, fun column name hlookup => ?_⟩
  · unfold MappingJob.relationDb
    simp only
    rw [Option.filter_some_pos (by exact decide_eq_true (isIdent_ne_empty hdatabase)), Option.getD_some]
    exact ⟨hdatabase, hdb⟩
  · unfold MappingJob.relationTable
    simp only
    rw [Option.filter_some_pos (by exact decide_eq_true (isIdent_ne_empty htable)), Option.getD_some]
    exact ⟨htable, hname⟩
  · obtain ⟨hmem, hne⟩ := List.mem_filter.mp hcolumn
    obtain ⟨text, -, rfl⟩ := List.mem_map.mp hmem
    exact ⟨strip_strip text, of_decide_eq_true hne⟩
  · obtain ⟨before, after, hsplit, -⟩ := List.lookup_eq_some_iff.mp hlookup
    simp only at hsplit
    have hmem : (column, name) ∈ mappings := by
      rw [hsplit]
      exact List.mem_append_right _ List.mem_cons_self
    obtain ⟨source, -, hreturns⟩ := (mapM_eq_ok hmappings).2 _ hmem
    simp only at hreturns
    split at hreturns
    · next hident =>
        cases hreturns
        exact hident
    · cases hreturns

/-! ### The relation of the column -/

/-- The source that a column's own relation gives. -/
theorem Written.matched (h : Written sm3 env job t column mapping columns c) (hstrip : strip column = column)
    (hne : column ≠ "") (hmapping : isIdent mapping = true) : ∃ s, Matched c job column s ∧
      s.key = (job.mappingDb, mapping, "original_value", "sm3_value") := by
  obtain ⟨f, hf, rfl, hrow⟩ := h.relation
  have hcell : ∀ name ∈ relationColumns,
      cell f.columns (relationRow env job f.columns column) name =
        (DorisSm3Mapping.relation env job column).lookup name :=
    fun name hname => cell_map (h.columns name hname)
  have halgorithm : cell f.columns (relationRow env job f.columns column) "algorithm" = some "SM3" :=
    hcell _ (by decide)
  have hdatabase : cell f.columns (relationRow env job f.columns column) "mapping_database" = some job.mappingDb :=
    hcell _ (by decide)
  have htable : cell f.columns (relationRow env job f.columns column) "mapping_table_name" = some mapping := by
    have hname : cell f.columns (relationRow env job f.columns column) "mapping_table_name" =
      some ((job.mappingTables.lookup column).getD "") := hcell _ (by decide)
    rw [hname, h.lookup, Option.getD_some]
  have hsource : cell f.columns (relationRow env job f.columns column) "source_column_name" = some column :=
    hcell _ (by decide)
  have horiginal : cell f.columns (relationRow env job f.columns column) "mapping_original_column" =
      some "original_value" := hcell _ (by decide)
  have hmasked : cell f.columns (relationRow env job f.columns column) "mapping_masked_column" =
      some "sm3_value" := hcell _ (by decide)
  have halias : column ∈ fieldAliases column [] := by
    unfold fieldAliases
    rw [List.mem_filter, Dict.mem_fromKeys, hstrip]
    exact ⟨List.mem_cons_self, decide_eq_true hne⟩
  refine ⟨_, ⟨f, _, hf, hrow, ?_, rfl⟩, ?_⟩
  · unfold matchesCategory
    rw [halgorithm, hdatabase, htable]
    refine decide_eq_true ⟨rfl, nofun, ?_, "source_column_name", List.mem_cons_self, column, halias, hsource⟩
    rw [Option.filter_some_pos (by exact decide_eq_true (isIdent_ne_empty hmapping))]
    exact nofun
  · unfold sourceOf MappingSource.key
    simp only
    rw [hdatabase, htable, horiginal, hmasked]
    rfl

theorem Readable.of_key {s kept : MappingSource} (h : Readable c kept) (hkey : kept.key = s.key) : Readable c s := by
  unfold MappingSource.key at hkey
  simp only [Prod.mk.injEq] at hkey
  obtain ⟨hdatabase, htable, horiginal, hencrypted⟩ := hkey
  obtain ⟨hnames, hfound⟩ := h
  rw [hdatabase, htable, horiginal, hencrypted] at hnames hfound
  exact ⟨hnames, hfound⟩

/-! ### Decryption -/

theorem decryptSm3ByMapping_eq_ok {profile : DecryptProfile} {body : DecryptRequest} {response : DecryptResponse}
    (hengine : profile.engine = "doris") (hlength : body.encryptedValues.length ≤ 1000) :
    decryptSm3ByMapping c profile body = .ok response ↔ ∃ sources lookup,
      resolveMappingSources c profile body = .ok sources ∧
        loadMappingValues c sources body.encryptedValues = .ok lookup ∧
        response = responseOf body sources lookup := by
  unfold decryptSm3ByMapping
  simp only [bind_eq_ok, raiseIf_eq_ok]
  constructor
  · rintro ⟨_, -, _, -, sources, hsources, lookup, hlookup, hresponse⟩
    cases hresponse
    exact ⟨sources, lookup, hsources, hlookup, rfl⟩
  · rintro ⟨sources, lookup, hsources, hlookup, rfl⟩
    exact ⟨(), not_not.mpr hengine, (), Nat.not_lt.mpr hlength, sources, hsources, lookup, hlookup, rfl⟩

theorem decrypts_of_readable (hnames : CreatedNames job) (hcolumn : column ∈ job.hashedColumns)
    (hwritten : Written sm3 env job t column mapping columns c)
    (h : ∀ s, Matched c job column s → Readable c s ∧ ∀ value ∈ columnValues t column, Truthful sm3 c s value) :
    Decrypts sm3 job t column c := by
  intro profile hengine originals hne hlength hvalues
  obtain ⟨own, hown, hkey⟩ := hwritten.matched (hnames.columns column hcolumn).1 (hnames.columns column hcolumn).2
    (hnames.mappings _ _ hwritten.lookup)
  obtain ⟨f, hf, rfl, -⟩ := hwritten.relation
  obtain ⟨rows, hrows, hmem⟩ := selectRelations_mem column (originals.map sm3) hf hwritten.columns
  obtain ⟨sources, hcollect⟩ := collectSources_of rows (fun s hs => (h s ((hmem s).mp hs)).1) []
  obtain ⟨hkept, hall⟩ := collectSources_eq_ok hcollect
  obtain ⟨kept, hsource, hkeptKey⟩ := (hall own ((hmem own).mpr hown)).resolve_left List.not_mem_nil
  obtain ⟨lookup, hload⟩ := loadMappingValues_of
    (fun s hs => (h s ((hmem s).mp (hkept s hs).1)).1) (originals.map sm3)
  have hmapped : originals.map sm3 ≠ [] := by
    rw [ne_eq, List.map_eq_nil_iff]
    exact hne
  obtain ⟨-, hpairs⟩ := loadMappingValues_eq_ok hload hmapped
  -- each value has the pair that the job has written, and no other original
  have hfound : ∀ value ∈ originals, ∀ index, (resultOf lookup (sm3 value) index).index = index ∧
      (resultOf lookup (sm3 value) index).encryptedValue = sm3 value ∧
      (resultOf lookup (sm3 value) index).found = true ∧ (resultOf lookup (sm3 value) index).ambiguous = false ∧
      (resultOf lookup (sm3 value) index).originalValue = some value := by
    intro value hvalue index
    refine resultOf_found index ?_ ?_
    · obtain ⟨m, hm, hcolumns, hrow⟩ := hwritten.pairs value (hvalues value hvalue)
      unfold MappingSource.key at hkey hkeptKey
      rw [hkey] at hkeptKey
      simp only [Prod.mk.injEq] at hkeptKey
      obtain ⟨hdatabase, htable, horiginal, hencrypted⟩ := hkeptKey
      refine ⟨⟨sm3 value, some value, kept⟩, (hpairs _).mpr ⟨hsource, List.mem_map_of_mem hvalue, m, ?_, _, hrow, ?_, ?_⟩,
        rfl⟩
      · simp only
        rw [hdatabase, htable]
        exact hm
      · simp only
        rw [hcolumns, hencrypted]
        rfl
      · simp only
        rw [hcolumns, horiginal]
        rfl
    · intro p hp hencrypted
      obtain ⟨hs, -, m, hm, row, hrow, hcell, horiginal⟩ := (hpairs p).mp hp
      rw [horiginal]
      rw [hencrypted] at hcell
      exact (h p.source ((hmem _).mp (hkept _ hs).1)).2 value (hvalues value hvalue) m hm row hrow hcell
  refine ⟨_, (decryptSm3ByMapping_eq_ok hengine ?_).mpr ⟨sources, lookup,
    (resolveMappingSources_eq_ok hnames.relation hf hwritten.columns).mpr
      ⟨rows, hmem, hrows, hcollect, List.ne_nil_of_mem hsource⟩, hload, rfl⟩, ?_, ?_⟩
  · rw [show (decryptRequest job column (originals.map sm3)).encryptedValues = originals.map sm3 from rfl,
      List.length_map]
    exact hlength
  · unfold responseOf decryptRequest
    simp only [List.zipIdx_map, List.map_map]
    refine List.map_congr_left fun v hv => ?_
    obtain ⟨hindex, hencrypted, hisFound, -, horiginal⟩ := hfound v.1 (List.fst_mem_of_mem_zipIdx hv) v.2
    exact Prod.ext hindex (Prod.ext hencrypted (Prod.ext hisFound horiginal))
  · have hresults : ∀ r ∈ (responseOf (decryptRequest job column (originals.map sm3)) sources lookup).results,
        r.found = true ∧ r.ambiguous = false := by
      intro r hr
      obtain ⟨v, hv, rfl⟩ := List.mem_map.mp hr
      obtain ⟨value, hvalue, heq⟩ := List.mem_map.mp (List.fst_mem_of_mem_zipIdx hv)
      rw [← heq]
      obtain ⟨-, -, hisFound, hunambiguous, -⟩ := hfound value hvalue v.2
      exact ⟨hisFound, hunambiguous⟩
    have hcount : (responseOf (decryptRequest job column (originals.map sm3)) sources lookup).found =
        originals.length := by
      refine (List.countP_eq_length.mpr fun r hr => (hresults r hr).1).trans ?_
      simp [responseOf, decryptRequest]
    have hnone : (responseOf (decryptRequest job column (originals.map sm3)) sources lookup).ambiguous = 0 :=
      List.countP_eq_zero.mpr fun r hr => by rw [(hresults r hr).2]; exact Bool.false_ne_true
    have hrest : (responseOf (decryptRequest job column (originals.map sm3)) sources lookup).notFound =
        (originals.map sm3).length -
          (responseOf (decryptRequest job column (originals.map sm3)) sources lookup).found -
          (responseOf (decryptRequest job column (originals.map sm3)) sources lookup).ambiguous := rfl
    rw [hrest, hcount, hnone, List.length_map]
    omega

/-- A single value that comes back shows what is known of its mapping tables. -/
theorem readable_of_decrypts (hnames : CreatedNames job)
    (hwritten : Written sm3 env job t column mapping columns c) (h : Decrypts sm3 job t column c) {value : String}
    (hvalue : value ∈ columnValues t column) {s : MappingSource} (hs : Matched c job column s) :
    Readable c s ∧ Truthful sm3 c s value := by
  obtain ⟨response, hresponse, hresults, -⟩ := h ⟨"doris", none⟩ rfl [value] (List.cons_ne_nil _ _)
    (by simp) fun other hother => List.mem_singleton.mp hother ▸ hvalue
  obtain ⟨sources, lookup, hresolve, hload, rfl⟩ :=
    (@decryptSm3ByMapping_eq_ok c ⟨"doris", none⟩ _ _ rfl (by simp [decryptRequest])).mp hresponse
  obtain ⟨f, hf, rfl, -⟩ := hwritten.relation
  obtain ⟨rows, hmem, -, hcollect, -⟩ :=
    (resolveMappingSources_eq_ok hnames.relation hf hwritten.columns).mp hresolve
  obtain ⟨hkept, hall⟩ := collectSources_eq_ok hcollect
  obtain ⟨kept, hsource, hkey⟩ := (hall s ((hmem s).mpr hs)).resolve_left List.not_mem_nil
  obtain ⟨htables, hpairs⟩ := loadMappingValues_eq_ok hload (List.cons_ne_nil _ _)
  have hreadable : Readable c s := Readable.of_key ⟨(hkept kept hsource).2, htables kept hsource⟩ hkey
  refine ⟨hreadable, fun m hm row hrow hcell => ?_⟩
  have hhead := (List.cons.inj hresults).1
  have hfound : (resultOf lookup (sm3 value) 0).found = true := congrArg (fun r => r.2.2.1) hhead
  have horiginal : (resultOf lookup (sm3 value) 0).originalValue = some value := congrArg (fun r => r.2.2.2) hhead
  unfold MappingSource.key at hkey
  simp only [Prod.mk.injEq] at hkey
  obtain ⟨hdatabase, htable, hcolumn, hencrypted⟩ := hkey
  refine original_of_found hfound horiginal ⟨sm3 value, cell m.columns row s.originalColumn, kept⟩
    ((hpairs _).mpr ⟨hsource, List.mem_singleton_self _, m, ?_, row, hrow, ?_, ?_⟩) rfl
  · simp only
    rw [hdatabase, htable]
    exact hm
  · simp only
    rw [hencrypted]
    exact hcell
  · simp only
    rw [hcolumn]

/-- Behind a succeeded job, and jobs for other tables that move none of its mapping tables and not its relations,
the values of a masked column are decrypted if and only if every relation that the column's name matches can be
read and is truthful about them. -/
theorem decrypts_iff {stamp id : String} {conflict : Option (String × String)} {r : Sm3TaskRequest}
    {later : List (Sm3Env × MappingJob)} (hcreated : createSm3MappingTask stamp id conflict r = .ok job)
    (hown : (job.database, job.tableName) ∉ job.mappings) (ht : tables (job.database, job.tableName) = some t)
    (hsucceeded : (mappingRun sm3 env job tables).status.state = .succeeded)
    (hcolumn : column ∈ job.hashedColumns) (hspares : ∀ run ∈ later, Spares job run.2) :
    Decrypts sm3 job t column (afterJobs sm3 later (mappingRun sm3 env job tables).tables) ↔
      DecryptsWhen sm3 job t column (afterJobs sm3 later (mappingRun sm3 env job tables).tables) := by
  have hnames := names_of_created hcreated
  obtain ⟨mapping, columns, hfirst⟩ := written_of_succeeded hown ht hcolumn hsucceeded
  have hwritten := hfirst.afterJobs hspares
  constructor
  · intro h
    by_cases hvalues : columnValues t column = []
    · exact .inl hvalues
    · obtain ⟨value, hvalue⟩ := List.exists_mem_of_ne_nil _ hvalues
      exact .inr fun s hs => ⟨(readable_of_decrypts hnames hwritten h hvalue hs).1,
        fun other hother => (readable_of_decrypts hnames hwritten h hother hs).2⟩
  · rintro (hnone | h)
    · intro profile _ originals hne _ hvalues
      obtain ⟨value, hvalue⟩ := List.exists_mem_of_ne_nil _ hne
      have hmem := hvalues value hvalue
      rw [hnone] at hmem
      cases hmem
    · exact decrypts_of_readable hnames hcolumn hwritten h

end

/-- The phone numbers of a table, with the field relations in a database of their own. -/
def phoneRequest (database tableName : String) : Sm3TaskRequest :=
  { engine := "doris", database := database, tableName := tableName, columns := ["phone"],
    fieldMappingDatabase := some "mask", outputSuffix := some "masked" }

def phoneJob (database tableName : String) : MappingJob :=
  { id := "1", database := database, tableName := tableName, tableMode := "create_suffixed",
    backupTableName := none, outputTableName := some s!"{tableName}_masked", hashedColumns := ["phone"],
    mappingDatabase := none, mappingTables := [("phone", "sm3_map_phone")], fieldMappingDatabase := some "mask",
    fieldMappingTable := some "doris_mask_field_mappings" }

def phoneTable : MaskTable := { columns := ["phone"], rows := [[some "138"], [none], [some "139"]] }

def phoneTables (database : String) : Catalog TableName MaskTable :=
  Function.update (Function.update (fun _ => none) (database, "users") (some phoneTable)) (database, "orders")
    (some { columns := ["phone"], rows := [[some "138"]] })

/-- The mapping table of the phone numbers. -/
def phonePairs : MaskTable :=
  { columns := mappingColumns, rows := [pairRow ("sm3:" ++ ·) "138", pairRow ("sm3:" ++ ·) "139"] }

/-- A later job for another table writes to the same mapping table. -/
theorem phones_decrypted : Decrypts ("sm3:" ++ ·) (phoneJob "ods" "users") phoneTable "phone"
      (afterJobs ("sm3:" ++ ·) [({}, phoneJob "ods" "orders")]
        (mappingRun ("sm3:" ++ ·) {} (phoneJob "ods" "users") (phoneTables "ods")).tables) := by
  have hcreated : createSm3MappingTask "20260927_143000" "1" none (phoneRequest "ods" "users") =
      .ok (phoneJob "ods" "users") := rfl
  have hsucceeded : (mappingRun ("sm3:" ++ ·) {} (phoneJob "ods" "users") (phoneTables "ods")).status.state =
      .succeeded := rfl
  have hrelations : afterJobs ("sm3:" ++ ·) [({}, phoneJob "ods" "orders")]
      (mappingRun ("sm3:" ++ ·) {} (phoneJob "ods" "users") (phoneTables "ods")).tables
        ("mask", "doris_mask_field_mappings") = some ⟨relationColumns,
          [relationRow {} (phoneJob "ods" "users") relationColumns "phone",
            relationRow {} (phoneJob "ods" "orders") relationColumns "phone"]⟩ := rfl
  have hpairs : afterJobs ("sm3:" ++ ·) [({}, phoneJob "ods" "orders")]
      (mappingRun ("sm3:" ++ ·) {} (phoneJob "ods" "users") (phoneTables "ods")).tables
        ("ods", "sm3_map_phone") = some phonePairs := rfl
  refine (decrypts_iff hcreated (by decide +kernel) rfl hsucceeded (by decide) fun run hrun => ?_).mpr
    (.inr fun s hs => ?_)
  · rw [List.mem_singleton.mp hrun]
    exact ⟨by decide, nofun⟩
  · obtain ⟨f, row, hf, hrow, -, rfl⟩ := hs
    cases hrelations.symm.trans hf
    have hkey : (sourceOf relationColumns row).key = ("ods", "sm3_map_phone", "original_value", "sm3_value") := by
      rcases List.mem_cons.mp hrow with rfl | hrow
      · rfl
      · rw [List.mem_singleton.mp hrow]
        rfl
    unfold MappingSource.key at hkey
    simp only [Prod.mk.injEq] at hkey
    obtain ⟨hdatabase, htable, horiginal, hencrypted⟩ := hkey
    refine ⟨⟨?_, phonePairs, ?_, ?_, ?_⟩, fun value hvalue m hm pair hpair hcell => ?_⟩
    · rw [hdatabase, htable, horiginal, hencrypted]
      decide +kernel
    · rw [hdatabase, htable]
      exact hpairs
    · rw [hencrypted]
      decide
    · rw [horiginal]
      decide
    · rw [hdatabase, htable] at hm
      cases hpairs.symm.trans hm
      rw [hencrypted] at hcell
      rw [horiginal]
      have htruthful : ∀ value ∈ columnValues phoneTable "phone", ∀ pair ∈ phonePairs.rows,
          cell mappingColumns pair "sm3_value" = some ("sm3:" ++ value) →
            (cell mappingColumns pair "original_value").getD "None" = value := by decide +kernel
      exact htruthful value hvalue pair hpair hcell

/-- Nothing checks the database of a job; where it is the mapping database too, it is refused when the values
are looked up. -/
theorem dashed_database_not_decrypted :
    ∃ job tables, createSm3MappingTask "20260927_143000" "1" none (phoneRequest "app-db" "users") = .ok job ∧
      (mappingRun ("sm3:" ++ ·) {} job tables).status.state = .succeeded ∧
      tables (job.database, job.tableName) = some phoneTable ∧ "phone" ∈ job.hashedColumns ∧
      ¬ Decrypts ("sm3:" ++ ·) job phoneTable "phone" (mappingRun ("sm3:" ++ ·) {} job tables).tables := by
  have hcreated : createSm3MappingTask "20260927_143000" "1" none (phoneRequest "app-db" "users") =
      .ok (phoneJob "app-db" "users") := rfl
  have hsucceeded : (mappingRun ("sm3:" ++ ·) {} (phoneJob "app-db" "users") (phoneTables "app-db")).status.state =
      .succeeded := rfl
  refine ⟨phoneJob "app-db" "users", phoneTables "app-db", hcreated, hsucceeded, rfl, by decide, fun h => ?_⟩
  have hnames := names_of_created hcreated
  obtain ⟨mapping, columns, hwritten⟩ := written_of_succeeded (by decide +kernel) rfl (List.mem_singleton_self _) hsucceeded
  obtain ⟨s, hs, hkey⟩ := hwritten.matched (hnames.columns "phone" (List.mem_singleton_self _)).1 (by decide)
    (hnames.mappings _ _ hwritten.lookup)
  have hreadable := (readable_of_decrypts hnames hwritten h (by decide : "138" ∈ columnValues phoneTable "phone") hs).1
  have hident := hreadable.names _ List.mem_cons_self
  have hdatabase : s.mappingDatabase = "app-db" := congrArg Prod.fst hkey
  rw [hdatabase] at hident
  exact absurd hident (by decide +kernel)

end RecoveryService.DorisSm3Mapping
