import RecoveryService.DorisSm3Mapping.Recovered

/-! # The lookup of masked values

What the service resolves and loads from given tables, and what it makes of the pairs it finds. -/

namespace RecoveryService.DorisSm3Mapping

open Checks Tables DorisEncryption Text

section

variable {c : Catalog TableName MaskTable} {job : MappingJob} {column : String}

/-! ### The request -/

/-- The request for the values of a column. -/
def decryptRequest (job : MappingJob) (column : String) (values : List String) : DecryptRequest where
  fieldCategory := column
  encryptedValues := values
  fieldMappingDatabase := some job.relationDb
  fieldMappingTable := some job.relationTable

/-- A relation that the names of the category match. -/
def Matched (c : Catalog TableName MaskTable) (job : MappingJob) (column : String) (s : MappingSource) : Prop :=
  ∃ f row, c (job.relationDb, job.relationTable) = some f ∧ row ∈ f.rows ∧
    matchesCategory f.columns (fieldAliases column []) row = true ∧ s = sourceOf f.columns row

/-- The relation names a table that there is, by names that the service accepts. -/
structure Readable (c : Catalog TableName MaskTable) (s : MappingSource) : Prop where
  names : ∀ name ∈ [s.mappingDatabase, s.mappingTable, s.originalColumn, s.encryptedColumn],
    isIdent (strip name) = true
  table : ∃ m, c (s.mappingDatabase, s.mappingTable) = some m ∧ s.encryptedColumn ∈ m.columns ∧
    s.originalColumn ∈ m.columns

/-- No row of the mapping table has another original for the value. -/
def Truthful (sm3 : String → String) (c : Catalog TableName MaskTable) (s : MappingSource) (value : String) : Prop :=
  ∀ m, c (s.mappingDatabase, s.mappingTable) = some m → ∀ row ∈ m.rows,
    cell m.columns row s.encryptedColumn = some (sm3 value) →
      (cell m.columns row s.originalColumn).getD "None" = value

/-! ### Names -/

theorem isIdent_ne_empty {name : String} (h : isIdent name = true) : name ≠ "" := by
  unfold isIdent at h
  rw [Bool.and_eq_true] at h
  exact of_decide_eq_true h.1

variable {value : String}

theorem cleanIdentifier_eq_ok {label r : String} :
    cleanIdentifier (some value) label = .ok r ↔ isIdent (strip value) = true ∧ r = strip value := by
  unfold cleanIdentifier
  simp only [Option.getD_some]
  by_cases hempty : strip value = ""
  · rw [if_pos hempty]
    refine iff_of_false nofun ?_
    rintro ⟨h, -⟩
    exact isIdent_ne_empty h hempty
  · rw [if_neg hempty]
    by_cases hident : isIdent (strip value) = true
    · rw [if_pos hident, Except.ok.injEq]
      exact ⟨fun h => ⟨hident, h.symm⟩, fun h => h.2.symm⟩
    · rw [if_neg hident]
      exact iff_of_false nofun fun h => hident h.1

theorem validateMappingSource_eq_ok {s : MappingSource} {u : Unit} : validateMappingSource s = .ok u ↔
    ∀ name ∈ [s.mappingDatabase, s.mappingTable, s.originalColumn, s.encryptedColumn],
      isIdent (strip name) = true := by
  unfold validateMappingSource
  simp only [bind_eq_ok, cleanIdentifier_eq_ok, List.forall_mem_cons, List.not_mem_nil]
  constructor
  · rintro ⟨-, ⟨h₁, -⟩, -, ⟨h₂, -⟩, -, ⟨h₃, -⟩, -, ⟨h₄, -⟩, -⟩
    exact ⟨h₁, h₂, h₃, h₄, fun _ h => h.elim⟩
  · rintro ⟨h₁, h₂, h₃, h₄, -⟩
    exact ⟨_, ⟨h₁, rfl⟩, _, ⟨h₂, rfl⟩, _, ⟨h₃, rfl⟩, _, ⟨h₄, rfl⟩, rfl⟩

/-! ### The sources -/

variable {sources : List MappingSource}

/-- The sources that are kept are validated, and stand for every row. -/
theorem collectSources_eq_ok {seen : List (String × String × String × String)} {rows : List MappingSource}
    (h : collectSources c seen rows = .ok sources) :
    (∀ s ∈ sources, s ∈ rows ∧ ∀ name ∈ [s.mappingDatabase, s.mappingTable, s.originalColumn, s.encryptedColumn],
      isIdent (strip name) = true) ∧ ∀ s ∈ rows, s.key ∈ seen ∨ ∃ kept ∈ sources, kept.key = s.key := by
  induction rows generalizing seen sources with
  | nil =>
      cases h
      exact ⟨nofun, nofun⟩
  | cons s rest ih =>
      rw [collectSources] at h
      split at h
      · next hseen =>
          obtain ⟨hsources, hrows⟩ := ih h
          refine ⟨fun kept hkept => ⟨List.mem_cons_of_mem _ (hsources kept hkept).1, (hsources kept hkept).2⟩,
            fun row hrow => ?_⟩
          rcases List.mem_cons.mp hrow with rfl | hrow
          · exact .inl hseen
          · exact hrows row hrow
      · obtain ⟨u, hvalid, h⟩ := bind_eq_ok.mp h
        obtain ⟨u', -, h⟩ := bind_eq_ok.mp h
        obtain ⟨others, hothers, h⟩ := bind_eq_ok.mp h
        cases h
        obtain ⟨hsources, hrows⟩ := ih hothers
        refine ⟨fun kept hkept => ?_, fun row hrow => ?_⟩
        · rcases List.mem_cons.mp hkept with rfl | hkept
          · exact ⟨List.mem_cons_self, validateMappingSource_eq_ok.mp hvalid⟩
          · exact ⟨List.mem_cons_of_mem _ (hsources kept hkept).1, (hsources kept hkept).2⟩
        · rcases List.mem_cons.mp hrow with rfl | hrow
          · exact .inr ⟨row, List.mem_cons_self, rfl⟩
          · rcases hrows row hrow with hseen | ⟨kept, hkept, hkey⟩
            · rcases List.mem_cons.mp hseen with hkey | hseen
              · exact .inr ⟨s, List.mem_cons_self, hkey.symm⟩
              · exact .inl hseen
            · exact .inr ⟨kept, List.mem_cons_of_mem _ hkept, hkey⟩

/-- Rows that can all be read are collected. -/
theorem collectSources_of (rows : List MappingSource) (h : ∀ s ∈ rows, Readable c s)
    (seen : List (String × String × String × String)) : ∃ sources, collectSources c seen rows = .ok sources := by
  induction rows generalizing seen with
  | nil => exact ⟨[], rfl⟩
  | cons s rest ih =>
      rw [List.forall_mem_cons] at h
      obtain ⟨⟨hnames, m, hm, -⟩, hrest⟩ := h
      rw [collectSources]
      split
      · exact ih hrest seen
      · obtain ⟨sources, hsources⟩ := ih hrest (s.key :: seen)
        have hvalid : validateMappingSource s = .ok () := validateMappingSource_eq_ok.mpr hnames
        have hexists : ensureTableExists c s.mappingDatabase s.mappingTable = .ok () := by
          refine raiseIf_eq_ok.mpr ?_
          rw [hm]
          exact nofun
        rw [hvalid, hexists, hsources]
        exact ⟨_, rfl⟩

theorem isMatch_decryptRequest {columns aliases values : List String} {row : List (Option String)} :
    isMatch columns aliases (decryptRequest job column values) row = matchesCategory columns aliases row := by
  simp [isMatch, passesFilter, decryptRequest]

variable {f : MaskTable} {values : List String} {profile : DecryptProfile}

/-- What the query of the relations gives. -/
theorem selectRelations_mem (column : String) (values : List String)
    (hf : c (job.relationDb, job.relationTable) = some f)
    (hcolumns : ∀ name ∈ relationColumns, name ∈ f.columns) : ∃ rows,
      selectRelations c (job.relationDb, job.relationTable) (fieldAliases column [])
        (decryptRequest job column values) = .ok rows ∧ ∀ s, s ∈ rows ↔ Matched c job column s := by
  unfold selectRelations
  rw [hf]
  simp only
  have hselected : ∀ name ∈ selectedColumns, name ∈ f.columns := fun name hname =>
    hcolumns name (List.mem_filter.mp hname).1
  rw [if_pos hselected]
  refine ⟨_, rfl, fun s => ?_⟩
  rw [List.mem_mergeSort, Dict.mem_fromKeys, List.mem_map]
  constructor
  · rintro ⟨row, hrow, rfl⟩
    rw [List.mem_filter, isMatch_decryptRequest] at hrow
    exact ⟨f, row, hf, hrow.1, hrow.2, rfl⟩
  · rintro ⟨f', row, hf', hrow, hmatch, rfl⟩
    rw [hf] at hf'
    cases hf'
    refine ⟨row, List.mem_filter.mpr ⟨hrow, ?_⟩, rfl⟩
    rw [isMatch_decryptRequest]
    exact hmatch

/-- The names of the relations' table, as a job that was created has them. -/
structure RelationNames (job : MappingJob) : Prop where
  database : isIdent job.relationDb = true ∧ strip job.relationDb = job.relationDb
  table : isIdent job.relationTable = true ∧ strip job.relationTable = job.relationTable

theorem resolveMappingSources_eq_ok (hnames : RelationNames job)
    (hf : c (job.relationDb, job.relationTable) = some f)
    (hcolumns : ∀ name ∈ relationColumns, name ∈ f.columns) :
    resolveMappingSources c profile (decryptRequest job column values) = .ok sources ↔
      ∃ rows, (∀ s, s ∈ rows ↔ Matched c job column s) ∧ selectRelations c (job.relationDb, job.relationTable)
        (fieldAliases column []) (decryptRequest job column values) = .ok rows ∧
        collectSources c [] rows = .ok sources ∧ sources ≠ [] := by
  obtain ⟨rows, hrows, hmem⟩ := selectRelations_mem column values hf hcolumns
  have hdb : orElse? (some job.relationDb) (orElse? none profile.database) = some job.relationDb := by
    unfold orElse?
    rw [Option.filter_some_pos (by exact decide_eq_true (isIdent_ne_empty hnames.database.1))]
    rfl
  have htable : orElse? (some job.relationTable) (some "doris_mask_field_mappings") = some job.relationTable := by
    unfold orElse?
    rw [Option.filter_some_pos (by exact decide_eq_true (isIdent_ne_empty hnames.table.1))]
    rfl
  have hresolve : resolveMappingSources c profile (decryptRequest job column values) = (do
      let database ← cleanIdentifier (orElse? (some job.relationDb) (orElse? none profile.database))
        "field_mapping_database"
      let table ← cleanIdentifier (orElse? (some job.relationTable) (some "doris_mask_field_mappings"))
        "field_mapping_table"
      ensureTableExists c database table
      let rows ← selectRelations c (database, table) (fieldAliases column []) (decryptRequest job column values)
      let sources ← collectSources c [] rows
      raiseIf (sources = []) "No SM3 mapping table matched the requested field category. Specify mapping_database and mapping_table directly, or check the field mapping table."
      pure sources) := rfl
  rw [hresolve, hdb, htable]
  simp only [bind_eq_ok, cleanIdentifier_eq_ok, hnames.database.2, hnames.table.2]
  constructor
  · rintro ⟨_, ⟨-, rfl⟩, _, ⟨-, rfl⟩, _, -, rows', hrows', sources', hcollect, _, hne, hsources⟩
    cases hsources
    rw [hrows] at hrows'
    cases hrows'
    exact ⟨rows, hmem, hrows, hcollect, raiseIf_eq_ok.mp hne⟩
  · rintro ⟨rows', -, hrows', hcollect, hne⟩
    refine ⟨_, ⟨hnames.database.1, rfl⟩, _, ⟨hnames.table.1, rfl⟩, (), raiseIf_eq_ok.mpr ?_, rows', hrows', sources,
      hcollect, (), raiseIf_eq_ok.mpr hne, rfl⟩
    rw [hf]
    exact nofun

/-! ### The values -/

theorem mem_chunks {size : ℕ} (hsize : 0 < size) :
    (∃ chunk ∈ chunks values size, value ∈ chunk) ↔ value ∈ values := by
  unfold chunks
  constructor
  · rintro ⟨chunk, hchunk, hvalue⟩
    obtain ⟨k, -, rfl⟩ := List.mem_map.mp hchunk
    exact List.mem_of_mem_drop (List.mem_of_mem_take hvalue)
  · intro hvalue
    obtain ⟨i, hi, rfl⟩ := List.mem_iff_getElem.mp hvalue
    have hdiv := Nat.div_add_mod i size
    have hmod := Nat.mod_lt i hsize
    refine ⟨_, List.mem_map.mpr ⟨i / size, List.mem_range.mpr ?_, rfl⟩, ?_⟩
    · rw [Nat.lt_div_iff_mul_lt hsize]
      rw [Nat.mul_comm] at hdiv
      omega
    · refine List.mem_iff_getElem.mpr ⟨i % size, ?_, ?_⟩
      · rw [List.length_take, List.length_drop]
        rw [Nat.mul_comm] at hdiv
        omega
      · rw [List.getElem_take, List.getElem_drop]
        congr 1
        rw [Nat.mul_comm] at hdiv
        omega

/-- A pair of the mapping table of a source. -/
def PairOf (c : Catalog TableName MaskTable) (p : Pair) : Prop :=
  ∃ m, c (p.source.mappingDatabase, p.source.mappingTable) = some m ∧ ∃ row ∈ m.rows,
    cell m.columns row p.source.encryptedColumn = some p.encryptedValue ∧
      p.originalValue = cell m.columns row p.source.originalColumn

theorem selectPairs_eq_ok {s : MappingSource} {chunk : List String} {pairs : List Pair}
    (h : selectPairs c s chunk = .ok pairs) :
    (∃ m, c (s.mappingDatabase, s.mappingTable) = some m ∧ s.encryptedColumn ∈ m.columns ∧
      s.originalColumn ∈ m.columns) ∧ ∀ p, p ∈ pairs ↔ p.source = s ∧ p.encryptedValue ∈ chunk ∧ PairOf c p := by
  unfold selectPairs at h
  split at h
  · cases h
  · next m hm =>
      split at h
      · next hcolumns =>
          cases h
          refine ⟨⟨m, hm, hcolumns⟩, fun p => ?_⟩
          rw [List.mem_filterMap]
          constructor
          · rintro ⟨row, hrow, hpair⟩
            obtain ⟨value, hvalue, hpair⟩ := Option.bind_eq_some_iff.mp hpair
            split at hpair
            · next hmem =>
                cases hpair
                exact ⟨rfl, hmem, m, hm, row, hrow, hvalue, rfl⟩
            · cases hpair
          · rintro ⟨rfl, hmem, m', hm', row, hrow, hvalue, horiginal⟩
            rw [hm] at hm'
            cases hm'
            refine ⟨row, hrow, ?_⟩
            rw [hvalue, Option.bind_some, if_pos hmem, ← horiginal]
      · cases h

variable {lookup : List Pair}

theorem loadMappingValues_eq_ok (h : loadMappingValues c sources values = .ok lookup) (hne : values ≠ []) :
    (∀ s ∈ sources, ∃ m, c (s.mappingDatabase, s.mappingTable) = some m ∧ s.encryptedColumn ∈ m.columns ∧
      s.originalColumn ∈ m.columns) ∧
      ∀ p, p ∈ lookup ↔ p.source ∈ sources ∧ p.encryptedValue ∈ values ∧ PairOf c p := by
  unfold loadMappingValues at h
  obtain ⟨parts, hparts, h⟩ := bind_eq_ok.mp h
  cases h
  have hchunk : ∀ value, (∃ chunk ∈ chunks (Dict.fromKeys values) 200, value ∈ chunk) ↔ value ∈ values := fun value =>
    (mem_chunks (by decide)).trans Dict.mem_fromKeys
  have hsource : ∀ s pairs, (do
      let found ← (chunks (Dict.fromKeys values) 200).mapM (selectPairs c s)
      pure found.flatten : Except String (List Pair)) = .ok pairs →
      (∃ m, c (s.mappingDatabase, s.mappingTable) = some m ∧ s.encryptedColumn ∈ m.columns ∧
        s.originalColumn ∈ m.columns) ∧
        ∀ p, p ∈ pairs ↔ p.source = s ∧ p.encryptedValue ∈ values ∧ PairOf c p := by
    intro s pairs hpairs
    obtain ⟨found, hfound, hpairs⟩ := bind_eq_ok.mp hpairs
    cases hpairs
    obtain ⟨hto, hfrom⟩ := mapM_eq_ok hfound
    obtain ⟨value, hvalue⟩ := List.exists_mem_of_ne_nil _ hne
    obtain ⟨first, hfirst, -⟩ := (hchunk value).mpr hvalue
    obtain ⟨_, -, hselected⟩ := hto first hfirst
    refine ⟨(selectPairs_eq_ok hselected).1, fun p => ?_⟩
    rw [List.mem_flatten]
    constructor
    · rintro ⟨part, hpart, hp⟩
      obtain ⟨chunk, hmem, hselect⟩ := hfrom part hpart
      obtain ⟨hs, hv, hof⟩ := ((selectPairs_eq_ok hselect).2 p).mp hp
      exact ⟨hs, (hchunk _).mp ⟨chunk, hmem, hv⟩, hof⟩
    · rintro ⟨hs, hv, hof⟩
      obtain ⟨chunk, hmem, hin⟩ := (hchunk _).mpr hv
      obtain ⟨part, hpart, hselect⟩ := hto chunk hmem
      exact ⟨part, hpart, ((selectPairs_eq_ok hselect).2 p).mpr ⟨hs, hin, hof⟩⟩
  obtain ⟨hto, hfrom⟩ := mapM_eq_ok hparts
  constructor
  · intro s hs
    obtain ⟨part, -, hpart⟩ := hto s hs
    exact (hsource s part hpart).1
  · intro p
    rw [List.mem_flatten]
    constructor
    · rintro ⟨part, hpart, hp⟩
      obtain ⟨s, hs, hload⟩ := hfrom part hpart
      obtain ⟨rfl, hv, hof⟩ := ((hsource s part hload).2 p).mp hp
      exact ⟨hs, hv, hof⟩
    · rintro ⟨hs, hv, hof⟩
      obtain ⟨part, hpart, hload⟩ := hto p.source hs
      exact ⟨part, hpart, ((hsource _ part hload).2 p).mpr ⟨rfl, hv, hof⟩⟩

theorem loadMappingValues_of (h : ∀ s ∈ sources, Readable c s) (values : List String) :
    ∃ lookup, loadMappingValues c sources values = .ok lookup := by
  have hparts : ∃ parts, (sources.mapM fun s => do
      let found ← (chunks (Dict.fromKeys values) 200).mapM (selectPairs c s)
      pure found.flatten : Except String (List (List Pair))) = .ok parts := by
    refine mapM_returns fun s hs => ?_
    obtain ⟨m, hm, hcolumns⟩ := (h s hs).table
    obtain ⟨found, hfound⟩ : ∃ found, (chunks (Dict.fromKeys values) 200).mapM (selectPairs c s) = .ok found := by
      refine mapM_returns fun chunk _ => ?_
      unfold selectPairs
      rw [hm]
      simp only
      rw [if_pos hcolumns]
      exact ⟨_, rfl⟩
    rw [hfound]
    exact ⟨_, rfl⟩
  obtain ⟨parts, hparts⟩ := hparts
  unfold loadMappingValues
  rw [hparts]
  exact ⟨_, rfl⟩

/-! ### The results -/

theorem eq_singleton_of_nodup {l : List String} (hnodup : l.Nodup) (hne : l ≠ []) (h : ∀ x ∈ l, x = value) :
    l = [value] := by
  cases l with
  | nil => exact absurd rfl hne
  | cons first rest =>
      obtain ⟨rfl, hrest⟩ := List.forall_mem_cons.mp h
      cases rest with
      | nil => rfl
      | cons second others =>
          obtain rfl := hrest second List.mem_cons_self
          exact absurd List.mem_cons_self (List.nodup_cons.mp hnodup).1

theorem mem_uniqueOriginals {pairs : List Pair} {text : String} :
    text ∈ uniqueOriginals pairs ↔ ∃ p ∈ pairs, p.originalValue.getD "None" = text := by
  unfold uniqueOriginals
  rw [List.mem_insertionSort, List.mem_dedup, List.mem_map]

theorem nodup_uniqueOriginals (pairs : List Pair) : (uniqueOriginals pairs).Nodup :=
  (List.perm_insertionSort _ _).nodup_iff.mpr (List.nodup_dedup _)

/-- A value is found where all its pairs have one original. -/
theorem resultOf_found {encrypted : String} (index : ℕ) (hsome : ∃ p ∈ lookup, p.encryptedValue = encrypted)
    (hall : ∀ p ∈ lookup, p.encryptedValue = encrypted → p.originalValue.getD "None" = value) :
    (resultOf lookup encrypted index).index = index ∧
      (resultOf lookup encrypted index).encryptedValue = encrypted ∧
      (resultOf lookup encrypted index).found = true ∧ (resultOf lookup encrypted index).ambiguous = false ∧
      (resultOf lookup encrypted index).originalValue = some value := by
  obtain ⟨p, hp, hvalue⟩ := hsome
  unfold resultOf
  cases hhits : lookup.filter (·.encryptedValue = encrypted) with
  | nil =>
      have hmem : p ∈ lookup.filter (·.encryptedValue = encrypted) :=
        List.mem_filter.mpr ⟨hp, decide_eq_true hvalue⟩
      rw [hhits] at hmem
      cases hmem
  | cons first rest =>
      have hone : uniqueOriginals (first :: rest) = [value] := by
        refine eq_singleton_of_nodup (nodup_uniqueOriginals _) (List.ne_nil_of_mem (mem_uniqueOriginals.mpr
          ⟨first, List.mem_cons_self, rfl⟩)) fun text htext => ?_
        obtain ⟨q, hq, rfl⟩ := mem_uniqueOriginals.mp htext
        rw [← hhits, List.mem_filter] at hq
        exact hall q hq.1 (of_decide_eq_true hq.2)
      simp only [hone]
      exact ⟨trivial, trivial, rfl, rfl, rfl⟩

/-- A value that is found has no pair with another original. -/
theorem original_of_found {encrypted : String} {index : ℕ}
    (hfound : (resultOf lookup encrypted index).found = true)
    (hvalue : (resultOf lookup encrypted index).originalValue = some value) :
    ∀ p ∈ lookup, p.encryptedValue = encrypted → p.originalValue.getD "None" = value := by
  intro p hp hencrypted
  have hmem : p ∈ lookup.filter (·.encryptedValue = encrypted) :=
    List.mem_filter.mpr ⟨hp, decide_eq_true hencrypted⟩
  unfold resultOf at hfound hvalue
  cases hhits : lookup.filter (·.encryptedValue = encrypted) with
  | nil =>
      rw [hhits] at hmem
      cases hmem
  | cons first rest =>
      rw [hhits] at hfound hvalue hmem
      simp only [Bool.not_eq_true'] at hfound hvalue
      rw [if_neg (by rw [hfound]; exact Bool.false_ne_true)] at hvalue
      have hshort : (uniqueOriginals (first :: rest)).length ≤ 1 := Nat.not_lt.mp (of_decide_eq_false hfound)
      have htext := mem_uniqueOriginals.mpr ⟨p, hmem, rfl⟩
      cases horiginals : uniqueOriginals (first :: rest) with
      | nil =>
          rw [horiginals] at htext
          cases htext
      | cons original others =>
          rw [horiginals] at hshort hvalue htext
          rw [List.length_cons] at hshort
          have hnil : others = [] := List.length_eq_zero_iff.mp (by omega)
          rw [hnil] at htext
          rw [List.head?_cons, Option.some.injEq] at hvalue
          rw [← hvalue]
          exact List.mem_singleton.mp htext

end

end RecoveryService.DorisSm3Mapping
