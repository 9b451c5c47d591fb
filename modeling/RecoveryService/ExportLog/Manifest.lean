import RecoveryService.Lib.Text

/-! # Oracle export logs

`engine/oracle/export_log_parser.py`: the manifest that `parse_oracle_export_log` makes of a log, and
`bind_export_log`.  What the regular expressions of the parser find in a text is a `Scan`; `str.lower` and
`fnmatch.fnmatchcase` are parameters. -/

namespace RecoveryService.ExportLog

abbrev Text := List Char

/-! ### Names -/

/-- `PurePosixPath(path).name`. -/
def fileName (path : Text) : Text :=
  (((path.splitOn '/').filter fun part => part ≠ [] ∧ part ≠ ['.']).getLast?).getD []

/-- `_unique`: the first of the values with the same upper-case letters. -/
def addUnique (found : List Text) (value : Text) : List Text :=
  if Text.upper value ∈ found.map Text.upper then found else found ++ [value]

def unique (values : List Text) : List Text := values.foldl addUnique []

/-- A letter of `_SAFE_IDENTIFIER` behind the first one. -/
def isNameChar (c : Char) : Bool := c.isAlphanum || c == '_' || c == '$' || c == '#'

/-- `_SAFE_IDENTIFIER.fullmatch`. -/
def safeIdentifier : Text → Bool
  | [] => false
  | c :: rest => c.isAlpha && rest.all isNameChar && decide (rest.length ≤ 127)

def isQuote (c : Char) : Bool := c == '\'' || c == '"'

/-- `_qualified_name`. -/
def qualifiedName (schema table : Text) : Text :=
  Text.upper (Text.stripChars Text.isSpace schema) ++ ['.'] ++ Text.upper (Text.stripChars Text.isSpace table)

/-- `schema, table = item.split(".", 1)`. -/
def splitName (item : Text) : Text × Text := (item.takeWhile (· ≠ '.'), (item.dropWhile (· ≠ '.')).drop 1)

/-- `_split_csv` of a list of qualified names. -/
def splitTables (value : Text) : List Text :=
  (value.splitOn ',').filterMap fun part =>
    let item := Text.stripChars isQuote (Text.stripChars Text.isSpace part)
    if item = [] then none
    else if '.' ∈ item then
      let name := splitName item
      if safeIdentifier name.1 && safeIdentifier name.2 then some (qualifiedName name.1 name.2) else none
    else some (Text.upper item)

/-- The schema of a table, as `_schemas_from_tables` takes it. -/
def schemaOf (table : Text) : Option Text :=
  if '.' ∈ table then
    let schema := Text.upper (Text.stripChars (· == '"') (splitName table).1)
    if safeIdentifier schema then some schema else none
  else none

/-- `_schemas_from_tables`. -/
def schemasFromTables (tables : List Text) : List Text :=
  (tables.filterMap schemaOf).dedup.insertionSort (· ≤ ·)

/-! ### The manifest -/

/-- The last line of a Data Pump job. -/
inductive Footer where
  | clean
  | errors (count : ℕ)
  | failed

/-- What the parser finds in a text. -/
structure Scan where
  /-- `Export: Release`. -/
  header : Bool
  /-- `Parfile values:` or `SYS_EXPORT_`. -/
  dataPump : Bool
  /-- The values of the parfile, then those of the command, with lower-case keys. -/
  parameters : List (Text × Text)
  /-- The paths of the dump file set; they end with `.dmp`. -/
  dumpPaths : List Text
  named : ∀ path ∈ dumpPaths, fileName path ≠ []
  /-- The tables of the lines `exported`. -/
  exportedTables : List Text
  /-- The objects of the lines `ORA-39166`. -/
  missing : List Text
  footer : Option Footer

inductive SourceStatus where
  | unrecognized
  | cleanSuccess
  | completedWithErrors
  | failed
  | incomplete
deriving DecidableEq

inductive ExportMode where
  | unknown
  | transportable
  | tables
  | tablespaces
  | schemas
  | full
deriving DecidableEq

inductive Tool where
  | unknown
  | exp
  | expdp
deriving DecidableEq

/-- `OracleExportLogManifest`, where anything depends on it. -/
structure Manifest where
  recognized : Bool := false
  tool : Tool := .unknown
  sourceStatus : SourceStatus := .unrecognized
  exportMode : ExportMode := .unknown
  dumpfilePattern : Text := []
  logfileName : Text := []
  dumpFiles : List Text := []
  schemas : List Text := []
  missingObjects : List Text := []
  completionErrorCount : ℕ := 0

/-- `params.get(key, "")`. -/
def Scan.get (s : Scan) (key : String) : Text := (s.parameters.lookup key.toList).getD []

/-- `_export_mode`. -/
def Scan.exportMode (s : Scan) : ExportMode :=
  if s.get "transport_tablespaces" ≠ [] ∨ Text.upper (s.get "transport_full_check") = ['Y'] then .transportable
  else if s.get "tables" ≠ [] then .tables
  else if s.get "tablespaces" ≠ [] then .tablespaces
  else if s.get "schemas" ≠ [] then .schemas
  else if Text.upper (s.get "full") ∈ [['Y'], ['Y', 'E', 'S']] then .full
  else .unknown

/-- `parse_oracle_export_log`. -/
def Scan.manifest (s : Scan) : Manifest :=
  if s.header = false then {}
  else
    let missing := unique (s.missing.map Text.upper)
    { recognized := true
      tool := if s.dataPump then .expdp else .exp
      sourceStatus := match s.footer with
        | some .clean => .cleanSuccess
        | some (.errors _) => .completedWithErrors
        | some .failed => .failed
        | none => .incomplete
      exportMode := s.exportMode
      dumpfilePattern := fileName (s.get "dumpfile")
      logfileName := fileName (s.get "logfile")
      dumpFiles := unique (s.dumpPaths.map fileName)
      schemas := schemasFromTables (unique (splitTables (s.get "tables")) ++ s.exportedTables ++ missing)
      missingObjects := missing
      completionErrorCount := match s.footer with
        | some (.errors count) => count
        | _ => 0 }

theorem mem_addUnique {found values : List Text} {x : Text} (h : x ∈ values.foldl addUnique found) :
    x ∈ found ∨ x ∈ values := by
  induction values generalizing found with
  | nil => exact .inl h
  | cons value values ih =>
      rcases ih h with h | h
      · unfold addUnique at h
        split at h
        · exact .inl h
        · rcases List.mem_append.mp h with h | h
          · exact .inl h
          · exact .inr (List.mem_singleton.mp h ▸ List.mem_cons_self)
      · exact .inr (List.mem_cons_of_mem _ h)

theorem mem_unique {values : List Text} {x : Text} (h : x ∈ unique values) : x ∈ values :=
  (mem_addUnique h).resolve_left List.not_mem_nil

theorem named_of_mem_manifest {s : Scan} {name : Text} (h : name ∈ s.manifest.dumpFiles) : name ≠ [] := by
  unfold Scan.manifest at h
  split at h
  · cases h
  · obtain ⟨path, hpath, rfl⟩ := List.mem_map.mp (mem_unique h)
    exact s.named path hpath

/-- `has_source_gaps`. -/
def Manifest.hasSourceGaps (m : Manifest) : Prop := m.missingObjects ≠ [] ∨ m.completionErrorCount ≠ 0

instance (m : Manifest) : Decidable m.hasSourceGaps := inferInstanceAs (Decidable (_ ∨ _))

/-- The job has come to its end. -/
def SourceStatus.completed (s : SourceStatus) : Prop := s = .cleanSuccess ∨ s = .completedWithErrors

instance (s : SourceStatus) : Decidable s.completed := inferInstanceAs (Decidable (_ ∨ _))

/-- `usable_for_assisted_import`. -/
def Manifest.usable (m : Manifest) : Prop :=
  m.recognized = true ∧ m.tool = .expdp ∧ m.sourceStatus.completed ∧ (m.dumpfilePattern ≠ [] ∨ m.dumpFiles ≠ [])

instance (m : Manifest) : Decidable m.usable := inferInstanceAs (Decidable (_ ∧ _))

theorem safe_of_mem_schemas {tables : List Text} {schema : Text} (h : schema ∈ schemasFromTables tables) :
    safeIdentifier schema = true := by
  rw [schemasFromTables, List.mem_insertionSort, List.mem_dedup] at h
  obtain ⟨table, -, ht⟩ := List.mem_filterMap.mp h
  unfold schemaOf at ht
  simp only at ht
  split at ht
  · split at ht
    · rw [← Option.some.inj ht]
      assumption
    · cases ht
  · cases ht

/-- A safe identifier is one value of a comma-joined argument. -/
theorem safeIdentifier_value {schema : Text} (h : safeIdentifier schema = true) :
    schema ≠ [] ∧ ',' ∉ schema ∧ schema.head? ≠ some '-' := by
  cases schema with
  | nil => cases h
  | cons c rest =>
      simp only [safeIdentifier, Bool.and_eq_true] at h
      obtain ⟨⟨hc, hrest⟩, -⟩ := h
      refine ⟨List.cons_ne_nil _ _, fun hmem => ?_, fun hhead => ?_⟩
      · rcases List.mem_cons.mp hmem with rfl | hmem
        · exact absurd hc (by decide)
        · exact absurd (List.all_eq_true.mp hrest _ hmem) (by decide)
      · obtain rfl := Option.some.inj hhead
        exact absurd hc (by decide)

theorem safe_of_mem_manifest {s : Scan} {schema : Text} (h : schema ∈ s.manifest.schemas) :
    safeIdentifier schema = true := by
  unfold Scan.manifest at h
  split at h
  · cases h
  · exact safe_of_mem_schemas h

/-! ### The binding -/

section Binding

variable (lower : Text → Text) (fnmatchcase : Text → Text → Bool)

inductive BindingState where
  | unusable
  | exact
  | strong
  | weak
  | mismatch
deriving DecidableEq

/-- `ExportLogBinding`. -/
structure Binding where
  state : BindingState
  score : ℕ
  missing : Finset Text := ∅
  unexpected : Finset Text := ∅

/-- `{PurePosixPath(name).name.lower() for name in names}`. -/
def nameSet (names : List Text) : Finset Text := (names.map fun name => lower (fileName name)).toFinset

/-- `manifest.dumpfile_pattern.replace("%U", "*")`. -/
def starred : Text → Text
  | '%' :: 'U' :: rest => '*' :: starred rest
  | c :: rest => c :: starred rest
  | [] => []

/-- All files match the `DUMPFILE` pattern of the log. -/
def PatternMatches (m : Manifest) (files : List Text) : Prop :=
  m.dumpfilePattern ≠ [] ∧ nameSet lower files ≠ ∅ ∧
    ∀ name ∈ nameSet lower files, fnmatchcase name (lower (starred m.dumpfilePattern)) = true

instance (m : Manifest) (files : List Text) : Decidable (PatternMatches lower fnmatchcase m files) :=
  inferInstanceAs (Decidable (_ ∧ _))

/-- The `score` of `bind_export_log`. -/
def bindingScore (sameSet patternMatches sameName : Prop) [Decidable sameSet] [Decidable patternMatches]
    [Decidable sameName] : ℕ :=
  (if sameSet then 80 else 0) + (if patternMatches then 15 else 0) + (if sameName then 5 else 0)

/-- The `state` of `bind_export_log`. -/
def bindingState (mismatch : Prop) [Decidable mismatch] (score : ℕ) : BindingState :=
  if mismatch then .mismatch
  else if 95 ≤ score then .exact
  else if 80 ≤ score then .strong
  else .weak

/-- `bind_export_log`. -/
def bindExportLog (m : Manifest) (logFilename : Text) (actualDumpFiles : List Text) : Binding :=
  if ¬ m.usable then ⟨.unusable, 0, ∅, ∅⟩
  else
    let actual := nameSet lower actualDumpFiles
    let declared := nameSet lower m.dumpFiles
    let missing := declared \ actual
    let unexpected := if declared ≠ ∅ then actual \ declared else ∅
    let score := bindingScore (declared ≠ ∅ ∧ missing = ∅ ∧ unexpected = ∅)
      (PatternMatches lower fnmatchcase m actualDumpFiles)
      (m.logfileName ≠ [] ∧ lower (fileName logFilename) = lower m.logfileName)
    ⟨bindingState (declared ≠ ∅ ∧ (missing ≠ ∅ ∨ unexpected ≠ ∅)) score, score, missing, unexpected⟩

/-- The log belongs to the dump files: it declares them, and its pattern matches them. -/
def Belongs (m : Manifest) (files : List Text) : Prop :=
  nameSet lower m.dumpFiles = nameSet lower files ∧ PatternMatches lower fnmatchcase m files

instance (m : Manifest) (files : List Text) : Decidable (Belongs lower fnmatchcase m files) :=
  inferInstanceAs (Decidable (_ ∧ _))

variable {lower fnmatchcase}

theorem sameSet_iff (declared actual : Finset Text) :
    (declared ≠ ∅ ∧ declared \ actual = ∅ ∧ (if declared ≠ ∅ then actual \ declared else ∅) = ∅) ↔
      declared ≠ ∅ ∧ declared = actual := by
  refine and_congr_right fun hne => ?_
  rw [if_pos hne, Finset.sdiff_eq_empty_iff_subset, Finset.sdiff_eq_empty_iff_subset]
  exact ⟨fun h => h.1.antisymm h.2, fun h => ⟨h.subset, h.symm.subset⟩⟩

/-- Only the file set and the pattern together reach the score of an exact binding. -/
theorem exact_score_iff {sameSet patternMatches sameName : Prop} [Decidable sameSet] [Decidable patternMatches]
    [Decidable sameName] : 95 ≤ bindingScore sameSet patternMatches sameName ↔ sameSet ∧ patternMatches := by
  unfold bindingScore
  split_ifs with hset hpattern <;> simp [*]

theorem bindingState_exact_iff {mismatch : Prop} [Decidable mismatch] {score : ℕ} :
    bindingState mismatch score = .exact ↔ ¬ mismatch ∧ 95 ≤ score := by
  unfold bindingState
  split_ifs <;> simp [*]

/-- A binding is exact when the log can be used and belongs to the files; the name of the log does not
matter. -/
theorem bindExportLog_exact_iff (m : Manifest) (logFilename : Text) (files : List Text) :
    (bindExportLog lower fnmatchcase m logFilename files).state = .exact ↔
      m.usable ∧ Belongs lower fnmatchcase m files := by
  unfold bindExportLog
  by_cases husable : m.usable
  · rw [if_neg (not_not.mpr husable)]
    simp only [bindingState_exact_iff, exact_score_iff]
    constructor
    · rintro ⟨-, hset, hpattern⟩
      exact ⟨husable, ((sameSet_iff _ _).mp hset).2, hpattern⟩
    · rintro ⟨-, hsame, hpattern⟩
      have hset := (sameSet_iff (nameSet lower m.dumpFiles) (nameSet lower files)).mpr
        ⟨fun h => hpattern.2.1 (hsame.symm.trans h), hsame⟩
      exact ⟨fun h => h.2.elim (fun hmissing => hmissing hset.2.1) fun hunexpected => hunexpected hset.2.2,
        hset, hpattern⟩
  · rw [if_pos husable]
    exact ⟨fun h => (by cases h), fun h => (husable h.1).elim⟩

end Binding

end RecoveryService.ExportLog
