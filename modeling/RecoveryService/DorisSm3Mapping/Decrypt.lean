import RecoveryService.DorisSm3Mapping.MappingJob
import RecoveryService.Lib.Dict

/-! # Masked values read back

`create_sm3_mapping_task` with the names that it checks, and `services/doris_sm3_decrypt.py`, which looks masked
values up in the mapping tables that the field relations name.  Doris answers every query; `client_ref`, the
warnings and the metadata of a response are left out. -/

namespace RecoveryService.DorisSm3Mapping

open Checks Tables DorisEncryption Text

/-! ### Names -/

/-- `[A-Za-z0-9_\u4e00-\u9fff]`. -/
def identChar (c : Char) : Bool := c.isAlphanum || c == '_' || (0x4e00 ≤ c.toNat && c.toNat ≤ 0x9fff)

/-- `_IDENT_RE.match`, for a text without blanks at its ends. -/
def isIdent (name : String) : Bool := name ≠ "" && name.toList.all identChar

/-- `(value or "").strip() or None`. -/
def stripped (value : Option String) : Option String := (value.map strip).filter (· ≠ "")

/-- `a or b`, for values that may be missing. -/
def orElse? (a b : Option String) : Option String := (a.filter (· ≠ "")) <|> b

/-! ### Creating a job -/

/-- What `create_sm3_mapping_task` is called with. -/
structure Sm3TaskRequest where
  engine : String
  database : String
  tableName : String
  columns : List String
  mappingDatabase : Option String := none
  mappingTables : List (String × String) := []
  fieldMappingDatabase : Option String := none
  fieldMappingTable : Option String := none
  outputSuffix : Option String := none
  tableMode : String := "create_suffixed"

/-- `_suffixed_table_name`; `stamp` is the time. -/
def suffixedTableName (stamp tableName : String) (suffix : Option String) (default : String) :
    Except String String :=
  let clean := String.ofList (stripChars (· == '_') (strip (suffix.getD "")).toList)
  if clean ≠ "" then
    if isIdent clean then .ok s!"{tableName}_{clean}" else .error "后缀只能包含中文、字母、数字和下划线。"
  else .ok s!"{tableName}_{default}_{stamp}"

/-- The name that the original gets, where the masked table takes its name. -/
def backupTable (stamp tableMode tableName : String) (suffix : Option String) : Except String (Option String) :=
  if tableMode = "replace_original" then (suffixedTableName stamp tableName suffix "origin").map some else .ok none

def outputTable (stamp tableMode tableName : String) (suffix : Option String) : Except String String :=
  if tableMode = "replace_original" then .ok tableName else suffixedTableName stamp tableName suffix "sm3"

/-- `_validate_table_name_length`. -/
def validateTableNameLength (tableName label : String) : Except String Unit :=
  raiseIf (64 < tableName.length)
    s!"{label}“{tableName}”长度为 {tableName.length}，超过 Doris 限制 64。请缩短源表名或填写更短的后缀后再提交。"

/-- `_default_mapping_table`. -/
def defaultMappingTable (column : String) : String :=
  let clean := String.ofList (stripChars (· == '_') (subRuns (fun c => !identChar c) '_' false column.toList))
  "sm3_map_" ++ orElse clean "column"

/-- `_clean_mapping_tables`. -/
def cleanMappingTables (columns : List String) (mappingTables : List (String × String)) :
    Except String (List (String × String)) :=
  columns.mapM fun column =>
    let tableName := strip (((mappingTables.lookup column).filter (· ≠ "")).getD (defaultMappingTable column))
    if isIdent tableName then .ok (column, tableName)
    else .error s!"字段 {column} 的映射表名不合法，只能包含中文、字母、数字和下划线。"

/-- `create_sm3_mapping_task`; `conflict` is a running job for the same table. -/
def createSm3MappingTask (stamp id : String) (conflict : Option (String × String)) (r : Sm3TaskRequest) :
    Except String MappingJob := do
  raiseIf (r.engine ≠ "doris") "请选择 Doris 类型的数据连接。"
  let database := strip r.database
  let mappingDatabase := stripped r.mappingDatabase
  let fieldMappingDatabase := (stripped r.fieldMappingDatabase).getD (mappingDatabase.getD database)
  let fieldMappingTable := (stripped r.fieldMappingTable).getD "doris_mask_field_mappings"
  let tableName := strip r.tableName
  let columns := (r.columns.map strip).filter (· ≠ "")
  let tableMode := if r.tableMode ∈ ["replace_original", "create_suffixed"] then r.tableMode else "create_suffixed"
  raiseIf (database = "") "请填写 Doris 数据库。"
  raiseIf (tableName = "") "请填写要脱敏的表。"
  raiseIf (columns = []) "请至少选择一个要 SM3 脱敏的字段。"
  raiseIf (mappingDatabase.any (!isIdent ·)) "映射表目标库名不合法，只能包含中文、字母、数字和下划线。"
  raiseIf (isIdent fieldMappingDatabase = false) "字段关系映射库名不合法，只能包含中文、字母、数字和下划线。"
  raiseIf (isIdent fieldMappingTable = false) "字段关系映射表名不合法，只能包含中文、字母、数字和下划线。"
  let mappingTables ← cleanMappingTables columns r.mappingTables
  let backup ← backupTable stamp tableMode tableName r.outputSuffix
  let output ← outputTable stamp tableMode tableName r.outputSuffix
  validateTableNameLength output "脱敏表名"
  backup.forM fun name => validateTableNameLength name "备份表名"
  mappingTables.forM fun entry => validateTableNameLength entry.2 "映射表名"
  validateTableNameLength fieldMappingTable "字段关系映射表名"
  conflict.forM fun (other, otherState) => Except.error
    s!"SM3 task already exists for {database}.{tableName}: {other} ({otherState}). Please wait for it to finish or cancel it first."
  pure { id := id, database := database, tableName := tableName, tableMode := tableMode, backupTableName := backup,
         outputTableName := some output, hashedColumns := columns, mappingDatabase := mappingDatabase,
         mappingTables := mappingTables, fieldMappingDatabase := some fieldMappingDatabase,
         fieldMappingTable := some fieldMappingTable }

/-! ### The request -/

/-- `DatabaseConnectionProfile`, as far as it is read here. -/
structure DecryptProfile where
  engine : String
  database : Option String

/-- `DorisSm3DecryptRequest`; the values are those of `items` or of `encrypted_values`. -/
structure DecryptRequest where
  fieldCategory : String
  encryptedValues : List String
  fieldAliases : List String := []
  fieldMappingDatabase : Option String := none
  fieldMappingTable : Option String := none
  mappingDatabase : Option String := none
  mappingTable : Option String := none
  sourceDatabase : Option String := none
  sourceTable : Option String := none
  maskedDatabase : Option String := none
  maskedTable : Option String := none

/-- `_MappingSource`. -/
structure MappingSource where
  mappingDatabase : String
  mappingTable : String
  originalColumn : String := "original_value"
  encryptedColumn : String := "sm3_value"
  sourceDatabase : Option String := none
  sourceTable : Option String := none
  sourceColumn : Option String := none
  maskedDatabase : Option String := none
  maskedTable : Option String := none
  maskedColumn : Option String := none
  updatedAt : Option String := none
deriving DecidableEq

/-- What a source is told apart by. -/
def MappingSource.key (s : MappingSource) : String × String × String × String :=
  (s.mappingDatabase, s.mappingTable, s.originalColumn, s.encryptedColumn)

/-! ### The sources -/

/-- `_FIELD_CATEGORY_ALIASES`. -/
def categoryAliases : List (String × List String) :=
  [("姓名", ["姓名", "名字", "名称", "name", "user_name", "username", "real_name", "full_name"]),
   ("手机号", ["手机号", "手机号码", "手机", "mobile", "mobile_phone", "phone", "phone_number", "tel"]),
   ("电话", ["电话", "联系电话", "phone", "telephone", "tel"]),
   ("证件号", ["证件号", "身份证", "身份证号", "证件号码", "id_card", "idcard", "card_no", "cert_no", "certificate_no"]),
   ("住址", ["住址", "地址", "address", "addr", "home_address"]),
   ("地址", ["地址", "住址", "address", "addr", "home_address"])]

/-- `_field_aliases`. -/
def fieldAliases (category : String) (requestAliases : List String) : List String :=
  (Dict.fromKeys (strip category :: (categoryAliases.lookup (strip category)).getD [] ++
    requestAliases.map strip)).filter (· ≠ "")

/-- `_clean_identifier`. -/
def cleanIdentifier (value : Option String) (label : String) : Except String String :=
  let clean := strip (value.getD "")
  if clean = "" then .error s!"{label} is required"
  else if isIdent clean then .ok clean
  else .error s!"{label} contains unsupported characters"

/-- `_ensure_table_exists`. -/
def ensureTableExists (c : Catalog TableName MaskTable) (database tableName : String) : Except String Unit :=
  raiseIf (c (database, tableName) = none) s!"Doris table does not exist: {database}.{tableName}"

/-- `_validate_mapping_source`. -/
def validateMappingSource (s : MappingSource) : Except String Unit := do
  let _ ← cleanIdentifier (some s.mappingDatabase) "mapping_database"
  let _ ← cleanIdentifier (some s.mappingTable) "mapping_table"
  let _ ← cleanIdentifier (some s.originalColumn) "mapping_original_column"
  let _ ← cleanIdentifier (some s.encryptedColumn) "mapping_masked_column"

/-- `_add_optional_filter`. -/
def passesFilter (columns : List String) (row : List (Option String)) (column : String) (value : Option String) :
    Bool :=
  (value.filter (· ≠ "")).all fun v => cell columns row column = some (strip v)

/-- The row is an SM3 relation of a field of the category, with its mapping table. -/
def matchesCategory (columns aliases : List String) (row : List (Option String)) : Bool :=
  cell columns row "algorithm" = some "SM3" ∧ cell columns row "mapping_database" ≠ none ∧
    (cell columns row "mapping_table_name").filter (· ≠ "") ≠ none ∧
    ∃ column ∈ ["source_column_name", "masked_column_name", "mapping_table_name"], ∃ name ∈ aliases,
      cell columns row column = some name

/-- The `WHERE` of the query. -/
def isMatch (columns aliases : List String) (body : DecryptRequest) (row : List (Option String)) : Bool :=
  matchesCategory columns aliases row &&
    passesFilter columns row "source_database" body.sourceDatabase &&
    passesFilter columns row "source_table_name" body.sourceTable &&
    passesFilter columns row "masked_database" body.maskedDatabase &&
    passesFilter columns row "masked_table_name" body.maskedTable

/-- `_MappingSource` of a row. -/
def sourceOf (columns : List String) (row : List (Option String)) : MappingSource where
  mappingDatabase := (cell columns row "mapping_database").getD "None"
  mappingTable := (cell columns row "mapping_table_name").getD "None"
  originalColumn := ((cell columns row "mapping_original_column").filter (· ≠ "")).getD "original_value"
  encryptedColumn := ((cell columns row "mapping_masked_column").filter (· ≠ "")).getD "sm3_value"
  sourceDatabase := (cell columns row "source_database").filter (· ≠ "")
  sourceTable := (cell columns row "source_table_name").filter (· ≠ "")
  sourceColumn := (cell columns row "source_column_name").filter (· ≠ "")
  maskedDatabase := (cell columns row "masked_database").filter (· ≠ "")
  maskedTable := (cell columns row "masked_table_name").filter (· ≠ "")
  maskedColumn := (cell columns row "masked_column_name").filter (· ≠ "")
  updatedAt := (cell columns row "updated_at").filter (· ≠ "")

/-- `ORDER BY updated_at DESC`. -/
def newerFirst (a b : MappingSource) : Bool :=
  match a.updatedAt, b.updatedAt with
  | _, none => true
  | none, some _ => false
  | some x, some y => y ≤ x

/-- The columns that the query names. -/
def selectedColumns : List String := relationColumns.filter (· ≠ "task_id")

/-- The query of the relations. -/
def selectRelations (c : Catalog TableName MaskTable) (name : TableName) (aliases : List String)
    (body : DecryptRequest) : Except String (List MappingSource) :=
  match c name with
  | none => .error "Unknown table"
  | some t =>
      if ∀ column ∈ selectedColumns, column ∈ t.columns then
        .ok ((Dict.fromKeys ((t.rows.filter (isMatch t.columns aliases body)).map (sourceOf t.columns))).mergeSort
          newerFirst)
      else .error "Unknown column"

/-- The loop over the rows; `seen` are the keys before them. -/
def collectSources (c : Catalog TableName MaskTable) :
    List (String × String × String × String) → List MappingSource → Except String (List MappingSource)
  | _, [] => .ok []
  | seen, s :: rest =>
      if s.key ∈ seen then collectSources c seen rest
      else do
        validateMappingSource s
        ensureTableExists c s.mappingDatabase s.mappingTable
        let sources ← collectSources c (s.key :: seen) rest
        pure (s :: sources)

/-- `_resolve_mapping_sources`. -/
def resolveMappingSources (c : Catalog TableName MaskTable) (profile : DecryptProfile) (body : DecryptRequest) :
    Except String (List MappingSource) :=
  match body.mappingTable.filter (· ≠ "") with
  | some table => do
      let database ← cleanIdentifier (orElse? body.mappingDatabase profile.database) "mapping_database"
      let name ← cleanIdentifier (some table) "mapping_table"
      ensureTableExists c database name
      pure [{ mappingDatabase := database, mappingTable := name }]
  | none => do
      let database ← cleanIdentifier
        (orElse? body.fieldMappingDatabase (orElse? body.mappingDatabase profile.database)) "field_mapping_database"
      let table ← cleanIdentifier (orElse? body.fieldMappingTable (some "doris_mask_field_mappings"))
        "field_mapping_table"
      ensureTableExists c database table
      let rows ← selectRelations c (database, table) (fieldAliases body.fieldCategory body.fieldAliases) body
      let sources ← collectSources c [] rows
      raiseIf (sources = []) "No SM3 mapping table matched the requested field category. Specify mapping_database and mapping_table directly, or check the field mapping table."
      pure sources

/-! ### The values -/

/-- `_chunks`. -/
def chunks (values : List String) (size : ℕ) : List (List String) :=
  (List.range ((values.length + size - 1) / size)).map fun k => (values.drop (k * size)).take size

structure Pair where
  encryptedValue : String
  originalValue : Option String
  source : MappingSource

/-- The query of a chunk in a mapping table. -/
def selectPairs (c : Catalog TableName MaskTable) (s : MappingSource) (chunk : List String) :
    Except String (List Pair) :=
  match c (s.mappingDatabase, s.mappingTable) with
  | none => .error "Unknown table"
  | some m =>
      if s.encryptedColumn ∈ m.columns ∧ s.originalColumn ∈ m.columns then
        .ok (m.rows.filterMap fun row => (cell m.columns row s.encryptedColumn).bind fun value =>
          if value ∈ chunk then some ⟨value, cell m.columns row s.originalColumn, s⟩ else none)
      else .error "Unknown column"

/-- `_load_mapping_values`. -/
def loadMappingValues (c : Catalog TableName MaskTable) (sources : List MappingSource) (values : List String) :
    Except String (List Pair) := do
  let lookup ← sources.mapM fun s => do
    let found ← (chunks (Dict.fromKeys values) 200).mapM (selectPairs c s)
    pure found.flatten
  pure lookup.flatten

/-! ### The response -/

structure DecryptResult where
  index : ℕ
  encryptedValue : String
  originalValue : Option String := none
  found : Bool
  ambiguous : Bool := false
  mappingDatabase : Option String := none
  mappingTable : Option String := none
  error : Option String := none

structure DecryptResponse where
  fieldCategory : String
  total : ℕ
  found : ℕ
  notFound : ℕ
  ambiguous : ℕ
  mappingSources : List MappingSource
  results : List DecryptResult

/-- `sorted({str(match["original_value"]) for match in matches})`. -/
def uniqueOriginals (pairs : List Pair) : List String :=
  (pairs.map fun p => p.originalValue.getD "None").dedup.insertionSort (· ≤ ·)

def resultOf (lookup : List Pair) (value : String) (index : ℕ) : DecryptResult :=
  match lookup.filter (·.encryptedValue = value) with
  | [] => { index := index, encryptedValue := value, found := false }
  | first :: rest =>
      let originals := uniqueOriginals (first :: rest)
      let ambiguous : Bool := 1 < originals.length
      { index := index
        encryptedValue := value
        originalValue := if ambiguous then none else originals.head?
        found := !ambiguous
        ambiguous := ambiguous
        mappingDatabase := some first.source.mappingDatabase
        mappingTable := some first.source.mappingTable
        error := if ambiguous then some "multiple original values matched" else none }

/-- The response from the pairs that were found. -/
def responseOf (body : DecryptRequest) (sources : List MappingSource) (lookup : List Pair) : DecryptResponse :=
  let results := body.encryptedValues.zipIdx.map fun v => resultOf lookup v.1 v.2
  let found := results.countP (·.found)
  let ambiguous := results.countP (·.ambiguous)
  { fieldCategory := body.fieldCategory
    total := body.encryptedValues.length
    found := found
    notFound := body.encryptedValues.length - found - ambiguous
    ambiguous := ambiguous
    mappingSources := sources
    results := results }

/-- `decrypt_sm3_by_mapping`. -/
def decryptSm3ByMapping (c : Catalog TableName MaskTable) (profile : DecryptProfile) (body : DecryptRequest) :
    Except String DecryptResponse := do
  raiseIf (profile.engine ≠ "doris") "connection_id must point to a Doris connection"
  raiseIf (1000 < body.encryptedValues.length) "batch size cannot exceed 1000"
  let sources ← resolveMappingSources c profile body
  let lookup ← loadMappingValues c sources body.encryptedValues
  pure (responseOf body sources lookup)

end RecoveryService.DorisSm3Mapping
