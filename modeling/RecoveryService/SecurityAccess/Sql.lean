import RecoveryService.Lib.Checks
import RecoveryService.Lib.Trees

/-! # Resolving the sources of an SQL statement

A statement is the tree the SQL parser returns, with the labels `_resolve_security_sources` and the
scoping rules of SQL look at.  A missing identifier is `""`, as `table.name`, `table.db` and
`column.table` return it; the name of a table function is `""` too.  The flag beside a label says
that the node belongs to the table an `INSERT` or a `CREATE` writes: these are the nodes in
`skipped_tables`.

`str.casefold` and the text of a column (`column.sql()`) are parameters. -/

namespace RecoveryService.SecurityAccess

open Checks Trees

structure TableRef where
  catalog : String := ""
  db : String := ""
  name : String
  aliasName : String := ""
deriving DecidableEq

inductive Label
  | table (ref : TableRef)
  | column (table name : String)
  | star
  | aliased (name : String)
  | literal (position : Option ℕ)
  | func (name : String)
  | paren
  | subquery (aliasName : String)
  | cte (aliasName : String)
  | withClause (recursive : Bool)
  | select
  | union
  | insert
  | create
  | fromClause
  | joinClause
  | usingColumn (name : String)
  | whereClause
  | havingClause
  | groupClause
  | orderClause
  | ordered
  | clause (name : String)
  | other (name : String)
deriving DecidableEq

/-- A node of a statement: its label, and whether it belongs to the written table. -/
abbrev Node := Label × Bool

/-- `DataSecurityAccessMapping`; the access view is named in the coverage contract, where it cannot
be empty. -/
structure Mapping where
  id : String
  connectionId : Option ℕ
  sourceDatabase : String
  sourceTable : String
  sourceField : String
  accessDatabase : String
  accessTable : String
  contractHash : String
  state : String
  accessDatabase_ne : accessDatabase ≠ ""
  accessTable_ne : accessTable ≠ ""

/-- Database and table, casefolded. -/
abbrev SourceKey := String × String

variable (casefold : String → String) (defaultDatabase : Option String)

/-- The key of a mapping in `by_source`. -/
def Mapping.sourceKey (m : Mapping) : SourceKey :=
  (casefold m.sourceDatabase, casefold m.sourceTable)

def Mapping.access (m : Mapping) : String × String := (m.accessDatabase, m.accessTable)

/-- `_table_key`. -/
def tableKey (table : TableRef) : SourceKey :=
  (casefold (if table.db ≠ "" then table.db else defaultDatabase.getD ""), casefold table.name)

/-- `by_source.get(source_key)`. -/
def mappingsOf (mappings : List Mapping) (key : SourceKey) : List Mapping :=
  mappings.filter (fun m => m.sourceKey casefold = key)

/-- The name a label adds to `cte_names`. -/
def cteName (label : Label) : Option String :=
  match label with
  | .cte aliasName => if aliasName = "" then none else some (casefold aliasName)
  | _ => none

/-- `cte_names`. -/
def cteNames (tree : Rose Node) : List String :=
  tree.levelOrder.filterMap (fun node => cteName casefold node.1)

/-! ### The loop over the tables -/

/-- `table.alias_or_name`. -/
def aliasOrName (table : TableRef) : String :=
  if table.aliasName ≠ "" then table.aliasName else table.name

/-- What a turn of the loop does to a table of a mapping. -/
structure Resolved where
  table : TableRef
  aliasName : String
  fields : List String
  mappingIds : List String
  source : String
  access : String

/-- The body of the loop; `none` where it continues. -/
def resolveTable (mappings : List Mapping) (expectedSources : Option (List SourceKey))
    (names : List String) (table : TableRef) : Except String (Option Resolved) :=
  if table.name = "" ∨ casefold table.name ∈ names then .ok none
  else
    let key := tableKey casefold defaultDatabase table
    match mappingsOf casefold mappings key with
    | [] =>
        if key ∈ expectedSources.getD [] then
          .error s!"冻结合同中的 ODS 来源 {key.1}.{table.name} 没有可用的安全映射。"
        else .ok none
    | first :: rest =>
        if ∃ m ∈ first :: rest, m.state ≠ "active" then
          .error s!"安全映射 {key.1}.{table.name} 尚未激活，已拒绝明文回退。"
        else
          match ((first :: rest).map Mapping.access).dedup with
          | [access] =>
              .ok (some
                { table := { db := access.1, name := access.2, aliasName := table.aliasName }
                  aliasName := casefold (aliasOrName table)
                  fields := (first :: rest).map (fun m => casefold m.sourceField)
                  mappingIds := (first :: rest).map Mapping.id
                  source := s!"{first.sourceDatabase}.{first.sourceTable}"
                  access := s!"{access.1}.{access.2}" })
          | _ => .error s!"源表 {key.1}.{table.name} 存在冲突的安全别名。"

/-- The tables the loop does not skip. -/
def readTables (tree : Rose Node) : List TableRef :=
  tree.levelOrder.filterMap fun
    | (.table ref, false) => some ref
    | _ => none

/-- `table.set(..)` for every resolved table. -/
def rewrite (mappings : List Mapping) (expectedSources : Option (List SourceKey))
    (names : List String) (table : TableRef) : TableRef :=
  match resolveTable casefold defaultDatabase mappings expectedSources names table with
  | .ok (some resolved) => resolved.table
  | _ => table

/-- A change of the tables that are read. -/
def onTables (f : TableRef → TableRef) : Node → Node
  | (.table ref, false) => (.table (f ref), false)
  | node => node

/-! ### `_reject_unsafe_ciphertext_operations` -/

/-- `secure_aliases[alias] = fields`. -/
def setAlias (aliases : List (String × List String)) (aliasName : String) (fields : List String) :
    List (String × List String) :=
  if ∃ entry ∈ aliases, entry.1 = aliasName then
    aliases.map (fun entry => if entry.1 = aliasName then (aliasName, fields) else entry)
  else aliases ++ [(aliasName, fields)]

/-- `secure_aliases` behind the loop. -/
def secureAliases (found : List Resolved) : List (String × List String) :=
  found.foldl (fun aliases r => setAlias aliases r.aliasName r.fields) []

/-- The fields the check looks a column up in. -/
def fieldsFor (aliases : List (String × List String)) (aliasName : String) : List String :=
  match aliases.lookup aliasName with
  | some fields => fields
  | none =>
      match aliases with
      | [entry] => entry.2
      | _ => []

/-- The column has the name of an encrypted field under its alias. -/
def NamesCiphertext (aliases : List (String × List String)) (table name : String) : Prop :=
  casefold name ∈ fieldsFor aliases (casefold table)

instance (aliases : List (String × List String)) (table name : String) :
    Decidable (NamesCiphertext casefold aliases table name) := by
  unfold NamesCiphertext
  infer_instance

/-- The classes `find_ancestor` looks for. -/
def Label.unsafeForCiphertext : Label → Bool
  | whereClause | havingClause | joinClause | groupClause | orderClause => true
  | func _ => true
  | _ => false

/-- The column stands inside one of these. -/
def Inside (above : List Node) : Prop := ∃ node ∈ above, node.1.unsafeForCiphertext = true

instance (above : List Node) : Decidable (Inside above) := by
  unfold Inside
  infer_instance

variable (columnSql : String → String → String)

/-- The body of the loop over the columns. -/
def rejectColumn (aliases : List (String × List String)) (occurrence : Node × List Node) : Except String Unit :=
  match occurrence.1.1 with
  | .column table name =>
      raiseIf (NamesCiphertext casefold aliases table name ∧ Inside occurrence.2)
        s!"受限 SQL 不允许对密文字段 {columnSql table name} 执行 Join、筛选、排序、分组或函数计算。"
  | _ => .ok ()

def rejectUnsafeCiphertextOperations (tree : Rose Node) (aliases : List (String × List String)) :
    Except String Unit :=
  if aliases = [] then .ok ()
  else (tree.withAncestors []).levelOrder.forM (rejectColumn casefold columnSql aliases)

/-! ### `_resolve_security_sources` -/

structure Result where
  tree : Rose Node
  mappings : List Resolved

def resolveSecuritySources (mappings : List Mapping) (expectedSources : Option (List SourceKey))
    (tree : Rose Node) : Except String Result := do
  let names := cteNames casefold tree
  let turns ← (readTables tree).mapM
    (resolveTable casefold defaultDatabase mappings expectedSources names)
  let found := turns.filterMap id
  let tree' := tree.map
    (onTables (rewrite casefold defaultDatabase mappings expectedSources names))
  rejectUnsafeCiphertextOperations casefold columnSql tree' (secureAliases found)
  return { tree := tree', mappings := found }

/-! ### The two callers -/

/-- What the parser returns.  `source` is `expression.expression`, `target` is `expression.this`. -/
inductive Statement
  | query (tree : Rose Label)
  | write (kind : Label) (target : Rose Label) (source : Option (Rose Label))
      (others : List (Rose Label))

/-- `isinstance(.., (exp.Select, exp.Union))`. -/
def isQuery (tree : Rose Label) : Bool := tree.label = .select ∨ tree.label = .union

/-- The nodes of a statement, the written ones marked. -/
def Statement.nodes : Statement → Rose Node
  | .query tree => tree.map (·, false)
  | .write kind target source others =>
      .node (kind, false)
        (target.map (·, true) :: (others ++ source.toList).map (Rose.map (·, false)))

/-- `_load_security_mappings`. -/
def loadSecurityMappings (rows : List Mapping) (connectionId : ℕ) : List Mapping :=
  rows.filter (fun m => m.connectionId = some connectionId)

/-- `resolve_security_sql`; `parsed` is what `_parse_security_sql` returns or raises. -/
def resolveSecuritySql (rows : List Mapping) (connectionId : ℕ)
    (parsed : Except String Statement) : Except String Result := do
  let statement ← parsed
  match statement with
  | .query tree =>
      raiseIf (isQuery tree = false) "受限 SQL 仅允许 SELECT / WITH 查询。"
      resolveSecuritySources casefold defaultDatabase columnSql
        (loadSecurityMappings rows connectionId) none statement.nodes
  | .write .. => .error "受限 SQL 仅允许 SELECT / WITH 查询。"

/-- An item of `source_assets` or `field_contracts`. -/
structure ContextItem where
  database : Option String := none
  sourceDatabase : Option String := none
  tableName : Option String := none
  sourceTable : Option String := none
  contractHash : Option String := none

/-- `a or b` on texts that may be missing or empty. -/
def orElse (a b : Option String) : Option String :=
  match a with
  | some text => if text = "" then b else a
  | none => b

/-- The key of an item that names a table. -/
def ContextItem.sourceKey (item : ContextItem) : Option SourceKey :=
  match (orElse item.database item.sourceDatabase).getD "",
      (orElse item.tableName item.sourceTable).getD "" with
  | "", _ => none
  | _, "" => none
  | database, table => some (casefold database, casefold table)

/-- `_write_target_tables`. -/
def writeTargetTables : Statement → List TableRef
  | .query _ => []
  | .write _ target _ _ =>
      target.levelOrder.filterMap fun
        | .table ref => some ref
        | _ => none

/-- The checks on the kind of the statement. -/
def checkEtlStatement : Statement → Except String Unit
  | .query tree =>
      raiseIf (isQuery tree = false)
        "安全数据加工仅允许查询、INSERT ... SELECT 或 CREATE TABLE ... AS SELECT。"
  | .write kind _ source _ => do
      raiseIf (kind ≠ .insert ∧ kind ≠ .create)
        "安全数据加工仅允许查询、INSERT ... SELECT 或 CREATE TABLE ... AS SELECT。"
      raiseIf (kind = .insert ∧ source.any isQuery = false)
        "安全数据加工的 INSERT 必须从 SELECT 查询写入。"
      raiseIf (kind = .create ∧ source.any isQuery = false)
        "安全数据加工的 CREATE TABLE 必须使用 AS SELECT 创建。"

/-- `resolve_protected_etl_sql`. -/
def resolveProtectedEtlSql (rows : List Mapping) (connectionId : ℕ)
    (sourceAssets fieldContracts : List ContextItem) (parsed : Except String Statement) :
    Except String Result := do
  let statement ← parsed
  checkEtlStatement statement
  let contractHashes := (fieldContracts.filterMap (·.contractHash)).filter (· ≠ "")
  let expectedSources := (sourceAssets ++ fieldContracts).filterMap (·.sourceKey casefold)
  raiseIf (contractHashes = [] ∨ expectedSources = []) "安全数据加工缺少冻结的 ODS 字段覆盖合同。"
  raiseIf (∃ table ∈ writeTargetTables statement,
      tableKey casefold defaultDatabase table ∈ expectedSources)
    "安全数据加工不允许写回冻结合同中的 ODS 明文来源表。"
  let mappings := (loadSecurityMappings rows connectionId).filter (·.contractHash ∈ contractHashes)
  resolveSecuritySources casefold defaultDatabase columnSql mappings (some expectedSources)
    statement.nodes

end RecoveryService.SecurityAccess
