import RecoveryService.Lib.Text

/-! # The cleanup of databases and users

`build_cleanup_batch_plan`, `execute_cleanup` and `execute_cleanup_batch` of `services/database_cleanup.py`,
with the plan and the execute half of each engine.  The server is a parameter: it compares names, and it
refuses a DROP, performs it, or performs it and answers with an error. -/

namespace RecoveryService.DatabaseCleanup

open Text

abbrev Name := List Char

/-- `name.strip()`. -/
def strip (name : Name) : Name := stripChars isSpace name

/-- `str.upper` and `str.lower`; neither makes a blank or takes one away. -/
structure Casing where
  upper : Name → Name
  lower : Name → Name
  strip_upper : ∀ name, strip (upper name) = upper (strip name)
  strip_lower : ∀ name, strip (lower name) = lower (strip name)
  upper_upper : ∀ name, upper (upper name) = upper name
  lower_nil : lower [] = []

inductive Engine where
  | mysql
  | sqlserver
  | oracle
  | doris
  | ftp
deriving DecidableEq

def mysqlSystemDatabases : List Name :=
  ["information_schema".toList, "mysql".toList, "performance_schema".toList, "sys".toList]

def sqlserverSystemDatabases : List Name :=
  ["master".toList, "model".toList, "msdb".toList, "tempdb".toList]

def dorisSystemDatabases : List Name :=
  ["information_schema".toList, "__internal_schema".toList, "mysql".toList]

def oracleSystemUsers : List Name :=
  ["SYS".toList, "SYSTEM".toList, "DBSNMP".toList, "OUTLN".toList, "XDB".toList, "WMSYS".toList,
    "ORDSYS".toList, "ORDDATA".toList, "MDSYS".toList, "CTXSYS".toList, "OLAPSYS".toList, "SYSMAN".toList,
    "GSMADMIN_INTERNAL".toList, "LBACSYS".toList, "DVSYS".toList, "DVF".toList, "AUDSYS".toList,
    "APPQOSSYS".toList, "ORACLE_OCM".toList]

def oracleSystemTablespaces : List Name :=
  ["SYSTEM".toList, "SYSAUX".toList, "TEMP".toList, "UNDOTBS1".toList, "UNDO".toList]

/-! ### The server -/

/-- A database, or a user with `oracle_maintained` and `default_tablespace`. -/
structure Entry where
  name : Name
  maintained : Bool := false
  defaultTablespace : Option Name := none
deriving DecidableEq

structure Catalog where
  entries : List Entry
  /-- The owner and the tablespace of each segment. -/
  segments : List (Name × Name) := []
  tablespaces : List Name := []
deriving DecidableEq

inductive Drop where
  /-- `DROP DATABASE` or `DROP USER`. -/
  | container (name : Name)
  | tablespace (name : Name)
deriving DecidableEq

inductive Answer where
  | refused
  | dropped
  /-- The object is gone, and an error comes back. -/
  | lost

structure Server where
  /-- How names of databases are compared. -/
  same : Name → Name → Bool
  same_self : ∀ name, same name name = true
  planRaises : Catalog → Name → Bool
  /-- Something before the DROP raises, the connection or a `KILL`. -/
  prepareRaises : Catalog → Name → Bool
  answer : Catalog → Drop → Answer
  verifyRaises : Catalog → Name → Bool
  filesRaise : Catalog → Name → Bool

variable (casing : Casing) (server : Server) (engine : Engine)

/-- A name in a statement denotes an entry; the names of users are quoted. -/
def denotes (name entry : Name) : Bool :=
  if engine = .oracle then decide (name = entry) else server.same name entry

def Catalog.without (c : Catalog) : Drop → Catalog
  | .container name =>
      { c with
        entries := c.entries.filter fun entry => !denotes server engine name entry.name
        segments := c.segments.filter fun segment => segment.1 ≠ name }
  | .tablespace name =>
      { c with
        segments := c.segments.filter fun segment => segment.2 ≠ name
        tablespaces := c.tablespaces.filter (· ≠ name) }

/-- The catalog behind a DROP, and whether it comes back without an error. -/
def issue (c : Catalog) (drop : Drop) : Catalog × Bool :=
  match server.answer c drop with
  | .refused => (c, false)
  | .dropped => (c.without server engine drop, true)
  | .lost => (c.without server engine drop, false)

inductive State where
  | success
  | failed
  | blocked
deriving DecidableEq

/-- What an execution has issued, in the catalogs before; without a state it has raised. -/
structure Execution where
  issued : List (Catalog × Drop)
  catalog : Catalog
  state : Option State

/-! ### The plans -/

/-- What is used of a `CleanupPlan`; `shared` and `exclusive` are the tablespaces of its storage steps. -/
structure Plan where
  targetName : Name
  canExecute : Bool
  storage : List Name := []
  exclusive : List Name := []
  shared : List Name := []

def planDatabase (systemDatabases : List Name) (c : Catalog) (targetName : Name) : Option Plan :=
  let target := strip targetName
  if casing.lower target ∈ systemDatabases then some { targetName := target, canExecute := false }
  else if server.planRaises c target = true then none
  else some { targetName := target, canExecute := true }

/-- `_plan_mysql`. -/
def planMysql : Catalog → Name → Option Plan := planDatabase casing server mysqlSystemDatabases

/-- `_plan_sqlserver`. -/
def planSqlserver : Catalog → Name → Option Plan := planDatabase casing server sqlserverSystemDatabases

/-- `_plan_doris`. -/
def planDoris : Catalog → Name → Option Plan := planDatabase casing server dorisSystemDatabases

/-- `_plan_ftp_blocked`. -/
def planFtp (targetName : Name) : Option Plan := some { targetName := strip targetName, canExecute := false }

/-- `sorted` of a set. -/
def sorted (names : List Name) : List Name := names.dedup.mergeSort fun a b => decide (a ≤ b)

/-- `_oracle_is_maintained_user`. -/
def oracleIsMaintainedUser (c : Catalog) (owner : Name) : Bool :=
  match c.entries.find? fun entry => entry.name = owner with
  | some entry => entry.maintained
  | none => false

/-- `_oracle_user_tablespaces`. -/
def oracleUserTablespaces (c : Catalog) (owner : Name) : List Name :=
  let default := (c.entries.find? fun entry => entry.name = owner).bind Entry.defaultTablespace
  let segments := (c.segments.filter fun segment => segment.1 = owner).map Prod.snd
  sorted ((default.toList ++ segments).filter (· ≠ []))

/-- `_oracle_tablespace_shared_with`. -/
def oracleTablespaceSharedWith (c : Catalog) (tablespace owner : Name) : List Name :=
  let owners := (c.segments.filter fun segment => segment.2 = tablespace ∧ segment.1 ≠ owner).map Prod.fst
  let users := (c.entries.filter fun entry =>
    entry.defaultTablespace = some tablespace ∧ entry.name ≠ owner).map Entry.name
  sorted (owners ++ users)

/-- The tablespace is skipped by the plan for its user. -/
def isShared (c : Catalog) (owner tablespace : Name) : Bool :=
  decide (tablespace ∈ oracleSystemTablespaces) ||
    !(oracleTablespaceSharedWith c tablespace owner).isEmpty

/-- `_plan_oracle`. -/
def planOracle (c : Catalog) (targetName : Name) : Option Plan :=
  let owner := casing.upper (strip targetName)
  if owner ∈ oracleSystemUsers then some { targetName := owner, canExecute := false }
  else if server.planRaises c owner = true then none
  else if oracleIsMaintainedUser c owner = true then some { targetName := owner, canExecute := false }
  else
    let tablespaces := oracleUserTablespaces c owner
    some
      { targetName := owner
        canExecute := true
        storage := tablespaces
        exclusive := tablespaces.filter fun tablespace => !isShared c owner tablespace
        shared := tablespaces.filter (isShared c owner) }

/-- `build_cleanup_plan`. -/
def buildCleanupPlan (c : Catalog) (targetName : Name) : Option Plan :=
  match engine with
  | .mysql => planMysql casing server c targetName
  | .oracle => planOracle casing server c targetName
  | .doris => planDoris casing server c targetName
  | .ftp => planFtp targetName
  | .sqlserver => planSqlserver casing server c targetName

/-! ### The executions -/

/-- The execution of a plan that drops `name`; `fails` is said of the catalog behind the DROP. -/
def executeDatabase (plan : Option Plan) (c : Catalog) (name : Name) (fails : Catalog → Bool) : Execution :=
  match plan with
  | none => { issued := [], catalog := c, state := none }
  | some plan =>
      if plan.canExecute = false then { issued := [], catalog := c, state := some .blocked }
      else if server.prepareRaises c name = true then { issued := [], catalog := c, state := some .failed }
      else
        let (after, ok) := issue server engine c (.container name)
        { issued := [(c, .container name)]
          catalog := after
          state := some (if ok = true ∧ fails after = false then .success else .failed) }

/-- `_execute_mysql`. -/
def executeMysql (c : Catalog) (targetName : Name) : Execution :=
  executeDatabase server .mysql (planMysql casing server c targetName) c targetName fun after =>
    server.verifyRaises after targetName || after.entries.any fun entry => server.same targetName entry.name

/-- A line of the output that `_sqlserver_rows` takes for a row. -/
def isRow (line : Name) : Bool :=
  !(strip line).isEmpty && !(['('].isPrefixOf (strip line)) && !(strip line).all (· == '-')

/-- `_execute_sqlserver`. -/
def executeSqlserver (cleanupFiles : Bool) (c : Catalog) (targetName : Name) : Execution :=
  executeDatabase server .sqlserver (planSqlserver casing server c targetName) c targetName fun after =>
    server.verifyRaises after targetName ||
      (after.entries.any fun entry => server.same targetName entry.name && isRow entry.name) ||
      cleanupFiles && server.filesRaise after targetName

/-- `_execute_doris`, with the `target_name` of the plan. -/
def executeDoris (c : Catalog) (targetName : Name) : Execution :=
  let target := strip targetName
  executeDatabase server .doris (planDoris casing server c targetName) c target fun after =>
    server.verifyRaises after target ||
      after.entries.any fun entry => decide (casing.lower entry.name = casing.lower target)

/-- The steps that drop tablespaces, up to the first that raises. -/
def dropTablespaces : Catalog → List Name → List (Catalog × Drop) × Catalog × Bool
  | c, [] => ([], c, true)
  | c, tablespace :: rest =>
      let (after, ok) := issue server .oracle c (.tablespace tablespace)
      if ok = true then
        let (issued, last, ok) := dropTablespaces after rest
        ((c, .tablespace tablespace) :: issued, last, ok)
      else ([(c, .tablespace tablespace)], after, false)

/-- The user still exists, or storage that was to be dropped. -/
def oracleRemains (plan : Plan) (dropStorage : Bool) (after : Catalog) (owner : Name) : Bool :=
  (after.entries.any fun entry => decide (entry.name = owner)) ||
    dropStorage && plan.storage.any fun tablespace =>
      decide (tablespace ∈ after.tablespaces) && !decide (tablespace ∈ plan.shared)

/-- `_execute_oracle`; `PURGE DBA_RECYCLEBIN` changes nothing that is looked at here. -/
def executeOracle (dropStorage : Bool) (c : Catalog) (targetName : Name) : Execution :=
  let owner := casing.upper (strip targetName)
  match planOracle casing server c owner with
  | none => { issued := [], catalog := c, state := none }
  | some plan =>
      if plan.canExecute = false then { issued := [], catalog := c, state := some .blocked }
      else if server.prepareRaises c owner = true then { issued := [], catalog := c, state := some .failed }
      else
        let (dropped, ok) := issue server .oracle c (.container owner)
        if ok = true then
          let (issued, after, ok) :=
            dropTablespaces server dropped (if dropStorage = true then plan.exclusive else [])
          let fails := server.verifyRaises after owner || oracleRemains plan dropStorage after owner
          { issued := (c, .container owner) :: issued
            catalog := after
            state := some (if ok = true ∧ fails = false then .success else .failed) }
        else { issued := [(c, .container owner)], catalog := dropped, state := some .failed }

/-- `execute_cleanup`. -/
def executeCleanup (dropStorage cleanupFiles : Bool) (confirmation : Name) (c : Catalog) (targetName : Name) :
    Execution :=
  let blocked : Execution :=
    { issued := [], catalog := c
      state := (buildCleanupPlan casing server engine c targetName).map fun _ => .blocked }
  if confirmation ≠ targetName then blocked
  else match engine with
    | .mysql => executeMysql casing server c targetName
    | .oracle => executeOracle casing server dropStorage c targetName
    | .doris => executeDoris casing server c targetName
    | .ftp => blocked
    | .sqlserver => executeSqlserver casing server cleanupFiles c targetName

/-! ### The batch -/

/-- The loop of `_normalize_batch_targets`, which raises where nothing is left. -/
def normalizeBatchTargets : List Name → List Name → List Name
  | _, [] => []
  | seen, raw :: rest =>
      let target := strip raw
      if target = [] ∨ casing.lower target ∈ seen then normalizeBatchTargets seen rest
      else target :: normalizeBatchTargets (casing.lower target :: seen) rest

/-- `CleanupBatchPlan`, where no plan has raised and none is blocked. -/
def batchCanExecute (c : Catalog) (targets : List Name) : Bool :=
  targets.all fun target => ((buildCleanupPlan casing server engine c target).map Plan.canExecute).getD false

/-- `plan.target_names`. -/
def plannedNames (c : Catalog) (targets : List Name) : List Name :=
  targets.filterMap fun target => (buildCleanupPlan casing server engine c target).map Plan.targetName

inductive BatchState where
  | success
  | failed
  /-- `"partial"`. -/
  | partly
  | blocked
deriving DecidableEq

structure BatchExecution where
  issued : List (Catalog × Drop)
  catalog : Catalog
  state : Option BatchState

/-- The loop of `execute_cleanup_batch`; without a list of states one of them has raised. -/
def executeAll (dropStorage cleanupFiles : Bool) :
    Catalog → List Name → List (Catalog × Drop) × Catalog × Option (List State)
  | c, [] => ([], c, some [])
  | c, target :: rest =>
      let result := executeCleanup casing server engine dropStorage cleanupFiles target c target
      match result.state with
      | none => (result.issued, result.catalog, none)
      | some state =>
          let (issued, after, states) := executeAll dropStorage cleanupFiles result.catalog rest
          (result.issued ++ issued, after, states.map (state :: ·))

/-- The state of the batch by its counts. -/
def batchState (states : List State) : BatchState :=
  let successCount := states.countP (· = .success)
  let blockedCount := states.countP (· = .blocked)
  if successCount = states.length then .success
  else if 0 < successCount then .partly
  else if 0 < blockedCount then .blocked else .failed

/-- `execute_cleanup_batch`. -/
def executeCleanupBatch (acknowledged dropStorage cleanupFiles : Bool) (c : Catalog) (targetNames : List Name) :
    BatchExecution :=
  let targets := normalizeBatchTargets casing [] targetNames
  if targets = [] then { issued := [], catalog := c, state := none }
  else if acknowledged = false ∨ batchCanExecute casing server engine c targets = false then
    { issued := [], catalog := c, state := some .blocked }
  else
    let (issued, after, states) :=
      executeAll casing server engine dropStorage cleanupFiles c (plannedNames casing server engine c targets)
    { issued, catalog := after, state := states.map batchState }

end RecoveryService.DatabaseCleanup
