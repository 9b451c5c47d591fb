import RecoveryService.BatchAuthorization.ShowGrants
import RecoveryService.Lib.Checks
import RecoveryService.Lib.Runs

/-! # Privilege leases

A grant batch gives the users of a department SELECT on a list of tables until it expires.
Batches that ask for the same privilege share a lease, which says who owns the privilege: the
service (it executed the GRANT), or somebody outside.  When a batch ends, manually or because it
has expired, the service revokes the privileges it owns and no other batch refers to.

An operation is one transaction and reads the clock once.  What Doris answers to a statement is
part of the request: the rows of SHOW GRANTS, and whether a GRANT or REVOKE raises, in which case
it has no effect.  Leases are found by the hash of their key, which is taken to determine the key;
`lower` is `str.lower`.  All privileges are of the type SELECT.

Two fields are only for the statements: `lastGrant` remembers whether a privilege was absent when
the service granted it last, and `revokes` what the database held at each REVOKE. -/

namespace RecoveryService.BatchAuthorization

open Checks Text Loops

/-! ### Privileges in Doris -/

/-- What a SELECT privilege is on. -/
inductive Scope
  | everything
  | database (sourceDatabase : String)
  | table (sourceDatabase sourceTable : String)
deriving DecidableEq

structure Privilege where
  connectionId : ℕ
  username : String
  scope : Scope
deriving DecidableEq

/-- The privilege of a user on one table. -/
structure PrivilegeKey where
  connectionId : ℕ
  username : String
  sourceDatabase : String
  sourceTable : String
deriving DecidableEq

def PrivilegeKey.privilege (key : PrivilegeKey) : Privilege :=
  ⟨key.connectionId, key.username, .table key.sourceDatabase key.sourceTable⟩

def Scope.covers (scope : Scope) (sourceDatabase sourceTable : String) : Prop :=
  match scope with
  | .everything => True
  | .database d => d = sourceDatabase
  | .table d t => d = sourceDatabase ∧ t = sourceTable

instance (scope : Scope) (d t : String) : Decidable (scope.covers d t) := by
  cases scope <;> unfold Scope.covers <;> infer_instance

/-- The user may read the table. -/
def Holds (granted : List Privilege) (key : PrivilegeKey) : Prop :=
  ∃ p ∈ granted, p.connectionId = key.connectionId ∧ p.username = key.username ∧
    p.scope.covers key.sourceDatabase key.sourceTable

instance (granted : List Privilege) (key : PrivilegeKey) : Decidable (Holds granted key) :=
  inferInstanceAs (Decidable (∃ p ∈ granted, _))

/-! ### Rows -/

structure LeaseKey where
  connectionId : ℕ
  dbUserIdentity : String
  sourceDatabase : String
  sourceTable : String
deriving DecidableEq

inductive OwnershipState
  | unknown | system | external
deriving DecidableEq

inductive LeaseState
  | initializing | active | revoked | error
deriving DecidableEq

structure Lease where
  connectionId : ℕ
  dbUserIdentity : String
  sourceDatabase : String
  sourceTable : String
  ownershipState : OwnershipState
  ownedBySystem : Bool := false
  baselineExistedBeforeSystem : Bool := false
  grantOwnerBatchId : Option ℕ := none
  state : LeaseState
  grantedAt : Option ℕ := none
  revokedAt : Option ℕ := none

inductive GrantState
  | pending | succeeded | skipped | failed
deriving DecidableEq

inductive RevokeState
  | pending | succeeded | skipped | failed
deriving DecidableEq

inductive RevokeDecision
  | skipReferenced | skipAlreadyRevoked | revoke | skipExisting | skipOwnershipUnknown | failed

structure GrantUser where
  dbUsername : String
  leaseId : Option LeaseKey
  grantState : GrantState
  revokeState : RevokeState
  privilegeExistedBefore : Bool
  grantedByThisBatch : Bool
  grantedAt : Option ℕ
  revokedAt : Option ℕ := none
  revokeDecision : Option RevokeDecision
  revokeDecisionReason : Option String

inductive TableState
  | running | succeeded | partially | failed | offlined
deriving DecidableEq

structure GrantTable where
  sourceDatabase : String
  sourceTable : String
  state : TableState
  users : List GrantUser

inductive BatchState
  | running | succeeded | partially | failed | offlined | expired
deriving DecidableEq

structure Batch where
  id : ℕ
  connectionId : ℕ
  state : BatchState
  expiresAt : ℕ
  offlinedAt : Option ℕ := none
  totalTableCount : ℕ
  successTableCount : ℕ
  failedTableCount : ℕ
  tables : List GrantTable

/-- The database as a REVOKE is executed. -/
structure Revoke where
  now : ℕ
  batches : List Batch
  batchId : ℕ
  key : PrivilegeKey
  leaseId : LeaseKey
  lease : Lease
  absentBefore : Option Bool

structure Store where
  now : ℕ
  batches : List Batch
  leases : LeaseKey → Option Lease
  granted : List Privilege
  lastGrant : PrivilegeKey → Option Bool
  revokes : List Revoke

def Store.setLease (s : Store) (id : LeaseKey) (lease : Lease) : Store :=
  { s with leases := Function.update s.leases id (some lease) }

/-- The GRANT is executed. -/
def Store.grant (s : Store) (key : PrivilegeKey) : Store :=
  { s with
    granted := key.privilege :: s.granted
    lastGrant := Function.update s.lastGrant key (some (decide (key.privilege ∉ s.granted))) }

/-- `_db_user_identity`. -/
def dbUserIdentity (username : String) : String := username ++ "@%"

variable (lower : String → String)

/-- `_privilege_lease_key_hash`. -/
def privilegeLeaseKey (key : PrivilegeKey) : LeaseKey :=
  { connectionId := key.connectionId
    dbUserIdentity := lower (strip (dbUserIdentity key.username))
    sourceDatabase := lower (strip key.sourceDatabase)
    sourceTable := lower (strip key.sourceTable) }

/-- The key of the privilege that a user of a table of the batch has. -/
def Batch.keyOf (batch : Batch) (table : GrantTable) (user : GrantUser) : PrivilegeKey :=
  ⟨batch.connectionId, user.dbUsername, table.sourceDatabase, table.sourceTable⟩

def newLease (key : PrivilegeKey) (state : LeaseState) : Lease :=
  { connectionId := key.connectionId
    dbUserIdentity := dbUserIdentity key.username
    sourceDatabase := key.sourceDatabase
    sourceTable := key.sourceTable
    ownershipState := .unknown
    state := state }

/-! ### Acquiring a lease -/

/-- What Doris answers about a privilege; `rows` is `none` when SHOW GRANTS raises. -/
structure Reply where
  rows : Option (List (List String))
  grantRaises : Bool

inductive Acquired
  | granted | present | raised

/-- The system owns the privilege of the lease. -/
def Lease.SystemOwned (lease : Lease) : Prop :=
  lease.ownershipState = .system ∧ lease.ownedBySystem = true

instance (lease : Lease) : Decidable lease.SystemOwned := inferInstanceAs (Decidable (_ ∧ _))

/-- `preserve_system_ownership or preserve_unknown_ownership`. -/
def Lease.preserved (lease : Lease) (created : Bool) : Prop :=
  (created = false ∧ lease.state ≠ .revoked ∧ lease.SystemOwned) ∨
    (created = false ∧ lease.state ≠ .revoked ∧ lease.ownershipState = .unknown)

instance (lease : Lease) (created : Bool) : Decidable (lease.preserved created) :=
  inferInstanceAs (Decidable (_ ∨ _))

/-- The privilege was there. -/
def Lease.found (lease : Lease) (created : Bool) : Lease :=
  if lease.preserved created then { lease with state := .active, revokedAt := none }
  else
    { lease with
      baselineExistedBeforeSystem := true
      ownedBySystem := false
      ownershipState := .external
      grantOwnerBatchId := none
      grantedAt := none
      state := .active
      revokedAt := none }

/-- The service has granted the privilege. -/
def Lease.taken (lease : Lease) (batchId now : ℕ) : Lease :=
  { lease with
    baselineExistedBeforeSystem := false
    ownedBySystem := true
    ownershipState := .system
    grantOwnerBatchId := some batchId
    state := .active
    grantedAt := some now
    revokedAt := none }

/-- `_acquire_privilege_lease_for_grant`. -/
def acquirePrivilegeLeaseForGrant (s : Store) (batchId : ℕ) (key : PrivilegeKey) (reply : Reply) :
    Store × Acquired :=
  let id := privilegeLeaseKey lower key
  let created := (s.leases id).isNone
  let lease := (s.leases id).getD (newLease key .initializing)
  match reply.rows with
  | none => (s.setLease id { lease with state := .error }, .raised)
  | some rows =>
      if grantRowsIncludeSourceSelect rows key.sourceDatabase key.sourceTable then
        (s.setLease id (lease.found created), .present)
      else if reply.grantRaises then (s.setLease id { lease with state := .error }, .raised)
      else ((s.grant key).setLease id (lease.taken batchId s.now), .granted)

/-! ### Importing a grant batch -/

/-- The row of a user; `external` when the lease is owned by somebody outside. -/
def newGrantUser (now : ℕ) (username : String) (leaseId : LeaseKey) (external : Bool) :
    Acquired → GrantUser
  | .granted =>
      { dbUsername := username, leaseId := some leaseId, grantState := .succeeded,
        revokeState := .pending, privilegeExistedBefore := false, grantedByThisBatch := true,
        grantedAt := some now, revokeDecision := none, revokeDecisionReason := none }
  | .present =>
      { dbUsername := username, leaseId := some leaseId, grantState := .skipped,
        revokeState := .pending, privilegeExistedBefore := true, grantedByThisBatch := false,
        grantedAt := none,
        revokeDecision := if external then some .skipExisting else none,
        revokeDecisionReason :=
          if external then some "系统接管前已存在该权限；最终回收时由共享租约保护。" else none }
  | .raised =>
      { dbUsername := username, leaseId := none, grantState := .failed, revokeState := .skipped,
        privilegeExistedBefore := false, grantedByThisBatch := false, grantedAt := none,
        revokeDecision := none, revokeDecisionReason := none }

/-- What an import asks for, and what Doris answers to it. -/
structure ImportRequest where
  batchId : ℕ
  connectionId : ℕ
  departmentActive : Bool
  users : List String
  departmentDatabases : List String
  rows : List (String × String)
  expiresAt : ℕ
  databases : List String
  tableExists : String → String → Bool
  replies : PrivilegeKey → Reply

def ImportRequest.key (request : ImportRequest) (row : String × String) (username : String) : PrivilegeKey :=
  ⟨request.connectionId, username, row.1, row.2⟩

/-- One user of one table. -/
def grantTableUser (request : ImportRequest) (row : String × String) (s : Store)
    (username : String) : Store × GrantUser :=
  let key := request.key row username
  let id := privilegeLeaseKey lower key
  let acquired := acquirePrivilegeLeaseForGrant lower s request.batchId key (request.replies key)
  (acquired.1, newGrantUser s.now username id
    ((acquired.1.leases id).any (·.ownershipState = .external)) acquired.2)

def GrantUser.Acquired (user : GrantUser) : Prop :=
  user.grantState = .succeeded ∨ user.grantState = .skipped

instance (user : GrantUser) : Decidable user.Acquired := inferInstanceAs (Decidable (_ ∨ _))

/-- The state of a table from its `user_success_count` and `user_failed_count`. -/
def tableStateOf (success failed : ℕ) : TableState :=
  if failed ≠ 0 then (if success = 0 then .failed else .partially) else .succeeded

/-- One table of the batch. -/
def grantSourceTable (request : ImportRequest) (s : Store) (row : String × String) : Store × GrantTable :=
  let granted := loop (grantTableUser lower request row) s request.users
  (granted.1,
    { sourceDatabase := row.1
      sourceTable := row.2
      state := tableStateOf (granted.2.countP (·.Acquired)) (granted.2.countP (¬ ·.Acquired))
      users := granted.2 })

/-- The state of a batch from its `success_count` and `failed_count`. -/
def batchStateOf (success failed : ℕ) : BatchState :=
  if failed = 0 then .succeeded else if success = 0 then .failed else .partially

/-- The rows of the batch, each in the state it has at the end of the import. -/
def newBatch (request : ImportRequest) (tables : List GrantTable) : Batch :=
  let success := tables.countP (·.state = .succeeded)
  let failed := tables.countP (·.state ≠ .succeeded)
  { id := request.batchId
    connectionId := request.connectionId
    state := batchStateOf success failed
    expiresAt := request.expiresAt
    totalTableCount := request.rows.length
    successTableCount := success
    failedTableCount := failed
    tables := tables }

def importTables (s : Store) (request : ImportRequest) : Store :=
  let imported := loop (grantSourceTable lower request) s request.rows
  { imported.1 with batches := imported.1.batches ++ [newBatch request imported.2] }

/-- `_IDENT_RE.fullmatch`. -/
def isIdent (name : String) : Bool :=
  match name.toList with
  | [] => false
  | c :: cs =>
      (c.isAlpha || c == '_') &&
        cs.all (fun c => c.isAlphanum || c == '_' || (0x4E00 ≤ c.toNat ∧ c.toNat ≤ 0x9FFF)) &&
        cs.length ≤ 127

/-- The messages of a row of the file; `seen` are the tables of the rows before it. -/
def previewMessages (request : ImportRequest) (seen : List (String × String))
    (row : String × String) : List String :=
  (if row.1 ∉ request.databases then ["源数据库不存在。"]
    else if request.tableExists row.1 row.2 = false then ["源表不存在。"] else []) ++
  (if isIdent row.2 then [] else ["源表名格式不合法。"]) ++
  (if row ∈ seen then ["同一文件内源库表重复。"] else [])

/-- `invalid_count` of `_build_grant_preview`. -/
def invalidCount (request : ImportRequest) :
    List (String × String) → List (String × String) → ℕ
  | _, [] => 0
  | seen, row :: rows =>
      (if previewMessages request seen row = [] then 0 else 1) +
        invalidCount request (row :: seen) rows

/-- `_doris_profile_async`; `engine` are the engines of the connections there are. -/
def dorisProfile (engine : ℕ → Option String) (connectionId : ℕ) : Except String Unit := do
  raiseIf (engine connectionId = none) "数据连接不存在。"
  raiseIf (engine connectionId ≠ some "doris") "请选择 Doris 类型的数据连接。"

/-- `_department_context`. -/
def departmentContext (request : ImportRequest) : Except String Unit := do
  raiseIf (request.departmentActive = false) "部门不存在或已停用。"
  raiseIf (request.users = []) "该部门尚未配置数据库用户。"
  raiseIf (request.departmentDatabases = []) "该部门尚未配置当前 Doris 连接下的部门库。"

/-- `execute_grant_import`. -/
def executeGrantImport (engine : ℕ → Option String) (s : Store) (request : ImportRequest) :
    Except String Store := do
  raiseIf (request.expiresAt ≤ s.now) "授权到期时间必须晚于当前时间。"
  dorisProfile engine request.connectionId
  departmentContext request
  raiseIf (invalidCount request [] request.rows ≠ 0) "授权导入存在校验失败行，请先修正 Excel。"
  return importTables lower s request

/-! ### Revoking -/

/-- The user of the batch holds a reference. -/
def GrantUser.Live (user : GrantUser) : Prop := user.Acquired ∧ user.revokeState ≠ .succeeded

instance (user : GrantUser) : Decidable user.Live := inferInstanceAs (Decidable (_ ∧ _))

def GrantTable.Active (table : GrantTable) : Prop :=
  table.state = .running ∨ table.state = .succeeded ∨ table.state = .partially

instance (table : GrantTable) : Decidable table.Active := inferInstanceAs (Decidable (_ ∨ _ ∨ _))

/-- The batch is unexpired, not offlined and running, succeeded or partial. -/
def Batch.Active (batch : Batch) (now : ℕ) : Prop :=
  (batch.state = .succeeded ∨ batch.state = .partially ∨ batch.state = .running) ∧
    now < batch.expiresAt ∧ batch.offlinedAt = none

instance (batch : Batch) (now : ℕ) : Decidable (batch.Active now) :=
  inferInstanceAs (Decidable (_ ∧ _ ∧ _))

/-- `_privilege_reference_condition`. -/
def privilegeReference (id : LeaseKey) (lease : Lease) (table : GrantTable) (user : GrantUser) : Prop :=
  user.leaseId = some id ∨
    (user.leaseId = none ∧ dbUserIdentity user.dbUsername = lease.dbUserIdentity ∧
      table.sourceDatabase = lease.sourceDatabase ∧ table.sourceTable = lease.sourceTable)

instance (id : LeaseKey) (lease : Lease) (table : GrantTable) (user : GrantUser) :
    Decidable (privilegeReference id lease table user) :=
  inferInstanceAs (Decidable (_ ∨ _))

/-- The rows of `_active_privilege_reference_statement`. -/
def activeReferences (s : Store) (id : LeaseKey) (lease : Lease) (excludeBatchId : ℕ) : List GrantUser :=
  (s.batches.filter (fun batch => batch.connectionId = lease.connectionId ∧ batch.Active s.now ∧
      batch.id ≠ excludeBatchId)).flatMap fun batch =>
    (batch.tables.filter (·.Active)).flatMap fun table =>
      table.users.filter (fun user => user.Live ∧ privilegeReference id lease table user)

/-- `_privilege_lease_revoke_plan`. -/
def privilegeLeaseRevokePlan (lease : Lease) (activeReferenceCount : ℕ) : RevokeDecision × String × Bool :=
  if 0 < activeReferenceCount then
    (.skipReferenced, s!"仍有 {activeReferenceCount} 个有效批次引用该权限，跳过回收。", false)
  else if lease.state = .revoked then
    (.skipAlreadyRevoked, "共享权限租约已完成回收，无需重复执行。", false)
  else if lease.SystemOwned then
    (.revoke, "最后一个有效引用已结束，回收本系统创建的权限。", true)
  else if lease.ownershipState = .external then
    (.skipExisting, "该权限在系统接管前已存在，禁止自动回收。", false)
  else (.skipOwnershipUnknown, "该权限历史归属未知，按保守策略跳过自动回收。", false)

/-- `_lease_for_revoke`: the lease, and its id. -/
def leaseForRevoke (s : Store) (key : PrivilegeKey) (user : GrantUser) : LeaseKey × Lease :=
  match user.leaseId.bind (fun id => (s.leases id).map (id, ·)) with
  | some found => found
  | none =>
      let id := privilegeLeaseKey lower key
      (id, (s.leases id).getD (newLease key .active))

/-- The REVOKE is executed. -/
def Store.revoke (s : Store) (key : PrivilegeKey) : Store :=
  { s with granted := s.granted.filter (· ≠ key.privilege) }

/-- One user in the offline loop; the flag says that a REVOKE failed. -/
def offlineUser (batch : Batch) (table : GrantTable) (revokeRaises : PrivilegeKey → Bool)
    (s : Store) (user : GrantUser) : Store × GrantUser × Bool :=
  if ¬ user.Live then (s, user, false)
  else
    let key := batch.keyOf table user
    let id := (leaseForRevoke lower s key user).1
    let lease := (leaseForRevoke lower s key user).2
    let plan := privilegeLeaseRevokePlan lease (activeReferences s id lease batch.id).length
    let decided : GrantUser :=
      { user with
        leaseId := some id
        revokeDecision := some plan.1
        revokeDecisionReason := some plan.2.1 }
    if plan.2.2 = false then
      (s.setLease id lease, { decided with revokeState := .skipped }, false)
    else
      let executed : Store :=
        { s with
          revokes := s.revokes ++ [⟨s.now, s.batches, batch.id, key, id, lease, s.lastGrant key⟩] }
      if revokeRaises key then
        (executed.setLease id { lease with state := .error },
          { decided with
            revokeState := .failed
            revokeDecision := some .failed
            revokeDecisionReason := some "回收 SQL 执行失败。" }, true)
      else
        ((executed.revoke key).setLease id { lease with state := .revoked, revokedAt := some s.now },
          { decided with revokeState := .succeeded, revokedAt := some s.now }, false)

/-- One table in the offline loop. -/
def offlineTable (batch : Batch) (revokeRaises : PrivilegeKey → Bool) (s : Store)
    (table : GrantTable) : Store × GrantTable × Bool :=
  if table.state = .offlined then (s, table, false)
  else if table.state ≠ .succeeded ∧ table.state ≠ .partially then (s, table, false)
  else
    let users := loop (offlineUser lower batch table revokeRaises) s table.users
    let failed := users.2.any Prod.snd
    (users.1,
      { table with
        users := users.2.map Prod.fst
        state := if failed then table.state else .offlined }, failed)

def Store.setBatch (s : Store) (batch : Batch) : Store :=
  { s with batches := s.batches.map (fun b => if b.id = batch.id then batch else b) }

/-- The batch after its tables went offline. -/
def Batch.offline (batch : Batch) (now : ℕ) (tables : List (GrantTable × Bool)) : Batch :=
  let failed := tables.any Prod.snd
  { batch with
    tables := tables.map Prod.fst
    offlinedAt := if failed then none else some now
    state := if failed then .partially else .offlined }

/-- `_offline_tables_with_session`, and the loop of `offline_grant_batch`. -/
def offlineTables (revokeRaises : PrivilegeKey → Bool) (s : Store) (batch : Batch) : Store :=
  let tables := loop (offlineTable lower batch revokeRaises) s batch.tables
  tables.1.setBatch (batch.offline s.now tables.2)

def Store.findBatch (s : Store) (id : ℕ) : Option Batch := s.batches.find? (·.id = id)

/-- `offline_grant_batch`. -/
def offlineGrantBatch (engine : ℕ → Option String) (s : Store) (batchId : ℕ)
    (revokeRaises : PrivilegeKey → Bool) : Except String Store :=
  match s.findBatch batchId with
  | none => .error "授权批次不存在。"
  | some batch => do
      dorisProfile engine batch.connectionId
      return offlineTables lower revokeRaises s batch

/-- `extend_grant_batch`. -/
def extendGrantBatch (s : Store) (batchId expiresAt : ℕ) : Except String Store :=
  match s.findBatch batchId with
  | none => .error "授权批次不存在。"
  | some batch => do
      raiseIf (expiresAt ≤ s.now) "新的到期时间必须晚于当前时间。"
      return s.setBatch
        (if batch.state = .expired ∨ batch.state = .offlined then
          { batch with expiresAt := expiresAt, state := .succeeded, offlinedAt := none }
        else { batch with expiresAt := expiresAt })

/-- The batch has expired and not been offlined. -/
def Batch.Due (batch : Batch) (now : ℕ) : Prop :=
  batch.expiresAt ≤ now ∧ (batch.state = .succeeded ∨ batch.state = .partially) ∧
    batch.offlinedAt = none

instance (batch : Batch) (now : ℕ) : Decidable (batch.Due now) :=
  inferInstanceAs (Decidable (_ ∧ _ ∧ _))

/-- The batches that an expiry pass takes up. -/
def dueBatches (s : Store) : List Batch :=
  ((s.batches.filter (·.Due s.now)).insertionSort (fun a b => a.expiresAt ≤ b.expiresAt)).take 20

/-- `_offline_expired_batches`. -/
def offlineExpiredBatches (engine : ℕ → Option String) (revokeRaises : PrivilegeKey → Bool)
    (s : Store) : Store :=
  (dueBatches s).foldl
    (fun s batch =>
      if engine batch.connectionId = some "doris" then offlineTables lower revokeRaises s batch
      else s.setBatch { batch with state := .failed })
    s

/-! ### Histories -/

inductive Action
  | importGrants (request : ImportRequest)
  | offline (batchId : ℕ) (revokeRaises : PrivilegeKey → Bool)
  | extend (batchId expiresAt : ℕ)
  | expire (revokeRaises : PrivilegeKey → Bool)
  | grantOutside (privilege : Privilege)
  | revokeOutside (privilege : Privilege)
  | wait (duration : ℕ)

/-- One operation; an operation that raises changes nothing.  The id of a new batch is fresh, and
the users of a department have different names. -/
def step (engine : ℕ → Option String) (s : Store) : Action → Option Store
  | .importGrants request =>
      if request.batchId ∈ s.batches.map Batch.id ∨ ¬ request.users.Nodup then none
      else (executeGrantImport lower engine s request).toOption
  | .offline batchId revokeRaises => (offlineGrantBatch lower engine s batchId revokeRaises).toOption
  | .extend batchId expiresAt => (extendGrantBatch s batchId expiresAt).toOption
  | .expire revokeRaises => some (offlineExpiredBatches lower engine revokeRaises s)
  | .grantOutside privilege => some { s with granted := privilege :: s.granted }
  | .revokeOutside privilege => some { s with granted := s.granted.filter (· ≠ privilege) }
  | .wait duration => some { s with now := s.now + duration }

/-- Nothing has been imported yet. -/
structure Store.Initial (s : Store) : Prop where
  batches : s.batches = []
  leases : ∀ id, s.leases id = none
  lastGrant : ∀ key, s.lastGrant key = none
  revokes : s.revokes = []

end RecoveryService.BatchAuthorization
