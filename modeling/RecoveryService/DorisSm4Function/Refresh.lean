import RecoveryService.Lib.Checks
import RecoveryService.Lib.Dict
import RecoveryService.Lib.Statements
import RecoveryService.Lib.Text

/-! # Refreshing the SM4 functions

`refresh_sm4_functions` of `services/doris_sm4_function.py` and `register_sm4_key_version` of
`services/sm4_key_versions.py`.  What Doris answers to each statement is an environment; the rows of the
application's own database are written without failures.  A function of Doris is the seed its Java class was
made from, and whether it encrypts. -/

namespace RecoveryService.DorisSm4Function

open Checks Program Tables

structure FunctionBody where
  encrypts : Bool
  seed : String
deriving DecidableEq

/-- Database, name and argument type. -/
abbrev FunctionKey := String × String × String

/-- The functions of the databases. -/
abbrev Functions := Catalog FunctionKey FunctionBody

/-- `BuiltSm4Jar`. -/
structure BuiltSm4Jar where
  filename : String
  keySeed : String
  keyFingerprint : String
  verificationPlaintext : String
  verificationCiphertext : String

/-- `DorisSm4KeyVersion`; the seed is decrypted. -/
structure KeyVersion where
  id : ℕ
  connectionId : Option ℕ
  keyFingerprint : String
  keySeed : String
  keyMode : String
  functionName : Option String
  decryptFunctionName : Option String
  jarFilename : Option String
  active : Bool
  updatedAt : ℕ
  createdAt : ℕ

inductive ResultState where
  | success
  | failed
deriving DecidableEq

/-- `DorisSm4FunctionDatabaseResult`. -/
structure DatabaseResult where
  database : String
  encryptEnabled : Bool := true
  decryptEnabled : Bool := true
  state : ResultState
  message : String
  verificationState : ResultState
  verificationMessage : String

/-- `DorisSm4FunctionDeployment`. -/
structure Deployment where
  connectionId : ℕ
  database : String
  functionName : String
  decryptFunctionName : String
  keyVersionId : Option ℕ
  keyFingerprint : Option String
  jarFilename : String
  encryptEnabled : Bool
  decryptEnabled : Bool
  state : ResultState
  message : String
  verificationState : ResultState
  verificationMessage : String

/-- An entry of `database_capabilities`. -/
structure Capability where
  database : String
  encryptEnabled : Bool
  decryptEnabled : Bool

/-- The arguments of `refresh_sm4_functions`. -/
structure RefreshRequest where
  connectionId : ℕ
  sm4Key : Option String
  keyMode : String
  keyId : Option ℕ
  functionName : String
  decryptFunctionName : Option String
  includeSystemDatabases : Bool
  databases : List String
  databaseCapabilities : List Capability

/-- What comes back for the statements in one database. -/
structure DatabaseEnv where
  use : Option String := none
  drop : ℕ → Reply String := fun _ => .done
  createImpl : Reply String := .done
  createAlias : Reply String := .done
  verify : Except String String
  createDecryptImpl : Reply String := .done
  createDecryptAlias : Reply String := .done
  decryptVerify : Except String String

/-- The names of the databases: no two are the same, and there are no blanks around them. -/
structure Listing where
  names : List String
  nodup : names.Nodup
  trimmed : ∀ name ∈ names, Text.strip name = name

/-- What comes back for the statements of a refresh. -/
structure RefreshEnv where
  /-- `secrets.token_urlsafe`. -/
  token : String
  now : ℕ
  /-- The id of a new key version. -/
  newId : ℕ
  /-- The type a type name in a statement stands for. -/
  argType : String → String
  listDatabases : Except String Listing
  /-- The guards of the databases and `assert_sm4_key_rotation_allowed`. -/
  guard : Except String Unit := .ok ()
  /-- Building the file of the functions. -/
  build : Except String Unit := .ok ()
  connect : Except String Unit := .ok ()
  relistDatabases : Except String Listing
  /-- The statements in the databases, by the place of the database. -/
  database : ℕ → DatabaseEnv

/-- What the code takes from its libraries and its own cipher. -/
structure Crypto where
  fingerprint : String → String
  /-- `sm4_encrypt_to_base64`. -/
  encrypt : String → String → String
  isalnum : Char → Bool
  lower : String → String

structure RefreshWorld where
  functions : Functions
  versions : List KeyVersion
  deployments : List Deployment

section

variable (crypto : Crypto)

/-! ### Names and keys -/

/-- `_clean_identifier`. -/
def cleanIdentifier (value label : String) : Except String String := do
  let clean := Text.strip value
  raiseIf (clean = "") s!"{label}不能为空。"
  raiseIf (¬ clean.toList.all fun c =>
      crypto.isalnum c || c == '_' || (0x4e00 ≤ c.toNat && c.toNat ≤ 0x9fff))
    s!"{label}只能包含中文、字母、数字和下划线。"
  pure clean

/-- `_normalize_sm4_seed`. -/
def normalizeSeed (token : String) (value : Option String) : Except String String :=
  match value.filter (· ≠ "") with
  | none => .ok token
  | some value =>
      if Text.strip value = "" then .error "手动 SM4 密钥种子不能为空。" else .ok (Text.strip value)

/-- `build_sm4_udf_jar`. -/
def buildJar (env : RefreshEnv) (sm4Key : Option String) : Except String BuiltSm4Jar := do
  let seed ← normalizeSeed env.token sm4Key
  let fingerprint := crypto.fingerprint seed
  let plaintext := "oracle-recovery-sm4-verify-" ++ fingerprint
  env.build
  pure {
    filename := s!"cq-sm4-encrypt-{fingerprint}-v6.jar"
    keySeed := seed
    keyFingerprint := fingerprint
    verificationPlaintext := plaintext
    verificationCiphertext := crypto.encrypt plaintext seed }

/-- `name[:n]`. -/
def take (n : ℕ) (name : String) : String := String.ofList (name.toList.take n)

/-- `_implementation_function_name`. -/
def implementationName (functionName fingerprint : String) : String :=
  if (functionName ++ "_" ++ fingerprint).length ≤ 64 then functionName ++ "_" ++ fingerprint
  else take (max 1 (64 - fingerprint.length - 1)) functionName ++ "_" ++ fingerprint

/-- `_derive_decrypt_function_name`. -/
def deriveDecryptName (functionName : String) : String :=
  if "_ENCRYPT".toList.isSuffixOf functionName.toList then
    take (functionName.length - 8) functionName ++ "_DECRYPT"
  else if "ENCRYPT".toList.isSuffixOf functionName.toList then
    take (functionName.length - 7) functionName ++ "DECRYPT"
  else take 64 (functionName ++ "_DECRYPT")

end

/-- The names a refresh works with in one database. -/
structure FunctionNames where
  database : String
  encrypt : String
  decrypt : String
  encryptImpl : String
  decryptImpl : String
  /-- The names that are dropped. -/
  drops : List String
  dropped : ∀ name ∈ [encrypt, encryptImpl, decrypt, decryptImpl], name ∈ drops

/-- The names `_refresh_function_in_database` works with. -/
def functionNames (database functionName decryptFunctionName fingerprint : String)
    (previousFingerprint : Option String) : FunctionNames :=
  let old (name impl : String) : List String :=
    match previousFingerprint.filter (· ≠ "") with
    | some previous =>
        if implementationName name previous ≠ impl then [implementationName name previous] else []
    | none => []
  let impl := implementationName functionName fingerprint
  let decryptImpl := implementationName decryptFunctionName fingerprint
  { database := database
    encrypt := functionName
    decrypt := decryptFunctionName
    encryptImpl := impl
    decryptImpl := decryptImpl
    drops := Dict.fromKeys ([functionName, impl] ++ old functionName impl ++
      ([decryptFunctionName, decryptImpl] ++ old decryptFunctionName decryptImpl))
    dropped := by
      intro name hname
      simp only [List.mem_cons, List.not_mem_nil, or_false] at hname
      rw [Dict.mem_fromKeys]
      rcases hname with rfl | rfl | rfl | rfl <;> simp }

/-! ### One database -/

section

variable (argType : String → String) (d : DatabaseEnv) (n : FunctionNames) (jar : BuiltSm4Jar)

/-- The key of a function with the argument type of a statement. -/
def FunctionNames.key (name type : String) : FunctionKey := (n.database, name, argType type)

/-- The keys of the `DROP FUNCTION` statements, in their order. -/
def FunctionNames.dropKeys : List FunctionKey :=
  n.drops.flatMap fun name => ["text", "VARCHAR", "STRING"].map (n.key argType name)

/-- `CREATE FUNCTION`. -/
def createFunction (name : String) (body : FunctionBody) (c : Functions) : Option Functions :=
  Tables.create c (n.key argType name "STRING") body

/-- `CREATE ALIAS FUNCTION`. -/
def createAlias (name impl : String) (c : Functions) : Option Functions :=
  (c (n.key argType impl "STRING")).bind fun body =>
    Tables.create c (n.key argType name "STRING") body

def statement (reply : Reply String) (effect : Functions → Option Functions) : Program Functions String Unit :=
  submit reply "Doris rejected the statement." effect

def dropFunctions : Program Functions String Unit :=
  (n.dropKeys argType).zipIdx.forM fun x =>
    statement (d.drop x.2) fun c => some (Function.update c x.1 none)

/-- The encrypt function, and what it makes of the plaintext. -/
def installEncrypt : Program Functions String String := do
  statement d.createImpl (createFunction argType n n.encryptImpl ⟨true, jar.keySeed⟩)
  statement d.createAlias (createAlias argType n n.encrypt n.encryptImpl)
  let actual ← lift d.verify
  pure (Text.strip actual)

/-- The decrypt function, and what it makes of the ciphertext. -/
def installDecrypt : Program Functions String String := do
  statement d.createDecryptImpl (createFunction argType n n.decryptImpl ⟨false, jar.keySeed⟩)
  statement d.createDecryptAlias (createAlias argType n n.decrypt n.decryptImpl)
  lift d.decryptVerify

/-- `value or "-"`. -/
def orDash (value : String) : String := Text.orElse value "-"

def encryptMismatch (actual : String) : DatabaseResult where
  database := n.database
  state := .failed
  message := "函数已创建，但验证结果与新密钥预期不一致，不能视为已生效。"
  verificationState := .failed
  verificationMessage := s!"expected={jar.verificationCiphertext}, actual={orDash actual}"

def decryptMismatch (actual : Option String) (decrypted : String) : DatabaseResult where
  database := n.database
  state := .failed
  message := "加密函数已创建，但解密函数验证失败，不能视为生效。"
  verificationState := .failed
  verificationMessage :=
    let encrypted := orDash (actual.getD "")
    s!"encrypt={encrypted}, decrypt_expected={jar.verificationPlaintext}, decrypt_actual={orDash decrypted}"

def applied (encryptEnabled decryptEnabled : Bool) : DatabaseResult where
  database := n.database
  state := .success
  message :=
    let enabled := "、".intercalate
      ((if encryptEnabled then ["加密"] else []) ++ (if decryptEnabled then ["解密"] else []))
    let shown := Text.orElse enabled "无"
    s!"函数能力已应用：{shown}。"
  verificationState := .success
  verificationMessage := "已启用函数均通过验证；未启用函数已删除。"

def raised (error : String) : DatabaseResult where
  database := n.database
  state := .failed
  message := error
  verificationState := .failed
  verificationMessage := error

variable (encryptEnabled decryptEnabled : Bool)

/-- The second half: the decrypt function. -/
def applyDecrypt (actual : Option String) : Program Functions String DatabaseResult :=
  if decryptEnabled then do
    let decrypted ← installDecrypt argType d n jar
    if decrypted ≠ jar.verificationPlaintext then pure (decryptMismatch n jar actual decrypted)
    else pure (applied n encryptEnabled decryptEnabled)
  else pure (applied n encryptEnabled decryptEnabled)

/-- The `try` of `_refresh_function_in_database`. -/
def applyFunctions : Program Functions String DatabaseResult := do
  query d.use fun _ => .ok ()
  dropFunctions argType d n
  if encryptEnabled then do
    let actual ← installEncrypt argType d n jar
    if actual ≠ jar.verificationCiphertext then pure (encryptMismatch n jar actual)
    else applyDecrypt argType d n jar encryptEnabled decryptEnabled (some actual)
  else applyDecrypt argType d n jar encryptEnabled decryptEnabled none

/-- `_refresh_function_in_database`. -/
def refreshFunctionInDatabase (c : Functions) : Functions × DatabaseResult :=
  match applyFunctions argType d n jar encryptEnabled decryptEnabled c with
  | (.ok result, c') => (c', result)
  | (.error error, c') => (c', raised n error)

end

/-! ### Rows of the application -/

/-- `register_sm4_key_version`: the id of the version, and the versions. -/
def registerKeyVersion (env : RefreshEnv) (r : RefreshRequest) (jar : BuiltSm4Jar)
    (functionName decryptFunctionName : String) (versions : List KeyVersion) : ℕ × List KeyVersion :=
  let mode := if r.keyMode = "manual" then "manual" else "random"
  match versions.find? fun v => v.keyFingerprint = jar.keyFingerprint ∧
      v.connectionId = some r.connectionId ∧ v.active with
  | some existing =>
      (existing.id, versions.map fun v =>
        if v.id = existing.id then
          { v with
            keyMode := mode
            functionName := some functionName
            decryptFunctionName := some decryptFunctionName
            jarFilename := some jar.filename
            updatedAt := env.now }
        else v)
  | none =>
      (env.newId, versions ++ [{
        id := env.newId
        connectionId := some r.connectionId
        keyFingerprint := jar.keyFingerprint
        keySeed := jar.keySeed
        keyMode := mode
        functionName := some functionName
        decryptFunctionName := some decryptFunctionName
        jarFilename := some jar.filename
        active := true
        updatedAt := env.now
        createdAt := env.now }])

/-- The row of a result in `_record_sm4_function_deployments`. -/
def deploymentOf (r : RefreshRequest) (jar : BuiltSm4Jar) (functionName decryptFunctionName : String)
    (keyVersionId : Option ℕ) (result : DatabaseResult) : Deployment where
  connectionId := r.connectionId
  database := result.database
  functionName := functionName
  decryptFunctionName := decryptFunctionName
  keyVersionId := keyVersionId
  keyFingerprint := some jar.keyFingerprint
  jarFilename := jar.filename
  encryptEnabled := result.encryptEnabled
  decryptEnabled := result.decryptEnabled
  state := result.state
  message := result.message
  verificationState := result.verificationState
  verificationMessage := result.verificationMessage

/-- The unique key of the deployments. -/
def Deployment.key (row : Deployment) : ℕ × String × String :=
  (row.connectionId, row.database, row.functionName)

/-- Write a row in the place of the one with its key. -/
def record (rows : List Deployment) (row : Deployment) : List Deployment :=
  if rows.any fun old => old.key = row.key then
    rows.map fun old => if old.key = row.key then row else old
  else rows ++ [row]

/-! ### The run -/

/-- `DorisSm4FunctionRefreshResponse`. -/
structure RefreshResponse where
  state : String
  message : String
  keyId : Option ℕ
  keyFingerprint : String
  successCount : ℕ
  failedCount : ℕ
  results : List DatabaseResult

section

variable (crypto : Crypto) (env : RefreshEnv) (r : RefreshRequest)

/-- `get_sm4_key_seed_for_connection`. -/
def seedForConnection (versions : List KeyVersion) (keyId : ℕ) : Except String String :=
  match versions.find? (fun v => v.id = keyId) with
  | some v =>
      if v.active = false then .error "SM4 key version does not exist or is not active."
      else if v.connectionId ≠ some r.connectionId then .error "所选 SM4 密钥版本不属于当前 Doris 连接。"
      else .ok v.keySeed
  | none => .error "SM4 key version does not exist or is not active."

/-- The key the run is made with. -/
def selectKey (versions : List KeyVersion) : Except String (Option String) :=
  if r.keyMode = "existing" then
    match r.keyId with
    | some keyId => (seedForConnection r versions keyId).map some
    | none => .error "使用已有密钥版本时必须选择密钥版本。"
  else .ok r.sm4Key

/-- `_list_databases`. -/
def listed (listing : Listing) : List String :=
  listing.names.filter fun name =>
    name ≠ "" ∧ (r.includeSystemDatabases ∨ crypto.lower name ∉
      ["__internal_schema", "information_schema", "mysql", "performance_schema", "sys"])

/-- `capability_map`. -/
def capabilityMap : Except String (List (String × Bool × Bool)) :=
  (r.databaseCapabilities.filter fun item => Text.strip item.database ≠ "").mapM fun item => do
    let name ← cleanIdentifier crypto item.database "数据库名"
    pure (name, item.encryptEnabled, item.decryptEnabled)

/-- `capability_map.get(database, (True, True))`: the last entry for a key is the one in the map. -/
def capabilityOf (capabilities : List (String × Bool × Bool)) (database : String) : Bool × Bool :=
  (capabilities.reverse.lookup database).getD (true, true)

/-- The fingerprint of the last row for a database. -/
def previousFingerprint (deployments : List Deployment) (database : String) : Option String :=
  (deployments.reverse.find? fun row =>
    row.connectionId = r.connectionId ∧ row.database = database).bind Deployment.keyFingerprint

/-- The names of the two functions. -/
def cleanNames : Except String (String × String) := do
  let functionName ← cleanIdentifier crypto r.functionName "函数名"
  let decrypt := (r.decryptFunctionName.filter (· ≠ "")).getD (deriveDecryptName functionName)
  let decryptName ← cleanIdentifier crypto decrypt "解密函数名"
  pure (functionName, decryptName)

/-- The databases `refresh_sm4_functions` locks. -/
def selectDatabases : Except String (List String) := do
  let given := if r.databaseCapabilities ≠ [] then r.databaseCapabilities.map Capability.database
    else r.databases
  let selected ← (given.filter fun item => Text.strip item ≠ "").mapM
    fun item => cleanIdentifier crypto item "数据库名"
  if selected ≠ [] then pure (Dict.fromKeys selected)
  else do
    let listing ← env.listDatabases
    pure (Dict.fromKeys (listed crypto r listing))

/-- The databases `_refresh_sm4_functions_locked` goes through. -/
def targetDatabases (databases : List String) : Except String (List String) := do
  let selected ← (databases.filter fun item => Text.strip item ≠ "").mapM
    fun item => cleanIdentifier crypto item "数据库名"
  env.connect
  if selected ≠ [] then pure selected
  else do
    let listing ← env.relistDatabases
    pure (listed crypto r listing)

/-- What is settled before anything is changed. -/
structure RefreshPlan where
  functionName : String
  decryptName : String
  jar : BuiltSm4Jar
  capabilities : List (String × Bool × Bool)
  targets : List String

def refreshPlan (w : RefreshWorld) : Except String RefreshPlan := do
  let databases ← selectDatabases crypto env r
  env.guard
  let names ← cleanNames crypto r
  let key ← selectKey r w.versions
  let jar ← buildJar crypto env key
  let capabilities ← capabilityMap crypto r
  raiseIf (r.keyMode ≠ "existing" ∧ capabilities ≠ [] ∧
      ¬ ∃ item ∈ capabilities, (capabilityOf capabilities item.1).1 = true)
    "生成新密钥时至少需要在一个数据库启用加密函数。"
  let targets ← targetDatabases crypto env r databases
  pure ⟨names.1, names.2, jar, capabilities, targets⟩

/-- The names for a database of the run. -/
def RefreshPlan.names (plan : RefreshPlan) (deployments : List Deployment) (database : String) :
    FunctionNames :=
  functionNames database plan.functionName plan.decryptName plan.jar.keyFingerprint
    (previousFingerprint r deployments database)

/-- The turn of the loop for one database. -/
def refreshDatabase (plan : RefreshPlan) (deployments : List Deployment) (c : Functions)
    (x : String × ℕ) : Functions × DatabaseResult :=
  let capability := capabilityOf plan.capabilities x.1
  let result := refreshFunctionInDatabase env.argType (env.database x.2) (plan.names r deployments x.1)
    plan.jar capability.1 capability.2 c
  (result.1, { result.2 with encryptEnabled := capability.1, decryptEnabled := capability.2 })

/-- `_refresh_sm4_functions_locked` from the loop on. -/
def refreshAll (plan : RefreshPlan) (w : RefreshWorld) : RefreshWorld × RefreshResponse :=
  let looped := Loops.loop (refreshDatabase env r plan w.deployments) w.functions plan.targets.zipIdx
  let results := looped.2
  let successCount := (results.filter fun item => item.state = .success).length
  let failedCount := (results.filter fun item => item.state = .failed).length
  let registered := if successCount > 0 ∧ r.keyMode ≠ "existing" then
    some (registerKeyVersion env r plan.jar plan.functionName plan.decryptName w.versions) else none
  let keyId := if r.keyMode = "existing" then r.keyId else registered.map Prod.fst
  let rows := results.map (deploymentOf r plan.jar plan.functionName plan.decryptName keyId)
  ({ functions := looped.1
     versions := (registered.map Prod.snd).getD w.versions
     deployments := rows.foldl record w.deployments },
   { state := if results ≠ [] ∧ failedCount = 0 then "success"
       else if successCount > 0 then "partial" else "failed"
     message := if results ≠ [] ∧ failedCount = 0 then
         s!"已在 {successCount} 个 Doris 库中创建 {plan.functionName}。"
       else if successCount > 0 then
         s!"部分库创建成功：成功 {successCount} 个，失败 {failedCount} 个。"
       else "未能成功创建 Doris SM4 函数。"
     keyId := keyId
     keyFingerprint := plan.jar.keyFingerprint
     successCount := successCount
     failedCount := failedCount
     results := results })

/-- `refresh_sm4_functions`. -/
def refreshSm4Functions (w : RefreshWorld) : Except String (RefreshWorld × RefreshResponse) :=
  (refreshPlan crypto env r w).map fun plan => refreshAll env r plan w

end

end RecoveryService.DorisSm4Function
