import RecoveryService.Lib.Statements
import RecoveryService.Lib.Text

/-! # The targets of an Oracle import

`derive_target_names`, the targets of `build_plan`, `cleanup_targets` and `prepare_targets` of
`tools/oracle_dmp_auto_import.py`.  A name is a text whose upper case is the identifier in Oracle.  A run
drops the targets that exist and creates the others. -/

namespace RecoveryService.OracleImport

open Text Program

abbrev Name := List Char

/-! ### Names -/

/-- `[A-Za-z0-9_]`. -/
def isNameChar (c : Char) : Bool := c.isAlphanum || c == '_'

/-- `re.sub(r"[^A-Za-z0-9_]+", "_", value.upper())`. -/
def squash (value : Name) : Name := subRuns (fun c => !isNameChar c) '_' false (upper value)

def normalizeToken (value : Name) : Name :=
  let cleaned := stripChars (· == '_') (squash value)
  if cleaned = [] then "DMP".toList else cleaned

/-- An identifier does not begin with a digit. -/
def lead (cleaned : Name) : Name :=
  if (cleaned.head?.map Char.isDigit).getD false = true then "O_".toList ++ cleaned else cleaned

def oracleName (value : Name) : Name := (lead (normalizeToken value)).take 30

/-! ### The clock -/

structure Clock where
  year : ℕ
  month : ℕ
  day : ℕ
  hour : ℕ
  minute : ℕ

def digit (n : ℕ) : Char := Char.ofNat (0x30 + n % 10)

def twoDigits (n : ℕ) : Name := [digit (n / 10), digit n]

/-- `now.strftime("%y%m%d_%H%M")`. -/
def Clock.suffix (now : Clock) : Name :=
  twoDigits now.year ++ twoDigits now.month ++ twoDigits now.day ++ "_".toList ++
    twoDigits now.hour ++ twoDigits now.minute

/-! ### The plan -/

/-- Users and tablespaces. -/
inductive Kind where
  | user
  | tablespace
deriving DecidableEq

/-- `SYSTEM_USERS` and `SYSTEM_TABLESPACES`. -/
def systemNames : Kind → List Name
  | .user => ["ANONYMOUS", "APEX_PUBLIC_USER", "CTXSYS", "DBSNMP", "DIP", "EXFSYS", "FLOWS_FILES", "MDDATA",
      "MDSYS", "MGMT_VIEW", "OLAPSYS", "ORDDATA", "ORDPLUGINS", "ORDSYS", "OUTLN", "OWBSYS",
      "SI_INFORMTN_SCHEMA", "SYS", "SYSMAN", "SYSTEM", "WMSYS", "XDB", "XS$NULL"].map String.toList
  | .tablespace => ["SYSTEM", "SYSAUX", "TEMP", "UNDOTBS1"].map String.toList

def IsSystem (kind : Kind) (name : Name) : Prop := upper name ∈ systemNames kind

instance (kind : Kind) (name : Name) : Decidable (IsSystem kind name) :=
  inferInstanceAs (Decidable (_ ∈ _))

/-- The options of the tool that name targets; an empty text is an option that is not given. -/
structure Options where
  targetUser : Name := []
  keepSourceSchema : Bool := false
  targetSchemaPrefix : Name := []
  targetTablespace : Name := []
  targetTablespacePrefix : Name := []
  /-- `on_conflict` is `stop`. -/
  stop : Bool := false

/-- A run of the tool. -/
structure RunInput where
  /-- The dump file. -/
  dump : ℕ
  displayName : Name
  now : Clock
  schemas : List Name
  tablespaces : List Name
  options : Options
  distinct : schemas.Nodup

namespace RunInput

variable (r : RunInput)

def base : Name := normalizeToken r.displayName

def defaultUser : Name := oracleName (r.base ++ '_' :: r.now.suffix)

def defaultTablespace : Name := oracleName ("TBS_".toList ++ r.base ++ '_' :: r.now.suffix)

/-- The name of a schema with `--target-schema-prefix`, or of one among several. -/
def schemaName (schema : Name) : Name :=
  if r.options.targetSchemaPrefix ≠ [] then oracleName (r.options.targetSchemaPrefix ++ schema)
  else oracleName (r.base ++ '_' :: schema ++ '_' :: r.now.suffix)

/-- `derive_target_names`; the target tablespace is `targetTablespace` below. -/
def schemaMap : Except String (List (Name × Name)) :=
  if r.options.targetUser ≠ [] ∧ r.options.keepSourceSchema = true then
    .error "--target-user and --keep-source-schema cannot be used together."
  else if r.options.targetUser ≠ [] then
    if 1 < r.schemas.length then
      .error "--target-user can only be used when a dump contains one source schema."
    else .ok (r.schemas.map fun schema => (schema, oracleName r.options.targetUser))
  else if r.options.keepSourceSchema = true then
    if r.schemas = [] then .error "--keep-source-schema requires at least one parsed source schema."
    else .ok (r.schemas.map fun schema => (schema, schema))
  else if r.options.targetSchemaPrefix ≠ [] then
    .ok (r.schemas.map fun schema => (schema, r.schemaName schema))
  else if r.schemas.length ≤ 1 then .ok (r.schemas.map fun schema => (schema, r.defaultUser))
  else .ok (r.schemas.map fun schema => (schema, r.schemaName schema))

def targetTablespace : Name :=
  if r.options.targetTablespace ≠ [] then oracleName r.options.targetTablespace else r.defaultTablespace

/-- `tablespace_map`. -/
def tablespaceMap : List (Name × Name) :=
  (r.tablespaces.filter fun tablespace => ¬ IsSystem .tablespace tablespace).map fun tablespace =>
    (tablespace, if r.options.targetTablespace = [] ∧ r.options.targetTablespacePrefix ≠ [] then
      oracleName (r.options.targetTablespacePrefix ++ tablespace) else r.targetTablespace)

end RunInput

/-- `sorted(set(names))`. -/
def sortedSet (names : List Name) : List Name := names.dedup.mergeSort fun a b => decide (a ≤ b)

@[simp] theorem mem_sortedSet {name : Name} {names : List Name} : name ∈ sortedSet names ↔ name ∈ names := by
  rw [sortedSet, List.mem_mergeSort, List.mem_dedup]

/-- The targets of `build_plan`. -/
def RunInput.targets (r : RunInput) : Except String (Kind → List Name) := do
  let schemaMap ← r.schemaMap
  let users := sortedSet (schemaMap.map Prod.snd)
  let tablespaces := sortedSet (r.tablespaceMap.map Prod.snd)
  pure fun
    | .user => users
    | .tablespace => if tablespaces = [] ∧ users ≠ [] then [r.targetTablespace] else tablespaces

/-! ### The run -/

/-- The users and tablespaces of the database, and what a run has dropped and created. -/
structure Database where
  present : Kind → List Name
  dropped : Kind → List Name := fun _ => []
  created : Kind → List Name := fun _ => []

def Database.drop (db : Database) (kind : Kind) (name : Name) : Database :=
  { db with
    present := Function.update db.present kind ((db.present kind).filter (· ≠ upper name))
    dropped := Function.update db.dropped kind (db.dropped kind ++ [upper name]) }

def Database.create (db : Database) (kind : Kind) (name : Name) : Database :=
  { db with
    present := Function.update db.present kind (upper name :: db.present kind)
    created := Function.update db.created kind (db.created kind ++ [upper name]) }

abbrev Tool := Program Database String

/-- `ensure_safe_user`, `ensure_safe_tablespace`. -/
def ensureSafe (kind : Kind) (name : Name) : Tool Unit :=
  onlyIf (IsSystem kind name) (raise s!"Refusing to modify system object: {String.ofList name}")

/-- The loops of `cleanup_targets`. -/
def dropExisting (stop : Bool) (kind : Kind) (name : Name) : Tool Unit := do
  ensureSafe kind name
  let db ← state
  onlyIf (upper name ∈ db.present kind) do
    onlyIf (stop = true) (raise s!"Target {String.ofList name} already exists.")
    update fun db => db.drop kind name

def cleanupTargets (stop : Bool) (targets : Kind → List Name) : Tool Unit := do
  (targets .user).forM (dropExisting stop .user)
  (targets .tablespace).forM (dropExisting stop .tablespace)

/-- The loops of `prepare_targets`. -/
def createMissing (kind : Kind) (name : Name) : Tool Unit := do
  ensureSafe kind name
  let db ← state
  onlyIf (upper name ∉ db.present kind) (update fun db => db.create kind name)

def prepareTargets (targets : Kind → List Name) : Tool Unit := do
  (targets .tablespace).forM (createMissing .tablespace)
  (targets .user).forM (createMissing .user)

/-- The plan, and with it the targets are cleaned up and prepared. -/
def RunInput.execute (r : RunInput) : Tool Unit := do
  let targets ← lift r.targets
  cleanupTargets r.options.stop targets
  prepareTargets targets

end RecoveryService.OracleImport
