import RecoveryService.Lib.Programs
import RecoveryService.Lib.Text

/-! # The stop request of an Oracle import

`tools/oracle_dmp_auto_import.py`: `main` with every function that starts a command.  All commands go
through `run_process`, which looks for the file `stop.request` before it starts a command and while the
command runs.  The commands are known by what they do; `answer` says what the n-th call of `run_process`
prints and returns, and `stopAt` when the file appears: `2n` is the check before the n-th call, `2n + 1` the
polling during it. -/

namespace RecoveryService.AutoImport

open Program

abbrev Text := List Char

/-- `value.rstrip("/")`. -/
def rstripSlash (path : Text) : Text := path.rdropWhile (· == '/')

/-- `pattern in text`. -/
def occurs (pattern : String) (text : Text) : Bool := decide (pattern.toList <:+: text)

/-- `"\n".join(lines)`. -/
def joined (lines : List Text) : Text := ['\n'].intercalate lines

/-! ### Commands -/

/-- The DIRECTORY objects of a run: its own one, and the shared one of a zero-copy import. -/
inductive DirectoryObject where
  | work
  | dump

/-- The commands, `docker_exec` and `sqlplus` included. -/
inductive Command where
  | dockerPs
  | conName (connect : Text)
  | openPdbs
  | directoryPath (object : DirectoryObject)
  | createDirectory (object : DirectoryObject) (path : Text)
  | grantDirectory (object : DirectoryObject)
  | dropDirectory (object : DirectoryObject)
  | writeCheck (object : DirectoryObject)
  | filesVisible (object : DirectoryObject) (files : List Text)
  | testDirectory (path : Text)
  | makeDirectory (path : Text)
  | removeUnder (path : Text)
  | removeDirectory (path : Text)
  | streamFile (file target : Text)
  | removeFiles (paths : List Text)
  | sqlfileProbe (number : ℕ) (excludeComment : Bool)
  | legacyProbe
  | readFile (path : Text)
  | copyText (path : Text)
  | testFile (path : Text)
  | dataFile
  | countUsers (user : Text)
  | countTablespaces (tablespace : Text)
  | dropUser (user : Text)
  | dropTablespace (tablespace : Text)
  | createTablespace (tablespace datafile : Text)
  | createUser (user tablespace : Text)
  | grantUser (user : Text)
  | quota (user : Text) (tablespaces : List Text)
  | importDump (words : List Text)
  | repairDependencies (remaps : List (Text × Text)) (users : List Text)

/-- What a call of `run_process` gives back, and whether the command took effect. -/
structure Answer where
  code : ℤ
  lines : List Text
  done : Bool

/-- What a run leaves in the container: the path of its DIRECTORY and its work directory with the files. -/
structure Container where
  directory : Option Text
  workDir : Bool

/-- What a command does to the DIRECTORY of the run and to the work directory at `work`. -/
def Command.effect (work : Text) (w : Container) : Command → Container
  | createDirectory .work path => { w with directory := some path }
  | dropDirectory .work => { w with directory := none }
  | makeDirectory path => { w with workDir := w.workDir || path == work }
  | removeUnder path =>
      { w with workDir := w.workDir && !((rstripSlash path ++ ['/']).isPrefixOf work) }
  | removeDirectory path => { w with workDir := w.workDir && !(path == rstripSlash work) }
  | _ => w

/-! ### The state of a run -/

inductive DumpType where
  | datapump
  | legacyExp
  | probeFailed
  | unknown
deriving DecidableEq

structure ProbeResult where
  dumpType : DumpType
  schemas : List Text := []
  tablespaces : List Text := []
  datafiles : List Text := []
  excludeObjectTypes : List String := []
  failureCode : String := ""
  attempts : ℕ

structure ImportPlan where
  dumpType : DumpType
  sourceSchemas : List Text
  schemaMap : List (Text × Text)
  targetUsers : List Text
  targetTablespaces : List Text
  targetDatafiles : Text → Text
  commands : List (List Text)
  fallbackCommands : List (List Text)

/-- `ImportOutcome`: `imported`, or with warnings. -/
structure ImportOutcome where
  withWarnings : Bool := false
  warnings : List Text := []
  repairedObjects : List Text := []
  invalidObjects : List Text := []

/-- The exceptions: `ImportStopRequested`, and all others. -/
inductive Failure where
  | stopRequested (message : String)
  | error (message : String)

/-- `str(exc)`. -/
def Failure.text : Failure → String
  | stopRequested message => message
  | error message => message

/-- The `status` of `report.json`. -/
inductive Report where
  | stopped (error : String)
  | failed (error : String)
  | dryRun
  | imported (withWarnings : Bool)

/-- The command that saw the request first, and the run at that moment. -/
structure Seen where
  command : Command
  finishing : Bool
  started : ℕ
  container : Container

structure State where
  calls : ℕ := 0
  started : List Command := []
  seen : Option Seen := none
  /-- `main` is in its `finally`. -/
  finishing : Bool := false
  container : Container
  /-- `args.connect`. -/
  connect : Text
  /-- The logs in `import_dir`, with their names. -/
  importLogs : List (Text × List Text)
  report : Option Report
  locked : Bool := false

/-- The first command that sees the request is recorded. -/
def State.see (s : State) (c : Command) : State :=
  { s with seen := s.seen <|> some ⟨c, s.finishing, s.started.length, s.container⟩ }

/-- The arguments of a run with the functions of the tool that start no command, and what happens to it. -/
structure Job where
  container : Text
  connect : Text
  pdb : Text
  containerDir : Text
  runId : Text
  directContainerDir : Text
  directoryObject : Text
  dumpDirectoryObject : Text
  targetDatafileDir : Text
  jobName : Text
  recreate : Bool
  execute : Bool
  defaultTablespace : Text
  exportLogMissingCount : ℤ
  /-- `resolve_dump_inputs`: the dump files, or `FileNotFoundError`. -/
  sourceFiles : Option (List Text)
  /-- `generated_directory_name`. -/
  generatedDirectory : Text
  /-- `parse_metadata`. -/
  parseMetadata : Text → List Text × List Text × List Text
  /-- `validate_export_log_expectations`. -/
  validate : ProbeResult → Except String Unit
  /-- `build_plan`, for the probe and the directory of the data files. -/
  buildPlan : ProbeResult → Text → Except String ImportPlan
  /-- Another process holds the lock of the run. -/
  busy : Bool
  /-- When `stop.request` appears. -/
  stopAt : Option ℕ
  answer : ℕ → Answer

namespace Job

variable (j : Job)

/-- `ctx.container_import_dir`. -/
def containerImportDir : Text := rstripSlash j.containerDir ++ ['/'] ++ j.runId

/-- `ctx.zero_copy_dump`. -/
def zeroCopyDump : Prop := j.directContainerDir ≠ []

instance : Decidable j.zeroCopyDump := inferInstanceAs (Decidable (_ ≠ _))

/-- `ctx.container_dump_dir`. -/
def containerDumpDir : Text :=
  if j.zeroCopyDump then rstripSlash j.directContainerDir else j.containerImportDir

/-- A file of the work directory. -/
def workFile (name : Text) : Text := j.containerImportDir ++ ['/'] ++ name

/-- `stop_requested` at a moment of the run. -/
def stopRequested (moment : ℕ) : Bool := j.stopAt.any (· ≤ moment)

/-- `run_process`. -/
def runProcess (c : Command) : Program State Failure Answer := fun s =>
  let a := j.answer s.calls
  if j.stopRequested (2 * s.calls) then
    (.error (.stopRequested "Oracle 导入已收到用户停止请求。"), { s with calls := s.calls + 1 }.see c)
  else
    let ran := { s with
      calls := s.calls + 1
      started := c :: s.started
      container := if a.done then c.effect j.containerImportDir s.container else s.container }
    if j.stopRequested (2 * s.calls + 1) then
      (.error (.stopRequested "Oracle 导入已按用户请求停止。"), ran.see c)
    else (.ok a, ran)

/-- `raise RuntimeError(message)`. -/
def fail {α : Type} (message : String) : Program State Failure α := raise (.error message)

/-- A command that has to succeed. -/
def checked (c : Command) (message : Answer → String) : Program State Failure Unit := do
  let result ← j.runProcess c
  onlyIf (result.code ≠ 0) (fail (message result))

/-- `result.stdout`. -/
def stdout (result : Answer) : String := String.ofList (joined result.lines)

/-- `sqlplus`. -/
def sqlplus (c : Command) : Program State Failure (List Text) := do
  let result ← j.runProcess c
  onlyIf (result.code ≠ 0) (fail (stdout result))
  pure result.lines

/-- `sqlplus` whose output is not read. -/
def sqlStatement (c : Command) : Program State Failure Unit := do
  let _ ← j.sqlplus c
  pure ()

/-- The last number of the output, as `sql_count` reads it. -/
def lastNumber (lines : List Text) : ℕ :=
  let reversed := (joined lines).reverse.dropWhile (fun c => !c.isDigit)
  (String.ofList (reversed.takeWhile Char.isDigit).reverse).toNat?.getD 0

/-- `sql_count`. -/
def sqlCount (c : Command) : Program State Failure ℕ := do
  let lines ← j.sqlplus c
  pure (lastNumber lines)

/-- The first line that is not blank, stripped. -/
def firstLine (lines : List Text) : Text :=
  ((lines.map (Text.stripChars Text.isSpace)).find? (· ≠ [])).getD []

/-- `sql_first_value`. -/
def sqlFirstValue (c : Command) : Program State Failure Text := do
  let lines ← j.sqlplus c
  pure (firstLine lines)

/-- `directory_path`. -/
def directoryPath (object : DirectoryObject) : Program State Failure Text :=
  j.sqlFirstValue (.directoryPath object)

/-! ### The connection and the directories -/

/-- `find_oracle_container`, for the names and images that `docker ps` lists. -/
def findOracleContainer : Program State Failure Text := do
  let result ← j.runProcess .dockerPs
  onlyIf (result.code ≠ 0) (fail "Unable to run docker ps. Is Docker running?")
  let isOracle (line : Text) : Bool :=
    let haystack := line.map Char.toLower
    occurs "oracle" haystack || occurs "database" haystack || occurs "orcl" haystack
  match (result.lines.filter isOracle).map (·.takeWhile (· ≠ '\t')) with
  | [name] => pure name
  | [] => fail "No Oracle-like container found. Pass --container explicitly."
  | names =>
      let found := String.ofList ([',', ' '].intercalate names)
      fail s!"Multiple Oracle-like containers found: {found}. Pass --container explicitly."

/-- `CDB$ROOT`. -/
def cdbRoot : Text := ['C', 'D', 'B', '$', 'R', 'O', 'O', 'T']

/-- `try: query` with `except Exception`. -/
def orElse {α : Type} (query : Program State Failure α) (handler : Failure → Program State Failure α) :
    Program State Failure α :=
  attempt query fun e => some (handler e)

/-- The name of an open PDB, from `args.pdb` or from `v$pdbs`. -/
def pdbName : Program State Failure Text :=
  if j.pdb ≠ [] then pure j.pdb
  else orElse (j.sqlFirstValue .openPdbs) fun e =>
    fail s!"Connected to CDB$ROOT but could not auto-detect an open PDB. Pass --connect @ORCLPDB1 or --pdb ORCLPDB1. Detail: {e.text}"

/-- `args.connect = ...`, and the query that verifies the connection. -/
def switchPdb (name : Text) : Program State Failure Unit := do
  onlyIf (name = []) (fail "Connected to CDB$ROOT but no READ WRITE PDB was found. Pass --connect @your_pdb_service.")
  let connect := '@' :: name
  update fun s => { s with connect := connect }
  let _ ← orElse (j.sqlFirstValue (.conName connect)) fun e =>
    fail s!"Could not connect to detected PDB with {String.ofList connect}. Pass --connect explicitly, for example --connect @ORCLPDB1. Detail: {e.text}"
  pure ()

/-- What `resolve_pdb_connect` does with the container context; `none` where it could not be read. -/
def useContext : Option Text → Program State Failure Unit
  | none => pure ()
  | some name =>
      if j.connect ≠ [] then
        onlyIf (Text.upper name = cdbRoot)
          (fail "Refusing to operate in CDB$ROOT. This tool must run in a PDB. Pass --connect @ORCLPDB1 or --pdb ORCLPDB1.")
      else
        onlyIf (Text.upper name = cdbRoot) do
          let name ← j.pdbName
          j.switchPdb name

/-- `resolve_pdb_connect`. -/
def resolvePdbConnect : Program State Failure Unit := do
  let context ← orElse (do
    let name ← j.sqlFirstValue (.conName j.connect)
    pure (some name)) fun _ => pure none
  j.useContext context

/-- `create_directory`. -/
def createDirectory (object : DirectoryObject) (path : Text) : Program State Failure Unit :=
  j.sqlStatement (.createDirectory object path)

/-- `verify_directory`. -/
def verifyDirectory (object : DirectoryObject) (path : Text) : Program State Failure Unit := do
  let actual ← j.directoryPath object
  onlyIf (rstripSlash actual ≠ rstripSlash path)
    (fail s!"DIRECTORY verification failed: it points to {String.ofList actual}, expected {String.ofList path}.")
  j.checked (.testDirectory path) fun _ =>
    s!"DIRECTORY verification failed: container path is missing or unreadable: {String.ofList path}."
  orElse (j.sqlStatement (.writeCheck object)) fun e =>
    fail s!"DIRECTORY verification failed: Oracle could not write through it: {e.text}"

/-- `verify_dump_directory`. -/
def verifyDumpDirectory (files : List Text) : Program State Failure Unit := do
  let actual ← j.directoryPath .dump
  onlyIf (rstripSlash actual ≠ rstripSlash j.containerDumpDir)
    (fail s!"Shared dump DIRECTORY points to {String.ofList actual}, expected {String.ofList j.containerDumpDir}. Refusing to replace an existing shared DIRECTORY.")
  j.checked (.testDirectory j.containerDumpDir) fun _ =>
    s!"Shared dump directory is missing or unreadable in the container: {String.ofList j.containerDumpDir}."
  j.sqlStatement (.filesVisible .dump files)

/-- `ensure_reusable_dump_directory`. -/
def ensureReusableDumpDirectory (files : List Text) : Program State Failure Unit := do
  let existing ← j.directoryPath .dump
  if existing ≠ [] then do
    onlyIf (rstripSlash existing ≠ rstripSlash j.containerDumpDir)
      (fail s!"Shared dump DIRECTORY already exists at {String.ofList existing}, but the configured container path is {String.ofList j.containerDumpDir}. Refusing CREATE OR REPLACE.")
    j.sqlStatement (.grantDirectory .dump)
    j.verifyDumpDirectory files
  else do
    j.createDirectory .dump j.containerDumpDir
    j.verifyDumpDirectory files

/-- `ensure_container_directory`. -/
def ensureContainerDirectory (path : Text) : Program State Failure Unit :=
  j.checked (.makeDirectory path) stdout

/-- `copy_dump_to_container`. -/
def copyDumpToContainer (files : List Text) : Program State Failure Unit := do
  j.ensureContainerDirectory j.containerImportDir
  files.forM fun file =>
    j.checked (.streamFile file (rstripSlash j.containerImportDir ++ ['/'] ++ file)) stdout

/-- `args.container_dir.rstrip("/") + "/"`. -/
def managedRoot : Text := rstripSlash j.containerDir ++ ['/']

/-- `cleanup_directory_object` for an existing DIRECTORY at a path. -/
def replaceDirectory (old : Text) : Program State Failure Unit := do
  onlyIf (j.recreate = false)
    (fail "DIRECTORY already exists. Use --on-conflict recreate to replace it.")
  if rstripSlash old ≠ rstripSlash j.containerImportDir ∧ j.managedRoot.isPrefixOf old then do
    j.checked (.removeUnder old) stdout
    j.sqlStatement (.dropDirectory .work)
  else if rstripSlash old = rstripSlash j.containerImportDir then j.sqlStatement (.dropDirectory .work)
  else fail s!"Refusing to clean unmanaged DIRECTORY path: {String.ofList old}"

/-- `cleanup_directory_object`. -/
def cleanupDirectoryObject : Program State Failure Unit := do
  let old ← j.directoryPath .work
  onlyIf (old ≠ []) (j.replaceDirectory old)

/-- `get_datafile_dir`. -/
def getDatafileDir : Program State Failure Text :=
  if j.targetDatafileDir ≠ [] then pure (rstripSlash j.targetDatafileDir)
  else do
    let first ← j.sqlFirstValue .dataFile
    pure (if first = [] then "/u01/app/oracle/oradata".toList
      else if '/' ∈ first then ((first.reverse.dropWhile (· ≠ '/')).drop 1).reverse
      else ['.'])

/-! ### The probe -/

/-- `has_legacy_exp_marker`. -/
def hasLegacyExpMarker (text : Text) : Bool :=
  occurs "ORA-39143" text || occurs "original export" (text.map Char.toLower)

/-- `has_comment_charset_loss`. -/
def hasCommentCharsetLoss (text : Text) : Bool := occurs "ORA-39346" text && occurs "COMMENT" (Text.upper text)

/-- `classify_probe_failure`. -/
def classifyProbeFailure (text : Text) : String :=
  let u := Text.upper text
  if occurs "UNABLE TO FIND USER" u && occurs "NO MATCHING ENTRIES IN PASSWD FILE" u then
    "docker_user_resolution_failed"
  else if occurs "ORA-39087" u then "directory_invalid"
  else if occurs "ORA-39054" u then "sqlfile_invalid"
  else if occurs "ORA-39059" u then "dump_set_incomplete"
  else if occurs "ORA-31640" u || occurs "ORA-27037" u || occurs "ORA-19505" u then "dump_file_inaccessible"
  else if occurs "ORA-31655" u then "metadata_not_selected"
  else if hasLegacyExpMarker text then "legacy_exp"
  else "unknown_dump_type"

/-- A command whose exit code is not read. -/
def output (c : Command) : Program State Failure Text := do
  let result ← j.runProcess c
  pure (joined result.lines)

/-- `docker_copy_text_from` into a directory whose files no later step reads. -/
def copyText (path : Text) : Program State Failure Unit := do
  let _ ← j.runProcess (.copyText path)
  pure ()

/-- An attempt of the probe: its exit code and the output with the SQL file and the log. -/
structure Probed where
  code : ℤ
  combined : Text

/-- `failure_code` of an attempt. -/
def Probed.failureCode (p : Probed) : String :=
  if p.code ≠ 0 then classifyProbeFailure p.combined else ""

/-- `probe_attempt` with `run_impdp_sqlfile_probe`. -/
def probeAttempt (number : ℕ) (excludeComment : Bool) : Program State Failure Probed := do
  let suffix := if number = 1 then "" else s!"_retry_{number}"
  let sqlfile := j.workFile s!"auto_probe{suffix}.sql".toList
  let logfile := j.workFile s!"auto_probe_impdp{suffix}.log".toList
  j.checked (.removeFiles [sqlfile, logfile]) fun cleanup =>
    s!"Could not clear stale probe outputs: {stdout cleanup}"
  let result ← j.runProcess (.sqlfileProbe number excludeComment)
  let sqlfileText ← j.output (.readFile sqlfile)
  let logfileText ← j.output (.readFile logfile)
  j.copyText sqlfile
  j.copyText logfile
  pure ⟨result.code, joined result.lines ++ ['\n'] ++ sqlfileText ++ ['\n'] ++ logfileText⟩

/-- What the attempts of `probe_dump` have come to. -/
structure Probing where
  probed : Probed
  combined : Text
  failureCode : String
  attempts : ℕ

/-- The `ProbeResult` of a `datapump` dump. -/
def datapumpProbe (text : Text) (excluded : List String) (attempts : ℕ) : ProbeResult :=
  let metadata := j.parseMetadata text
  { dumpType := .datapump
    schemas := metadata.1
    tablespaces := metadata.2.1
    datafiles := metadata.2.2
    excludeObjectTypes := excluded
    attempts := attempts }

/-- The first attempt, and the second one with the DIRECTORY created anew. -/
def firstAttempts : Program State Failure Probing := do
  let p ← j.probeAttempt 1 false
  if p.failureCode = "directory_invalid" ∨ p.failureCode = "sqlfile_invalid" then do
    j.createDirectory .work j.containerImportDir
    j.verifyDirectory .work j.containerImportDir
    let p' ← j.probeAttempt 2 false
    pure ⟨p', p.combined ++ ['\n'] ++ p'.combined, p'.failureCode, 2⟩
  else pure ⟨p, p.combined, p.failureCode, 1⟩

/-- `imp` with `SHOW=Y`. -/
def legacyAttempt (attempts : ℕ) : Program State Failure ProbeResult := do
  let result ← j.runProcess .legacyProbe
  let logfile := j.workFile "auto_probe_imp.log".toList
  let logText ← j.output (.readFile logfile)
  j.copyText logfile
  if result.code ≠ 0 then
    pure { dumpType := .probeFailed, failureCode := "legacy_probe_failed", attempts := attempts + 1 }
  else
    let metadata := j.parseMetadata (joined result.lines ++ ['\n'] ++ logText)
    pure
      { dumpType := .legacyExp
        schemas := metadata.1
        tablespaces := metadata.2.1
        datafiles := metadata.2.2
        attempts := attempts + 1 }

/-- The end of `probe_dump`, by the reason of the failure. -/
def byFailure (failureCode : String) (attempts : ℕ) : Program State Failure ProbeResult :=
  if failureCode = "metadata_not_selected" then
    pure { dumpType := .datapump, failureCode := failureCode, attempts := attempts }
  else if failureCode ≠ "legacy_exp" then
    pure
      { dumpType := if failureCode ≠ "unknown_dump_type" then .probeFailed else .unknown
        failureCode := failureCode
        attempts := attempts }
  else j.legacyAttempt attempts

/-- The attempt without `COMMENT`. -/
def withoutComment (p : Probing) : Program State Failure ProbeResult := do
  let retry ← j.probeAttempt (p.attempts + 1) true
  if retry.code = 0 ∧ hasLegacyExpMarker retry.combined = false then
    pure (j.datapumpProbe retry.combined ["COMMENT"] (p.attempts + 1))
  else j.byFailure (classifyProbeFailure retry.combined) (p.attempts + 1)

/-- `probe_dump`. -/
def probeDump : Program State Failure ProbeResult := do
  let p ← j.firstAttempts
  if p.probed.code = 0 ∧ hasLegacyExpMarker p.combined = false then
    pure (j.datapumpProbe p.combined [] p.attempts)
  else if hasLegacyExpMarker p.combined = false ∧ hasCommentCharsetLoss p.combined = true then
    j.withoutComment p
  else j.byFailure p.failureCode p.attempts

/-! ### The targets -/

/-- `SYSTEM_USERS`. -/
def systemUsers : List String :=
  ["ANONYMOUS", "APEX_PUBLIC_USER", "CTXSYS", "DBSNMP", "DIP", "EXFSYS", "FLOWS_FILES", "MDDATA", "MDSYS",
    "MGMT_VIEW", "OLAPSYS", "ORDDATA", "ORDPLUGINS", "ORDSYS", "OUTLN", "OWBSYS", "SI_INFORMTN_SCHEMA", "SYS",
    "SYSMAN", "SYSTEM", "WMSYS", "XDB", "XS$NULL"]

/-- `SYSTEM_TABLESPACES`. -/
def systemTablespaces : List String := ["SYSTEM", "SYSAUX", "TEMP", "UNDOTBS1"]

/-- `ensure_safe_user` and `ensure_safe_tablespace`. -/
def ensureSafe (kind : String) (protectedNames : List String) (name : Text) : Program State Failure Unit :=
  onlyIf (String.ofList (Text.upper name) ∈ protectedNames)
    (fail s!"Refusing to modify system {kind}: {String.ofList name}")

/-- `user_exists` and `tablespace_exists`. -/
def found (c : Command) : Program State Failure Bool := do
  let count ← j.sqlCount c
  pure (decide (0 < count))

/-- A target of `cleanup_targets`, a user or a tablespace. -/
def cleanupTarget (kind : String) (protectedNames : List String) (count drop : Text → Command)
    (name : Text) : Program State Failure Unit := do
  ensureSafe kind protectedNames name
  let present ← j.found (count name)
  onlyIf (present = true) do
    onlyIf (j.recreate = false) (fail s!"Target {kind} {String.ofList name} already exists.")
    j.sqlStatement (drop name)

/-- `cleanup_targets`. -/
def cleanupTargets (plan : ImportPlan) : Program State Failure Unit := do
  plan.targetUsers.forM (j.cleanupTarget "user" systemUsers .countUsers .dropUser)
  plan.targetTablespaces.forM
    (j.cleanupTarget "tablespace" systemTablespaces .countTablespaces .dropTablespace)

/-- A tablespace of `prepare_targets`. -/
def prepareTablespace (plan : ImportPlan) (tablespace : Text) : Program State Failure Unit := do
  ensureSafe "tablespace" systemTablespaces tablespace
  let present ← j.found (.countTablespaces tablespace)
  onlyIf (present = false)
    (j.sqlStatement (.createTablespace tablespace (plan.targetDatafiles tablespace)))

/-- A user of `prepare_targets`. -/
def prepareUser (plan : ImportPlan) (user : Text) : Program State Failure Unit := do
  ensureSafe "user" systemUsers user
  let present ← j.found (.countUsers user)
  onlyIf (present = false)
    (j.sqlStatement (.createUser user (plan.targetTablespaces.head?.getD j.defaultTablespace)))
  j.sqlStatement (.grantUser user)
  onlyIf (plan.targetTablespaces ≠ []) (j.sqlStatement (.quota user plan.targetTablespaces))

/-- `prepare_targets`. -/
def prepareTargets (plan : ImportPlan) : Program State Failure Unit := do
  plan.targetTablespaces.forM (j.prepareTablespace plan)
  plan.targetUsers.forM (j.prepareUser plan)

/-! ### The import -/

/-- `docker_copy_text_from` into `import_dir`. -/
def copyLog (name : Text) : Program State Failure Unit := do
  let result ← j.runProcess (.copyText (j.workFile name))
  onlyIf (result.code = 0) (update fun s =>
    { s with importLogs := (name, result.lines) :: s.importLogs.filter (·.1 ≠ name) })

/-- `docker_copy_text_from_if_present`. -/
def copyLogIfPresent (name : Text) : Program State Failure Unit := do
  let check ← j.runProcess (.testFile (j.workFile name))
  onlyIf (check.code = 0 ∧ occurs "present" (joined check.lines) = true) (j.copyLog name)

/-- `copy_oracle_import_logs`. -/
def copyOracleImportLogs (plan : ImportPlan) : Program State Failure Unit :=
  match plan.dumpType with
  | .datapump => do
      j.copyLog "auto_import_impdp.log".toList
      j.copyLogIfPresent "auto_import_impdp_full_retry.log".toList
  | .legacyExp =>
      if plan.sourceSchemas ≠ [] then
        plan.sourceSchemas.forM fun schema =>
          j.copyLog ("auto_import_".toList ++ schema.map Char.toLower ++ "_imp.log".toList)
      else j.copyLog "auto_import_legacy_imp.log".toList
  | _ => pure ()

/-- The lines of all logs in `import_dir`. -/
def importLines (s : State) : List Text := s.importLogs.flatMap (·.2)

/-- `log_contains_schema_filter_no_objects`. -/
def selectsNoObjects (lines : List Text) : Bool :=
  lines.any (occurs "ORA-39039") && lines.any (occurs "ORA-31655")

/-- `oracle_error_lines`. -/
def errorLines (lines : List Text) : List Text :=
  lines.filter fun line =>
    occurs "ORA-" line || occurs "IMP-" line || occurs "UDI-" line || occurs "LRM-" line

/-- `import_failed_only_for_compile_warnings`. -/
def onlyCompileWarnings (lines : List Text) : Bool :=
  !(errorLines lines).isEmpty && (errorLines lines).all (occurs "ORA-39082")

/-- A line of the repair script, kept in the list its mark says. -/
def ImportOutcome.record (o : ImportOutcome) (line : Text) : ImportOutcome :=
  let stripped := Text.stripChars Text.isSpace line
  if "[repair]".toList.isPrefixOf stripped then
    { o with repairedObjects := o.repairedObjects ++ [stripped.drop 9] }
  else if "[invalid]".toList.isPrefixOf stripped then
    { o with invalidObjects := o.invalidObjects ++ [stripped.drop 10] }
  else if "[repair-error]".toList.isPrefixOf stripped then { o with warnings := o.warnings ++ [stripped] }
  else o

/-- `repair_remapped_dependencies`. -/
def repairRemappedDependencies (plan : ImportPlan) : Program State Failure ImportOutcome :=
  let remaps := (plan.schemaMap.map fun pair => (Text.upper pair.1, Text.upper pair.2)).filter
    fun pair => pair.1 ≠ pair.2
  let users := (plan.targetUsers.map Text.upper).dedup
  if remaps = [] ∨ users = [] then pure {}
  else do
    let lines ← j.sqlplus (.repairDependencies remaps users)
    let outcome := lines.foldl ImportOutcome.record {}
    pure (if outcome.invalidObjects = [] then outcome
      else { outcome with
        warnings := outcome.warnings ++
          [s!"{outcome.invalidObjects.length} invalid object(s) remain after dependency repair.".toList] })

/-- `merge_outcome`. -/
def mergeOutcome (base extra : ImportOutcome) : ImportOutcome :=
  let warnings := base.warnings ++ extra.warnings
  let repaired := base.repairedObjects ++ extra.repairedObjects
  let invalid := base.invalidObjects ++ extra.invalidObjects
  { withWarnings := base.withWarnings || decide (warnings ≠ [] ∨ repaired ≠ [] ∨ invalid ≠ [])
    warnings := warnings
    repairedObjects := repaired
    invalidObjects := invalid }

/-- `merge_outcome` with the repair. -/
def repaired (plan : ImportPlan) (base : ImportOutcome) : Program State Failure ImportOutcome := do
  let extra ← j.repairRemappedDependencies plan
  pure (mergeOutcome base extra)

/-- A command that failed: only compile warnings are no failure. -/
def afterFailure (plan : ImportPlan) (message : String) : Program State Failure ImportOutcome := do
  let s ← state
  if onlyCompileWarnings (importLines s) = true then
    j.repaired plan { withWarnings := true, warnings := errorLines (importLines s) }
  else fail message

/-- The fallback commands of `run_import`. -/
def runFallbacks (plan : ImportPlan) : List (List Text) → Program State Failure ImportOutcome
  | [] => j.repaired plan {}
  | c :: rest => do
      let result ← j.runProcess (.importDump c)
      j.copyOracleImportLogs plan
      if result.code ≠ 0 then
        j.afterFailure plan s!"Import retry with FULL=Y failed with exit code {result.code}."
      else runFallbacks plan rest

/-- A command of `run_import` that failed. -/
def retryImport (plan : ImportPlan) (code : ℤ) : Program State Failure ImportOutcome := do
  j.copyOracleImportLogs plan
  let s ← state
  if plan.fallbackCommands ≠ [] ∧ selectsNoObjects (importLines s) = true then
    j.runFallbacks plan plan.fallbackCommands
  else j.afterFailure plan s!"Import command failed with exit code {code}."

/-- The commands of `run_import`. -/
def runCommands (plan : ImportPlan) : List (List Text) → Program State Failure ImportOutcome
  | [] => j.repaired plan {}
  | c :: rest => do
      let result ← j.runProcess (.importDump c)
      if result.code ≠ 0 then j.retryImport plan result.code
      else runCommands plan rest

/-- `run_import`. -/
def runImport (plan : ImportPlan) : Program State Failure ImportOutcome := do
  onlyIf (plan.commands = []) (fail "No import command was generated.")
  j.runCommands plan plan.commands

/-! ### The run -/

/-- `write_json(run_dir / "report.json", ...)`. -/
def writeReport (report : Report) : Program State Failure Unit :=
  update fun s => { s with report := some report }

/-- `job_name` of Data Pump. -/
def validJobName : Text → Bool
  | [] => false
  | c :: rest => c.isAlpha && decide (rest.length ≤ 27) && rest.all fun d => d.isAlphanum || d ∈ ['_', '$', '#']

/-- The checks of `main` before the first stage. -/
def checkArguments : Program State Failure Unit := do
  onlyIf (validJobName j.jobName = false) (fail "Invalid Oracle Data Pump job name.")
  onlyIf (j.container.map Char.toLower = ['a', 'u', 't', 'o']) do
    let _ ← j.findOracleContainer
    pure ()
  onlyIf (j.dumpDirectoryObject ≠ [] ∧ Text.upper j.dumpDirectoryObject =
      Text.upper (if j.directoryObject = [] then j.generatedDirectory else j.directoryObject))
    (fail "The shared dump DIRECTORY and per-run work DIRECTORY must use different names.")

/-- The stage `dump_copy`. -/
def provideDumps (files : List Text) : Program State Failure Unit :=
  if j.directContainerDir ≠ [] then j.ensureReusableDumpDirectory files
  else j.copyDumpToContainer files

/-- The stage `directory_create_verify`. -/
def provideDirectory : Program State Failure Unit := do
  j.ensureContainerDirectory j.containerImportDir
  j.createDirectory .work j.containerImportDir
  j.verifyDirectory .work j.containerImportDir

/-- A function of the tool that may raise. -/
def call {α : Type} : Except String α → Program State Failure α
  | .ok a => pure a
  | .error message => fail message

/-- The import with its logs; the missing objects of the source export are a warning. -/
def importAndReport (plan : ImportPlan) : Program State Failure ℕ := do
  let outcome ← withFinally (j.runImport plan) (j.copyOracleImportLogs plan)
  writeReport (.imported (outcome.withWarnings || decide (j.exportLogMissingCount ≠ 0)))
  pure 0

/-- The stages behind the plan. -/
def executePlan (plan : ImportPlan) : Program State Failure ℕ := do
  j.cleanupTargets plan
  j.prepareTargets plan
  j.importAndReport plan

/-- The stages from the probe on. -/
def probeAndImport : Program State Failure ℕ := do
  let probe ← j.probeDump
  call (j.validate probe)
  let datafileDir ← j.getDatafileDir
  let plan ← call (j.buildPlan probe datafileDir)
  if probe.failureCode ≠ "" ∨ (probe.dumpType ≠ .datapump ∧ probe.dumpType ≠ .legacyExp) then do
    writeReport (.failed (if probe.failureCode ≠ "" then probe.failureCode else "unknown_dump_type"))
    pure 1
  else if j.execute = false then do
    writeReport .dryRun
    pure 0
  else j.executePlan plan

/-- The stages behind `pdb_connection`. -/
def stages (files : List Text) : Program State Failure ℕ := do
  onlyIf (j.execute = true) j.cleanupDirectoryObject
  j.provideDumps files
  j.provideDirectory
  j.probeAndImport

/-- The `try` of `main`. -/
def body (files : List Text) : Program State Failure ℕ := do
  j.checkArguments
  j.resolvePdbConnect
  j.stages files

/-- The `except` clauses of `main`. -/
def except : Failure → Program State Failure ℕ
  | .stopRequested message => do
      writeReport (.stopped message)
      pure 130
  | .error message => do
      update fun s => { s with report := s.report <|> some (.failed message) }
      pure 1

/-- The work directory as `cleanup_zero_copy_work_directory` writes it. -/
def workDirectory : Text := rstripSlash j.containerImportDir

/-- The run has a work directory of its own that the tool may remove. -/
def removesWork : Prop :=
  j.zeroCopyDump ∧ j.managedRoot.isPrefixOf j.workDirectory = true ∧
    j.workDirectory ≠ rstripSlash j.containerDir

instance : Decidable j.removesWork := inferInstanceAs (Decidable (_ ∧ _))

/-- `cleanup_zero_copy_work_directory`. -/
def cleanupZeroCopyWorkDirectory : Program State Failure Unit :=
  onlyIf j.removesWork (orElse (do
    let actual ← j.directoryPath .work
    onlyIf (actual ≠ [] ∧ rstripSlash actual = j.workDirectory) (j.sqlStatement (.dropDirectory .work))
    let _ ← j.runProcess (.removeDirectory j.workDirectory)
    pure ()) fun _ => pure ())

/-- The `finally` of `main`. -/
def finish : Program State Failure Unit := do
  update fun s => { s with finishing := true }
  j.cleanupZeroCopyWorkDirectory
  update fun s => { s with locked := false }

/-- `main`. -/
def main : Program State Failure ℕ :=
  if j.directContainerDir ≠ [] ∧ j.dumpDirectoryObject = [] then pure 2
  else if j.dumpDirectoryObject ≠ [] ∧ j.directContainerDir = [] then pure 2
  else match j.sourceFiles with
    | none => pure 2
    | some files =>
        if j.busy then pure 75
        else do
          update fun s => { s with locked := true }
          withFinally (orElse (j.body files) except) j.finish

/-- The state a run begins in: what earlier runs have left, and `args.connect`. -/
def begin (container : Container) (importLogs : List (Text × List Text)) (report : Option Report) : State :=
  { container := container, connect := j.connect, importLogs := importLogs, report := report }

end Job

end RecoveryService.AutoImport
