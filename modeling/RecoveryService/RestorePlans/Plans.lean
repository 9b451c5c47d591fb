import RecoveryService.Lib.Readings

/-! # The restore plans of MySQL and SQL Server

`engine/mysql/restore_plan.py` and `engine/sqlserver/restore_plan.py`: the files of a source directory make
groups, and the plan of a group names the database it is restored into.  A file name is the last part of a
path, so `PurePosixPath(name).name` is the name itself; `lower` is `str.lower`. -/

namespace RecoveryService.RestorePlans

open Text

abbrev Name := List Char

/-- `[A-Za-z0-9_]`. -/
def isNameChar (c : Char) : Bool := c.isAlphanum || c == '_'

/-- `re.sub(r"[^A-Za-z0-9_]+", "_", value).strip("_")`. -/
def cleaned (value : Name) : Name :=
  stripChars (· == '_') (subRuns (fun c => !isNameChar c) '_' false value)

/-- What `normalize_database_name` and `derive_database_name` do with a value: `empty` where nothing is
left of it, `lead` in front of a name that does not begin as `first` says, and the cut. -/
structure Naming where
  empty : Name
  first : Char → Bool
  lead : Name
  limit : ℕ

def Naming.name (naming : Naming) (value : Name) : Name :=
  let name := cleaned value
  let name := if name = [] then naming.empty else name
  let name := if name.head?.any naming.first = true then name else naming.lead ++ name
  name.take naming.limit

def mysqlNaming : Naming where
  empty := "recovered_mysql".toList
  first := fun c => c.isAlpha || c == '_'
  lead := "db_".toList
  limit := 64

def sqlServerNaming : Naming where
  empty := "RecoveredDb".toList
  first := Char.isAlpha
  lead := "DB_".toList
  limit := 120

/-! ### Paths -/

/-- `name.rsplit(".", 1)`, where there is a dot. -/
def splitDot (name : Name) : Option (Name × Name) :=
  match name.reverse.span (· ≠ '.') with
  | (_, []) => none
  | (rest, _ :: start) => some (start.reverse, rest.reverse)

/-- `PurePosixPath(name).suffix`. -/
def suffix (name : Name) : Name :=
  match splitDot name with
  | some (start, rest) => if start ≠ [] ∧ rest ≠ [] then '.' :: rest else []
  | none => []

/-- `PurePosixPath(name).stem`. -/
def pathStem (name : Name) : Name :=
  match splitDot name with
  | some (start, rest) => if start ≠ [] ∧ rest ≠ [] then start else name
  | none => name

section lower

variable (lower : Name → Name)

/-- `sorted(files, key=lambda f: f.filename.lower())`. -/
def sortedFiles (files : List Name) : List Name :=
  files.insertionSort fun a b => lower a ≤ lower b

/-! ### MySQL -/

/-- The suffixes of `_base_name`, in its order. -/
def mysqlSuffixes : List Name := [".sql.gz", ".sql.zip", ".sql", ".zip"].map String.toList

def isSupportedMysqlDump (filename : Name) : Bool := mysqlSuffixes.any (·.isSuffixOf (lower filename))

/-- `_base_name` of MySQL. -/
def mysqlBaseName (filename : Name) : Name :=
  match mysqlSuffixes.find? (·.isSuffixOf (lower filename)) with
  | some found => filename.take (filename.length - found.length)
  | none => pathStem filename

def normalizeDatabaseName (value : Name) : Name := mysqlNaming.name value

/-- The files of a group. -/
structure MySqlFileSet where
  files : List Name

def groupMysqlFiles (files : List Name) : List MySqlFileSet :=
  (sortedFiles lower (files.filter (isSupportedMysqlDump lower))).map fun file => { files := [file] }

inductive MySqlMethod where
  | unsupported
  | sql
  | sqlGzip
  | sqlZip
deriving DecidableEq

/-- `_method_for`. -/
def methodFor (filename : Name) : MySqlMethod :=
  if ".sql.gz".toList.isSuffixOf (lower filename) then .sqlGzip
  else if ".sql.zip".toList.isSuffixOf (lower filename) ∨ ".zip".toList.isSuffixOf (lower filename) then .sqlZip
  else .sql

structure MySqlRestorePlan where
  method : MySqlMethod
  databaseName : Name
  files : List Name
  dropExisting : Bool

/-- `target_database or _base_name(file.filename)`; an option that is not given is an empty text. -/
def mysqlValue (file target : Name) : Name := if target = [] then mysqlBaseName lower file else target

/-- `choose_restore_plan` of MySQL. -/
def chooseMysqlPlan (fileSet : MySqlFileSet) (target : Name) (dropExisting : Bool) : MySqlRestorePlan :=
  match fileSet.files with
  | [] => ⟨.unsupported, "UNSUPPORTED_MYSQL_FILES".toList, [], dropExisting⟩
  | file :: _ =>
      ⟨methodFor lower file, normalizeDatabaseName (mysqlValue lower file target), [file], dropExisting⟩

/-! ### SQL Server -/

/-- `_suffix`. -/
def lowerSuffix (filename : Name) : Name := lower (suffix filename)

/-- `_stem`. -/
def stem (filename : Name) : Name := ((splitDot filename).map Prod.fst).getD filename

/-- `_base_name` of SQL Server. -/
def baseName (filename : Name) : Name :=
  let name := lower (stem filename)
  let cut := match (["_log", "-log", ".log", "log"].map String.toList).find? (·.isSuffixOf name) with
    | some token => name.take (name.length - token.length)
    | none => name
  let base := stripChars (fun c => c == '_' || c == '-' || c == '.') cut
  if base = [] then name else base

def deriveDatabaseName (filename : Name) : Name := sqlServerNaming.name (stem filename)

structure SqlServerFileSet where
  bakFiles : List Name := []
  mdfFiles : List Name := []
  ndfFiles : List Name := []
  ldfFiles : List Name := []

def isData (filename : Name) : Bool :=
  ([".mdf", ".ndf", ".ldf"].map String.toList).contains (lowerSuffix lower filename)

def groupSqlserverFiles (files : List Name) : List SqlServerFileSet :=
  let bakFiles := files.filter fun f => lowerSuffix lower f = ".bak".toList
  let dataFiles := files.filter (isData lower)
  -- the keys of `by_base`, each with its files in their order
  let bases := (dataFiles.map (baseName lower)).dedup.insertionSort (· ≤ ·)
  let of := fun base ending => dataFiles.filter fun f =>
    baseName lower f = base ∧ lowerSuffix lower f = String.toList ending
  (sortedFiles lower bakFiles).map (fun bak => { bakFiles := [bak] }) ++
    bases.map fun base =>
      { mdfFiles := of base ".mdf", ndfFiles := of base ".ndf", ldfFiles := of base ".ldf" }

inductive SqlServerMethod where
  | bak
  | attach
  | attachRebuildLog
  | unsupportedLdfOnly
  | unsupported

structure SqlServerRestorePlan where
  method : SqlServerMethod
  databaseName : Name
  files : List Name

/-- `choose_restore_plan` of SQL Server. -/
def chooseSqlserverPlan (fileSet : SqlServerFileSet) : SqlServerRestorePlan :=
  match sortedFiles lower fileSet.bakFiles with
  | bak :: _ => ⟨.bak, deriveDatabaseName bak, [bak]⟩
  | [] =>
      let attachFiles := fileSet.mdfFiles ++ fileSet.ndfFiles ++ fileSet.ldfFiles
      match fileSet.mdfFiles, fileSet.ldfFiles with
      | mdf :: _, _ :: _ => ⟨.attach, deriveDatabaseName mdf, attachFiles⟩
      | mdf :: _, [] => ⟨.attachRebuildLog, deriveDatabaseName mdf, attachFiles⟩
      | [], ldf :: ldfs => ⟨.unsupportedLdfOnly, deriveDatabaseName ldf, ldf :: ldfs⟩
      | [], [] => ⟨.unsupported, "UNSUPPORTED_SQLSERVER_FILES".toList, []⟩

end lower

/-! ### How a name is read -/

/-- The name before its characters are replaced: without the other characters at its ends, `empty` where
none are left, `lead` in front of another beginning. -/
def Naming.spelling (naming : Naming) (value : Name) : Name :=
  let core := stripChars (fun c => !isNameChar c || c == '_') value
  let core := if core = [] then naming.empty else core
  if core.head?.any naming.first = true then core else naming.lead ++ core

/-- The two values read alike within the limit of the names; the server compares names by `fold`. -/
def Naming.Clash (naming : Naming) (fold : Char → Char) (v w : Name) : Prop :=
  Alike (fun c => !isNameChar c) '_' fold naming.limit v w

theorem name_eq_reading (naming : Naming) (hempty : ∀ c ∈ naming.empty, isNameChar c = true)
    (hlead : ∀ c ∈ naming.lead, isNameChar c = true) (value : Name) :
    naming.name value = (subRuns (fun c => !isNameChar c) '_' false (naming.spelling value)).take naming.limit := by
  have hkeep : ∀ text : Name, (∀ c ∈ text, isNameChar c = true) →
      ∀ c ∈ text, (!isNameChar c) = false := fun text h c hc => by rw [h c hc]; rfl
  have hcleaned : cleaned value = subRuns (fun c => !isNameChar c) '_' false
      (stripChars (fun c => !isNameChar c || c == '_') value) := stripChars_subRuns_eq value
  unfold Naming.name Naming.spelling
  rw [hcleaned]
  generalize hcore : stripChars (fun c => !isNameChar c || c == '_') value = core
  have hchosen : (if subRuns (fun c => !isNameChar c) '_' false core = [] then naming.empty
      else subRuns (fun c => !isNameChar c) '_' false core) =
      subRuns (fun c => !isNameChar c) '_' false (if core = [] then naming.empty else core) := by
    by_cases hnil : core = []
    · rw [if_pos (subRuns_eq_nil.mpr hnil), if_pos hnil, subRuns_eq_self (hkeep _ hempty)]
    · rw [if_neg (mt subRuns_eq_nil.mp hnil), if_neg hnil]
  -- the first character is not replaced
  have hhead : ∀ text : Name, (text = naming.empty ∨ text = core) →
      (subRuns (fun c => !isNameChar c) '_' false text).head? = text.head? := by
    rintro text (rfl | rfl)
    · rw [subRuns_eq_self (hkeep _ hempty)]
    · cases text with
      | nil => rfl
      | cons c rest =>
          have hc := stripChars_eq_cons hcore
          rw [Bool.or_eq_false_iff] at hc
          rw [subRuns, hc.1]
          rfl
  have hcases : (if core = [] then naming.empty else core) = naming.empty ∨
      (if core = [] then naming.empty else core) = core := by
    split
    · exact .inl rfl
    · exact .inr rfl
  simp only [hchosen]
  generalize (if core = [] then naming.empty else core) = chosen at hcases ⊢
  rw [hhead _ hcases]
  split
  · rfl
  · rw [subRuns_append, subRuns_eq_self (hkeep _ hlead), runOpen_eq_false (hkeep _ hlead)]

end RecoveryService.RestorePlans
