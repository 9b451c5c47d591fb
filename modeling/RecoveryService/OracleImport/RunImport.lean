import Mathlib

/-! # The commands of an Oracle import

`run_import` of `tools/oracle_dmp_auto_import.py` with `copy_oracle_import_logs`,
`log_contains_schema_filter_no_objects` and `import_failed_only_for_compile_warnings`, on the commands that
`build_plan` generates.  Each command leaves an exit code and a log of its own in the container; the logs
are copied to one directory, where all of them are read together. -/

namespace RecoveryService.OracleImport

/-! ### The plan -/

inductive DumpType where
  | datapump
  | legacyExp

/-- A command of the plan, with the name of the log it writes. -/
inductive Command where
  | impdp (full : Bool) (schemas : List String) (logfile : String)
  | imp (fromUser : Option String) (logfile : String)
deriving DecidableEq

def Command.log : Command → String
  | impdp _ _ logfile => logfile
  | imp _ logfile => logfile

/-- The commands of `ImportPlan`, as `build_plan` makes them. -/
structure ImportPlan where
  commands : List Command
  fallbackCommands : List Command := []
  /-- Every command has a log of its own. -/
  distinct : ((commands ++ fallbackCommands).map Command.log).Nodup
  /-- Only the one `impdp` of a `schemas` import has a fallback. -/
  single : fallbackCommands ≠ [] → ∃ c, commands = [c]

/-- The log of the `imp` of a schema. -/
def schemaLog (schema : String) : String := "auto_import_" ++ schema.toLower ++ "_imp.log"

/-- The commands of `build_plan` for the schemas of the probe. -/
def buildCommands (schemasMode : Bool) (schemas : List String) : DumpType → List Command × List Command
  | .datapump =>
      if schemasMode = true then
        if schemas = [] then ([], [])
        else ([.impdp false schemas "auto_import_impdp.log"],
          [.impdp true [] "auto_import_impdp_full_retry.log"])
      else ([.impdp true [] "auto_import_impdp.log"], [])
  | .legacyExp =>
      if schemas = [] then ([.imp none "auto_import_legacy_imp.log"], [])
      else (schemas.map fun schema => .imp (some schema) (schemaLog schema), [])

/-- The plan of `build_plan`, where the schemas of the probe write different logs. -/
def buildPlan (schemasMode : Bool) (schemas : List String) (dumpType : DumpType)
    (h : (schemas.map schemaLog).Nodup) : ImportPlan where
  commands := (buildCommands schemasMode schemas dumpType).1
  fallbackCommands := (buildCommands schemasMode schemas dumpType).2
  distinct := by
    cases dumpType with
    | datapump =>
        simp only [buildCommands]
        split
        · split
          · exact List.nodup_nil
          · change ["auto_import_impdp.log", "auto_import_impdp_full_retry.log"].Nodup
            decide
        · exact List.nodup_singleton _
    | legacyExp =>
        simp only [buildCommands]
        split
        · exact List.nodup_singleton _
        · rw [List.append_nil, List.map_map]
          exact h
  single := by
    cases dumpType with
    | datapump =>
        simp only [buildCommands]
        split
        · split
          · exact fun hne => (hne rfl).elim
          · exact fun _ => ⟨_, rfl⟩
        · exact fun hne => (hne rfl).elim
    | legacyExp =>
        simp only [buildCommands]
        split <;> exact fun hne => (hne rfl).elim

/-! ### The logs -/

/-- What a command does: its exit code and the lines of its log. -/
structure Attempt where
  exitCode : ℤ
  log : List String

/-- `code in line`. -/
def mentions (code line : String) : Bool := decide (code.toList <:+: line.toList)

/-- The lines that `oracle_error_lines` collects. -/
def isErrorLine (line : String) : Bool :=
  mentions "ORA-" line || mentions "IMP-" line || mentions "UDI-" line || mentions "LRM-" line

def errorLines (lines : List String) : List String := lines.filter isErrorLine

/-- `log_contains_schema_filter_no_objects`, on the lines of all copied logs. -/
def selectsNoObjects (lines : List String) : Bool :=
  lines.any (mentions "ORA-39039") && lines.any (mentions "ORA-31655")

/-- `import_failed_only_for_compile_warnings`. -/
def onlyCompileWarnings (lines : List String) : Bool :=
  !(errorLines lines).isEmpty && (errorLines lines).all (mentions "ORA-39082")

/-- Oracle with the commands, and `repair_remapped_dependencies`, which raises, or says whether it has
anything to warn about. -/
structure World where
  attempt : Command → Attempt
  repair : Except String Bool

/-! ### The run -/

inductive ImportStatus where
  | imported
  | importedWithWarnings

/-- The log files in the container, and the commands that were executed. -/
structure Run where
  files : String → Option (List String) := fun _ => none
  executed : List Command := []

variable (world : World) (plan : ImportPlan)

/-- `run_process`. -/
def runProcess (r : Run) (c : Command) : Run :=
  { files := Function.update r.files c.log (some (world.attempt c).log)
    executed := r.executed ++ [c] }

/-- The lines in the import directory behind `copy_oracle_import_logs`. -/
def copiedLines (r : Run) : List String :=
  (plan.commands ++ plan.fallbackCommands).flatMap fun c => (r.files c.log).getD []

/-- Execute the commands up to the first one that does not exit with 0. -/
def runCommands : List Command → Run → Run × Option Command
  | [], r => (r, none)
  | c :: rest, r =>
      if (world.attempt c).exitCode ≠ 0 then (runProcess world r c, some c)
      else runCommands rest (runProcess world r c)

/-- `merge_outcome` with the outcome of the repair. -/
def mergeRepair (status : ImportStatus) : Except String ImportStatus :=
  world.repair.map fun warns => if warns = true then .importedWithWarnings else status

def runImport : Except String ImportStatus × Run :=
  if plan.commands = [] then (.error "No import command was generated.", {})
  else
    match runCommands world plan.commands {} with
    | (r, none) => (mergeRepair world .imported, r)
    | (r, some _) =>
        if plan.fallbackCommands ≠ [] ∧ selectsNoObjects (copiedLines plan r) = true then
          match runCommands world plan.fallbackCommands r with
          | (r', none) => (mergeRepair world .imported, r')
          | (r', some _) =>
              if onlyCompileWarnings (copiedLines plan r') = true then
                (mergeRepair world .importedWithWarnings, r')
              else (.error "Import retry with FULL=Y failed", r')
        else if onlyCompileWarnings (copiedLines plan r) = true then
          (mergeRepair world .importedWithWarnings, r)
        else (.error "Import command failed", r)

end RecoveryService.OracleImport
