import RecoveryService.Lib.Statements
import RecoveryService.RecoveryTasks.Retries
import RecoveryService.RestorePlans.Plans

/-! # Restoring the groups of a directory

`MySqlRecoveryPipeline.run` and `SqlServerRecoveryPipeline.run` on the databases of a server, as far as they
drop, replace and fill databases.  A task names a group of its source directory by an index; the directory
has the same groups for every task. -/

namespace RecoveryService.RestorePlans

open Text Program Runs

/-! ### The server -/

/-- A database, and the groups whose restored data it holds. -/
structure Database where
  name : Name
  holds : List ℕ

structure Server where
  databases : List Database := []
  /-- The databases that were dropped or replaced, with the group whose task did it. -/
  replaced : List (ℕ × Name) := []

section server

variable (fold : Char → Char)

/-- The server takes the names for one. -/
def Same (a b : Name) : Prop := a.map fold = b.map fold

instance (a b : Name) : Decidable (Same fold a b) := inferInstanceAs (Decidable (_ = _))

def Server.drop (s : Server) (group : ℕ) (name : Name) : Server :=
  { databases := s.databases.filter fun d => ¬ Same fold d.name name
    replaced := s.replaced ++ [(group, name)] }

def Server.create (s : Server) (name : Name) (holds : List ℕ) : Option Server :=
  if ∃ d ∈ s.databases, Same fold d.name name then none
  else some { s with databases := s.databases ++ [{ name := name, holds := holds }] }

/-- A database is filled with the data of a group. -/
def Server.load (s : Server) (group : ℕ) (name : Name) : Server :=
  { s with databases := s.databases.map fun d =>
      if Same fold d.name name then { d with holds := group :: d.holds } else d }

end server

/-- The data of a group is on the server. -/
def Server.Holds (s : Server) (group : ℕ) : Prop := ∃ d ∈ s.databases, group ∈ d.holds

instance (s : Server) (group : ℕ) : Decidable (s.Holds group) := inferInstanceAs (Decidable (∃ _ ∈ _, _))

/-! ### Tasks -/

inductive Engine where
  | mysql
  | sqlServer

/-- A scanned source directory. -/
structure Directory where
  engine : Engine
  files : List Name

/-- What comes back from the server in a task. -/
structure Replies where
  /-- Scanning, copying and the other steps before the first statement. -/
  reached : Except String Unit := .ok ()
  drop : Reply String := .done
  create : Reply String := .done
  load : Reply String := .done

structure Task where
  /-- `volume_group_index`. -/
  index : ℤ
  /-- `options["target_database"]`; an option that is not given is an empty text. -/
  target : Name := []
  dropExisting : Bool := true
  replies : Replies := {}

/-- How a plan restores its database. -/
inductive Method where
  /-- `_prepare_database` and `import_dump`. -/
  | load (dropExisting : Bool)
  /-- `_restore_bak`. -/
  | restore
  /-- `_attach_files`. -/
  | attach
deriving DecidableEq

structure Planned where
  database : Name
  method : Method

/-- Nothing is restored with an unsupported plan. -/
def MySqlRestorePlan.planned (plan : MySqlRestorePlan) : Option Planned :=
  if plan.method = .unsupported then none else some ⟨plan.databaseName, .load plan.dropExisting⟩

def SqlServerRestorePlan.planned (plan : SqlServerRestorePlan) : Option Planned :=
  match plan.method with
  | .bak => some ⟨plan.databaseName, .restore⟩
  | .attach | .attachRebuildLog => some ⟨plan.databaseName, .attach⟩
  | .unsupportedLdfOnly | .unsupported => none

section tasks

variable (lower : Name → Name) (fold : Char → Char) (dir : Directory)

/-- The plan of each group. -/
def Directory.plans (target : Name) (dropExisting : Bool) : List (Option Planned) :=
  match dir.engine with
  | .mysql => (groupMysqlFiles lower dir.files).map fun fileSet =>
      (chooseMysqlPlan lower fileSet target dropExisting).planned
  | .sqlServer => (groupSqlserverFiles lower dir.files).map fun fileSet =>
      (chooseSqlserverPlan lower fileSet).planned

/-- The plan of the group that the index names, and the place of the group. -/
def Directory.choose (t : Task) : Except String (RecoveryTasks.Restored (Option Planned × ℕ)) :=
  let plans := (dir.plans lower t.target t.dropExisting).zipIdx
  match dir.engine with
  | .mysql => RecoveryTasks.mysqlRun plans t.index
  | .sqlServer => RecoveryTasks.sqlserverRun plans t.index

abbrev Tool := Program Server String

/-- `_prepare_database`. -/
def prepareDatabase (group : ℕ) (name : Name) (dropExisting : Bool) (replies : Replies) : Tool Unit :=
  if dropExisting = true then do
    submit replies.drop "MySQL database prepare failed" fun s => some (s.drop fold group name)
    submit replies.create "MySQL database prepare failed" fun s => s.create fold name []
  else
    submit replies.create "MySQL database prepare failed" fun s => some ((s.create fold name []).getD s)

/-- `executor.import_dump`. -/
def importDump (group : ℕ) (name : Name) (replies : Replies) : Tool Unit :=
  submit replies.load "" fun s => some (s.load fold group name)

/-- `_restore_bak`: what was there is gone before the data is complete. -/
def restoreBak (group : ℕ) (name : Name) (replies : Replies) : Tool Unit := do
  submit replies.drop "" fun s => (s.drop fold group name).create fold name []
  submit replies.load "" fun s => some (s.load fold group name)

/-- `_attach_files`. -/
def attachFiles (group : ℕ) (name : Name) (replies : Replies) : Tool Unit :=
  submit replies.create "" fun s => s.create fold name [group]

def Planned.execute (planned : Planned) (group : ℕ) (replies : Replies) : Tool Unit :=
  match planned.method with
  | .load dropExisting => do
      prepareDatabase fold group planned.database dropExisting replies
      importDump fold group planned.database replies
  | .restore => restoreBak fold group planned.database replies
  | .attach => attachFiles fold group planned.database replies

/-- The `run` of the pipelines. -/
def Directory.run (t : Task) : Tool Unit := do
  let chosen ← lift (dir.choose lower t)
  match chosen with
  | .group (some planned, group) =>
      lift t.replies.reached
      planned.execute fold group t.replies
  | _ => pure ()

def Directory.step (s : Server) (t : Task) : Option Server := some (dir.run lower fold t s).2

/-! ### What is asked of the tasks -/

/-- `mysql`, `sys` and the others. -/
def systemDatabases : Engine → List Name
  | .mysql => ["mysql", "sys", "information_schema", "performance_schema"].map String.toList
  | .sqlServer => ["master", "model", "msdb", "tempdb"].map String.toList

/-- The user has not chosen a target database. -/
def Untargeted (_ : Server) (t : Task) : Prop := t.target = []

/-- The target database is the given one, or none is given. -/
def Targets (target : Name) (_ : Server) (t : Task) : Prop := t.target = [] ∨ t.target = target

instance (s : Server) (t : Task) : Decidable (Untargeted s t) := inferInstanceAs (Decidable (_ = _))

instance (target : Name) (s : Server) (t : Task) : Decidable (Targets target s t) :=
  inferInstanceAs (Decidable (_ ∨ _))

/-- Nothing of the directory has been restored. -/
structure Server.Fresh (s : Server) : Prop where
  empty : ∀ d ∈ s.databases, d.holds = []
  replaced : s.replaced = []

/-- Tasks without a target drop different databases for different groups and leave the data of other
groups on the server; no task, with the given target or none, drops a system database. -/
structure Directory.Safe (target : Name) : Prop where
  different : ∀ s₀ tasks s, s₀.Fresh → Run (dir.step lower fold) Untargeted s₀ tasks s →
    ∀ e ∈ s.replaced, ∀ e' ∈ s.replaced, e.1 ≠ e'.1 → ¬ Same fold e.2 e'.2
  undisturbed : ∀ s₀ tasks s, s₀.Fresh → Run (dir.step lower fold) Untargeted s₀ tasks s →
    ∀ t group, t.target = [] → (∀ plan, dir.choose lower t ≠ .ok (.group (plan, group))) → s.Holds group →
      (dir.run lower fold t s).2.Holds group
  notSystem : ∀ s₀ tasks s, s₀.replaced = [] → Run (dir.step lower fold) (Targets target) s₀ tasks s →
    ∀ e ∈ s.replaced, ∀ system ∈ systemDatabases dir.engine, ¬ Same fold e.2 system

end tasks

end RecoveryService.RestorePlans
