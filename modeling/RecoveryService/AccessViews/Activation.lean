import RecoveryService.Lib.Dict
import RecoveryService.Lib.Loops
import RecoveryService.Lib.Runs

/-! # Access views of encrypted tables

A security access mapping says that a field of a raw table is read through a view.  A submission
plans the mappings of a pipeline and registers an SM4 job; the job writes one encrypted table for
each of its tables; `_record_secured_assets` records the tables of a succeeded job, and
`_activate_security_access_for_batch` replaces the views of the planned mappings of the pipeline and
makes them active.  Jobs that belong to no pipeline write tables as well.

A table is modelled by the portions that were inserted into it, each with the table it was selected
from and the columns that were encrypted.  One action is one statement of a job, or one request. -/

namespace RecoveryService.AccessViews

open Runs

/-- A table or a view. -/
structure ObjectName where
  connection : ℕ
  database : String
  name : String
deriving DecidableEq

/-- What one `INSERT … SELECT` has written, and whether the job has recorded its success. -/
structure Portion where
  source : ObjectName
  columns : List String
  succeeded : Bool

inductive MappingState
  | planned
  | ready
  | active
  | blocked
deriving DecidableEq

/-- `DataSecurityAccessMapping`; `source` is the raw table of `source_asset_id`, and `secured` the
secured database and table. -/
structure Mapping where
  pipeline : ℕ
  standardAsset : ℕ
  source : ObjectName
  sourceField : String
  standardField : String
  access : String × String
  secured : Option (String × String)
  state : MappingState

namespace Mapping

/-- An object of the connection the mapping belongs to. -/
def object (m : Mapping) (name : String × String) : ObjectName :=
  ⟨m.source.connection, name.1, name.2⟩

/-- The view a query of the source is rewritten to. -/
def view (m : Mapping) : ObjectName := m.object m.access

/-- Two mappings that the unique constraint takes for one. -/
def SameKey (m n : Mapping) : Prop :=
  m.pipeline = n.pipeline ∧ m.standardAsset = n.standardAsset ∧ m.source = n.source ∧
    m.sourceField = n.sourceField ∧ m.standardField = n.standardField

instance (m n : Mapping) : Decidable (m.SameKey n) := by
  unfold SameKey
  infer_instance

end Mapping

/-! ### Jobs -/

inductive TableStrategy
  | appendExisting
  | dropRecreate
  | autoCreate
deriving DecidableEq

/-- An item of `job.tables`. -/
structure TableSpec where
  tableName : String
  columns : List String
  targetDatabase : Option String := none
  targetTable : Option String := none

/-- An item of `job.results` whose state is `succeeded`. -/
structure Result where
  tableName : String
  targetDatabase : String
  targetTable : String
  columns : List String

/-- Where `_execute_sm4_batch_table` stands with its target. -/
inductive Phase
  | resolved
  | dropped
  | created
deriving DecidableEq

inductive Progress
  | queued
  | running (index : ℕ) (target : Option (Phase × String))
  | ended (succeeded : Bool)
  | stopped
deriving DecidableEq

/-- The batch a job was submitted for: its pipeline, `encryption_standard_asset_id` and the tables of
`raw_target`. -/
structure Owner where
  pipeline : ℕ
  standardAsset : Option ℕ
  rawTables : List String

/-- `DorisSm4BatchJob`. -/
structure Job where
  owner : Option Owner
  connection : ℕ
  database : String
  tableStrategy : TableStrategy
  targetSuffix : Option String
  tables : List TableSpec
  results : List (Option Result)
  progress : Progress

/-- `_fit_table_name`. -/
def fitTableName (name : String) (reserve : ℕ) : String :=
  let limit := max 1 (64 - reserve)
  if name.length ≤ limit then name
  else String.ofList ((name.toList.take limit).reverse.dropWhile (· = '_')).reverse

/-- `_planned_target_table`; `stamp` is the time an automatic name ends in. -/
def plannedTargetTable (spec : TableSpec) (targetSuffix : Option String)
    (tableStrategy : TableStrategy) (stamp : String) : String :=
  match spec.targetTable, tableStrategy, targetSuffix with
  | some target, _, _ => target
  | none, .autoCreate, none => fitTableName s!"{spec.tableName}_sm4_{stamp}" 0
  | none, _, suffix => fitTableName (spec.tableName ++ "_" ++ suffix.getD "sm4") 0

namespace Job

def targetDatabase (job : Job) (spec : TableSpec) : String := spec.targetDatabase.getD job.database

/-- The table an item reads. -/
def source (job : Job) (spec : TableSpec) : ObjectName :=
  ⟨job.connection, job.database, spec.tableName⟩

/-- The table an item writes. -/
def target (job : Job) (spec : TableSpec) (name : String) : ObjectName :=
  ⟨job.connection, job.targetDatabase spec, name⟩

/-- The names `_resolve_sm4_target_table` tries. -/
def candidates (job : Job) (spec : TableSpec) (stamp : String) : List String :=
  let target := plannedTargetTable spec job.targetSuffix job.tableStrategy stamp
  let base := fitTableName target 3
  target :: (List.range' 1 99).map (fun index => fitTableName s!"{base}_{index}" 0)

/-- `_resolve_sm4_target_table`. -/
def resolveTarget (job : Job) (taken : ObjectName → Bool) (spec : TableSpec) (stamp : String) : Option String :=
  if job.tableStrategy = .autoCreate then
    (job.candidates spec stamp).find? (fun name => ¬ taken (job.target spec name))
  else some (plannedTargetTable spec job.targetSuffix job.tableStrategy stamp)

/-- `_replace_result`, and on to the next table. -/
def endTable (job : Job) (index : ℕ) (result : Option Result) : Job :=
  { job with
    results := job.results.set index result
    progress := .running (index + 1) none }

/-- The results in `job.results` that have succeeded. -/
def succeededResults (job : Job) : List Result := job.results.filterMap id

end Job

/-! ### The system -/

structure Sys where
  mappings : List Mapping
  jobs : List Job
  /-- The assets of the layer `secured`. -/
  assets : List ObjectName
  tables : ObjectName → Option (List Portion)
  views : ObjectName → Option (String × String)

/-- An eligible suggestion of the plan. -/
structure Suggestion where
  source : ObjectName
  sourceField : String
  standardField : String
  access : String × String

/-- A submitted job; `suggestions` is empty where the job belongs to no pipeline or security access
is off. -/
structure Submission where
  pipeline : ℕ
  standardAsset : ℕ
  suggestions : List Suggestion
  owner : Option Owner
  connection : ℕ
  database : String
  tableStrategy : TableStrategy
  targetSuffix : Option String
  tables : List TableSpec

variable (casefold : String → String)

/-- `grouped`: the fields of the suggestions under their tables, in any order. -/
def Submission.Groups (r : Submission) : Prop :=
  (r.tables.map TableSpec.tableName).Nodup ∧
    (∀ spec ∈ r.tables, spec.targetDatabase = none ∧ spec.targetTable = none ∧
      ∀ column ∈ spec.columns, ∃ item ∈ r.suggestions,
        item.source.name = spec.tableName ∧ item.sourceField = column) ∧
    ∀ item ∈ r.suggestions, ∃ spec ∈ r.tables,
      spec.tableName = item.source.name ∧ item.sourceField ∈ spec.columns

instance (r : Submission) : Decidable r.Groups := by
  unfold Submission.Groups
  infer_instance

/-- The suggestions are eligible, the job encrypts them, and its batch is one of the pipeline. -/
def Submission.Eligible (r : Submission) : Prop :=
  (∀ item ∈ r.suggestions, item.source.connection = r.connection ∧
    casefold item.source.database = casefold r.database) ∧
    (r.suggestions ≠ [] → r.Groups) ∧
    ∀ owner ∈ r.owner, owner.pipeline = r.pipeline ∧
      (r.suggestions ≠ [] → owner.standardAsset = some r.standardAsset)

instance (r : Submission) : Decidable (r.Eligible casefold) := by
  unfold Submission.Eligible
  infer_instance

/-- The mapping a suggestion plans. -/
def Submission.plan (r : Submission) (item : Suggestion) : Mapping where
  pipeline := r.pipeline
  standardAsset := r.standardAsset
  source := item.source
  sourceField := item.sourceField
  standardField := item.standardField
  access := item.access
  secured := none
  state := .planned

def Submission.job (r : Submission) : Job where
  owner := r.owner
  connection := r.connection
  database := r.database
  tableStrategy := r.tableStrategy
  targetSuffix := r.targetSuffix
  tables := r.tables
  results := r.tables.map fun _ => none
  progress := .queued

/-- A mapping that exists is planned anew, one that does not is added. -/
def planMapping (mappings : List Mapping) (m : Mapping) : List Mapping :=
  if mappings.any (fun n => n.SameKey m) then
    mappings.map (fun n => if n.SameKey m then m else n)
  else mappings ++ [m]

namespace Sys

variable (s : Sys)

/-- `_prepare_automation_encryption_job` and `execute_security_access_plan`. -/
def submit (r : Submission) : Sys :=
  { s with
    mappings := (r.suggestions.map r.plan).foldl planMapping s.mappings
    jobs := s.jobs ++ [r.job] }

def setJob (j : ℕ) (job : Job) : Sys := { s with jobs := s.jobs.set j job }

def tableExists (name : ObjectName) : Bool := (s.tables name).isSome

/-- A statement of `_execute_sm4_batch_table`. -/
inductive Statement
  | drop (target : ObjectName)
  | create (target : ObjectName)
  | insert (target : ObjectName) (portion : Portion)
  | skip

/-- The next statement for an item; it fails where a table to create exists, or one to insert into
does not. -/
def nextStatement (job : Job) (spec : TableSpec) (phase : Phase) (name : String) (recorded : Bool) :
    Option Statement :=
  let target := job.target spec name
  match phase with
  | .resolved =>
      some (if job.tableStrategy = .dropRecreate ∧ s.tableExists target then .drop target else .skip)
  | .dropped =>
      if job.tableStrategy ≠ .appendExisting ∨ ¬ s.tableExists target then
        if s.tableExists target then none else some (.create target)
      else some .skip
  | .created =>
      if s.tableExists target then
        some (.insert target ⟨job.source spec, spec.columns, recorded⟩)
      else none

def setTable (target : ObjectName) (content : Option (List Portion)) : Sys :=
  { s with tables := Function.update s.tables target content }

/-- The tables after a statement. -/
def perform (statement : Statement) : Sys :=
  match statement with
  | .drop target => s.setTable target none
  | .create target => s.setTable target (some [])
  | .insert target portion => s.setTable target ((s.tables target).map (· ++ [portion]))
  | .skip => s

/-- The job after a statement; after the last one the table has ended. -/
def afterStatement (job : Job) (spec : TableSpec) (index : ℕ) (phase : Phase) (name : String)
    (recorded : Bool) : Job :=
  match phase with
  | .resolved => { job with progress := .running index (some (.dropped, name)) }
  | .dropped => { job with progress := .running index (some (.created, name)) }
  | .created =>
      job.endTable index (if recorded then
        some ⟨spec.tableName, job.targetDatabase spec, name, spec.columns⟩ else none)

/-! ### Activation -/

/-- `by_source.get(table)`: of two results for one name the later one. -/
def resultFor (job : Job) (table : String) : Option Result :=
  (job.succeededResults.filter (fun r => casefold r.tableName = casefold table)).getLast?

/-- The assets `_record_secured_assets` adds. -/
def recordedAssets (job : Job) (owner : Owner) : List ObjectName :=
  (job.succeededResults.filter (fun r =>
    owner.rawTables.any (fun raw => casefold raw = casefold r.tableName))).map
      (fun r => ⟨job.connection, r.targetDatabase, r.targetTable⟩)

/-- The planned mappings that are selected. -/
def Selects (owner : Owner) (m : Mapping) : Prop :=
  m.pipeline = owner.pipeline ∧ m.state = .planned ∧
    ∀ standard ∈ owner.standardAsset, m.standardAsset = standard

instance (owner : Owner) (m : Mapping) : Decidable (Selects owner m) := by
  unfold Selects
  infer_instance

/-- The secured table a mapping is given, once it is ready. -/
def readyTarget (job : Job) (owner : Owner) (m : Mapping) : Option (String × String) :=
  if Selects owner m then
    (resultFor casefold job m.source.name).bind fun result =>
      if ⟨job.connection, result.targetDatabase, result.targetTable⟩ ∈
          s.assets ++ recordedAssets casefold job owner then
        some (result.targetDatabase, result.targetTable)
      else none
  else none

/-- `ready`, with the secured tables. -/
def ready (job : Job) (owner : Owner) : List (Mapping × (String × String)) :=
  s.mappings.filterMap fun m => (s.readyTarget casefold job owner m).map fun target => (m, target)

/-- The mappings after the ready ones were given their tables and `state`. -/
def settle (job : Job) (owner : Owner) (state : MappingState) : List Mapping :=
  s.mappings.map fun m =>
    match s.readyTarget casefold job owner m with
    | some target => { m with secured := some target, state := state }
    | none => m

end Sys

/-- The keys of `groups`. -/
def accessNames (ready : List (Mapping × (String × String))) : List (String × String) :=
  Dict.fromKeys (ready.map fun r => r.1.access)

/-- The secured table of a group. -/
def groupTarget (ready : List (Mapping × (String × String))) (access : String × String) :
    Option (String × String) :=
  (ready.find? fun r => r.1.access = access).map Prod.snd

/-- `len(targets) == 1`. -/
def SingleTarget (ready : List (Mapping × (String × String))) (access : String × String) : Prop :=
  ∀ r ∈ ready, r.1.access = access → groupTarget ready access = some r.2

instance (ready : List (Mapping × (String × String))) (access : String × String) :
    Decidable (SingleTarget ready access) := by
  unfold SingleTarget
  infer_instance

/-- How an activation ends: security access is off; the connection is gone; an exception was raised
after some views were replaced, and what the session holds is committed or not; or it went through. -/
inductive Outcome
  | recordedOnly
  | unconnected
  | failed (replaced : ℕ) (committed : Bool)
  | activated

namespace Sys

variable (s : Sys)

/-- `create_security_access_views`, which has come to the view number `count`. -/
def replaceViews (connection : ℕ) (ready : List (Mapping × (String × String))) (count : ℕ) :
    ObjectName → Option (String × String) := fun view =>
  if view.connection = connection ∧ (view.database, view.name) ∈ (accessNames ready).take count then
    groupTarget ready (view.database, view.name)
  else s.views view

/-- `_record_secured_assets` and `_activate_security_access_for_batch`. -/
def activate (job : Job) (owner : Owner) (outcome : Outcome) : Option Sys :=
  let ready := s.ready casefold job owner
  let assets := s.assets ++ recordedAssets casefold job owner
  match outcome with
  | .recordedOnly => some { s with assets := assets }
  | .unconnected => some { s with
      assets := assets
      mappings := s.settle casefold job owner .ready }
  | .failed replaced committed =>
      if replaced ≤ ((accessNames ready).takeWhile (SingleTarget ready ·)).length then
        let views := s.replaceViews job.connection ready replaced
        some (if committed then { s with
            assets := assets
            mappings := s.settle casefold job owner .blocked
            views := views }
          else { s with views := views })
      else none
  | .activated =>
      if ready ≠ [] ∧ ∀ access ∈ accessNames ready, SingleTarget ready access then
        some { s with
          assets := assets
          mappings := s.settle casefold job owner .active
          views := s.replaceViews job.connection ready (accessNames ready).length }
      else none

end Sys

inductive Action
  | submit (r : Submission)
  /-- The worker takes a job, also one that is delivered again. -/
  | start (j : ℕ)
  | resolve (j : ℕ) (stamp : String)
  /-- The next statement; after an insertion the success is recorded, or that has failed. -/
  | statement (j : ℕ) (recorded : Bool)
  | failTable (j : ℕ)
  | finish (j : ℕ)
  | stop (j : ℕ)
  | abort (j : ℕ)
  | activate (j : ℕ) (outcome : Outcome)

/-- The item a running job is at, with its target. -/
def Job.current (job : Job) : Option (ℕ × TableSpec × Option (Phase × String)) :=
  match job.progress with
  | .running index target => job.tables[index]?.map fun spec => (index, spec, target)
  | _ => none

def step (s : Sys) : Action → Option Sys
  | .submit r => if r.Eligible casefold then some (s.submit r) else none
  | .start j => s.jobs[j]?.bind fun job =>
      if job.progress = .stopped then none
      else some (s.setJob j { job with progress := .running 0 none })
  | .resolve j stamp => s.jobs[j]?.bind fun job =>
      match job.current with
      | some (index, spec, none) =>
          match job.resolveTarget s.tableExists spec stamp with
          | some name =>
              -- The source must not be the target.
              if job.target spec name = job.source spec then
                some (s.setJob j (job.endTable index none))
              else some (s.setJob j { job with
                results := job.results.set index none
                progress := .running index (some (.resolved, name)) })
          | none => some (s.setJob j (job.endTable index none))
      | _ => none
  | .statement j recorded => s.jobs[j]?.bind fun job =>
      match job.current with
      | some (index, spec, some (phase, name)) =>
          match s.nextStatement job spec phase name recorded with
          | some statement => some ((s.perform statement).setJob j
              (Sys.afterStatement job spec index phase name recorded))
          | none => some (s.setJob j (job.endTable index none))
      | _ => none
  | .failTable j => s.jobs[j]?.bind fun job =>
      job.current.map fun (index, _, _) => s.setJob j (job.endTable index none)
  | .finish j => s.jobs[j]?.bind fun job =>
      if job.progress = .running job.tables.length none then
        some (s.setJob j { job with progress := .ended (job.results.all Option.isSome) })
      else none
  | .stop j => s.jobs[j]?.map fun job => s.setJob j { job with progress := .stopped }
  | .abort j => s.jobs[j]?.map fun job => s.setJob j { job with progress := .ended false }
  | .activate j outcome => s.jobs[j]?.bind fun job =>
      job.owner.bind fun owner =>
        if job.progress = .ended true then s.activate casefold job owner outcome else none

/-- No mapping and no job, but tables and views. -/
def start (tables : ObjectName → Option (List Portion))
    (views : ObjectName → Option (String × String)) : Sys where
  mappings := []
  jobs := []
  assets := []
  tables := tables
  views := views

end RecoveryService.AccessViews
