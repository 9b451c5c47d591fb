import RecoveryService.Lib.Runs
import RecoveryService.DorisCsvImport.CsvTask

/-! # The workers and the requests of a CSV task

`run_csv_parse_task_sync`, `run_csv_import_task_sync`, `request_stop_csv_parse_task_sync` and
`request_import_csv_task_sync` of `services/doris_csv_import.py` as they interleave on one task.  A worker
or a request reads the task, or refreshes its copy, in one step and writes in another; what it writes are
the columns in which it changes its copy (`expire_on_commit` is off), by primary key.  Each worker may be
delivered any number of times and may die at any place, and what a step calls may raise. -/

namespace RecoveryService.DorisCsvImport

/-- The copy of a parse worker: the task's state as it has last read it, the files as it has read them,
the next file, and how many were parsed and failed. -/
structure ParsePass where
  seen : TaskState
  copies : ℕ → FileState
  next : ℕ := 0
  completed : ℕ := 0
  failed : ℕ := 0

inductive ParsePlace where
  | idle
  /-- It has read the task. -/
  | accepted (seen : TaskState)
  /-- It has read the files. -/
  | listed (seen : TaskState) (copies : ℕ → FileState)
  | looping (pass : ParsePass)
  /-- It has seen a stop request. -/
  | leaving (pass : ParsePass)
  /-- It has seen none, and the file is to begin. -/
  | starting (pass : ParsePass)
  | parsing (pass : ParsePass)
  | done

/-- The copy of an import worker; `todo` are the files of its list that are left. -/
structure ImportPass where
  seen : TaskState
  copies : ℕ → FileState
  todo : List ℕ
  failed : ℕ := 0

inductive ImportPlace where
  | idle
  /-- The state it has read does not allow an import. -/
  | refused (seen : TaskState)
  | accepted (seen : TaskState)
  | listed (seen : TaskState) (copies : ℕ → FileState)
  | looping (pass : ImportPass)
  | leaving (pass : ImportPass)
  | starting (pass : ImportPass)
  | loading (pass : ImportPass)
  /-- The Stream Load was sent. -/
  | loaded (pass : ImportPass)
  | done

/-- `importRequested` says whether `import_requested_at` is set; `loads` counts the Stream Loads of each
file, and `stopIsNew` says whether a stop request was written behind the last import request. -/
structure System where
  fileCount : ℕ
  state : TaskState := .queued
  stopRequested : Bool := false
  importRequested : Bool := false
  files : ℕ → FileState := fun _ => .waiting
  parsers : ℕ → ParsePlace := fun _ => .idle
  importers : ℕ → ImportPlace := fun _ => .idle
  stops : ℕ → Option TaskState := fun _ => none
  requests : ℕ → Option TaskState := fun _ => none
  loads : ℕ → ℕ := fun _ => 0
  stopIsNew : Bool := false

namespace System

variable (s : System)

/-- The commit of a state behind the copy `seen`. -/
def store (seen new : TaskState) : System := if new = seen then s else { s with state := new }

/-- The commit of a file's state behind the copy `seen`. -/
def storeFile (j : ℕ) (seen new : FileState) : System :=
  if new = seen then s else { s with files := Function.update s.files j new }

/-- The files `p` takes are stopped. -/
def stopFiles (p : ℕ → Bool) : System :=
  { s with files := fun j => if p j = true then .stopped else s.files j }

def gotoParse (i : ℕ) (place : ParsePlace) : System :=
  { s with parsers := Function.update s.parsers i place }

def gotoImport (i : ℕ) (place : ImportPlace) : System :=
  { s with importers := Function.update s.importers i place }

/-- `_csv_parse_stop_requested`, behind the refresh. -/
def stopSeen : Bool := s.stopRequested || s.state = .stopping

end System

/-! ### The parse worker -/

section parse

variable (s : System) (i : ℕ)

def startParse : Option System :=
  match s.parsers i with
  | .idle =>
      if s.state.isParseTerminal = true then some (s.gotoParse i .done)
      else some (s.gotoParse i (.accepted s.state))
  | _ => none

def listParse : Option System :=
  match s.parsers i with
  | .accepted seen => some (s.gotoParse i (.listed seen s.files))
  | _ => none

def beginParse : Option System :=
  match s.parsers i with
  | .listed seen copies =>
      if 0 < s.fileCount then
        some ((s.store seen .parsing).gotoParse i (.looping { seen := .parsing, copies := copies }))
      else none
  | _ => none

/-- The refresh before a file. -/
def lookParse : Option System :=
  match s.parsers i with
  | .looping pass =>
      if pass.next < s.fileCount then
        if s.stopSeen = true then some (s.gotoParse i (.leaving { pass with seen := s.state }))
        else some (s.gotoParse i (.starting { pass with seen := s.state }))
      else none
  | _ => none

/-- `_stop_remaining_csv_files`. -/
def leaveParse : Option System :=
  match s.parsers i with
  | .leaving pass =>
      some (((s.stopFiles fun j => decide (pass.next ≤ j ∧ j < s.fileCount ∧
        (pass.copies j = .waiting ∨ pass.copies j = .parsing))).store pass.seen .stopped).gotoParse i .done)
  | _ => none

def startFileParse : Option System :=
  match s.parsers i with
  | .starting pass =>
      some ((s.storeFile pass.next (pass.copies pass.next) .parsing).gotoParse i
        (.parsing { pass with copies := Function.update pass.copies pass.next .parsing }))
  | _ => none

/-- The end of a file. -/
def endFileParse (succeeded : Bool) : Option System :=
  match s.parsers i with
  | .parsing pass =>
      let new := if succeeded = true then FileState.succeeded else .failed
      some ((s.storeFile pass.next (pass.copies pass.next) new).gotoParse i
        (.looping { pass with
          copies := Function.update pass.copies pass.next new
          next := pass.next + 1
          completed := if succeeded = true then pass.completed + 1 else pass.completed
          failed := if succeeded = true then pass.failed else pass.failed + 1 }))
  | _ => none

/-- The state behind the last file. -/
def ParsePass.outcome (pass : ParsePass) : TaskState :=
  if pass.failed = 0 then .completed else if pass.completed = 0 then .failed else .completed

def finishParse : Option System :=
  match s.parsers i with
  | .looping pass =>
      if pass.next < s.fileCount then none
      else some ((s.store pass.seen pass.outcome).gotoParse i .done)
  | _ => none

/-- The state in the copy of a parse worker at work on the task. -/
def ParsePlace.seen? : ParsePlace → Option TaskState
  | idle | done => none
  | accepted seen | listed seen _ => some seen
  | looping pass | leaving pass | starting pass | parsing pass => some pass.seen

/-- `_fail_csv_parse_task`: there is no profile or no file, or something raises. -/
def failParse : Option System :=
  match (s.parsers i).seen? with
  | some seen => some ((s.store seen .failed).gotoParse i .done)
  | none => none

def loseParse : Option System := some (s.gotoParse i .done)

end parse

/-! ### The import worker -/

section importer

variable (s : System) (i : ℕ)

/-- A worker is only sent behind an import request. -/
def startImport : Option System :=
  match s.importers i with
  | .idle =>
      if s.importRequested = true then
        if s.state = .imported ∨ s.state = .importFailed ∨ s.state = .stopped then
          some (s.gotoImport i .done)
        else if s.state = .waitingImport ∨ s.state = .completed then
          some (s.gotoImport i (.accepted s.state))
        else some (s.gotoImport i (.refused s.state))
      else none
  | _ => none

def listImport : Option System :=
  match s.importers i with
  | .accepted seen => some (s.gotoImport i (.listed seen s.files))
  | _ => none

/-- `importable`. -/
def importableFiles (n : ℕ) (copies : ℕ → FileState) : List ℕ :=
  (List.range n).filter fun j => (copies j).isImportable

def beginImport : Option System :=
  match s.importers i with
  | .listed seen copies =>
      if importableFiles s.fileCount copies = [] then none
      else some ((s.store seen .importing).gotoImport i (.looping
        { seen := .importing, copies := copies, todo := importableFiles s.fileCount copies }))
  | _ => none

/-- There is no profile, or no file to import. -/
def rejectImport : Option System :=
  match s.importers i with
  | .accepted seen => some ((s.store seen .failed).gotoImport i .done)
  | .listed seen copies =>
      if importableFiles s.fileCount copies = [] then some ((s.store seen .failed).gotoImport i .done)
      else none
  | _ => none

/-- The refresh before a file. -/
def lookImport : Option System :=
  match s.importers i with
  | .looping pass =>
      if pass.todo = [] then none
      else if s.stopSeen = true then some (s.gotoImport i (.leaving { pass with seen := s.state }))
      else some (s.gotoImport i (.starting { pass with seen := s.state }))
  | _ => none

/-- `_stop_remaining_csv_import_files`. -/
def leaveImport : Option System :=
  match s.importers i with
  | .leaving pass =>
      some (((s.stopFiles fun j => decide (j ∈ pass.todo) && (pass.copies j).isStoppable).store
        pass.seen .stopped).gotoImport i .done)
  | _ => none

def ImportPass.current (pass : ImportPass) : ℕ := pass.todo.headD 0

/-- The pass with the state of its file as it writes it. -/
def ImportPass.writes (pass : ImportPass) (new : FileState) : ImportPass :=
  { pass with copies := Function.update pass.copies pass.current new }

def startFileImport : Option System :=
  match s.importers i with
  | .starting pass =>
      some ((s.storeFile pass.current (pass.copies pass.current) .importing).gotoImport i
        (.loading (pass.writes .importing)))
  | _ => none

/-- The Stream Load is sent. -/
def load : Option System :=
  match s.importers i with
  | .loading pass =>
      some { s.gotoImport i (.loaded pass) with
        loads := Function.update s.loads pass.current (s.loads pass.current + 1) }
  | _ => none

/-- The end of a file: an answer to its load, or an exception. -/
def endFileImport (succeeded : Bool) : Option System :=
  match s.importers i with
  | .loaded pass =>
      let new := if succeeded = true then FileState.imported else .importFailed
      some ((s.storeFile pass.current (pass.copies pass.current) new).gotoImport i
        (.looping { pass.writes new with
          todo := pass.todo.tail
          failed := if succeeded = true then pass.failed else pass.failed + 1 }))
  | .loading pass =>
      if succeeded = true then none
      else some ((s.storeFile pass.current (pass.copies pass.current) .importFailed).gotoImport i
        (.looping { pass.writes .importFailed with todo := pass.todo.tail, failed := pass.failed + 1 }))
  | _ => none

def finishImportTask : Option System :=
  match s.importers i with
  | .looping pass =>
      if pass.todo = [] then
        some ((s.store pass.seen (if pass.failed = 0 then .imported else .importFailed)).gotoImport i .done)
      else none
  | _ => none

/-- The state in the copy of an import worker at work on the task. -/
def ImportPlace.seen? : ImportPlace → Option TaskState
  | idle | done => none
  | refused seen | accepted seen | listed seen _ => some seen
  | looping pass | leaving pass | starting pass | loading pass | loaded pass => some pass.seen

/-- `_fail_csv_import_task`: the state does not allow the import, or something raises. -/
def failImport : Option System :=
  match (s.importers i).seen? with
  | some seen => some ((s.store seen .importFailed).gotoImport i .done)
  | none => none

def loseImport : Option System := some (s.gotoImport i .done)

end importer

/-! ### The requests -/

section requests

variable (s : System) (c : ℕ)

/-- A stop request reads a task that has not ended. -/
def readStop : Option System :=
  if s.stops c = none ∧ s.state.isParseTerminal = false then
    some { s with stops := Function.update s.stops c (some s.state) }
  else none

def commitStop : Option System :=
  match s.stops c with
  | some seen =>
      some { s.store seen .stopping with
        stopRequested := true
        stopIsNew := true
        stops := Function.update s.stops c none }
  | none => none

/-- An import request reads a task that it may import. -/
def readRequest : Option System :=
  if s.requests c = none ∧ (s.state = .completed ∨ s.state = .importFailed ∨ s.state = .imported) then
    some { s with requests := Function.update s.requests c (some s.state) }
  else none

def commitRequest : Option System :=
  match s.requests c with
  | some seen =>
      some { s.store seen .waitingImport with
        importRequested := true
        stopIsNew := false
        requests := Function.update s.requests c none }
  | none => none

end requests

/-! ### The system -/

inductive Action where
  | startParse (i : ℕ)
  | listParse (i : ℕ)
  | beginParse (i : ℕ)
  | lookParse (i : ℕ)
  | leaveParse (i : ℕ)
  | startFileParse (i : ℕ)
  | endFileParse (i : ℕ) (succeeded : Bool)
  | finishParse (i : ℕ)
  | failParse (i : ℕ)
  | loseParse (i : ℕ)
  | startImport (i : ℕ)
  | listImport (i : ℕ)
  | beginImport (i : ℕ)
  | rejectImport (i : ℕ)
  | lookImport (i : ℕ)
  | leaveImport (i : ℕ)
  | startFileImport (i : ℕ)
  | load (i : ℕ)
  | endFileImport (i : ℕ) (succeeded : Bool)
  | finishImport (i : ℕ)
  | failImport (i : ℕ)
  | loseImport (i : ℕ)
  | readStop (c : ℕ)
  | commitStop (c : ℕ)
  | readRequest (c : ℕ)
  | commitRequest (c : ℕ)

def step (s : System) : Action → Option System
  | .startParse i => startParse s i
  | .listParse i => listParse s i
  | .beginParse i => beginParse s i
  | .lookParse i => lookParse s i
  | .leaveParse i => leaveParse s i
  | .startFileParse i => startFileParse s i
  | .endFileParse i succeeded => endFileParse s i succeeded
  | .finishParse i => finishParse s i
  | .failParse i => failParse s i
  | .loseParse i => loseParse s i
  | .startImport i => startImport s i
  | .listImport i => listImport s i
  | .beginImport i => beginImport s i
  | .rejectImport i => rejectImport s i
  | .lookImport i => lookImport s i
  | .leaveImport i => leaveImport s i
  | .startFileImport i => startFileImport s i
  | .load i => load s i
  | .endFileImport i succeeded => endFileImport s i succeeded
  | .finishImport i => finishImportTask s i
  | .failImport i => failImport s i
  | .loseImport i => loseImport s i
  | .readStop c => readStop s c
  | .commitStop c => commitStop s c
  | .readRequest c => readRequest s c
  | .commitRequest c => commitRequest s c

end RecoveryService.DorisCsvImport
