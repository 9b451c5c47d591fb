import RecoveryService.DorisCsvImport.Workers

/-! # Orderly runs of a CSV task

A write of the task's state is in order where it finds the state its writer has read.  `Orderly` asks for
that and for what the states alone do not say: a parse worker begins (or fails) alone and before
the import request, an import worker begins with the files as it has listed them, and it does not fail
a task that another one imports or that is to stop.  In such runs an imported file is not loaded again, a task
under import is not parsed again, a stopped task stays stopped, and no import is stopped by a request
from before it. -/

namespace RecoveryService.DorisCsvImport

open Runs TaskState

/-! ### The condition -/

/-- The pass of a worker that has begun. -/
def ParsePlace.pass? : ParsePlace → Option ParsePass
  | looping pass | leaving pass | starting pass | parsing pass => some pass
  | idle | accepted _ | listed _ _ | done => none

def ImportPlace.pass? : ImportPlace → Option ImportPass
  | looping pass | leaving pass | starting pass | loading pass | loaded pass => some pass
  | idle | refused _ | accepted _ | listed _ _ | done => none

namespace System

variable (s : System) (i : ℕ)

/-- The task is in the state that the parse worker has read. -/
def ParserCurrent : Prop := ∀ seen, (s.parsers i).seen? = some seen → s.state = seen

def ImporterCurrent : Prop := ∀ seen, (s.importers i).seen? = some seen → s.state = seen

/-- No other parse worker has begun. -/
def ParsesAlone : Prop := ∀ k, k ≠ i → (s.parsers k).pass? = none

end System

def Orderly (s : System) : Action → Prop
  | .beginParse i | .failParse i => s.ParserCurrent i ∧ s.importRequested = false ∧ s.ParsesAlone i
  | .leaveParse i | .finishParse i => s.ParserCurrent i
  | .beginImport i => s.ImporterCurrent i ∧ ∀ seen copies, s.importers i = .listed seen copies →
      ∀ j < s.fileCount, copies j = s.files j
  | .rejectImport i | .leaveImport i | .finishImport i => s.ImporterCurrent i
  | .failImport i => s.ImporterCurrent i ∧ s.state ≠ .stopping ∧
      ∀ seen, s.importers i = .refused seen → ∀ k, (s.importers k).pass? = none
  | .commitStop c => ∀ seen, s.stops c = some seen → s.state = seen
  | .commitRequest c => ∀ seen, s.requests c = some seen → s.state = seen
  | _ => True

/-! ### The invariant -/

/-- The states of a task behind an import request. -/
def TaskState.isRequested : TaskState → Bool
  | waitingImport | importing | imported | importFailed | stopping | stopped | failed => true
  | created | uploading | queued | parsing | completed => false

/-- The states that only an import gives. -/
def TaskState.isImport : TaskState → Bool
  | waitingImport | importing | imported => true
  | _ => false

/-- The columns of the task and its files, and whether the last stop request is new. -/
structure Row where
  fileCount : ℕ
  state : TaskState
  stopRequested : Bool
  importRequested : Bool
  files : ℕ → FileState
  stopIsNew : Bool

def System.row (s : System) : Row where
  fileCount := s.fileCount
  state := s.state
  stopRequested := s.stopRequested
  importRequested := s.importRequested
  files := s.files
  stopIsNew := s.stopIsNew

namespace Row

variable (r : Row)

structure TaskOk : Prop where
  requested : r.importRequested = true → r.state.isRequested = true
  unrequested : r.importRequested = false → r.state.isImport = false ∧ ∀ j, r.files j ≠ .imported
  flagged : r.stopRequested = true →
    r.state = .stopping ∨ r.state = .stopped ∨ r.state = .failed ∨ r.state = .parsing
  settling : r.importRequested = true → r.stopRequested = true →
    r.state = .stopping ∨ r.state = .stopped
  fresh : r.importRequested = true → r.stopIsNew = false →
    r.stopRequested = false ∧ r.state ≠ .stopping

/-- A parse worker is at work. -/
def Parsing : Prop := r.importRequested = false ∧ (r.state = .parsing ∨ r.state = .stopping)

def Importing : Prop := r.importRequested = true ∧ (r.state = .importing ∨ r.state = .stopping)

/-- A stop request is seen in the state. -/
def Heeded : Prop := r.stopRequested = true → r.state = .stopping

def ParseOk : ParsePlace → Prop
  | .idle | .done => True
  | .accepted seen | .listed seen _ => seen.isParseTerminal = false
  | .looping pass => r.Parsing ∧ pass.seen = .parsing ∧ (pass.next = 0 ∧ 0 < r.fileCount ∨ r.Heeded)
  | .leaving pass => r.Parsing ∧ (pass.seen = .parsing ∨ pass.seen = .stopping)
  | .starting pass | .parsing pass => r.Parsing ∧ pass.seen = .parsing ∧ r.Heeded

/-- The files that are left are not imported. -/
structure Left (pass : ImportPass) : Prop where
  nodup : pass.todo.Nodup
  files : ∀ j ∈ pass.todo, r.files j ≠ .imported

def ImportOk : ImportPlace → Prop
  | .idle | .done => True
  | .refused seen => r.importRequested = true ∧ seen ≠ .stopped
  | .accepted seen | .listed seen _ => r.importRequested = true ∧ (seen = .waitingImport ∨ seen = .completed)
  | .looping pass => r.Importing ∧ pass.seen = .importing ∧ r.Left pass
  | .leaving pass => r.Importing ∧ pass.seen = .stopping ∧ r.Left pass ∧ r.stopIsNew = true
  | .starting pass | .loading pass | .loaded pass =>
      r.Importing ∧ pass.seen = .importing ∧ r.Left pass ∧ pass.todo ≠ []

end Row

structure Inv (s : System) : Prop where
  task : s.row.TaskOk
  parser : ∀ i, s.row.ParseOk (s.parsers i)
  importer : ∀ i, s.row.ImportOk (s.importers i)
  oneParser : ∀ i k, (s.parsers i).pass? ≠ none → (s.parsers k).pass? ≠ none → i = k
  oneImporter : ∀ i k, (s.importers i).pass? ≠ none → (s.importers k).pass? ≠ none → i = k
  stops : ∀ c seen, s.stops c = some seen → seen.isParseTerminal = false
  requests : ∀ c seen, s.requests c = some seen →
    seen = .completed ∨ seen = .importFailed ∨ seen = .imported

theorem initial_inv (n : ℕ) : Inv { fileCount := n } :=
  ⟨⟨nofun, fun _ => ⟨rfl, fun _ => nofun⟩, nofun, nofun, nofun⟩, fun _ => trivial, fun _ => trivial,
    fun _ _ h => (h rfl).elim, fun _ _ h => (h rfl).elim, nofun, nofun⟩

/-- What an orderly step does. -/
structure Goes (s s' : System) : Prop where
  inv : Inv s'
  imported : ∀ j, s.files j = .imported → s'.files j = .imported ∧ s'.loads j = s.loads j
  requested : s.importRequested = true → s'.importRequested = true
  stopped : s.state = .stopped → s'.state = .stopped

theorem Goes.refl {s : System} (h : Inv s) : Goes s s := ⟨h, fun _ hj => ⟨hj, rfl⟩, id, id⟩

theorem Goes.trans {s s₁ s₂ : System} (h₁ : Goes s s₁) (h₂ : Goes s₁ s₂) : Goes s s₂ where
  inv := h₂.inv
  imported j hj := by
    obtain ⟨hfile, hloads⟩ := h₁.imported j hj
    obtain ⟨hfile', hloads'⟩ := h₂.imported j hfile
    exact ⟨hfile', hloads'.trans hloads⟩
  requested := fun h => h₂.requested (h₁.requested h)
  stopped := fun h => h₂.stopped (h₁.stopped h)

variable {s s' : System} {i : ℕ}

/-! ### The shapes of the steps -/

/-- A parse worker goes on. -/
theorem Inv.gotoParse (h : Inv s) {place : ParsePlace} (hplace : s.row.ParseOk place)
    (hpass : place.pass? ≠ none → s.ParsesAlone i) : Goes s (s.gotoParse i place) := by
  refine ⟨⟨h.task, fun k => ?_, h.importer, fun k l hk hl => ?_, h.oneImporter, h.stops, h.requests⟩,
    fun _ hj => ⟨hj, rfl⟩, id, id⟩
  · simp only [System.gotoParse, Function.update_apply]
    split
    · exact hplace
    · exact h.parser k
  · simp only [System.gotoParse, Function.update_apply] at hk hl
    by_cases hki : k = i <;> by_cases hli : l = i
    · rw [hki, hli]
    · rw [if_pos hki] at hk
      rw [if_neg hli] at hl
      exact (hl (hpass hk l hli)).elim
    · rw [if_neg hki] at hk
      rw [if_pos hli] at hl
      exact (hk (hpass hl k hki)).elim
    · rw [if_neg hki] at hk
      rw [if_neg hli] at hl
      exact h.oneParser k l hk hl

variable {place : ImportPlace}

theorem Inv.gotoImport (h : Inv s) (hplace : s.row.ImportOk place)
    (hpass : place.pass? ≠ none → ∀ k, k ≠ i → (s.importers k).pass? = none) :
    Goes s (s.gotoImport i place) := by
  refine ⟨⟨h.task, h.parser, fun k => ?_, h.oneParser, fun k l hk hl => ?_, h.stops, h.requests⟩,
    fun _ hj => ⟨hj, rfl⟩, id, id⟩
  · simp only [System.gotoImport, Function.update_apply]
    split
    · exact hplace
    · exact h.importer k
  · simp only [System.gotoImport, Function.update_apply] at hk hl
    by_cases hki : k = i <;> by_cases hli : l = i
    · rw [hki, hli]
    · rw [if_pos hki] at hk
      rw [if_neg hli] at hl
      exact (hl (hpass hk l hli)).elim
    · rw [if_neg hki] at hk
      rw [if_pos hli] at hl
      exact (hk (hpass hl k hki)).elim
    · rw [if_neg hki] at hk
      rw [if_neg hli] at hl
      exact h.oneImporter k l hk hl

/-! ### Who is at work -/

variable {r : Row}

theorem parsing_of_pass {place : ParsePlace} (h : r.ParseOk place) (hpass : place.pass? ≠ none) :
    r.Parsing := by
  cases place with
  | idle | accepted seen | listed seen copies | done => exact (hpass rfl).elim
  | looping pass | leaving pass | starting pass | parsing pass => exact h.1

theorem importing_of_pass (h : r.ImportOk place) (hpass : place.pass? ≠ none) : r.Importing := by
  cases place with
  | idle | refused seen | accepted seen | listed seen copies | done => exact (hpass rfl).elim
  | looping pass | leaving pass | starting pass | loading pass | loaded pass => exact h.1

variable {pass : ImportPass}

theorem left_of_pass (h : r.ImportOk place) (hpass : place.pass? = some pass) : r.Left pass := by
  cases place with
  | idle | refused seen | accepted seen | listed seen copies | done => cases hpass
  | looping pass =>
      cases hpass
      exact h.2.2
  | leaving pass | starting pass | loading pass | loaded pass =>
      cases hpass
      exact h.2.2.1

/-- A place of a worker that has not begun does not depend on the task's state. -/
theorem parseOk_of_pass {r' : Row} {place : ParsePlace} (h : r.ParseOk place) (hpass : place.pass? = none) :
    r'.ParseOk place := by
  cases place with
  | idle | accepted seen | listed seen copies | done => exact h
  | looping pass | leaving pass | starting pass | parsing pass => cases hpass

theorem importOk_of_pass {r' : Row} (h : r.ImportOk place) (hpass : place.pass? = none)
    (hrequested : r.importRequested = true → r'.importRequested = true) : r'.ImportOk place := by
  cases place with
  | idle | done => exact h
  | refused seen | accepted seen | listed seen copies => exact ⟨hrequested h.1, h.2⟩
  | looping pass | leaving pass | starting pass | loading pass | loaded pass => cases hpass

/-- Nobody is at work on the task. -/
structure AtRest (s : System) : Prop where
  parsers : ∀ k, (s.parsers k).pass? = none
  importers : ∀ k, (s.importers k).pass? = none

/-- In the other states nobody is at work. -/
theorem Inv.atRest (h : Inv s) (hparsing : s.state ≠ .parsing) (himporting : s.state ≠ .importing)
    (hstopping : s.state ≠ .stopping) : AtRest s := by
  refine ⟨fun k => by_contra fun hpass => ?_, fun k => by_contra fun hpass => ?_⟩
  · rcases (parsing_of_pass (h.parser k) hpass).2 with hstate | hstate
    · exact hparsing hstate
    · exact hstopping hstate
  · rcases (importing_of_pass (h.importer k) hpass).2 with hstate | hstate
    · exact himporting hstate
    · exact hstopping hstate

theorem Inv.importers_none (h : Inv s) (hrequested : s.importRequested = false) (k : ℕ) :
    (s.importers k).pass? = none := by
  by_contra hpass
  have himporting := (importing_of_pass (h.importer k) hpass).1
  simp only [System.row, hrequested] at himporting
  cases himporting

theorem Inv.parsers_none (h : Inv s) (hrequested : s.importRequested = true) (k : ℕ) :
    (s.parsers k).pass? = none := by
  by_contra hpass
  have hparsing := (parsing_of_pass (h.parser k) hpass).1
  simp only [System.row, hrequested] at hparsing
  cases hparsing

variable {new : TaskState}

/-- The task gets another state while nobody is at work. -/
theorem Inv.restate (h : Inv s) (hrest : AtRest s) {requested fresh : Bool}
    (hrequested : s.importRequested = true → requested = true)
    (htask : Row.TaskOk ⟨s.fileCount, new, s.stopRequested, requested, s.files, fresh⟩)
    (hstopped : s.state = .stopped → new = .stopped) :
    Goes s { s with state := new, importRequested := requested, stopIsNew := fresh } :=
  ⟨⟨htask, fun k => parseOk_of_pass (h.parser k) (hrest.parsers k),
    fun k => importOk_of_pass (h.importer k) (hrest.importers k) hrequested, h.oneParser, h.oneImporter,
    h.stops, h.requests⟩, fun _ hj => ⟨hj, rfl⟩, hrequested, hstopped⟩

variable {f : ℕ → FileState}

/-- Files get other states. -/
theorem Inv.refile (h : Inv s) (hkept : ∀ j, s.files j = .imported → f j = .imported)
    (hleft : ∀ k pass, (s.importers k).pass? = some pass → ∀ j ∈ pass.todo, f j ≠ .imported)
    (hnone : s.importRequested = false → ∀ j, f j ≠ .imported) : Goes s { s with files := f } := by
  refine ⟨⟨⟨h.task.requested, fun hrequested => ⟨(h.task.unrequested hrequested).1, hnone hrequested⟩,
    h.task.flagged, h.task.settling, h.task.fresh⟩, fun k => ?_, fun k => ?_, h.oneParser, h.oneImporter,
    h.stops, h.requests⟩, fun j hj => ⟨hkept j hj, rfl⟩, id, id⟩
  · have hok := h.parser k
    cases hplace : s.parsers k <;> rw [hplace] at hok <;> exact hok
  · have hok := h.importer k
    have hpass := hleft k
    cases hplace : s.importers k with
    | idle | done => exact trivial
    | refused seen | accepted seen | listed seen copies => rwa [hplace] at hok
    | looping pass =>
        rw [hplace] at hok hpass
        exact ⟨hok.1, hok.2.1, hok.2.2.nodup, hpass pass rfl⟩
    | leaving pass | starting pass | loading pass | loaded pass =>
        rw [hplace] at hok hpass
        exact ⟨hok.1, hok.2.1, ⟨hok.2.2.1.nodup, hpass pass rfl⟩, hok.2.2.2⟩

variable {seen : TaskState}

theorem System.store_eq (h : s.state = seen) : s.store seen new = { s with state := new } := by
  unfold System.store
  split
  · next hsame => rw [hsame, ← h]
  · rfl

/-! ### The steps of the parse worker -/

theorem Inv.parsesAlone (h : Inv s) (hpass : (s.parsers i).pass? ≠ none) : s.ParsesAlone i :=
  fun k hk => by_contra fun hother => hk (h.oneParser k i hother hpass)

theorem parse_seen_ne {place : ParsePlace} (h : r.ParseOk place) (hseen : place.seen? = some seen) : seen ≠ .stopped := by
  rintro rfl
  cases place with
  | idle | done => cases hseen
  | accepted seen | listed seen copies =>
      cases hseen
      cases h
  | looping pass | starting pass | parsing pass =>
      exact TaskState.noConfusion ((Option.some.inj hseen).symm.trans h.2.1)
  | leaving pass =>
      have hstop : pass.seen = .stopped := Option.some.inj hseen
      rcases h.2 with hparsing | hstopping
      · exact TaskState.noConfusion (hstop.symm.trans hparsing)
      · exact TaskState.noConfusion (hstop.symm.trans hstopping)

/-- A parse worker that was alone is through. -/
theorem Inv.parseDone (h : Inv s) (hrequested : s.importRequested = false) (halone : s.ParsesAlone i) :
    Goes s (s.gotoParse i .done) ∧ AtRest (s.gotoParse i .done) := by
  refine ⟨h.gotoParse trivial fun hpass => (hpass rfl).elim, fun k => ?_, h.importers_none hrequested⟩
  simp only [System.gotoParse, Function.update_apply]
  split
  · rfl
  · next hk => exact halone k hk

/-- Before the import request no file is imported, and a parse worker makes none. -/
theorem Inv.refileParse (h : Inv s) (hrequested : s.importRequested = false)
    (hf : ∀ j, f j = .imported → s.files j = .imported) : Goes s { s with files := f } := by
  have hnone := (h.task.unrequested hrequested).2
  refine h.refile (fun j hj => (hnone j hj).elim) (fun k pass hpass => ?_)
    fun _ j hj => hnone j (hf j hj)
  rw [h.importers_none hrequested k] at hpass
  cases hpass

/-- What a file's commit leaves. -/
def storedFiles (files : ℕ → FileState) (j : ℕ) (seen new : FileState) : ℕ → FileState :=
  if new = seen then files else Function.update files j new

theorem System.storeFile_eq (j : ℕ) (seen new : FileState) :
    s.storeFile j seen new = { s with files := storedFiles s.files j seen new } := by
  unfold System.storeFile storedFiles
  split <;> rfl

/-- A commit changes one file, and only to the state it writes. -/
theorem storedFiles_cases (files : ℕ → FileState) (j : ℕ) (seen new : FileState) (k : ℕ) :
    storedFiles files j seen new k = files k ∨ k = j ∧ storedFiles files j seen new k = new := by
  unfold storedFiles
  split
  · exact .inl rfl
  · by_cases hk : k = j
    · rw [hk, Function.update_self]
      exact .inr ⟨rfl, rfl⟩
    · rw [Function.update_of_ne hk]
      exact .inl rfl

theorem Inv.storeFileParse (h : Inv s) (hrequested : s.importRequested = false) {j : ℕ}
    {seen new : FileState} (hnew : new ≠ .imported) :
    Goes s { s with files := storedFiles s.files j seen new } := by
  refine h.refileParse hrequested fun k hk => ?_
  rcases storedFiles_cases s.files j seen new k with hsame | ⟨-, hwritten⟩
  · rwa [hsame] at hk
  · exact (hnew (hwritten.symm.trans hk)).elim

/-- The state that a parse worker leaves the task in. -/
theorem Inv.settleParse (h : Inv s) (hrest : AtRest s) (hrequested : s.importRequested = false)
    (hstopped : s.state ≠ .stopped) (hnew : new.isImport = false) (hflagged : s.stopRequested = true →
      new = .stopping ∨ new = .stopped ∨ new = .failed ∨ new = .parsing) : Goes s { s with state := new } := by
  refine h.restate hrest id ⟨?_, fun _ => ⟨hnew, (h.task.unrequested hrequested).2⟩, hflagged, ?_, ?_⟩
    fun hstate => (hstopped hstate).elim
  · intro hr
    cases hrequested.symm.trans hr
  · intro hr
    cases hrequested.symm.trans hr
  · intro hr
    cases hrequested.symm.trans hr

theorem Inv.startParse (h : Inv s) (hs : startParse s i = some s') : Goes s s' := by
  unfold DorisCsvImport.startParse at hs
  split at hs
  · split at hs
    · cases hs
      exact h.gotoParse trivial fun hpass => (hpass rfl).elim
    · next hterminal =>
        cases hs
        exact h.gotoParse (Bool.eq_false_iff.mpr hterminal) fun hpass => (hpass rfl).elim
  · cases hs

theorem Inv.listParse (h : Inv s) (hs : listParse s i = some s') : Goes s s' := by
  have hok := h.parser i
  unfold DorisCsvImport.listParse at hs
  split at hs
  · next seen hplace =>
      cases hs
      rw [hplace] at hok
      exact h.gotoParse hok fun hpass => (hpass rfl).elim
  · cases hs

theorem Inv.beginParse (h : Inv s) (hok : Orderly s (.beginParse i)) (hs : beginParse s i = some s') :
    Goes s s' := by
  obtain ⟨hcurrent, hrequested, halone⟩ := hok
  have hplace := h.parser i
  unfold DorisCsvImport.beginParse at hs
  split at hs
  · next seen copies heq =>
      split at hs
      · next hcount =>
          cases hs
          have hstate : s.state = seen := hcurrent seen (by rw [heq]; rfl)
          rw [System.store_eq hstate]
          have hrest : AtRest s := by
            refine ⟨fun k => ?_, h.importers_none hrequested⟩
            by_cases hk : k = i
            · rw [hk, heq]
              rfl
            · exact halone k hk
          have hstopped : s.state ≠ .stopped := by
            rw [hstate]
            exact parse_seen_ne hplace (by rw [heq]; rfl)
          have hbegun : Goes s { s with state := .parsing } :=
            h.settleParse hrest hrequested hstopped rfl fun _ => .inr (.inr (.inr rfl))
          exact hbegun.trans (hbegun.inv.gotoParse
            ⟨⟨hrequested, .inl rfl⟩, rfl, .inl ⟨rfl, hcount⟩⟩ fun _ => halone)
      · cases hs
  · cases hs

theorem System.stopSeen_false (h : ¬ s.stopSeen = true) :
    s.stopRequested = false ∧ s.state ≠ .stopping := by
  unfold System.stopSeen at h
  simpa using h

theorem Inv.lookParse (h : Inv s) (hs : lookParse s i = some s') : Goes s s' := by
  have hok := h.parser i
  have halone := h.parsesAlone (i := i)
  unfold DorisCsvImport.lookParse at hs
  split at hs
  · next pass hplace =>
      rw [hplace] at hok halone
      split at hs
      · split at hs
        · cases hs
          exact h.gotoParse ⟨hok.1, hok.1.2⟩ fun _ => halone nofun
        · next hstop =>
            cases hs
            obtain ⟨hflag, hstate⟩ := System.stopSeen_false hstop
            refine h.gotoParse ⟨hok.1, hok.1.2.resolve_right hstate, fun hstopped => ?_⟩
              fun _ => halone nofun
            cases hflag.symm.trans hstopped
      · cases hs
  · cases hs

theorem Inv.leaveParse (h : Inv s) (hok : Orderly s (.leaveParse i)) (hs : leaveParse s i = some s') :
    Goes s s' := by
  have hplace := h.parser i
  have halone := h.parsesAlone (i := i)
  unfold DorisCsvImport.leaveParse at hs
  split at hs
  · next pass heq =>
      cases hs
      have hstate : s.state = pass.seen := hok pass.seen (by rw [heq]; rfl)
      rw [heq] at hplace halone
      have hrequested : s.importRequested = false := hplace.1.1
      have hstopped : s.state ≠ .stopped := by
        rw [hstate]
        exact parse_seen_ne hplace rfl
      rw [System.store_eq (s := s.stopFiles _) hstate]
      obtain ⟨hdone, hrest⟩ := h.parseDone hrequested (halone nofun)
      have hfiles := hdone.inv.refileParse (f := (s.stopFiles fun j => decide (pass.next ≤ j ∧
        j < s.fileCount ∧ (pass.copies j = .waiting ∨ pass.copies j = .parsing))).files) hrequested
        fun j hj => ?_
      · exact (hdone.trans hfiles).trans (hfiles.inv.settleParse ⟨hrest.parsers, hrest.importers⟩
          hrequested hstopped rfl fun _ => .inr (.inl rfl))
      · simp only [System.stopFiles] at hj
        split at hj
        · cases hj
        · exact hj
  · cases hs

theorem Inv.startFileParse (h : Inv s) (hs : startFileParse s i = some s') : Goes s s' := by
  have hok := h.parser i
  have halone := h.parsesAlone (i := i)
  unfold DorisCsvImport.startFileParse at hs
  split at hs
  · next pass hplace =>
      cases hs
      rw [hplace] at hok halone
      have hrequested : s.importRequested = false := hok.1.1
      rw [System.storeFile_eq]
      have hmoved : Goes s (s.gotoParse i (.parsing { pass with
          copies := Function.update pass.copies pass.next .parsing })) :=
        h.gotoParse hok fun _ => halone nofun
      exact hmoved.trans (hmoved.inv.storeFileParse hrequested nofun)
  · cases hs

theorem Inv.endFileParse (h : Inv s) {succeeded : Bool} (hs : endFileParse s i succeeded = some s') :
    Goes s s' := by
  have hok := h.parser i
  have halone := h.parsesAlone (i := i)
  unfold DorisCsvImport.endFileParse at hs
  split at hs
  · next pass hplace =>
      cases hs
      rw [hplace] at hok halone
      rw [System.storeFile_eq]
      have hmoved : ∀ (next : ParsePass) (new : FileState), next.seen = pass.seen → new ≠ .imported →
          Goes s ({ s with files := storedFiles s.files pass.next (pass.copies pass.next) new }.gotoParse i
            (.looping next)) := by
        intro next new hseen hnew
        have hlooping : Goes s (s.gotoParse i (.looping next)) :=
          h.gotoParse ⟨hok.1, hseen.trans hok.2.1, .inr hok.2.2⟩ fun _ => halone nofun
        exact hlooping.trans (hlooping.inv.storeFileParse hok.1.1 hnew)
      refine hmoved _ _ rfl ?_
      split <;> nofun
  · cases hs

theorem Inv.finishParse (h : Inv s) (hok : Orderly s (.finishParse i)) (hs : finishParse s i = some s') :
    Goes s s' := by
  have hplace := h.parser i
  have halone := h.parsesAlone (i := i)
  unfold DorisCsvImport.finishParse at hs
  split at hs
  · next pass heq =>
      split at hs
      · cases hs
      · next hend =>
          cases hs
          have hstate : s.state = pass.seen := hok pass.seen (by rw [heq]; rfl)
          rw [heq] at hplace halone
          obtain ⟨hparsing, hseen, hheeded⟩ := hplace
          rw [hseen] at hstate
          -- the last look was behind the first file, so a stop request would have moved the state
          have hflag : ¬ s.stopRequested = true := by
            intro hstop
            rcases hheeded with ⟨hnext, hcount⟩ | hheeded
            · exact hend (hnext ▸ hcount)
            · exact TaskState.noConfusion (hstate.symm.trans (hheeded hstop))
          rw [System.store_eq (hstate.trans hseen.symm)]
          have hstopped : s.state ≠ .stopped := by
            rw [hstate]
            nofun
          have hnew : pass.outcome.isImport = false := by
            unfold ParsePass.outcome
            split_ifs <;> rfl
          obtain ⟨hdone, hrest⟩ := h.parseDone hparsing.1 (halone nofun)
          exact hdone.trans (hdone.inv.settleParse hrest hparsing.1 hstopped hnew
            fun hstop => (hflag hstop).elim)
  · cases hs

theorem Inv.failParse (h : Inv s) (hok : Orderly s (.failParse i)) (hs : failParse s i = some s') :
    Goes s s' := by
  obtain ⟨hcurrent, hrequested, halone⟩ := hok
  unfold DorisCsvImport.failParse at hs
  split at hs
  · next seen hseen =>
      cases hs
      have hstate := hcurrent seen hseen
      have hstopped : s.state ≠ .stopped := by
        rw [hstate]
        exact parse_seen_ne (h.parser i) hseen
      rw [System.store_eq hstate]
      obtain ⟨hdone, hrest⟩ := h.parseDone hrequested halone
      exact hdone.trans (hdone.inv.settleParse hrest hrequested hstopped rfl
        fun _ => .inr (.inr (.inl rfl)))
  · cases hs

/-! ### The steps of the import worker -/

theorem Inv.importsAlone (h : Inv s) (hpass : (s.importers i).pass? ≠ none) :
    ∀ k, k ≠ i → (s.importers k).pass? = none :=
  fun k hk => by_contra fun hother => hk (h.oneImporter k i hother hpass)

/-- An import worker that was alone is through. -/
theorem Inv.importDone (h : Inv s) (hrequested : s.importRequested = true)
    (halone : ∀ k, k ≠ i → (s.importers k).pass? = none) :
    Goes s (s.gotoImport i .done) ∧ AtRest (s.gotoImport i .done) := by
  refine ⟨h.gotoImport trivial fun hpass => (hpass rfl).elim, h.parsers_none hrequested, fun k => ?_⟩
  simp only [System.gotoImport, Function.update_apply]
  split
  · rfl
  · next hk => exact halone k hk

/-- The state that an import worker leaves the task in. -/
theorem Inv.settleImport (h : Inv s) (hrest : AtRest s) (hrequested : s.importRequested = true)
    (hstopped : s.state ≠ .stopped) (hnew : new.isRequested = true) (hstop : new ≠ .stopping)
    (hsettles : s.stopRequested = true → new = .stopped) : Goes s { s with state := new } := by
  refine h.restate hrest id ⟨fun _ => hnew, ?_, fun hflag => .inr (.inl (hsettles hflag)),
    fun _ hflag => .inr (hsettles hflag), fun _ hfresh => ⟨(h.task.fresh hrequested hfresh).1, hstop⟩⟩
    fun hstate => (hstopped hstate).elim
  intro hr
  cases hrequested.symm.trans hr

/-- Before a stop request is heeded the flag is not set. -/
theorem Inv.unflagged (h : Inv s) (hrequested : s.importRequested = true) (hstopping : s.state ≠ .stopping)
    (hstopped : s.state ≠ .stopped) : ¬ s.stopRequested = true :=
  fun hflag => (h.task.settling hrequested hflag).elim hstopping hstopped

theorem Inv.startImport (h : Inv s) (hs : startImport s i = some s') : Goes s s' := by
  unfold DorisCsvImport.startImport at hs
  split at hs
  · split at hs
    · next hrequested =>
        split at hs
        · cases hs
          exact h.gotoImport trivial fun hpass => (hpass rfl).elim
        · next hended =>
            split at hs
            · next hstate =>
                cases hs
                exact h.gotoImport ⟨hrequested, hstate⟩ fun hpass => (hpass rfl).elim
            · cases hs
              exact h.gotoImport ⟨hrequested, fun hstop => hended (.inr (.inr hstop))⟩
                fun hpass => (hpass rfl).elim
    · cases hs
  · cases hs

theorem Inv.listImport (h : Inv s) (hs : listImport s i = some s') : Goes s s' := by
  have hok := h.importer i
  unfold DorisCsvImport.listImport at hs
  split at hs
  · next seen hplace =>
      cases hs
      rw [hplace] at hok
      exact h.gotoImport hok fun hpass => (hpass rfl).elim
  · cases hs

/-- A task that was taken for the import is waiting for it. -/
theorem Inv.waiting (h : Inv s) (hrequested : s.importRequested = true)
    (hseen : seen = .waitingImport ∨ seen = .completed) (hstate : s.state = seen) :
    s.state = .waitingImport := by
  rcases hseen with rfl | rfl
  · exact hstate
  · have hrequested := h.task.requested hrequested
    simp only [System.row, hstate] at hrequested
    cases hrequested

theorem Inv.beginImport (h : Inv s) (hok : Orderly s (.beginImport i)) (hs : beginImport s i = some s') :
    Goes s s' := by
  obtain ⟨hcurrent, hcopies⟩ := hok
  have hplace := h.importer i
  unfold DorisCsvImport.beginImport at hs
  split at hs
  · next seen copies heq =>
      split at hs
      · cases hs
      · cases hs
        rw [heq] at hplace
        obtain ⟨hrequested, hseen⟩ := hplace
        have hstate : s.state = seen := hcurrent seen (by rw [heq]; rfl)
        have hwaiting := h.waiting hrequested hseen hstate
        rw [System.store_eq hstate]
        have hrest : AtRest s := by
          apply h.atRest <;> rw [hwaiting] <;> nofun
        have hflag : ¬ s.stopRequested = true := by
          apply h.unflagged hrequested <;> rw [hwaiting] <;> nofun
        have hbegun : Goes s { s with state := .importing } :=
          h.settleImport hrest hrequested (by rw [hwaiting]; nofun) rfl nofun fun hstop => (hflag hstop).elim
        refine hbegun.trans (hbegun.inv.gotoImport ⟨⟨hrequested, .inl rfl⟩, rfl, ?_, ?_⟩
          fun _ k _ => hrest.importers k)
        · exact List.nodup_range.filter _
        · intro j hj himported
          obtain ⟨hrange, himportable⟩ := List.mem_filter.mp hj
          rw [hcopies seen copies heq j (List.mem_range.mp hrange)] at himportable
          have hfile : s.files j = .imported := himported
          rw [hfile] at himportable
          cases himportable
  · cases hs

theorem Inv.rejectImport (h : Inv s) (hok : Orderly s (.rejectImport i))
    (hs : rejectImport s i = some s') : Goes s s' := by
  have hplace := h.importer i
  have hreject : ∀ seen, (s.importers i).seen? = some seen → s.importRequested = true →
      seen = .waitingImport ∨ seen = .completed → Goes s ((s.store seen .failed).gotoImport i .done) := by
    intro seen hread hrequested hseen
    have hstate := hok seen hread
    have hwaiting := h.waiting hrequested hseen hstate
    rw [System.store_eq hstate]
    have hrest : AtRest s := by
      apply h.atRest <;> rw [hwaiting] <;> nofun
    have hflag : ¬ s.stopRequested = true := by
      apply h.unflagged hrequested <;> rw [hwaiting] <;> nofun
    obtain ⟨hdone, hdonerest⟩ := h.importDone hrequested fun k _ => hrest.importers k
    exact hdone.trans (hdone.inv.settleImport hdonerest hrequested
      (fun hstop => TaskState.noConfusion (hwaiting.symm.trans hstop)) rfl nofun
      fun hstop => (hflag hstop).elim)
  unfold DorisCsvImport.rejectImport at hs
  split at hs
  · next seen heq =>
      cases hs
      rw [heq] at hplace
      exact hreject seen (by rw [heq]; rfl) hplace.1 hplace.2
  · next seen copies heq =>
      split at hs
      · cases hs
        rw [heq] at hplace
        exact hreject seen (by rw [heq]; rfl) hplace.1 hplace.2
      · cases hs
  · cases hs

theorem Inv.lookImport (h : Inv s) (hs : lookImport s i = some s') : Goes s s' := by
  have hok := h.importer i
  have halone := h.importsAlone (i := i)
  unfold DorisCsvImport.lookImport at hs
  split at hs
  · next pass hplace =>
      rw [hplace] at hok halone
      obtain ⟨himporting, hseen, hleft⟩ := hok
      split at hs
      · cases hs
      · next htodo =>
          split at hs
          · next hstop =>
              cases hs
              -- the flag and the state go together, so the stop request is a new one
              have hstopping : s.state = .stopping := by
                unfold System.stopSeen at hstop
                rw [Bool.or_eq_true, decide_eq_true_eq] at hstop
                rcases hstop with hflag | hstate
                · refine (h.task.settling himporting.1 hflag).resolve_right fun hstopped => ?_
                  rcases himporting.2 with hstate | hstate
                  · exact TaskState.noConfusion (hstate.symm.trans hstopped)
                  · exact TaskState.noConfusion (hstate.symm.trans hstopped)
                · exact hstate
              have hnew : s.stopIsNew = true := by
                by_contra hnew
                exact (h.task.fresh himporting.1 (Bool.eq_false_iff.mpr hnew)).2 hstopping
              exact h.gotoImport ⟨himporting, hstopping, ⟨hleft.nodup, hleft.files⟩, hnew⟩
                fun _ => halone nofun
          · next hstop =>
              cases hs
              obtain ⟨-, hstate⟩ := System.stopSeen_false hstop
              exact h.gotoImport ⟨himporting, himporting.2.resolve_right hstate,
                ⟨hleft.nodup, hleft.files⟩, htodo⟩ fun _ => halone nofun
  · cases hs

/-- Behind the import request, when no import worker is at work. -/
theorem Inv.refileImport (h : Inv s) (hrest : AtRest s) (hrequested : s.importRequested = true)
    (hkept : ∀ j, s.files j = .imported → f j = .imported) : Goes s { s with files := f } := by
  refine h.refile hkept (fun k pass hpass => ?_) fun hr => ?_
  · rw [hrest.importers k] at hpass
    cases hpass
  · cases hrequested.symm.trans hr

theorem Inv.leaveImport (h : Inv s) (hok : Orderly s (.leaveImport i)) (hs : leaveImport s i = some s') :
    Goes s s' := by
  have hplace := h.importer i
  have halone := h.importsAlone (i := i)
  unfold DorisCsvImport.leaveImport at hs
  split at hs
  · next pass heq =>
      cases hs
      have hstate : s.state = pass.seen := hok pass.seen (by rw [heq]; rfl)
      rw [heq] at hplace halone
      obtain ⟨himporting, hseen, hleft, -⟩ := hplace
      have hstopped : s.state ≠ .stopped := by
        rw [hstate, hseen]
        nofun
      rw [System.store_eq (s := s.stopFiles _) hstate]
      obtain ⟨hdone, hrest⟩ := h.importDone himporting.1 (halone nofun)
      have hfiles := hdone.inv.refileImport hrest (f := (s.stopFiles fun j =>
        decide (j ∈ pass.todo) && (pass.copies j).isStoppable).files) himporting.1 fun j hj => ?_
      · exact (hdone.trans hfiles).trans (hfiles.inv.settleImport ⟨hrest.parsers, hrest.importers⟩
          himporting.1 hstopped rfl nofun fun _ => rfl)
      · simp only [System.stopFiles]
        split
        · next htodo =>
            rw [Bool.and_eq_true, decide_eq_true_eq] at htodo
            exact (hleft.files j htodo.1 hj).elim
        · exact hj
  · cases hs

theorem ImportPass.current_mem (h : pass.todo ≠ []) : pass.current ∈ pass.todo := by
  unfold ImportPass.current
  cases htodo : pass.todo with
  | nil => exact (h htodo).elim
  | cons j rest => exact List.mem_cons_self

theorem ImportPass.tail_of_nodup (h : pass.todo.Nodup) :
    pass.todo.tail.Nodup ∧ (∀ j ∈ pass.todo.tail, j ∈ pass.todo) ∧
      (pass.todo ≠ [] → pass.current ∉ pass.todo.tail) := by
  unfold ImportPass.current
  cases htodo : pass.todo with
  | nil => exact ⟨List.nodup_nil, fun _ hj => hj, fun hnot => (hnot rfl).elim⟩
  | cons j rest =>
      rw [htodo, List.nodup_cons] at h
      exact ⟨h.2, fun _ hk => List.mem_cons_of_mem _ hk, fun _ => h.1⟩

/-- The import worker commits its file; `j` is not in what it has left. -/
theorem Inv.storeFileImport (h : Inv s) (hrequested : s.importRequested = true) {j : ℕ}
    {seen new : FileState} (hj : s.files j ≠ .imported)
    (hleft : ∀ k pass, (s.importers k).pass? = some pass → j ∈ pass.todo → new ≠ .imported) :
    Goes s { s with files := storedFiles s.files j seen new } := by
  refine h.refile (fun k hk => ?_) (fun l pass hpass k hk => ?_) fun hr => ?_
  · rcases storedFiles_cases s.files j seen new k with hsame | ⟨rfl, -⟩
    · rwa [hsame]
    · exact (hj hk).elim
  · rcases storedFiles_cases s.files j seen new k with hsame | ⟨rfl, hwritten⟩
    · rw [hsame]
      exact (left_of_pass (h.importer l) hpass).files k hk
    · rw [hwritten]
      exact hleft l pass hpass hk
  · cases hrequested.symm.trans hr

theorem Inv.startFileImport (h : Inv s) (hs : startFileImport s i = some s') : Goes s s' := by
  have hok := h.importer i
  have halone := h.importsAlone (i := i)
  unfold DorisCsvImport.startFileImport at hs
  split at hs
  · next pass hplace =>
      cases hs
      rw [hplace] at hok halone
      rw [System.storeFile_eq]
      obtain ⟨himporting, hseen, hleft, htodo⟩ := hok
      have hmoved : Goes s (s.gotoImport i (.loading (pass.writes .importing))) :=
        h.gotoImport ⟨himporting, hseen, ⟨hleft.nodup, hleft.files⟩, htodo⟩ fun _ => halone nofun
      exact hmoved.trans (hmoved.inv.storeFileImport himporting.1
        (hleft.files pass.current (ImportPass.current_mem htodo)) fun _ _ _ _ => nofun)
  · cases hs

/-- The file of a load is not imported. -/
theorem Inv.load (h : Inv s) (hs : load s i = some s') : Goes s s' := by
  have hok := h.importer i
  have halone := h.importsAlone (i := i)
  unfold DorisCsvImport.load at hs
  split at hs
  · next pass hplace =>
      cases hs
      rw [hplace] at hok halone
      obtain ⟨himporting, hseen, hleft, htodo⟩ := hok
      have hmoved : Goes s (s.gotoImport i (.loaded pass)) :=
        h.gotoImport ⟨himporting, hseen, hleft, htodo⟩ fun _ => halone nofun
      have hinv := hmoved.inv
      refine ⟨⟨hinv.task, hinv.parser, hinv.importer, hinv.oneParser, hinv.oneImporter, hinv.stops,
        hinv.requests⟩, fun j hj => ⟨hj, ?_⟩, id, id⟩
      refine Function.update_of_ne ?_ _ _
      rintro rfl
      exact hleft.files pass.current (ImportPass.current_mem htodo) hj
  · cases hs

/-- The current file gets its last state and leaves the list. -/
theorem Inv.fileEnds (h : Inv s) {next : ImportPass} {seen new : FileState}
    (hpass : (s.importers i).pass? = some pass)
    (hok : s.row.Importing ∧ pass.seen = .importing ∧ s.row.Left pass ∧ pass.todo ≠ [])
    (hseen : next.seen = pass.seen) (htodo : next.todo = pass.todo.tail) :
    Goes s ({ s with files := storedFiles s.files pass.current seen new }.gotoImport i (.looping next)) := by
  obtain ⟨himporting, hstate, hleft, hnonempty⟩ := hok
  obtain ⟨hnodup, htail, hcurrent⟩ := ImportPass.tail_of_nodup hleft.nodup
  have halone := h.importsAlone (i := i) (by rw [hpass]; nofun)
  have hmoved : Goes s (s.gotoImport i (.looping next)) := by
    refine h.gotoImport ⟨himporting, hseen.trans hstate, ?_, fun j hj => ?_⟩ fun _ => halone
    · rw [htodo]
      exact hnodup
    · rw [htodo] at hj
      exact hleft.files j (htail j hj)
  refine hmoved.trans (hmoved.inv.storeFileImport himporting.1
    (hleft.files pass.current (ImportPass.current_mem hnonempty)) fun k other hother hmem => ?_)
  simp only [System.gotoImport, Function.update_apply] at hother
  split at hother
  · cases hother
    rw [htodo] at hmem
    exact (hcurrent hnonempty hmem).elim
  · next hk =>
      rw [halone k hk] at hother
      cases hother

theorem Inv.endFileImport (h : Inv s) {succeeded : Bool} (hs : endFileImport s i succeeded = some s') :
    Goes s s' := by
  have hok := h.importer i
  unfold DorisCsvImport.endFileImport at hs
  split at hs
  · next pass hplace =>
      cases hs
      rw [hplace] at hok
      rw [System.storeFile_eq]
      exact h.fileEnds (by rw [hplace]; rfl) hok rfl rfl
  · next pass hplace =>
      split at hs
      · cases hs
      · cases hs
        rw [hplace] at hok
        rw [System.storeFile_eq]
        exact h.fileEnds (by rw [hplace]; rfl) hok rfl rfl
  · cases hs

theorem Inv.finishImport (h : Inv s) (hok : Orderly s (.finishImport i))
    (hs : finishImportTask s i = some s') : Goes s s' := by
  have hplace := h.importer i
  have halone := h.importsAlone (i := i)
  unfold finishImportTask at hs
  split at hs
  · next pass heq =>
      split at hs
      · cases hs
        have hstate : s.state = pass.seen := hok pass.seen (by rw [heq]; rfl)
        rw [heq] at hplace halone
        obtain ⟨himporting, hseen, -⟩ := hplace
        rw [hseen] at hstate
        rw [System.store_eq (hstate.trans hseen.symm)]
        have hflag : ¬ s.stopRequested = true := by
          apply h.unflagged himporting.1 <;> rw [hstate] <;> nofun
        obtain ⟨hdone, hrest⟩ := h.importDone himporting.1 (halone nofun)
        have hfinished : ∀ new : TaskState, new.isRequested = true → new ≠ .stopping →
            Goes s { s.gotoImport i .done with state := new } := fun new hnew hstop =>
          hdone.trans (hdone.inv.settleImport hrest himporting.1
            (fun hstopped => TaskState.noConfusion (hstate.symm.trans hstopped)) hnew hstop
            fun hset => (hflag hset).elim)
        by_cases hfailed : pass.failed = 0
        · rw [if_pos hfailed]
          exact hfinished .imported rfl nofun
        · rw [if_neg hfailed]
          exact hfinished .importFailed rfl nofun
      · cases hs
  · cases hs

/-- What an import worker has read is not a stopped task, and behind it is the request. -/
theorem import_seen (h : r.ImportOk place) (hseen : place.seen? = some seen) :
    r.importRequested = true ∧ seen ≠ .stopped := by
  cases place with
  | idle | done => cases hseen
  | refused seen =>
      cases hseen
      exact h
  | accepted seen | listed seen copies =>
      cases hseen
      exact ⟨h.1, by rcases h.2 with rfl | rfl <;> nofun⟩
  | looping pass | leaving pass | starting pass | loading pass | loaded pass =>
      cases hseen
      exact ⟨h.1.1, by rw [h.2.1]; nofun⟩

/-- Where an import worker may fail the task, no other one is at work. -/
theorem Inv.failsAlone (h : Inv s) (hok : Orderly s (.failImport i)) (hseen : (s.importers i).seen? = some seen) :
    ∀ k, k ≠ i → (s.importers k).pass? = none := by
  obtain ⟨hcurrent, -, hrefused⟩ := hok
  have hplace := h.importer i
  have hwaits : ∀ seen, (s.importers i).seen? = some seen → s.importRequested = true →
      seen = .waitingImport ∨ seen = .completed → ∀ k, k ≠ i → (s.importers k).pass? = none := by
    intro seen hread hrequested hwaiting k _
    have hstate := h.waiting hrequested hwaiting (hcurrent seen hread)
    have hrest : AtRest s := by
      apply h.atRest <;> rw [hstate] <;> nofun
    exact hrest.importers k
  by_cases hpass : (s.importers i).pass? = none
  · cases heq : s.importers i with
    | refused seen => exact fun k _ => hrefused seen heq k
    | accepted seen | listed seen copies =>
        rw [heq] at hplace
        exact hwaits seen (by rw [heq]; rfl) hplace.1 hplace.2
    | idle | done =>
        rw [heq] at hseen
        cases hseen
    | looping pass | leaving pass | starting pass | loading pass | loaded pass =>
        rw [heq] at hpass
        cases hpass
  · exact h.importsAlone hpass

theorem Inv.failImport (h : Inv s) (hok : Orderly s (.failImport i)) (hs : failImport s i = some s') :
    Goes s s' := by
  unfold DorisCsvImport.failImport at hs
  split at hs
  · next seen hseen =>
      cases hs
      have hstate := hok.1 seen hseen
      obtain ⟨hrequested, hnot⟩ := import_seen (h.importer i) hseen
      have hstopped : s.state ≠ .stopped := hstate ▸ hnot
      rw [System.store_eq hstate]
      obtain ⟨hdone, hrest⟩ := h.importDone hrequested (h.failsAlone hok hseen)
      exact hdone.trans (hdone.inv.settleImport hrest hrequested hstopped rfl nofun
        fun hflag => (h.unflagged hrequested hok.2.1 hstopped hflag).elim)
  · cases hs

/-! ### The requests -/

theorem Inv.readStop (h : Inv s) {c : ℕ} (hs : readStop s c = some s') : Goes s s' := by
  unfold DorisCsvImport.readStop at hs
  split at hs
  · next hread =>
      cases hs
      refine ⟨⟨h.task, h.parser, h.importer, h.oneParser, h.oneImporter, fun d seen hd => ?_, h.requests⟩,
        fun _ hj => ⟨hj, rfl⟩, id, id⟩
      simp only [Function.update_apply] at hd
      split at hd
      · cases hd
        exact hread.2
      · exact h.stops d seen hd
  · cases hs

theorem Inv.readRequest (h : Inv s) {c : ℕ} (hs : readRequest s c = some s') : Goes s s' := by
  unfold DorisCsvImport.readRequest at hs
  split at hs
  · next hread =>
      cases hs
      refine ⟨⟨h.task, h.parser, h.importer, h.oneParser, h.oneImporter, h.stops, fun d seen hd => ?_⟩,
        fun _ hj => ⟨hj, rfl⟩, id, id⟩
      simp only [Function.update_apply] at hd
      split at hd
      · cases hd
        exact hread.2
      · exact h.requests d seen hd
  · cases hs

/-- A stop request is written while the task has not ended. -/
theorem Inv.commitStop (h : Inv s) {c : ℕ} (hok : Orderly s (.commitStop c))
    (hs : commitStop s c = some s') : Goes s s' := by
  unfold DorisCsvImport.commitStop at hs
  split at hs
  · next seen hread =>
      cases hs
      have hstate := hok seen hread
      have hopen := h.stops c seen hread
      rw [System.store_eq hstate]
      refine ⟨⟨⟨fun _ => rfl, fun hr => ⟨rfl, (h.task.unrequested hr).2⟩, fun _ => .inl rfl,
        fun _ _ => .inl rfl, fun _ hfresh => Bool.noConfusion hfresh⟩, fun k => ?_, fun k => ?_,
        h.oneParser, h.oneImporter, fun d other hd => ?_, h.requests⟩, fun _ hj => ⟨hj, rfl⟩, id,
        fun hstopped => ?_⟩
      · have hplace := h.parser k
        cases heq : s.parsers k with
        | idle | done => exact trivial
        | accepted seen | listed seen copies => rwa [heq] at hplace
        | looping pass =>
            rw [heq] at hplace
            exact ⟨⟨hplace.1.1, .inr rfl⟩, hplace.2.1, .inr fun _ => rfl⟩
        | leaving pass =>
            rw [heq] at hplace
            exact ⟨⟨hplace.1.1, .inr rfl⟩, hplace.2⟩
        | starting pass | parsing pass =>
            rw [heq] at hplace
            exact ⟨⟨hplace.1.1, .inr rfl⟩, hplace.2.1, fun _ => rfl⟩
      · have hplace := h.importer k
        cases heq : s.importers k with
        | idle | done => exact trivial
        | refused seen | accepted seen | listed seen copies => rwa [heq] at hplace
        | looping pass =>
            rw [heq] at hplace
            exact ⟨⟨hplace.1.1, .inr rfl⟩, hplace.2.1, ⟨hplace.2.2.nodup, hplace.2.2.files⟩⟩
        | leaving pass =>
            rw [heq] at hplace
            obtain ⟨himporting, hseen, hleft, -⟩ := hplace
            exact ⟨⟨himporting.1, .inr rfl⟩, hseen, ⟨hleft.nodup, hleft.files⟩, rfl⟩
        | starting pass | loading pass | loaded pass =>
            rw [heq] at hplace
            obtain ⟨himporting, hseen, hleft, htodo⟩ := hplace
            exact ⟨⟨himporting.1, .inr rfl⟩, hseen, ⟨hleft.nodup, hleft.files⟩, htodo⟩
      · simp only [Function.update_apply] at hd
        split at hd
        · cases hd
        · exact h.stops d other hd
      · rw [← hstate, hstopped] at hopen
        cases hopen
  · cases hs

/-- The flag of an earlier stop request is not set where an import request is written. -/
theorem Inv.commitRequest (h : Inv s) {c : ℕ} (hok : Orderly s (.commitRequest c))
    (hs : commitRequest s c = some s') : Goes s s' := by
  unfold DorisCsvImport.commitRequest at hs
  split at hs
  · next seen hread =>
      cases hs
      have hstate := hok seen hread
      have hseen := h.requests c seen hread
      rw [← hstate] at hseen
      have hrest : AtRest s := by
        rcases hseen with hseen | hseen | hseen <;> apply h.atRest <;> rw [hseen] <;> nofun
      have hflag : ¬ s.stopRequested = true := by
        intro hflag
        have hflagged := h.task.flagged hflag
        simp only [System.row] at hflagged
        rcases hseen with hseen | hseen | hseen <;> rw [hseen] at hflagged <;>
          exact absurd hflagged (by decide)
      have hstopped : s.state ≠ .stopped := by
        rcases hseen with hseen | hseen | hseen <;> rw [hseen] <;> nofun
      rw [System.store_eq hstate]
      have hrequest : Goes s { s with state := .waitingImport, importRequested := true, stopIsNew := false } :=
        h.restate hrest (fun _ => rfl) ⟨fun _ => rfl, fun hr => Bool.noConfusion hr,
          fun hset => (hflag hset).elim, fun _ hset => (hflag hset).elim,
          fun _ _ => ⟨Bool.eq_false_iff.mpr hflag, nofun⟩⟩ fun hstop => (hstopped hstop).elim
      have hinv := hrequest.inv
      refine hrequest.trans ⟨⟨hinv.task, hinv.parser, hinv.importer, hinv.oneParser, hinv.oneImporter,
        hinv.stops, fun d other hd => ?_⟩, fun _ hj => ⟨hj, rfl⟩, id, id⟩
      simp only [Function.update_apply] at hd
      split at hd
      · cases hd
      · exact h.requests d other hd
  · cases hs

/-! ### Runs -/

theorem Inv.goes (h : Inv s) {a : Action} (hok : Orderly s a) (hs : step s a = some s') : Goes s s' := by
  cases a with
  | startParse i => exact h.startParse hs
  | listParse i => exact h.listParse hs
  | beginParse i => exact h.beginParse hok hs
  | lookParse i => exact h.lookParse hs
  | leaveParse i => exact h.leaveParse hok hs
  | startFileParse i => exact h.startFileParse hs
  | endFileParse i succeeded => exact h.endFileParse hs
  | finishParse i => exact h.finishParse hok hs
  | failParse i => exact h.failParse hok hs
  | loseParse i =>
      cases hs
      exact h.gotoParse trivial fun hpass => (hpass rfl).elim
  | startImport i => exact h.startImport hs
  | listImport i => exact h.listImport hs
  | beginImport i => exact h.beginImport hok hs
  | rejectImport i => exact h.rejectImport hok hs
  | lookImport i => exact h.lookImport hs
  | leaveImport i => exact h.leaveImport hok hs
  | startFileImport i => exact h.startFileImport hs
  | load i => exact h.load hs
  | endFileImport i succeeded => exact h.endFileImport hs
  | finishImport i => exact h.finishImport hok hs
  | failImport i => exact h.failImport hok hs
  | loseImport i =>
      cases hs
      exact h.gotoImport trivial fun hpass => (hpass rfl).elim
  | readStop c => exact h.readStop hs
  | commitStop c => exact h.commitStop hok hs
  | readRequest c => exact h.readRequest hs
  | commitRequest c => exact h.commitRequest hok hs

theorem Inv.run (h : Inv s) {as : List Action} (hrun : Run step Orderly s as s') : Goes s s' := by
  induction hrun with
  | refl => exact Goes.refl h
  | step hok hs _ ih =>
      have hgoes := h.goes hok hs
      exact hgoes.trans (ih hgoes.inv)

/-- No import worker is stopped, or about to be, unless a stop request came behind the last import
request. -/
def Unhindered (s : System) : Prop :=
  s.importRequested = true → s.stopIsNew = false →
    s.stopSeen = false ∧ ∀ i pass, s.importers i ≠ .leaving pass

/-- What holds from a state `s` to a later one. -/
structure Behaves (s s' : System) : Prop where
  imported : ∀ j, s.files j = .imported → s'.files j = .imported ∧ s'.loads j = s.loads j
  parsed : s.state = .waitingImport ∨ s.state = .importing ∨ s.state = .imported →
    s'.state ≠ .parsing ∧ s'.state ≠ .completed
  stopped : s.state = .stopped → s'.state = .stopped
  unhindered : Unhindered s'

theorem Inv.unhindered (h : Inv s) : Unhindered s := by
  intro hrequested hold
  obtain ⟨hflag, hstate⟩ : s.stopRequested = false ∧ s.state ≠ .stopping := h.task.fresh hrequested hold
  refine ⟨by simp [System.stopSeen, hflag, hstate], fun i pass hplace => ?_⟩
  have hok := h.importer i
  rw [hplace] at hok
  cases hold.symm.trans hok.2.2.2

/-- A task whose first parse worker has read it and its one file. -/
def listedTask : System :=
  (({ fileCount := 1 } : System).gotoParse 0 (.accepted .queued)).gotoParse 0 (.listed .queued fun _ => .waiting)

/-- A stop request in the last file of the parsing is not seen there. -/
def stoppedLate : List Action :=
  [.startParse 0, .listParse 0, .beginParse 0, .lookParse 0, .startFileParse 0, .readStop 0, .commitStop 0,
    .endFileParse 0 true, .finishParse 0, .readRequest 0, .commitRequest 0]

end RecoveryService.DorisCsvImport
