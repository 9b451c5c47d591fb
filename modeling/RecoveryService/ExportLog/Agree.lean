import RecoveryService.ExportLog.Gates

/-! # What an export log decides

Of the logs that can be used only one is, and only if no other one belongs to the same files; a log with gaps
needs their acceptance and leaves a warning; and the remote tool accepts what the gates before it have
accepted, as far as its arguments say the same. -/

namespace RecoveryService.ExportLog

open AutoImport (ProbeResult DumpType)

section Agree

variable {lower : Text → Text} {fnmatchcase : Text → Text → Bool} {scan : Text → Scan}
  {readText : DumpArtifact → Option Text}

/-- The log is small enough, it could be read as `text`, and its text can be used. -/
def Eligible (scan : Text → Scan) (readText : DumpArtifact → Option Text) (log : DumpArtifact) (text : Text) :
    Prop :=
  log.sizeBytes ≤ maxExportLogBytes ∧ readText log = some text ∧ (scan text).manifest.usable

/-! ### The selected log -/

variable {files : List Text} {log : MatchedExportLog}

theorem matchedLog_eq_some {artifact : DumpArtifact}
    (h : matchedLog lower fnmatchcase scan readText files artifact = some log) :
    log.artifact = artifact ∧ log.binding.state = .exact ∧ ∃ text, Eligible scan readText artifact text ∧
      log.manifest = (scan text).manifest ∧ Belongs lower fnmatchcase (scan text).manifest files := by
  unfold matchedLog at h
  split at h
  · cases h
  · rename_i hsize
    split at h
    · cases h
    · rename_i text htext
      simp only at h
      split at h
      · rename_i hexact
        obtain ⟨husable, hbelongs⟩ := (bindExportLog_exact_iff _ _ _).mp hexact
        rw [← Option.some.inj h]
        exact ⟨rfl, hexact, text, ⟨Nat.le_of_not_lt hsize, htext, husable⟩, rfl, hbelongs⟩
      · cases h

theorem matchedLog_of_belongs {artifact : DumpArtifact} {text : Text} (h : Eligible scan readText artifact text)
    (hbelongs : Belongs lower fnmatchcase (scan text).manifest files) :
    ∃ log, matchedLog lower fnmatchcase scan readText files artifact = some log ∧ log.artifact = artifact := by
  obtain ⟨hsize, htext, husable⟩ := h
  refine ⟨⟨artifact, (scan text).manifest,
    bindExportLog lower fnmatchcase (scan text).manifest artifact.filename files⟩, ?_, rfl⟩
  unfold matchedLog
  rw [if_neg (Nat.not_lt.mpr hsize), htext]
  exact if_pos ((bindExportLog_exact_iff _ _ _).mpr ⟨husable, hbelongs⟩)

/-- The selected log is the only one of its kind. -/
theorem selectExportLog_eq_some {logs : List DumpArtifact}
    (h : selectExportLog lower fnmatchcase scan readText logs files = some log) :
    log.artifact ∈ logs ∧ log.binding.state = .exact ∧
      (∃ text, Eligible scan readText log.artifact text ∧ log.manifest = (scan text).manifest ∧
        Belongs lower fnmatchcase (scan text).manifest files) ∧
      ∀ other ∈ logs, ∀ text, Eligible scan readText other text →
        Belongs lower fnmatchcase (scan text).manifest files → other = log.artifact := by
  unfold selectExportLog at h
  split at h
  · rename_i found hfound
    rw [Option.some.inj h] at hfound
    have hmem (l : MatchedExportLog) : l = log ↔ ∃ a ∈ logs,
        matchedLog lower fnmatchcase scan readText files a = some l := by
      rw [← List.mem_singleton, ← hfound, List.mem_filterMap]
    obtain ⟨artifact, hartifact, hmatched⟩ := (hmem log).mp rfl
    obtain ⟨rfl, hexact, hlog⟩ := matchedLog_eq_some hmatched
    refine ⟨hartifact, hexact, hlog, fun other hother text heligible hbelongs => ?_⟩
    obtain ⟨l, hl, rfl⟩ := matchedLog_of_belongs heligible hbelongs
    rw [(hmem l).mpr ⟨_, hother, hl⟩]
  · cases h

/-! ### The state of the task -/

theorem resultState_gaps (hgaps : log.manifest.hasSourceGaps) (r : ToolResult) :
    resultState (some log) r ≠ .succeeded := by
  unfold resultState
  simp only
  by_cases hsuccess : toolSuccess r = true
  · rw [if_pos ⟨hsuccess, hgaps⟩]
    decide
  · rw [if_neg fun h => hsuccess h.1]
    split
    · rename_i hstate
      rw [hstate.resolve_left hsuccess]
      decide
    · decide

variable {t : Task} {tool : Option ToolArguments → ToolResult}

theorem runImport_started {log : Option MatchedExportLog} {a : Option ToolArguments}
    (h : (t.runImport lower tool log).started = some a) :
    a = log.map (fun log => toolArguments (t.input log)) ∧ t.preflightPasses lower log = true := by
  unfold Task.runImport at h
  split at h
  · cases h
  · split at h
    · cases h
    · rename_i hpasses
      exact ⟨(Option.some.inj h).symm, Bool.not_eq_false _ ▸ hpasses⟩

theorem runImport_gaps (hgaps : log.manifest.hasSourceGaps) :
    (t.runImport lower tool (some log)).state ≠ .succeeded := by
  unfold Task.runImport
  split
  · decide
  · split
    · decide
    · exact resultState_gaps hgaps _

/-- A tool that was started with a log was started with the selected one, and the pipeline has not refused
it. -/
theorem recover_started {a : ToolArguments}
    (h : (t.recover lower fnmatchcase scan readText tool).started = some (some a)) :
    ∃ log, selectExportLog lower fnmatchcase scan readText t.logs t.dumpNames = some log ∧
      a = toolArguments (t.input log) ∧ ¬ t.refuses log := by
  change (t.gated lower tool _).started = some (some a) at h
  cases hlog : selectExportLog lower fnmatchcase scan readText t.logs t.dumpNames with
  | none =>
      rw [hlog] at h
      cases (runImport_started h).1
  | some log =>
      rw [hlog, Task.gated] at h
      by_cases hrefuses : t.refuses log
      · rw [if_pos hrefuses] at h
        cases h
      · rw [if_neg hrefuses] at h
        exact ⟨log, rfl, Option.some.inj (runImport_started h).1, hrefuses⟩

theorem recover_gaps (hlog : selectExportLog lower fnmatchcase scan readText t.logs t.dumpNames = some log)
    (hgaps : log.manifest.hasSourceGaps) : (t.recover lower fnmatchcase scan readText tool).state ≠ .succeeded := by
  unfold Task.recover Task.gated
  simp only [hlog]
  split
  · exact fun h => by cases h
  · split
    · exact fun h => by cases h
    · exact runImport_gaps hgaps

/-! ### The arguments -/

theorem splitValues_intercalate {names : List Text} (hne : names ≠ []) (hnamed : ∀ name ∈ names, name ≠ [])
    (hcomma : ∀ name ∈ names, ',' ∉ name) : splitValues ([','].intercalate names) = names := by
  unfold splitValues
  rw [List.splitOn_intercalate _ hcomma hne, List.filter_eq_self]
  exact fun name h => decide_eq_true (hnamed name h)

theorem isValue_of_head {dashed : Text → Bool} {value : Text} (hne : value ≠ []) (hdash : value.head? ≠ some '-') :
    isValue dashed value = true := by
  unfold isValue
  split
  · exact (hne rfl).elim
  · exact (hdash rfl).elim
  · rfl

theorem isValue_intercalate {dashed : Text → Bool} {names : List Text} (hne : names ≠ [])
    (hnamed : ∀ name ∈ names, name ≠ []) (hdash : ∀ name ∈ names, name.head? ≠ some '-') :
    isValue dashed ([','].intercalate names) = true := by
  cases names with
  | nil => exact (hne rfl).elim
  | cons name rest =>
      rw [List.forall_mem_cons] at hnamed hdash
      cases name with
      | nil => exact (hnamed.1 rfl).elim
      | cons c cs =>
          cases rest with
          | nil =>
              rw [List.intercalate_singleton]
              exact isValue_of_head (List.cons_ne_nil _ _) hdash.1
          | cons other rest =>
              rw [List.intercalate_cons_cons, List.append_assoc, List.cons_append]
              exact isValue_of_head (List.cons_ne_nil _ _) hdash.1

/-! ### The three gates -/

/-- The arguments of the tool say what the log says: no file name has a comma or begins with a dash, and there
is a schema. -/
structure Plain (log : MatchedExportLog) : Prop where
  filename : log.artifact.filename.head? ≠ some '-'
  schemas : log.manifest.schemas ≠ []
  dumpFiles : ∀ name ∈ log.manifest.dumpFiles, ',' ∉ name ∧ name.head? ≠ some '-'

/-- What the binding check has accepted. -/
theorem checkExportLogBinding_ok {e : ExportLogInput} {execute : Bool}
    (h : checkExportLogBinding lower e files execute = .ok ()) :
    e.manifest.sourceStatus.completed ∧ e.manifest.dumpFiles ≠ [] ∧
      lowerSet lower files = lowerSet lower e.manifest.dumpFiles := by
  unfold checkExportLogBinding at h
  split at h
  · cases h
  · split at h
    · cases h
    · split at h
      · cases h
      · rename_i hcompleted
        split at h
        · cases h
        · rename_i hsame
          rw [not_or, not_not] at hsame
          exact ⟨not_not.mp hcompleted, fun hnil => hsame.1 (by rw [hnil]; rfl), hsame.2⟩

/-- The tool's parser and `validate_export_log_expectations` accept what the binding check has accepted. -/
theorem validate_of_check {s : Scan} (hmanifest : log.manifest = s.manifest) (hplain : Plain log)
    (hcheck : checkExportLogBinding lower (t.input log) t.dumpNames t.executeImport = .ok ())
    {sourceFiles : List Text} (hfiles : ∀ name, name ∈ sourceFiles ↔ name ∈ t.dumpNames) {probe : ProbeResult}
    (hprobe : ∀ schema ∈ log.manifest.schemas, Text.upper schema ∈ probe.schemas.map Text.upper)
    (htype : log.manifest.exportMode = .tables → probe.dumpType = .datapump) (dashed : Text → Bool) :
    (toolArguments (t.input log)).parses dashed ∧
      validateExportLogExpectations lower (toolArguments (t.input log)) sourceFiles probe = .ok () := by
  obtain ⟨hcompleted, hdumps, hsame⟩ := checkExportLogBinding_ok hcheck
  have hnamed : ∀ name ∈ log.manifest.dumpFiles, name ≠ [] := fun name h =>
    named_of_mem_manifest (hmanifest ▸ h)
  have hsafe (schema : Text) (h : schema ∈ log.manifest.schemas) :
      schema ≠ [] ∧ ',' ∉ schema ∧ schema.head? ≠ some '-' :=
    safeIdentifier_value (safe_of_mem_manifest (hmanifest ▸ h))
  constructor
  · intro value hvalue
    simp only [List.mem_cons, List.not_mem_nil, or_false] at hvalue
    rcases hvalue with rfl | rfl | rfl
    · exact isValue_of_head log.artifact.named hplain.filename
    · exact isValue_intercalate hplain.schemas (fun schema h => (hsafe schema h).1) fun schema h =>
        (hsafe schema h).2.2
    · exact isValue_intercalate hdumps hnamed fun name h => (hplain.dumpFiles name h).2
  · have hset : lowerSet lower log.manifest.dumpFiles = lowerSet lower sourceFiles := by
      refine hsame.symm.trans (Finset.ext fun name => ?_)
      simp only [lowerSet, List.mem_toFinset, List.mem_map, hfiles]
    have hschemas : ¬ ∃ schema ∈ log.manifest.schemas, Text.upper schema ∉ probe.schemas.map Text.upper := by
      rintro ⟨schema, hschema, hmissing⟩
      exact hmissing (hprobe schema hschema)
    unfold validateExportLogExpectations exportLogSummary
    by_cases hname : Text.stripChars Text.isSpace (toolArguments (t.input log)).exportLogName = []
    · rw [if_pos hname]
    · rw [if_neg hname]
      have hsplit : splitValues (toolArguments (t.input log)).exportLogDumpFiles = log.manifest.dumpFiles :=
        splitValues_intercalate hdumps hnamed fun name h => (hplain.dumpFiles name h).1
      have hsplitSchemas : splitValues (toolArguments (t.input log)).exportLogSchemas = log.manifest.schemas :=
        splitValues_intercalate hplain.schemas (fun schema h => (hsafe schema h).1) fun schema h =>
          (hsafe schema h).2.1
      have hstatus : ¬ ¬ (toolArguments (t.input log)).exportLogStatus.completed := not_not.mpr hcompleted
      have hmode : ¬ ((toolArguments (t.input log)).exportLogMode = .tables ∧ probe.dumpType ≠ .datapump) :=
        fun h => h.2 (htype h.1)
      simp only [hsplit, hsplitSchemas]
      rw [if_neg hstatus, if_neg hmode, if_neg fun h => h.2 hset, if_neg hschemas]

/-- An import uses a log only if it is the only one that can be used and belongs to the dump files; its gaps
need the acceptance and keep the task from ending as plain `succeeded`; and the tool accepts what the gates
before it have accepted. -/
theorem export_log_gates (t : Task) (tool : Option ToolArguments → ToolResult) (dashed : Text → Bool) :
    (∀ a, (t.recover lower fnmatchcase scan readText tool).started = some (some a) →
      ∃ log ∈ t.logs, ∃ text, Eligible scan readText log text ∧
        a = toolArguments ⟨log.filename, (scan text).manifest, .exact, t.acceptExportLogGaps⟩ ∧
        Belongs lower fnmatchcase (scan text).manifest t.dumpNames ∧
        (∀ other ∈ t.logs, ∀ text', Eligible scan readText other text' →
          Belongs lower fnmatchcase (scan text').manifest t.dumpNames → other = log) ∧
        ((scan text).manifest.hasSourceGaps →
          (t.executeImport = true → t.acceptExportLogGaps = true) ∧
          (t.recover lower fnmatchcase scan readText tool).state ≠ .succeeded)) ∧
    (∀ log, selectExportLog lower fnmatchcase scan readText t.logs t.dumpNames = some log → ¬ t.refuses log →
      checkExportLogBinding lower (t.input log) t.dumpNames t.executeImport = .ok () → Plain log →
      ∀ (sourceFiles : List Text) (probe : ProbeResult), (∀ name, name ∈ sourceFiles ↔ name ∈ t.dumpNames) →
        (∀ schema ∈ log.manifest.schemas, Text.upper schema ∈ probe.schemas.map Text.upper) →
        (log.manifest.exportMode = .tables → probe.dumpType = .datapump) →
        (toolArguments (t.input log)).parses dashed ∧
          validateExportLogExpectations lower (toolArguments (t.input log)) sourceFiles probe = .ok ()) := by
  constructor
  · intro a hstarted
    obtain ⟨log, hlog, rfl, haccepted⟩ := recover_started hstarted
    obtain ⟨hmem, hexact, ⟨text, heligible, hmanifest, hbelongs⟩, honly⟩ := selectExportLog_eq_some hlog
    refine ⟨log.artifact, hmem, text, heligible, ?_, hbelongs, honly, fun hgaps => ⟨fun hexecute => ?_, ?_⟩⟩
    · rw [Task.input, hexact, hmanifest]
    · by_contra hnot
      exact haccepted ⟨hmanifest ▸ hgaps, hexecute, Bool.eq_false_iff.mpr hnot⟩
    · exact recover_gaps hlog (hmanifest ▸ hgaps)
  · intro log hlog _ hcheck hplain sourceFiles probe hfiles hprobe htype
    obtain ⟨-, -, ⟨text, -, hmanifest, -⟩, -⟩ := selectExportLog_eq_some hlog
    exact validate_of_check hmanifest hplain hcheck hfiles hprobe htype dashed

end Agree

/-! ### A log that is not the only one -/

section Twins

/-- The log of a finished export into `d.dmp`, and a copy of it that breaks off before the last line. -/
def finished : Scan where
  header := true
  dataPump := true
  parameters := [("dumpfile".toList, ['d', '.', 'd', 'm', 'p'])]
  dumpPaths := [['/', 'd', '.', 'd', 'm', 'p']]
  named := by decide
  exportedTables := [['S', '.', 'T']]
  missing := []
  footer := some .clean

def brokenOff : Scan := { finished with footer := none }

def twinTask : Task where
  logs := [⟨['a'], 9, by decide⟩, ⟨['b'], 9, by decide⟩]
  dumpFiles := [⟨['d', '.', 'd', 'm', 'p'], 9, by decide⟩]
  executeImport := true
  acceptExportLogGaps := false
  prepared := .ok ()
  skipBinding := false
  preflight := true
  stopRequested := false

def twinScan (text : Text) : Scan := if text = ['a'] then finished else brokenOff

theorem twin_belongs : (twinTask.recover (·.map Char.toLower) (fun name pattern => name == pattern) twinScan
      (fun log => some log.filename) fun _ => ⟨0, some .imported⟩).started =
        some (some ⟨['a'], .cleanSuccess, .unknown, ['S'], ['d', '.', 'd', 'm', 'p'], 0⟩) ∧
    ∃ other ∈ twinTask.logs, other.filename ≠ ['a'] ∧
      Belongs (·.map Char.toLower) (fun name pattern => name == pattern) (twinScan other.filename).manifest
        twinTask.dumpNames := by
  refine ⟨by decide +kernel, ⟨['b'], 9, by decide⟩, by decide, by decide, by decide +kernel⟩

end Twins

end RecoveryService.ExportLog
