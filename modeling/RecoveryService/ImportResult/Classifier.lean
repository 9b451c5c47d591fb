import RecoveryService.Lib.Lines
import RecoveryService.Lib.Text

/-! # The verdict on the output of an import

`classify_import_result` of `engine/import_result/classifier.py`.  An Oracle output is cut into the reports of
objects that failed, each from its `ORA-39083` line up to the next such line or a progress line, and the lines
outside of them.  A failed import is to stay failed whatever lines are added to its output; it does exactly where
an error stands in a line that no report can take up. -/

namespace RecoveryService.ImportResult

open Lines Text

abbrev Line := List Char

/-! ### The markers -/

def ignorableObjectTypes : List Line :=
  ["FUNCTION", "PROCEDURE", "PACKAGE", "PACKAGE_BODY", "TRIGGER", "VIEW", "SYNONYM", "GRANT", "OBJECT_GRANT",
    "SYSTEM_GRANT", "ROLE_GRANT", "STATISTICS", "INDEX_STATISTICS", "JOB", "SCHEDULER_JOB", "DB_LINK",
    "MATERIALIZED_VIEW"].map String.toList

def fatalObjectTypes : List Line :=
  ["TABLE", "TABLE_DATA", "INDEX", "CONSTRAINT", "REF_CONSTRAINT", "LOB", "PARTITION", "TABLESPACE",
    "USER"].map String.toList

def oracleFatalMarkers : List Line :=
  ["ORA-01652", "ORA-01653", "ORA-01654", "ORA-01119", "ORA-27038", "ORA-01950", "ORA-00955", "ORA-00959",
    "ORA-12899", "ORA-01400", "ORA-02291", "ORA-02292", "ORA-00001", "IMP-00019"].map String.toList

def oracleErrorMarkers : List Line := ["ORA-", "IMP-", "UDI-"].map String.toList

/-- One of the markers stands in the line. -/
def hasMarker (markers : List Line) (line : Line) : Bool := markers.any fun marker => marker <:+: line

/-! ### The lines of an Oracle output -/

/-- A character as the patterns compare it, without case. -/
def fold (c : Char) : Char :=
  match c.toNat with
  | 0x130 | 0x131 => 'i'
  | 0x17F => 's'
  | 0x212A => 'k'
  | _ => c.toLower

/-- What is behind the words, which the text begins with. -/
def behind (words : String) (text : Line) : Option Line :=
  if (text.take words.length).map fold = words.toList then some (text.drop words.length) else none

/-- The characters of `[A-Z_]`. -/
def isTypeChar (c : Char) : Bool := fold c = '_' || ('a' ≤ fold c && fold c ≤ 'z')

section

-- The characters of `\\w`.
variable (isWord : Char → Bool)

/-- `Object type\s+([A-Z_]+)\b` at the beginning of the text. -/
def typeAt (text : Line) : Option Line :=
  match behind "object type" text with
  | none => none
  | some rest =>
      let name := rest.dropWhile isSpace
      let word := name.takeWhile isTypeChar
      if rest.head?.any isSpace ∧ word ≠ [] ∧ ¬(name.dropWhile isTypeChar).head?.any isWord then some word
      else none

/-- `.*` takes as much as it can. -/
def lastType : Line → Option Line
  | [] => none
  | c :: text => (lastType text).or (typeAt isWord (c :: text))

def searchType : Line → Option Line
  | [] => none
  | c :: text =>
      (match behind "ora-39083:" (c :: text) with
        | some rest => lastType isWord rest
        | none => none).or (searchType text)

/-- The type of the object whose failure the line reports. -/
def objectType (line : Line) : Option Line := (searchType isWord line).map upper

/-- `^\s*(Processing object type|Job .* completed)`. -/
def isProgress (line : Line) : Bool :=
  let text := line.dropWhile isSpace
  (behind "processing object type" text).isSome ||
    (behind "job " text).any fun rest => " completed".toList <:+: rest.map fold

/-! ### The classification -/

structure ImportResultClassification where
  success : Bool
  warningOnly : Bool := false
  fatalErrors : List Line := []
  warningErrors : List Line := []
  unknownErrors : List Line := []

def ImportResultClassification.state (c : ImportResultClassification) : String :=
  if c.success ∧ c.warningOnly then "succeeded_with_warnings" else if c.success then "succeeded" else "failed"

def finish (fatal warning unknown : List Line) : ImportResultClassification :=
  if fatal ≠ [] ∨ unknown ≠ [] then
    { success := false, fatalErrors := fatal, warningErrors := warning, unknownErrors := unknown }
  else if warning ≠ [] then { success := true, warningOnly := true, warningErrors := warning }
  else { success := false, unknownErrors := ["import failed without parsable errors".toList] }

def isErrorLine (line : Line) : Bool := hasMarker ("ERROR ".toList :: oracleErrorMarkers) (upper line)

def errorLines (lines : List Line) : List Line := (lines.filter isErrorLine).map (stripChars isSpace)

def blockText (block : List Line) : Line := stripChars isSpace (['\n'].intercalate block)

/-- The report that is open at its end. -/
def closing : Option (Line × List Line) → List (Line × Line)
  | none => []
  | some (type, block) => [(type, blockText block)]

/-- The reports with their object types, and the lines outside of them; `opened` is the report that goes on. -/
def oracleObjectBlocks (opened : Option (Line × List Line)) : List Line → List (Line × Line) × List Line
  | [] => (closing opened, [])
  | line :: lines =>
      match objectType isWord line with
      | some type =>
          let scanned := oracleObjectBlocks (some (type, [line])) lines
          (closing opened ++ scanned.1, scanned.2)
      | none =>
          match opened.filter fun _ => !isProgress line with
          | some (type, block) => oracleObjectBlocks (some (type, block ++ [line])) lines
          | none =>
              let scanned := oracleObjectBlocks none lines
              (closing opened ++ scanned.1, line :: scanned.2)

def isFatalLine (line : Line) : Bool := hasMarker oracleFatalMarkers (upper line)

def isUnknownLine (line : Line) : Bool := !isFatalLine line && hasMarker oracleErrorMarkers (upper line)

/-- The errors of an Oracle output: the fatal, the ignorable and the unclassified ones. -/
def oracleErrors (output : Line) : List Line × List Line × List Line :=
  let (blocks, outside) := oracleObjectBlocks isWord none (splitLines output)
  let errors := errorLines outside
  ((blocks.filter fun b => b.1 ∈ fatalObjectTypes).map Prod.snd ++ errors.filter isFatalLine,
    (blocks.filter fun b => b.1 ∉ fatalObjectTypes ∧ b.1 ∈ ignorableObjectTypes).map Prod.snd,
    (blocks.filter fun b => b.1 ∉ fatalObjectTypes ∧ b.1 ∉ ignorableObjectTypes).map Prod.snd ++
      errors.filter isUnknownLine)

def classifyOracle (output : Line) : ImportResultClassification :=
  let (fatal, warning, unknown) := oracleErrors isWord output
  finish fatal warning unknown

/-- `classify_import_result` for the engine `oracle`. -/
def classifyImportResult (returncode : ℤ) (output : Line) : ImportResultClassification :=
  if returncode = 0 then { success := true } else classifyOracle isWord output

end

/-! ### Reports and the lines outside of them -/

variable {isWord : Char → Bool}
variable {line : Line}
variable {type : Line}

theorem blocks_start (htype : objectType isWord line = some type) (opened : Option (Line × List Line))
    (lines : List Line) : oracleObjectBlocks isWord opened (line :: lines) =
      (closing opened ++ (oracleObjectBlocks isWord (some (type, [line])) lines).1,
        (oracleObjectBlocks isWord (some (type, [line])) lines).2) := by
  rw [oracleObjectBlocks.eq_2, htype]

theorem blocks_progress (htype : objectType isWord line = none) (hprogress : isProgress line = true)
    (opened : Option (Line × List Line)) (lines : List Line) :
    oracleObjectBlocks isWord opened (line :: lines) =
      (closing opened ++ (oracleObjectBlocks isWord none lines).1,
        line :: (oracleObjectBlocks isWord none lines).2) := by
  have hfilter : opened.filter (fun _ => !isProgress line) = none := by
    rw [hprogress]
    exact Option.filter_eq_none_iff.mpr fun _ _ => Bool.false_ne_true
  rw [oracleObjectBlocks.eq_2, htype, hfilter]

theorem blocks_none (htype : objectType isWord line = none) (lines : List Line) :
    oracleObjectBlocks isWord none (line :: lines) =
      ((oracleObjectBlocks isWord none lines).1, line :: (oracleObjectBlocks isWord none lines).2) := by
  rw [oracleObjectBlocks.eq_2, htype]
  rfl

theorem blocks_inside (htype : objectType isWord line = none) (hprogress : isProgress line = false)
    (report : Line × List Line) (lines : List Line) : oracleObjectBlocks isWord (some report) (line :: lines) =
      oracleObjectBlocks isWord (some (report.1, report.2 ++ [line])) lines := by
  have hfilter : (some report).filter (fun _ => !isProgress line) = some report := by
    rw [hprogress]
    exact Option.filter_some_pos rfl
  rw [oracleObjectBlocks.eq_2, htype, hfilter]

theorem mem_blocks_of_opened {block : List Line} (lines : List Line) :
    ∃ text, (type, text) ∈ (oracleObjectBlocks isWord (some (type, block)) lines).1 := by
  induction lines generalizing block with
  | nil => exact ⟨_, List.mem_singleton_self _⟩
  | cons line lines ih =>
      cases htype : objectType isWord line with
      | some other =>
          rw [blocks_start htype]
          exact ⟨_, List.mem_append_left _ (List.mem_singleton_self _)⟩
      | none =>
          cases hprogress : isProgress line with
          | true =>
              rw [blocks_progress htype hprogress]
              exact ⟨_, List.mem_append_left _ (List.mem_singleton_self _)⟩
          | false =>
              rw [blocks_inside htype hprogress]
              exact ih

/-- The scan of the rest of the lines, with a report that may be open. -/
theorem blocks_cons (line : Line) (lines : List Line) (opened : Option (Line × List Line)) :
    ∃ next, (∃ before, (oracleObjectBlocks isWord opened (line :: lines)).1 =
        before ++ (oracleObjectBlocks isWord next lines).1) ∧
      ∃ before, (oracleObjectBlocks isWord opened (line :: lines)).2 =
        before ++ (oracleObjectBlocks isWord next lines).2 := by
  cases htype : objectType isWord line with
  | some type =>
      rw [blocks_start htype]
      exact ⟨_, ⟨_, rfl⟩, [], rfl⟩
  | none =>
      cases hprogress : isProgress line with
      | true =>
          rw [blocks_progress htype hprogress]
          exact ⟨_, ⟨_, rfl⟩, [line], rfl⟩
      | false =>
          cases opened with
          | none =>
              rw [blocks_none htype]
              exact ⟨_, ⟨[], rfl⟩, [line], rfl⟩
          | some report =>
              rw [blocks_inside htype hprogress]
              exact ⟨_, ⟨[], rfl⟩, [], rfl⟩

/-- A line that reports a failure begins a report, whatever is before it. -/
theorem mem_blocks {lines : List Line} (hline : line ∈ lines) (htype : objectType isWord line = some type)
    (opened : Option (Line × List Line)) :
    ∃ text, (type, text) ∈ (oracleObjectBlocks isWord opened lines).1 := by
  induction lines generalizing opened with
  | nil => exact absurd hline List.not_mem_nil
  | cons other lines ih =>
      rcases List.mem_cons.mp hline with rfl | hline
      · rw [blocks_start htype]
        obtain ⟨text, htext⟩ := @mem_blocks_of_opened isWord _ [line] lines
        exact ⟨text, List.mem_append_right _ htext⟩
      · obtain ⟨next, ⟨before, heq⟩, -⟩ := @blocks_cons isWord other lines opened
        obtain ⟨text, htext⟩ := ih hline next
        exact ⟨text, heq ▸ List.mem_append_right before htext⟩

/-- No report takes up a progress line. -/
theorem mem_outside {lines : List Line} (hline : line ∈ lines) (htype : objectType isWord line = none)
    (hprogress : isProgress line = true) (opened : Option (Line × List Line)) :
    line ∈ (oracleObjectBlocks isWord opened lines).2 := by
  induction lines generalizing opened with
  | nil => exact absurd hline List.not_mem_nil
  | cons other lines ih =>
      rcases List.mem_cons.mp hline with rfl | hline
      · rw [blocks_progress htype hprogress]
        exact List.mem_cons_self
      · obtain ⟨next, -, before, heq⟩ := @blocks_cons isWord other lines opened
        exact heq ▸ List.mem_append_right before (ih hline next)

/-! ### Reports of views everywhere -/

def viewLine : Line := "ORA-39083: Object type VIEW".toList

theorem objectType_viewLine : objectType isWord viewLine = some "VIEW".toList := rfl

/-- A report of a view before each line. -/
def withViews (lines : List Line) : List Line := lines.flatMap fun line => [viewLine, line]

theorem sublist_withViews (lines : List Line) : lines.Sublist (withViews lines) := by
  induction lines with
  | nil => exact List.Sublist.slnil
  | cons line lines ih => exact (ih.cons_cons line).cons viewLine

/-- The reports are those of the views and of the lines that begin one; only a progress line is outside. -/
theorem withViews_blocks (lines : List Line) (opened : Option (Line × List Line)) :
    (∀ b ∈ (oracleObjectBlocks isWord opened (withViews lines)).1,
      (∃ block, opened = some (b.1, block)) ∨ b.1 = "VIEW".toList ∨
        ∃ line ∈ lines, objectType isWord line = some b.1) ∧
    ∀ line ∈ (oracleObjectBlocks isWord opened (withViews lines)).2,
      line ∈ lines ∧ objectType isWord line = none ∧ isProgress line = true := by
  have hclosing : ∀ report, ∀ b ∈ closing report, ∃ block, report = some (b.1, block) := by
    rintro (_ | ⟨type, block⟩) b hb
    · exact absurd hb List.not_mem_nil
    · exact ⟨block, by rw [List.mem_singleton.mp hb]⟩
  induction lines generalizing opened with
  | nil => exact ⟨fun b hb => .inl (hclosing opened b hb), fun _ h => absurd h List.not_mem_nil⟩
  | cons line lines ih =>
      have htail : ∀ {type : Line} {block : List Line},
          type = "VIEW".toList ∨ objectType isWord line = some type →
          ∀ b ∈ (oracleObjectBlocks isWord (some (type, block)) (withViews lines)).1,
          b.1 = "VIEW".toList ∨ ∃ other ∈ line :: lines, objectType isWord other = some b.1 := by
        intro type block htype b hb
        rcases (ih _).1 b hb with ⟨_, h⟩ | h | ⟨other, hother, h⟩
        · obtain ⟨rfl, -⟩ := Prod.mk.inj (Option.some.inj h)
          exact htype.imp id fun h => ⟨line, List.mem_cons_self, h⟩
        · exact .inl h
        · exact .inr ⟨other, List.mem_cons_of_mem line hother, h⟩
      have hout : ∀ next, ∀ other ∈ (oracleObjectBlocks isWord next (withViews lines)).2,
          other ∈ line :: lines ∧ objectType isWord other = none ∧ isProgress other = true :=
        fun next other hother => ((ih next).2 other hother).imp (List.mem_cons_of_mem line) id
      have hviews : ∀ b ∈ closing (some ("VIEW".toList, [viewLine])), b.1 = "VIEW".toList :=
        fun b hb => congrArg Prod.fst (List.mem_singleton.mp hb)
      change (∀ b ∈ (oracleObjectBlocks isWord opened (viewLine :: line :: withViews lines)).1, _) ∧
        ∀ other ∈ (oracleObjectBlocks isWord opened (viewLine :: line :: withViews lines)).2, _
      rw [blocks_start objectType_viewLine]
      suffices hrest : ∀ view, view = ("VIEW".toList, [viewLine]) →
          (∀ b ∈ (oracleObjectBlocks isWord (some view) (line :: withViews lines)).1,
            b.1 = "VIEW".toList ∨ ∃ other ∈ line :: lines, objectType isWord other = some b.1) ∧
          ∀ other ∈ (oracleObjectBlocks isWord (some view) (line :: withViews lines)).2,
            other ∈ line :: lines ∧ objectType isWord other = none ∧ isProgress other = true by
        replace hrest := hrest _ rfl
        refine ⟨fun b hb => ?_, hrest.2⟩
        exact (List.mem_append.mp hb).imp (hclosing opened b) (hrest.1 b)
      rintro _ rfl
      cases htype : objectType isWord line with
      | some type =>
          rw [blocks_start htype]
          refine ⟨fun b hb => ?_, hout _⟩
          exact (List.mem_append.mp hb).elim (fun h => .inl (hviews b h)) (htail (.inr htype) b)
      | none =>
          cases hprogress : isProgress line with
          | true =>
              rw [blocks_progress htype hprogress]
              refine ⟨fun b hb => ?_, fun other hother => ?_⟩
              · rcases List.mem_append.mp hb with hb | hb
                · exact .inl (hviews b hb)
                · rcases (ih none).1 b hb with ⟨_, h⟩ | h | ⟨other, hother, h⟩
                  · exact (nomatch h)
                  · exact .inl h
                  · exact .inr ⟨other, List.mem_cons_of_mem line hother, h⟩
              · rcases List.mem_cons.mp hother with rfl | hother
                · exact ⟨List.mem_cons_self, htype, hprogress⟩
                · exact hout none other hother
          | false =>
              rw [blocks_inside htype hprogress]
              exact ⟨htail (.inl rfl), hout _⟩

/-! ### Failed imports that stay failed -/

/-- The line has the code of an error. -/
def ReportsError (line : Line) : Prop := hasMarker oracleErrorMarkers (upper (stripChars isSpace line)) = true

theorem hasMarker_mono {markers : List Line} {a b : Line} (h : a <:+: b) (ha : hasMarker markers a = true) :
    hasMarker markers b = true := by
  obtain ⟨marker, hmarker, hin⟩ := List.any_eq_true.mp ha
  exact List.any_eq_true.mpr ⟨marker, hmarker, decide_eq_true ((of_decide_eq_true hin).trans h)⟩

theorem stripChars_infix (line : Line) : stripChars isSpace line <:+: line :=
  infix_of_infix_stripChars List.infix_rfl

/-- Every fatal marker has the beginning of an error code. -/
theorem reportsError_of_isFatalLine (h : isFatalLine line = true) :
    hasMarker oracleErrorMarkers (upper line) = true := by
  obtain ⟨marker, hmarker, hin⟩ := List.any_eq_true.mp h
  have hall : ∀ marker ∈ oracleFatalMarkers, hasMarker oracleErrorMarkers marker = true := by decide
  exact hasMarker_mono (of_decide_eq_true hin) (hall marker hmarker)

theorem errors_empty_iff (outside : List Line) :
    (errorLines outside).filter isFatalLine = [] ∧ (errorLines outside).filter isUnknownLine = [] ↔
      ∀ line ∈ outside, ¬ReportsError line := by
  simp only [List.filter_eq_nil_iff, errorLines, List.mem_map, List.mem_filter]
  constructor
  · rintro ⟨hfatal, hunknown⟩ line hline herror
    have hlisted : isErrorLine line = true := by
      have hline := hasMarker_mono (infix_upper <| stripChars_infix line) herror
      obtain ⟨marker, hmarker, hin⟩ := List.any_eq_true.mp hline
      exact List.any_eq_true.mpr ⟨marker, List.mem_cons_of_mem _ hmarker, hin⟩
    have hnot := hfatal _ ⟨line, ⟨hline, hlisted⟩, rfl⟩
    refine hunknown _ ⟨line, ⟨hline, hlisted⟩, rfl⟩ ?_
    rw [isUnknownLine, Bool.eq_false_of_not_eq_true hnot]
    exact herror
  · intro h
    refine ⟨?_, ?_⟩
    · rintro _ ⟨line, ⟨hline, -⟩, rfl⟩ hfatal
      exact h line hline (reportsError_of_isFatalLine hfatal)
    · rintro _ ⟨line, ⟨hline, -⟩, rfl⟩ hunknown
      exact h line hline (Bool.and_eq_true_iff.mp hunknown).2

theorem not_fatal_of_ignorable (h : type ∈ ignorableObjectTypes) : type ∉ fatalObjectTypes := by
  have hall : ∀ type ∈ ignorableObjectTypes, type ∉ fatalObjectTypes := by decide
  exact hall type h

/-- The import counts as successful where its errors are reports of ignorable objects, and there is one. -/
theorem classifyOracle_success_iff (output : Line) : (classifyOracle isWord output).success = true ↔
      (∀ b ∈ (oracleObjectBlocks isWord none (splitLines output)).1, b.1 ∈ ignorableObjectTypes) ∧
        (∀ line ∈ (oracleObjectBlocks isWord none (splitLines output)).2, ¬ReportsError line) ∧
        (oracleObjectBlocks isWord none (splitLines output)).1 ≠ [] := by
  have herrors := errors_empty_iff (oracleObjectBlocks isWord none (splitLines output)).2
  unfold classifyOracle oracleErrors
  generalize oracleObjectBlocks isWord none (splitLines output) = scanned at herrors ⊢
  obtain ⟨blocks, outside⟩ := scanned
  dsimp only at herrors ⊢
  have hwarning : (∀ b ∈ blocks, b.1 ∈ ignorableObjectTypes) →
      blocks.filter (fun b => b.1 ∉ fatalObjectTypes ∧ b.1 ∈ ignorableObjectTypes) = blocks :=
    fun h => List.filter_eq_self.mpr fun b hb => decide_eq_true ⟨not_fatal_of_ignorable (h b hb), h b hb⟩
  have hblocks : (blocks.filter fun b => b.1 ∈ fatalObjectTypes) = [] ∧
      (blocks.filter fun b => b.1 ∉ fatalObjectTypes ∧ b.1 ∉ ignorableObjectTypes) = [] ↔
        ∀ b ∈ blocks, b.1 ∈ ignorableObjectTypes := by
    simp only [List.filter_eq_nil_iff, decide_eq_true_eq]
    refine ⟨fun h b hb => ?_, fun h =>
      ⟨fun b hb => not_fatal_of_ignorable (h b hb), fun b hb hnot => hnot.2 (h b hb)⟩⟩
    exact not_not.mp fun hnot => h.2 b hb ⟨h.1 b hb, hnot⟩
  unfold finish
  split_ifs with hfail hwarn
  · refine iff_of_false id fun h => ?_
    obtain ⟨hfatal, hunknown⟩ := hblocks.mpr h.1
    obtain ⟨hfatal', hunknown'⟩ := herrors.mpr h.2.1
    rw [hfatal, hunknown, hfatal', hunknown'] at hfail
    exact hfail.elim (fun h => h rfl) fun h => h rfl
  · rw [not_or, not_not, not_not, List.append_eq_nil_iff, List.append_eq_nil_iff, List.map_eq_nil_iff,
      List.map_eq_nil_iff] at hfail
    have hall := hblocks.mp ⟨hfail.1.1, hfail.2.1⟩
    refine iff_of_true rfl ⟨hall, herrors.mp ⟨hfail.1.2, hfail.2.2⟩, ?_⟩
    rintro rfl
    exact hwarn rfl
  · refine iff_of_false id fun h => h.2.2 ?_
    rwa [hwarning h.1, not_not, List.map_eq_nil_iff] at hwarn

/-- The errors that make a failed import fail. -/
def HasErrors (isWord : Char → Bool) (output : Line) : Prop :=
  (oracleErrors isWord output).1 ≠ [] ∨ (oracleErrors isWord output).2.2 ≠ []

/-- A line begins the report of an object that must not fail, or is a progress line with the code of an error. -/
def Fixed (isWord : Char → Bool) (output : Line) : Prop :=
  ∃ line ∈ splitLines output, (∃ type, objectType isWord line = some type ∧ type ∉ ignorableObjectTypes) ∨
    objectType isWord line = none ∧ isProgress line = true ∧ ReportsError line

/-- Whatever lines are added, the import stays failed. -/
def StaysFailed (isWord : Char → Bool) (returncode : ℤ) (output : Line) : Prop :=
  ∀ output', (splitLines output).Sublist (splitLines output') →
    (classifyImportResult isWord returncode output').success = false

theorem staysFailed_iff_fixed {returncode : ℤ} (hcode : returncode ≠ 0) {output : Line}
    (herrors : HasErrors isWord output) : StaysFailed isWord returncode output ↔ Fixed isWord output := by
  have horacle : ∀ text, classifyImportResult isWord returncode text = classifyOracle isWord text :=
    fun text => if_neg hcode
  unfold StaysFailed
  simp only [horacle]
  constructor
  · intro hfailed
    by_contra hfixed
    have hlines : splitLines output ≠ [] := by
      intro hnil
      unfold HasErrors oracleErrors at herrors
      rw [hnil] at herrors
      exact herrors.elim (fun h => h rfl) fun h => h rfl
    have hsplit : splitLines (joined (withViews (splitLines output))) = withViews (splitLines output) := by
      refine splitLines_joined fun line hline => ?_
      obtain ⟨other, hother, hline⟩ := List.mem_flatMap.mp hline
      rcases List.mem_cons.mp hline with rfl | hline
      · exact fun c hc => Bool.eq_false_of_not_eq_true fun h =>
          absurd (List.any_eq_true.mpr ⟨c, hc, h⟩) (by decide : ¬viewLine.any isLineBreak = true)
      · exact List.mem_singleton.mp hline ▸ no_break_of_mem other hother
    obtain ⟨hblocks, houtside⟩ := @withViews_blocks isWord (splitLines output) none
    have hnot := hfailed (joined (withViews (splitLines output))) (hsplit.symm ▸ sublist_withViews _)
    refine absurd hnot (Bool.not_eq_false _ ▸ (classifyOracle_success_iff _).mpr ?_)
    rw [hsplit]
    refine ⟨fun b hb => ?_, fun line hline herror => ?_, fun hnil => ?_⟩
    · rcases hblocks b hb with ⟨_, h⟩ | h | ⟨line, hline, h⟩
      · exact (nomatch h)
      · exact h ▸ by decide
      · exact not_not.mp fun hnot => hfixed ⟨line, hline, .inl ⟨b.1, h, hnot⟩⟩
    · obtain ⟨hline, htype, hprogress⟩ := houtside line hline
      exact hfixed ⟨line, hline, .inr ⟨htype, hprogress, herror⟩⟩
    · obtain ⟨line, lines, heq⟩ := List.exists_cons_of_ne_nil hlines
      obtain ⟨text, htext⟩ := @mem_blocks isWord _ _ (withViews (splitLines output))
        (heq ▸ List.mem_cons_self) objectType_viewLine none
      exact absurd (hnil ▸ htext) List.not_mem_nil
  · rintro ⟨line, hline, hfixed⟩ output' hsub
    refine Bool.eq_false_of_not_eq_true fun hsuccess => ?_
    obtain ⟨hblocks, houtside, -⟩ := (classifyOracle_success_iff output').mp hsuccess
    rcases hfixed with ⟨type, htype, hnot⟩ | ⟨htype, hprogress, herror⟩
    · obtain ⟨text, htext⟩ := mem_blocks (hsub.subset hline) htype none
      exact hnot (hblocks _ htext)
    · exact houtside line (mem_outside (hsub.subset hline) htype hprogress none) herror

/-- Lines that are added make a failed import successful, except where an error stands in a line that begins the
report of an object that must not fail, or in a progress line. -/
theorem classifyImportResult_staysFailed_iff (returncode : ℤ) (hcode : returncode ≠ 0) (output : Line)
    (herrors : HasErrors isWord output) : StaysFailed isWord returncode output ↔ Fixed isWord output :=
  staysFailed_iff_fixed hcode herrors

def failedTable : Line := "ORA-39083: Object type TABLE failed to create with error:".toList

theorem failedTable_staysFailed : StaysFailed Char.isAlphanum 1 failedTable := by
  refine (classifyImportResult_staysFailed_iff 1 (by decide) failedTable (.inl (by decide +kernel))).mpr ?_
  exact ⟨failedTable, by decide +kernel, .inl ⟨"TABLE".toList, by decide +kernel, by decide⟩⟩

def fullTablespace : Line := "ORA-01653: unable to extend table".toList

/-- A view that is reported before a full tablespace takes up its error. -/
theorem fullTablespace_succeeds : ¬∀ (returncode : ℤ) (output : Line), returncode ≠ 0 →
    HasErrors Char.isAlphanum output → StaysFailed Char.isAlphanum returncode output := by
  intro hall
  refine absurd (hall 1 fullTablespace (by decide) (.inl (by decide +kernel))
    (viewLine ++ '\n' :: fullTablespace) ?_) (by decide +kernel)
  have hsplit : splitLines fullTablespace = [fullTablespace] ∧
      splitLines (viewLine ++ '\n' :: fullTablespace) = [viewLine, fullTablespace] := by decide +kernel
  rw [hsplit.1, hsplit.2]
  exact (List.Sublist.refl _).cons _

end RecoveryService.ImportResult
