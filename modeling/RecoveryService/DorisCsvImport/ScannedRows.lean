import RecoveryService.Lib.Lines
import RecoveryService.Lib.Text

/-! # The rows of a file

`_scan_csv_rows` of `services/doris_csv_import.py`.  `csv.reader` reads a text by the lines that end with a line
feed and counts these; behind a record that it cannot read the text is taken up again by the lines of
`str.splitlines`, at the number of the reader. -/

namespace RecoveryService.DorisCsvImport

open Lines

abbrev Line := List Char

/-! ### `csv.reader` with `strict=True` -/

inductive Mode where
  | startRecord
  | startField
  | inField
  | inQuotedField
  | quoteInQuotedField
  | eatCrnl
deriving DecidableEq

inductive CsvError where
  /-- A delimiter was expected behind a quote. -/
  | delimiterExpected
  /-- `new-line character seen in unquoted field`. -/
  | newLine
  /-- `unexpected end of data`. -/
  | endOfData
  /-- `field larger than field limit (131072)`. -/
  | fieldLimit

/-- A record as far as it was read. -/
structure Parse where
  mode : Mode := .startRecord
  field : Line := []
  fields : List Line := []

def quoteChar : Char := Char.ofNat 34

def Parse.save (p : Parse) (mode : Mode) : Parse := ⟨mode, [], p.fields ++ [p.field]⟩

def Parse.addChar (p : Parse) (c : Char) (mode : Mode) : Except CsvError Parse :=
  if 131072 ≤ p.field.length then .error .fieldLimit else .ok ⟨mode, p.field ++ [c], p.fields⟩

section

variable (delimiter : Char)

def Parse.startField (p : Parse) (c : Char) : Except CsvError Parse :=
  if c = '\n' ∨ c = '\r' then .ok (p.save .eatCrnl)
  else if c = quoteChar then .ok { p with mode := .inQuotedField }
  else if c = delimiter then .ok (p.save .startField)
  else p.addChar c .inField

/-- `parse_process_char`. -/
def Parse.char (p : Parse) (c : Char) : Except CsvError Parse :=
  match p.mode with
  | .startRecord =>
      if c = '\n' ∨ c = '\r' then .ok { p with mode := .eatCrnl } else p.startField delimiter c
  | .startField => p.startField delimiter c
  | .inField =>
      if c = '\n' ∨ c = '\r' then .ok (p.save .eatCrnl)
      else if c = delimiter then .ok (p.save .startField)
      else p.addChar c .inField
  | .inQuotedField =>
      if c = quoteChar then .ok { p with mode := .quoteInQuotedField } else p.addChar c .inQuotedField
  | .quoteInQuotedField =>
      if c = quoteChar then p.addChar c .inQuotedField
      else if c = delimiter then .ok (p.save .startField)
      else if c = '\n' ∨ c = '\r' then .ok (p.save .eatCrnl)
      else .error .delimiterExpected
  | .eatCrnl => if c = '\n' ∨ c = '\r' then .ok p else .error .newLine

/-- The end of a line. -/
def Parse.endLine (p : Parse) : Parse :=
  match p.mode with
  | .startRecord | .eatCrnl => { p with mode := .startRecord }
  | .startField | .inField | .quoteInQuotedField => p.save .startRecord
  | .inQuotedField => p

inductive Outcome where
  /-- `StopIteration`. -/
  | stop
  | failed (error : CsvError)
  | row (fields : List Line) (rest : List Line)

/-- `next(reader)`, with the lines that are left. -/
def readRecord (p : Parse) : List Line → Outcome
  | [] => if p.field ≠ [] ∨ p.mode = .inQuotedField then .failed .endOfData else .stop
  | line :: rest =>
      match line.foldlM (Parse.char delimiter) p with
      | .error e => .failed e
      | .ok p =>
          if p.endLine.mode = .startRecord then .row p.endLine.fields rest
          else readRecord p.endLine rest

/-! ### The scan -/

inductive Reason where
  | columns (expected actual : ℕ)
  | csvError (error : CsvError)

structure BadRow where
  rowNumber : ℕ
  reason : Reason
  rawText : Line
  values : List Line

structure Rows where
  good : List (List Line)
  bad : List BadRow

/-- A record goes to the good rows or to the bad ones. -/
def Rows.add (rows : Rows) (expected rowNumber : ℕ) (rawText : Line) (row : List Line) : Rows :=
  if row.length ≠ expected then
    { rows with bad := rows.bad ++ [⟨rowNumber, .columns expected row.length, rawText, row.take 50⟩] }
  else { rows with good := rows.good ++ [row] }

/-- `rstrip("\r\n")`. -/
def rstripLine (line : Line) : Line := line.rdropWhile fun c => c == '\r' || c == '\n'

/-- `_raw_text_slice`. -/
def rawTextSlice (rawLines : List Line) (startLine endLine : ℕ) : Line :=
  rstripLine ((rawLines.take (max endLine startLine)).drop (startLine - 1)).flatten

/-- A turn of `_scan_physical_rows_after_error`. -/
def scanPhysicalRow (expected startLine : ℕ) (firstError : CsvError) (number : ℕ) (rows : Rows) (line : Line) :
    Rows :=
  let rawText := rstripLine line
  if rawText = [] then rows
  else match readRecord delimiter {} [rawText] with
    | .row row _ => rows.add expected number rawText row
    | .failed e =>
        let error := if number = startLine then firstError else e
        { rows with bad := rows.bad ++ [⟨number, .csvError error, rawText, []⟩] }
    | .stop => rows

/-- `_scan_physical_rows_after_error`, from the line `number` on. -/
def scanPhysicalRows (expected startLine : ℕ) (firstError : CsvError) : ℕ → Rows → List Line → Rows
  | _, rows, [] => rows
  | number, rows, line :: lines =>
      scanPhysicalRows expected startLine firstError (number + 1)
        (scanPhysicalRow delimiter expected startLine firstError number rows line) lines

/-- The loop of `_scan_csv_rows`; a turn takes a line at least. -/
def scanRecords (rawLines : List Line) (expected : ℕ) : ℕ → List Line → ℕ → Rows → Rows
  | 0, _, _, rows => rows
  | n + 1, lines, previous, rows =>
      match readRecord delimiter {} lines with
      | .stop => rows
      | .failed e => scanPhysicalRows delimiter expected (previous + 1) e (previous + 1) rows (rawLines.drop previous)
      | .row row rest =>
          let lineNum := previous + (lines.length - rest.length)
          scanRecords rawLines expected n rest lineNum
            (rows.add expected (previous + 1) (rawTextSlice rawLines (previous + 1) lineNum) row)

/-- The lines of `io.StringIO`. -/
def readerLines (text : Line) : List Line := cut (· == '\n') text

/-- `text.splitlines(keepends=True)`. -/
def physicalLines (text : Line) : List Line := cut isLineBreak text

/-- `_scan_csv_rows` behind the header; without rows it raises. -/
def scanCsvRows (hasHeader : Bool) (text : Line) : Option Rows :=
  match readRecord delimiter {} (readerLines text) with
  | .stop | .failed _ | .row [] _ => none
  | .row first rest =>
      let lines := readerLines text
      some (scanRecords delimiter (physicalLines text) first.length (lines.length + 1) rest
        (lines.length - rest.length) ⟨if hasHeader then [] else [first], []⟩)

/-! ### What is promised -/

/-- The records the reader reads, and the lines that are left where it fails. -/
def readRecords : ℕ → List Line → List (List Line) × Option (List Line)
  | 0, _ => ([], none)
  | n + 1, lines =>
      match readRecord delimiter {} lines with
      | .stop => ([], none)
      | .failed _ => ([], some lines)
      | .row row rest => (row :: (readRecords n rest).1, (readRecords n rest).2)

def isBlank (line : Line) : Bool := rstripLine line = []

/-- A line that is read alone: a good row, or the values of a bad one. -/
def recovered (expected : ℕ) (line : Line) : Except (List Line) (List Line) :=
  match readRecord delimiter {} [rstripLine line] with
  | .row row _ => if row.length ≠ expected then .error (row.take 50) else .ok row
  | _ => .error []

def goodRow (expected : ℕ) (line : Line) : Option (List Line) := (recovered delimiter expected line).toOption

def badValues (expected : ℕ) (line : Line) : Option (List Line) :=
  match recovered delimiter expected line with
  | .ok _ => none
  | .error values => some values

/-- The rows are those of some records, each once and in their order, and then those of some lines that are not
blank. -/
structure Rows.Account (rows : Rows) (expected : ℕ) (before : Rows) (records : List (List Line))
    (lines : List Line) : Prop where
  good : rows.good = before.good ++ (records.filter (·.length = expected) ++
    (lines.filter (! isBlank ·)).filterMap (goodRow delimiter expected))
  bad : rows.bad.map BadRow.values = before.bad.map BadRow.values ++
    ((records.filter (·.length ≠ expected)).map (·.take 50) ++
      (lines.filter (! isBlank ·)).filterMap (badValues delimiter expected))

/-- Behind the header, the records up to a failure and then the lines from the failed record on. -/
def Accounted (hasHeader : Bool) (text : Line) : Prop :=
  ∀ rows, scanCsvRows delimiter hasHeader text = some rows →
    ∃ first rest, readRecord delimiter {} (readerLines text) = .row first rest ∧
      let records := readRecords delimiter ((readerLines text).length + 1) rest
      rows.Account delimiter first.length ⟨if hasHeader then [] else [first], []⟩ records.1
        (records.2.elim [] fun lines => physicalLines lines.flatten)

/-- The physical lines of the text before a failed record that are beyond the number of its lines. -/
def surplus (text : Line) (failed : List Line) : List Line :=
  let before := (readerLines text).take ((readerLines text).length - failed.length)
  (physicalLines before.flatten).drop before.length

/-- Where a record fails, the two countings have come to the same line, or only blank lines are between. -/
def CountsAgree (text : Line) : Prop :=
  ∀ first rest failed, readRecord delimiter {} (readerLines text) = .row first rest → first ≠ [] →
    (readRecords delimiter ((readerLines text).length + 1) rest).2 = some failed →
      ∀ line ∈ surplus text failed, isBlank line = true

end

/-! ### Records and lines -/

variable {delimiter : Char} {expected : ℕ} {rows before : Rows} {lines : List Line}

theorem readRecord_line (p : Parse) (line : Line) : readRecord delimiter p [line] ≠ .stop := by
  rw [readRecord]
  cases line.foldlM (Parse.char delimiter) p with
  | error e => exact Outcome.noConfusion
  | ok p =>
      dsimp only
      split_ifs with hmode
      · exact Outcome.noConfusion
      · have hquoted : p.endLine.mode = .inQuotedField := by
          revert hmode
          unfold Parse.endLine
          cases hp : p.mode <;> intro hmode
          all_goals first | exact absurd rfl hmode | exact hp
        rw [readRecord, if_pos (.inr hquoted)]
        exact Outcome.noConfusion

/-- A record takes a line at least. -/
theorem readRecord_suffix {p : Parse} {row rest : List Line} (h : readRecord delimiter p lines = .row row rest) :
    ∃ taken, taken ≠ [] ∧ lines = taken ++ rest := by
  induction lines generalizing p with
  | nil =>
      rw [readRecord] at h
      split_ifs at h
  | cons line lines ih =>
      rw [readRecord] at h
      cases hline : line.foldlM (Parse.char delimiter) p with
      | error e =>
          rw [hline] at h
          cases h
      | ok q =>
          rw [hline] at h
          dsimp only at h
          split_ifs at h with hmode
          · obtain ⟨rfl, rfl⟩ := Outcome.row.inj h
            exact ⟨[line], List.cons_ne_nil _ _, rfl⟩
          · obtain ⟨taken, -, rfl⟩ := ih h
            exact ⟨line :: taken, List.cons_ne_nil _ _, rfl⟩

theorem readRecords_suffix {n : ℕ} {failed : List Line} (h : (readRecords delimiter n lines).2 = some failed) :
    failed ≠ [] ∧ ∃ taken, lines = taken ++ failed := by
  induction n generalizing lines with
  | zero => cases h
  | succ n ih =>
      rw [readRecords] at h
      cases hrow : readRecord delimiter {} lines with
      | stop =>
          rw [hrow] at h
          cases h
      | failed e =>
          rw [hrow] at h
          obtain rfl := Option.some.inj h
          refine ⟨?_, [], rfl⟩
          rintro rfl
          rw [readRecord, if_neg (by decide)] at hrow
          cases hrow
      | row row rest =>
          rw [hrow] at h
          obtain ⟨hne, taken, rfl⟩ := ih h
          obtain ⟨first, -, rfl⟩ := readRecord_suffix hrow
          exact ⟨hne, first ++ taken, (List.append_assoc _ _ _).symm⟩

/-! ### The rows of the scan -/

theorem add_account (rowNumber : ℕ) (rawText : Line) (row : List Line) :
    (rows.add expected rowNumber rawText row).Account delimiter expected rows [row] [] := by
  unfold Rows.add
  by_cases hlength : row.length = expected
  · rw [if_neg (not_not.mpr hlength)]
    constructor <;> simp [hlength]
  · rw [if_pos hlength]
    constructor <;> simp [hlength]

/-- Accounts one behind the other. -/
theorem Rows.Account.trans {rows' : Rows} {records records' : List (List Line)} {lines lines' : List Line}
    (h : rows.Account delimiter expected before records lines)
    (h' : rows'.Account delimiter expected rows records' lines') (hlines : lines = [] ∨ records' = []) :
    rows'.Account delimiter expected before (records ++ records') (lines ++ lines') := by
  constructor
  · rw [h'.good, h.good]
    rcases hlines with rfl | rfl <;> simp
  · rw [h'.bad, h.bad]
    rcases hlines with rfl | rfl <;> simp

theorem scanPhysicalRow_account (startLine : ℕ) (firstError : CsvError) (number : ℕ) (rows : Rows) (line : Line) :
    (scanPhysicalRow delimiter expected startLine firstError number rows line).Account delimiter expected rows []
      [line] := by
  unfold scanPhysicalRow
  by_cases hblank : rstripLine line = []
  · rw [if_pos hblank]
    constructor <;> simp [isBlank, hblank]
  · rw [if_neg hblank]
    cases hrow : readRecord delimiter {} [rstripLine line] with
    | stop => exact absurd hrow (readRecord_line _ _)
    | failed e => constructor <;> simp [isBlank, hblank, goodRow, badValues, recovered, hrow, Except.toOption]
    | row row rest =>
        dsimp only
        unfold Rows.add
        by_cases hlength : row.length = expected
        · rw [if_neg (not_not.mpr hlength)]
          constructor <;> simp [isBlank, hblank, goodRow, badValues, recovered, hrow, hlength, Except.toOption]
        · rw [if_pos hlength]
          constructor <;> simp [isBlank, hblank, goodRow, badValues, recovered, hrow, hlength, Except.toOption]

theorem scanPhysicalRows_account (startLine : ℕ) (firstError : CsvError) (number : ℕ) (rows : Rows)
    (lines : List Line) :
    (scanPhysicalRows delimiter expected startLine firstError number rows lines).Account delimiter expected rows []
      lines := by
  induction lines generalizing number rows with
  | nil => constructor <;> simp [scanPhysicalRows]
  | cons line lines ih =>
      exact (scanPhysicalRow_account startLine firstError number rows line).trans (ih _ _) (.inr rfl)

theorem scanRecords_account (rawLines : List Line) {n : ℕ} (hn : lines.length < n) (previous : ℕ) (rows : Rows) :
    (scanRecords delimiter rawLines expected n lines previous rows).Account delimiter expected rows
      (readRecords delimiter n lines).1
      ((readRecords delimiter n lines).2.elim [] fun failed =>
        rawLines.drop (previous + (lines.length - failed.length))) := by
  induction n generalizing lines previous rows with
  | zero => omega
  | succ n ih =>
      rw [scanRecords, readRecords]
      cases hrow : readRecord delimiter {} lines with
      | stop => constructor <;> simp
      | failed e =>
          dsimp only [Option.elim]
          rw [Nat.sub_self]
          exact scanPhysicalRows_account _ _ _ _ _
      | row row rest =>
          obtain ⟨taken, htaken, rfl⟩ := readRecord_suffix hrow
          have hlength := List.length_pos_iff.mpr htaken
          rw [List.length_append] at hn ⊢
          dsimp only
          rw [Nat.add_sub_cancel]
          generalize rawTextSlice rawLines _ _ = rawText
          have hrest := @ih rest (by omega) (previous + taken.length) (rows.add expected (previous + 1) rawText row)
          have hall := (add_account (previous + 1) rawText row).trans hrest (.inl rfl)
          cases hfailed : (readRecords delimiter n rest).2 with
          | none =>
              rw [hfailed] at hall
              exact hall
          | some failed =>
              rw [hfailed] at hall
              obtain ⟨-, before, rfl⟩ := readRecords_suffix hfailed
              have hposition : previous + taken.length + ((before ++ failed).length - failed.length) =
                  previous + (taken.length + (before ++ failed).length - failed.length) := by
                rw [List.length_append]
                omega
              change Rows.Account delimiter _ expected rows _
                (rawLines.drop (previous + (taken.length + (before ++ failed).length - failed.length)))
              rw [← hposition]
              exact hall

/-- More lines in front are none for the account exactly where they are blank. -/
theorem account_iff {records : List (List Line)} {extra : List Line}
    (h : rows.Account delimiter expected before records (extra ++ lines)) :
    rows.Account delimiter expected before records lines ↔ ∀ line ∈ extra, isBlank line = true := by
  constructor
  · intro h' line hline
    have hgood := h'.good.symm.trans h.good
    have hbad := h'.bad.symm.trans h.bad
    rw [List.append_cancel_left_eq, List.append_cancel_left_eq, List.filter_append, List.filterMap_append,
      List.self_eq_append_left] at hgood hbad
    by_contra hblank
    have hmem : line ∈ extra.filter (! isBlank ·) :=
      List.mem_filter.mpr ⟨hline, by rw [Bool.eq_false_of_not_eq_true hblank]; rfl⟩
    have hnone := List.filterMap_eq_nil_iff.mp hgood line hmem
    have hnone' := List.filterMap_eq_nil_iff.mp hbad line hmem
    unfold goodRow at hnone
    unfold badValues at hnone'
    cases hrow : recovered delimiter expected line with
    | ok row =>
        rw [hrow] at hnone
        cases hnone
    | error values =>
        rw [hrow] at hnone'
        cases hnone'
  · intro hblank
    have hnil : extra.filter (! isBlank ·) = [] :=
      List.filter_eq_nil_iff.mpr fun line hline => by rw [hblank line hline]; decide
    obtain ⟨hgood, hbad⟩ := h
    rw [List.filter_append, hnil, List.nil_append] at hgood hbad
    exact ⟨hgood, hbad⟩

/-! ### The two countings -/

theorem physicalLines_append {before : List Line} (h : ∀ line ∈ before, ∃ start, line = start ++ ['\n'])
    (rest : Line) :
    physicalLines (before.flatten ++ rest) = physicalLines before.flatten ++ physicalLines rest ∧
      before.length ≤ (physicalLines before.flatten).length := by
  induction before with
  | nil => exact ⟨rfl, Nat.zero_le _⟩
  | cons line before ih =>
      obtain ⟨⟨start, rfl⟩, hbefore⟩ := List.forall_mem_cons.mp h
      obtain ⟨happend, hlength⟩ := ih hbefore
      have hcut (tail : Line) : physicalLines (start ++ ['\n'] ++ tail) =
          physicalLines (start ++ ['\n']) ++ physicalLines tail := by
        rw [List.append_assoc]
        exact cut_append rfl start tail
      have hpos : 0 < (physicalLines (start ++ ['\n'])).length :=
        List.length_pos_iff.mpr (cut_ne_nil (List.append_ne_nil_of_right_ne_nil _ (List.cons_ne_nil _ _)))
      rw [List.flatten_cons, List.append_assoc, hcut, happend, hcut, List.append_assoc, List.length_append,
        List.length_cons]
      exact ⟨rfl, by omega⟩

theorem drop_physicalLines {text : Line} {before failed : List Line} (h : readerLines text = before ++ failed)
    (hne : failed ≠ []) : (physicalLines text).drop before.length =
      (physicalLines before.flatten).drop before.length ++ physicalLines failed.flatten := by
  obtain ⟨happend, hlength⟩ := physicalLines_append (feed_of_cut h hne) failed.flatten
  have htext : text = before.flatten ++ failed.flatten := by
    rw [← List.flatten_append, ← h]
    exact (flatten_cut text).symm
  rw [htext, happend, List.drop_append_of_le_length hlength]

theorem counts_iff {text : Line} {taken rest : List Line} {n : ℕ} (htaken : readerLines text = taken ++ rest)
    (h : rows.Account delimiter expected before (readRecords delimiter n rest).1
      ((readRecords delimiter n rest).2.elim [] fun failed =>
        (physicalLines text).drop ((readerLines text).length - rest.length + (rest.length - failed.length)))) :
    rows.Account delimiter expected before (readRecords delimiter n rest).1
        ((readRecords delimiter n rest).2.elim [] fun failed => physicalLines failed.flatten) ↔
      ∀ failed, (readRecords delimiter n rest).2 = some failed →
        ∀ line ∈ surplus text failed, isBlank line = true := by
  cases hfailed : (readRecords delimiter n rest).2 with
  | none =>
      rw [hfailed] at h
      exact iff_of_true h fun _ hsome => nomatch hsome
  | some failed =>
      rw [hfailed] at h
      obtain ⟨hne, passed, rfl⟩ := readRecords_suffix hfailed
      rw [← List.append_assoc] at htaken
      have hlines : (readerLines text).length - failed.length = (taken ++ passed).length := by
        rw [htaken, List.length_append, Nat.add_sub_cancel]
      have hposition : (readerLines text).length - (passed ++ failed).length +
          ((passed ++ failed).length - failed.length) = (taken ++ passed).length := by
        rw [htaken, List.length_append, List.length_append, List.length_append]
        omega
      have hsurplus : surplus text failed =
          (physicalLines (taken ++ passed).flatten).drop (taken ++ passed).length := by
        unfold surplus
        rw [hlines, htaken, List.take_left]
      change rows.Account delimiter expected before _ ((physicalLines text).drop _) at h
      rw [hposition, drop_physicalLines htaken hne, ← hsurplus] at h
      refine (account_iff h).trans ⟨fun hblank other hother => Option.some.inj hother ▸ hblank, fun hblank => ?_⟩
      exact hblank failed rfl

/-- The scan accounts for every record and line exactly where the two countings agree. -/
theorem accounted_iff (delimiter : Char) (hasHeader : Bool) (text : Line) :
    Accounted delimiter hasHeader text ↔ CountsAgree delimiter text := by
  unfold Accounted CountsAgree scanCsvRows
  cases hfirst : readRecord delimiter {} (readerLines text) with
  | stop => exact iff_of_true (fun _ h => nomatch h) fun _ _ _ h => nomatch h
  | failed e => exact iff_of_true (fun _ h => nomatch h) fun _ _ _ h => nomatch h
  | row first rest =>
      cases first with
      | nil => exact iff_of_true (fun _ h => nomatch h) fun _ _ _ h hne => absurd (Outcome.row.inj h).1.symm hne
      | cons name names =>
          obtain ⟨taken, -, htaken⟩ := readRecord_suffix hfirst
          have hlength : rest.length < (readerLines text).length + 1 := by
            rw [htaken, List.length_append]
            omega
          have hcounts := counts_iff htaken (@scanRecords_account delimiter (names.length + 1) rest
            (physicalLines text) _ hlength ((readerLines text).length - rest.length)
            ⟨if hasHeader then [] else [name :: names], []⟩)
          constructor
          · rintro h _ _ failed ⟨rfl, rfl⟩ - hfailed
            obtain ⟨_, _, ⟨rfl, rfl⟩, haccount⟩ := h _ rfl
            exact hcounts.mp haccount failed hfailed
          · rintro h _ ⟨rfl⟩
            exact ⟨_, _, rfl, hcounts.mpr fun failed => h _ _ failed rfl (List.cons_ne_nil _ _)⟩

/-- A form feed in a quoted field, and then a record that fails: the end of the field is read again. -/
theorem field_read_again : ¬∀ (delimiter : Char) (hasHeader : Bool) (text : Line),
    Accounted delimiter hasHeader text := by
  intro h
  obtain ⟨first, rest, hfirst, haccount⟩ := h ',' true ['a', '\n', quoteChar, 'x', Char.ofNat 12, 'y', quoteChar,
    '\n', quoteChar, 'q', quoteChar, 'w', '\n'] _ rfl
  obtain ⟨rfl, rfl⟩ := Outcome.row.inj hfirst
  exact absurd (congrArg List.length haccount.good) (by decide +kernel)

end RecoveryService.DorisCsvImport
