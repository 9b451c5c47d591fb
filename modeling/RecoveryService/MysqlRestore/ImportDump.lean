import RecoveryService.Lib.Text

/-! # The import of a MySQL dump

`import_dump` of `infrastructure/mysql/docker_executor.py`, which sends a dump through a `sed` filter to the
`mysql` client, with `classify_import_result` of `engine/import_result/classifier.py` and the state that
`MySqlRecoveryPipeline` reports.  The client without `--force` ends at the first statement that the
server rejects; in the subshell before it only the status of the last command counts. -/

namespace RecoveryService.MysqlRestore

open Text

abbrev Line := List Char

/-! ### The dump -/

inductive StatementKind where
  | table
  | data
  | other
deriving DecidableEq

/-- A statement of a dump with its lines. -/
structure Statement where
  kind : StatementKind
  lines : List Line
  nonempty : lines ≠ []

/-- `MySqlRestorePlan.method`. -/
inductive Method where
  | sql
  | sqlGzip
  | sqlZip
deriving DecidableEq

/-! ### The filter -/

/-- `/^start/Id`. -/
def beginsWith (start : String) (line : Line) : Bool :=
  (start.toList.map Char.toUpper).isPrefixOf (line.map Char.toUpper)

/-- The rest behind a name in backticks. -/
def backticked (cs : List Char) : Option (List Char) :=
  match cs with
  | '`' :: rest =>
      if (rest.takeWhile (· ≠ '`')).isEmpty then none
      else match rest.dropWhile (· ≠ '`') with
        | '`' :: rest => some rest
        | _ => none
  | _ => none

/-- What follows ``DEFINER=`user`@`host` `` at the beginning of a text. -/
def quotedDefiner (cs : List Char) : Option (List Char) := do
  guard ("DEFINER=".toList.isPrefixOf cs)
  let rest ← backticked (cs.drop "DEFINER=".length)
  guard (['@'].isPrefixOf rest)
  backticked (rest.drop 1)

/-- What follows `DEFINER=[^* ]+` at the beginning of a text. -/
def plainDefiner (cs : List Char) : Option (List Char) := do
  guard ("DEFINER=".toList.isPrefixOf cs)
  let rest := cs.drop "DEFINER=".length
  guard (¬ (rest.takeWhile fun c => c ≠ '*' ∧ c ≠ ' ').isEmpty)
  some (rest.dropWhile fun c => c ≠ '*' ∧ c ≠ ' ')

/-- `s|pattern||g`, for a pattern that takes characters off the text; `n` bounds the length. -/
def dropAll (pattern : List Char → Option (List Char)) : ℕ → List Char → List Char
  | 0, cs => cs
  | n + 1, cs =>
      match pattern cs with
      | some rest => dropAll pattern n rest
      | none =>
          match cs with
          | [] => []
          | c :: rest => c :: dropAll pattern n rest

/-- The `sed` filter on a line. -/
def sanitize (line : Line) : Option Line :=
  if beginsWith "CREATE DATABASE " line || beginsWith "CREATE SCHEMA " line || beginsWith "USE " line ||
      "SET @@GLOBAL.GTID_PURGED=".toList.isPrefixOf line then none
  else
    let line := dropAll quotedDefiner line.length line
    some (dropAll plainDefiner line.length line)

/-! ### The stream -/

/-- A statement as it comes to the client; `source` is its place in the dump. -/
structure Item where
  source : Option ℕ
  text : List Line
deriving DecidableEq

def prelude : List Item :=
  [⟨none, ["SET SESSION FOREIGN_KEY_CHECKS=0;".toList]⟩, ⟨none, ["SET SESSION UNIQUE_CHECKS=0;".toList]⟩,
    ⟨none, ["SET SESSION SQL_LOG_BIN=0;".toList]⟩]

/-- The statements behind the dump, the first of them with what is left of a statement that was cut. -/
def epilogue (cut : List Line) : List Item :=
  [⟨none, cut ++ ["SET SESSION FOREIGN_KEY_CHECKS=1;".toList]⟩, ⟨none, ["SET SESSION UNIQUE_CHECKS=1;".toList]⟩]

/-- The statements of which `n` lines come through, from the place `i` on, and the rest of a cut one. -/
def stream : ℕ → ℕ → List Statement → List Item × List Line
  | _, _, [] => ([], [])
  | n, i, st :: rest =>
      if st.lines.length ≤ n then
        let text := st.lines.filterMap sanitize
        let (items, cut) := stream (n - st.lines.length) (i + 1) rest
        (if text = [] then items else ⟨some i, text⟩ :: items, cut)
      else ([], (st.lines.take n).filterMap sanitize)

/-! ### The run -/

/-- What happens to the commands of the pipeline, and the server. -/
structure World where
  /-- `unzip` is in the container. -/
  unzip : Bool
  /-- The lines of the dump that come through the decompressor and the filter before one of them fails. -/
  delivered : ℕ
  /-- The answer of the server to a statement, by the statements before it: an error or nothing. -/
  server : List (List Line) → List Line → Option Line
  /-- Standard output and standard error, besides the error that the client prints. -/
  noise : List Line

variable (world : World)

/-- The client sends the statements up to the first one that the server rejects. -/
def runClient : List Item → List Item → List Item × Option Line
  | [], done => (done, none)
  | item :: rest, done =>
      match world.server (done.map Item.text) item.text with
      | some error => (done, some error)
      | none => runClient rest (done ++ [item])

/-- The container has no `unzip` for a zip dump, and the subshell exits behind the prelude. -/
def MissesUnzip (method : Method) : Prop := method = .sqlZip ∧ world.unzip = false

instance (method : Method) : Decidable (MissesUnzip world method) := inferInstanceAs (Decidable (_ ∧ _))

/-- The statements that come to the client. -/
def received (method : Method) (dump : List Statement) : List Item :=
  if MissesUnzip world method then prelude
  else prelude ++ (stream world.delivered 0 dump).1 ++ epilogue (stream world.delivered 0 dump).2

/-- The result of `import_dump`: whether the pipeline exits with 0, and the output. -/
structure ProcessResult where
  exitsZero : Bool
  output : List Line

/-- The exit status of the client, then that of the subshell. -/
def importDump (method : Method) (dump : List Statement) : ProcessResult :=
  let error := (runClient world (received world method dump) []).2
  { exitsZero := error.isNone && !decide (MissesUnzip world method)
    output := world.noise ++ error.toList }

/-- The statements that the server has executed. -/
def executed (method : Method) (dump : List Statement) : List Item :=
  (runClient world (received world method dump) []).1

/-! ### The classification -/

/-- `marker in line.upper()`, for one of the markers. -/
def hasMarker (markers : List String) (line : Line) : Bool :=
  markers.any fun marker => decide (marker.toList <:+: upper line)

def fatalMarkers : List String :=
  ["CREATE TABLE", "INSERT INTO", "LOAD DATA", "ALTER TABLE", "TABLE ", "DUPLICATE ENTRY", "DATA TOO LONG",
    "INCORRECT ", "FOREIGN KEY", "CANNOT ADD OR UPDATE", "CAN'T CREATE TABLE", "ROW SIZE TOO LARGE",
    "KEY TOO LONG", "UNKNOWN COLUMN", "DOESN'T HAVE A DEFAULT VALUE"]

def ignorableMarkers : List String :=
  ["FUNCTION", "PROCEDURE", "TRIGGER", "EVENT", "VIEW", "DEFINER", "GRANT", "ROUTINE",
    "LOG_BIN_TRUST_FUNCTION_CREATORS"]

/-- `_error_lines`. -/
def errorLines (output : List Line) : List Line :=
  (output.filter (hasMarker ["ERROR ", "ORA-", "IMP-", "UDI-"])).map (stripChars isSpace)

/-- A line that `_classify_mysql` takes for a warning. -/
def isWarning (line : Line) : Bool := !hasMarker fatalMarkers line && hasMarker ignorableMarkers line

inductive State where
  | succeeded
  | succeededWithWarnings
  | failed
deriving DecidableEq

/-- `_classify_mysql` and `_finish`. -/
def classifyMysql (output : List Line) : State :=
  if (errorLines output).any (fun line => !isWarning line) then .failed
  else if (errorLines output).isEmpty then .failed
  else .succeededWithWarnings

/-- `classify_import_result`. -/
def classifyImportResult (result : ProcessResult) : State :=
  if result.exitsZero = true then .succeeded else classifyMysql result.output

/-- The `state` that the pipeline reports. -/
def report (method : Method) (dump : List Statement) : State :=
  classifyImportResult (importDump world method dump)

end RecoveryService.MysqlRestore
