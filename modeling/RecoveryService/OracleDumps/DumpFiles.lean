import Mathlib.Data.List.Basic
import Mathlib.Data.List.Count
import RecoveryService.Lib.Text

/-! # The files of a dump volume group

From a group of `engine/discovery/volume_grouper.py` to the files that Oracle reads: `choose_dumpfiles` of
`engine/oracle/dump_detector.py` makes a `%U` pattern of the names, `_dump_args` of the auto import runner
passes it on, and `resolve_dump_inputs` of `tools/oracle_dmp_auto_import.py` makes a regular expression of it. -/

namespace RecoveryService.OracleDumps

open Text

abbrev Name := List Char

/-- What the regular expressions know of characters: `\\d`, `str.upper`, and a character of a pattern that
matches one of a text under `re.IGNORECASE`. -/
structure Characters where
  isDecimal : Char → Bool
  upperChar : Char → List Char
  same : Char → Char → Bool
  decimal_ascii : ∀ c, c.toNat < 128 → isDecimal c = c.isDigit
  upper_ascii : ∀ c, c.toNat < 128 → upperChar c = [c.toUpper]
  upper_percent : ∀ c, c ≠ '%' → '%' ∉ upperChar c
  same_percent : ∀ c x, same c x = true → (c = '%' ↔ x = '%')
  /-- A character matches its upper case. -/
  same_upper : ∀ c u, upperChar c = [u] → same u c = true
  /-- Where the upper case is longer it matches none of its parts. -/
  same_longer : ∀ c u us, upperChar c = u :: us → us ≠ [] → same u c = false
  upper_ne_nil : ∀ c, upperChar c ≠ []

variable (chars : Characters)

/-! ### The groups -/

/-- `name.lower().endswith(".dmp")`; no other characters have these lower cases. -/
def isDump (name : Name) : Bool := (name.drop (name.length - 4)).map Char.toLower == ".dmp".toList

/-- `^(.*?)(\\d{2,})(\\.[^.]+)$`: the suffix begins with the last dot, and the digits are all before it. -/
def splitVolumeName (filename : Name) : Option (Name × Name × Name) :=
  let ext := filename.reverse.takeWhile (· ≠ '.')
  match filename.reverse.dropWhile (· ≠ '.') with
  | [] => none
  | dot :: base =>
      let digits := base.takeWhile chars.isDecimal
      let start := base.dropWhile chars.isDecimal
      if ext ≠ [] ∧ 2 ≤ digits.length ∧ '\n' ∉ start then
        some (start.reverse, digits.reverse, dot :: ext.reverse)
      else none

/-- `expdat\\d+\\.dmp` at the beginning of a text. -/
def startsExpdat (text : Name) : Bool :=
  (text.take 6).map Char.toLower == "expdat".toList &&
    let rest := text.drop 6
    !(rest.takeWhile chars.isDecimal).isEmpty &&
      ((rest.dropWhile chars.isDecimal).take 4).map Char.toLower == ".dmp".toList

/-- `%U` in a text, in either case. -/
def hasPercentU : Name → Bool
  | '%' :: 'U' :: _ => true
  | '%' :: 'u' :: _ => true
  | _ :: rest => hasPercentU rest
  | [] => false

/-- `MULTI_VOLUME_PATTERNS`, for a name that ends in `.dmp`. -/
def isMultiVolume (name : Name) : Bool :=
  let stem := (name.take (name.length - 4)).reverse
  hasPercentU name || name.tails.any (startsExpdat chars) ||
    (stem.take 2).all chars.isDecimal && (stem.drop 2).head? == some '_' ||
    (stem.take 2).all chars.isDecimal && (stem.drop 2).head? == some '.'

/-- `rstrip("_.-")`. -/
def stripEnd (name : Name) : Name := (name.reverse.dropWhile fun c => c == '_' || c == '.' || c == '-').reverse

/-- `a or b`. -/
def orName (a b : Name) : Name := if a = [] then b else a

/-- `filename.rsplit(".", 1)[0]`. -/
def withoutExt (filename : Name) : Name :=
  match filename.reverse.dropWhile (· ≠ '.') with
  | [] => filename
  | _ :: base => base.reverse

/-- `_multi_volume_base`. -/
def multiVolumeBase (filename : Name) : Name :=
  if '%' ∈ filename then orName (stripEnd (filename.takeWhile (· ≠ '%'))) filename
  else match splitVolumeName chars filename with
    | some (start, _, _) => orName (stripEnd start) (withoutExt filename)
    | none => orName (stripEnd (withoutExt filename)) filename

inductive GroupId where
  | multi (base : Name)
  | single (filename : Name)
deriving DecidableEq

/-- The `gid` of a dump. -/
def groupId (filename : Name) : GroupId :=
  if isMultiVolume chars filename = true then .multi (multiVolumeBase chars filename) else .single filename

/-- `groups[gid].dump_files.append(d)`. -/
def addToGroup (filename : Name) : List (GroupId × List Name) → List (GroupId × List Name)
  | [] => [(groupId chars filename, [filename])]
  | (id, names) :: rest =>
      if id = groupId chars filename then (id, names ++ [filename]) :: rest
      else (id, names) :: addToGroup filename rest

/-- The names of the dump files of each group that `classify_artifacts` makes of the names found. -/
def classifyArtifacts (filenames : List Name) : List (GroupId × List Name) :=
  (filenames.filter isDump).foldl (fun groups filename => addToGroup chars filename groups) []

/-! ### The arguments -/

/-- `_percent_u_pattern_from_names`, as what stands before and behind `%U`. -/
def percentUPattern (names : List Name) : Option (Name × Name) :=
  let parsed := names.filterMap (splitVolumeName chars)
  if names.length < 2 ∨ parsed.length < names.length then none
  else match parsed with
    | [] => none
    | (start, digits, suffix) :: _ =>
        if parsed.all fun item => item.1 = start ∧ item.2.2 = suffix ∧ item.2.1.length = digits.length then
          some (start, suffix)
        else none

inductive DumpArgs where
  /-- `--dump`. -/
  | dump (filename : Name)
  /-- `--dump-dir` with `--dumpfile`. -/
  | dumpfile (template : Name)

/-- The names in the order of `sorted`. -/
def sortedNames (names : List Name) : List Name := names.mergeSort fun a b => decide (a ≤ b)

/-- `_dump_args`, where the operator names no file; the paths are the directory with the name. -/
def dumpArgs (names : List Name) : Option DumpArgs :=
  let dumps := sortedNames names
  match percentUPattern chars dumps with
  | some (start, suffix) => some (.dumpfile (start ++ "%U".toList ++ suffix))
  | none => dumps.head?.map .dump

/-! ### The tool -/

inductive Token where
  | literal (c : Char)
  /-- `\\d{2,}`. -/
  | digits
deriving DecidableEq

/-- The escaped template with `\\d{2,}` for `%U`. -/
def tokens : Name → List Token
  | '%' :: 'U' :: rest => .digits :: tokens rest
  | c :: rest => .literal c :: tokens rest
  | [] => []

/-- The tokens match the whole text. -/
def matchesTokens : List Token → Name → Bool
  | [], text => text.isEmpty
  | .literal c :: rest, x :: text => chars.same c x && matchesTokens rest text
  | .literal _ :: _, [] => false
  | .digits :: rest, text => (List.range (text.length + 1)).any fun n =>
      decide (2 ≤ n) && (text.take n).all chars.isDecimal && matchesTokens rest (text.drop n)

/-- `template.upper()`. -/
def upperName (name : Name) : Name := name.flatMap chars.upperChar

/-- `dumpfile_template_to_regex(template).match(name)`; the `$` matches before a last line feed too. -/
def templateMatches (template name : Name) : Bool :=
  matchesTokens chars (tokens (upperName chars template)) name ||
    name.getLast? == some '\n' && matchesTokens chars (tokens (upperName chars template)) name.dropLast

structure DumpSpec where
  sourceFiles : List Name
  dumpfileArg : Name

/-- `"%U" in template.upper()`. -/
def isTemplate (template : Name) : Bool := decide (Token.digits ∈ tokens (upperName chars template))

/-- `resolve_dump_inputs` in a directory; without a file it raises. -/
def resolveDumpInputs (directory : List Name) (args : DumpArgs) : Option DumpSpec :=
  let template := match args with
    | .dump filename => filename
    | .dumpfile template => template
  if isTemplate chars template = true then
    let found := sortedNames (directory.filter (templateMatches chars template))
    if found = [] then none else some { sourceFiles := found, dumpfileArg := template }
  else if template ∈ directory then some { sourceFiles := [template], dumpfileArg := template }
  else none

/-! ### Oracle -/

def digit (d : ℕ) : Char := Char.ofNat (0x30 + d)

/-- A two-digit number. -/
def twoDigits (i : ℕ) : Name := [digit (i / 10 % 10), digit (i % 10)]

/-- The name of the `i`-th file of a `DUMPFILE`. -/
def expand (i : ℕ) : Name → Name
  | '%' :: 'U' :: rest => twoDigits i ++ expand i rest
  | c :: rest => c :: expand i rest
  | [] => []

/-- Oracle reads the files from 01 on, as long as there is a next one. -/
def OracleReads (spec : DumpSpec) (file : Name) : Prop :=
  ∃ i, 1 ≤ i ∧ i ≤ 99 ∧ file = expand i spec.dumpfileArg ∧
    ∀ j, 1 ≤ j → j ≤ i → expand j spec.dumpfileArg ∈ spec.sourceFiles

end RecoveryService.OracleDumps
