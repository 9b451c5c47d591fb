import RecoveryService.DataSync.Values
import RecoveryService.Lib.Csv

/-! # The payload of a batch

`_rows_to_csv` writes NULL as the unquoted text `\N`, which the target reads as NULL.  A text `\N` of the
source is written in the same way, unless one of its two characters is a delimiter: then both are
quoted.  `readBack_iff` says when reading gives back what was written. -/

namespace DataSync

/-- A value of a source row; what Python prints for dates, decimals and other objects is given as
text. -/
inductive SourceValue where
  | null
  | str (s : String)
  | datetime (isoformat : String)
  | date (isoformat : String)
  | decimal (text : String)
  | bytes (data : List UInt8)
  | other (text : String)
deriving DecidableEq

/-- A row of a `DictCursor`. -/
abbrev SourceRow := List (String × SourceValue)

/-- `row.get(column)`. -/
def SourceRow.get (row : SourceRow) (column : String) : SourceValue :=
  (row.lookup column).getD .null

/-- What stands for NULL. -/
def nullMarker : String := "\\N"

section

variable (py : Python) (decode : List UInt8 → String)

/-- `_csv_value`, as the text the writer makes of it; `decode` is `bytes.decode` with replacement. -/
def csvValue : SourceValue → String
  | .null => nullMarker
  | .str s => s
  | .datetime isoformat => isoformat
  | .date isoformat => isoformat
  | .decimal text => text
  | .bytes data => decode data
  | .other text => text

def csvFields (rows : List SourceRow) (columns : List String) : List (List (List Char)) :=
  rows.map fun row => columns.map fun column => (csvValue decode (row.get column)).toList

/-- The writer refuses a delimiter that is not a single character. -/
def typeError : Raised := { info := { kind := .other, name := "TypeError" } }

/-- `str(config.get("line_delimiter") or "\n")`. -/
def lineDelimiter (config : Dict) : List Char := (strOr py (config.get "line_delimiter") "\n").toList

/-- `_rows_to_csv`. -/
def rowsToCsv (rows : List SourceRow) (columns : List String) (config : Dict) : Except Raised String :=
  match (strOr py (config.get "field_delimiter") ",").toList with
  | [d] => .ok (String.ofList ((Csv.Dialect.mk d (lineDelimiter py config)).write
      (csvFields decode rows columns)))
  | _ => .error typeError

end

/-! ### Reading the payload -/

/-- The unquoted marker is NULL. -/
def cellOf (token : Csv.Token) : Option String :=
  if token.quoted = false ∧ token.text = nullMarker.toList then none else some (String.ofList token.text)

/-- Read a payload with a reader of the same delimiters. -/
def readBack (D : Csv.Dialect) (payload : String) : Option (List (List (Option String))) :=
  (D.read payload.toList).map fun rows => rows.map fun row => row.map cellOf

section

variable (D : Csv.Dialect) (decode : List UInt8 → String)

/-- What is meant: NULL, or a text. -/
def SourceValue.cell : SourceValue → Option String
  | .null => none
  | value => some (csvValue decode value)

def matrix (rows : List SourceRow) (columns : List String) : List (List (Option String)) :=
  rows.map fun row => columns.map fun column => (row.get column).cell decode

/-- A character of the marker is a delimiter, so that the marker is quoted. -/
def MarkerQuoted : Prop :=
  D.delimiter = '\\' ∨ D.delimiter = 'N' ∨ '\\' ∈ D.terminator ∨ 'N' ∈ D.terminator

instance : Decidable (MarkerQuoted D) := by
  unfold MarkerQuoted
  infer_instance

/-- NULL has no unquoted marker, or the text of another value is the unquoted marker. -/
def Confused (value : SourceValue) : Prop :=
  if MarkerQuoted D then value = .null else value ≠ .null ∧ csvValue decode value = nullMarker

end

variable {D : Csv.Dialect} {decode : List UInt8 → String}

theorem markerQuoted_iff : nullMarker.toList.any D.special = true ↔ MarkerQuoted D := by
  have hmarker : nullMarker.toList = ['\\', 'N'] := rfl
  have hquote : ('\\' ≠ Csv.quote ∧ 'N' ≠ Csv.quote) := by decide
  unfold MarkerQuoted
  rw [hmarker]
  simp only [List.any_cons, List.any_nil, Bool.or_false, Bool.or_eq_true, Csv.Dialect.special,
    decide_eq_true_eq]
  constructor
  · rintro ((h | h | h | h | h) | (h | h | h | h | h))
    · exact Or.inl h.symm
    · exact absurd h hquote.1
    · exact absurd h (by decide)
    · exact absurd h (by decide)
    · exact Or.inr (Or.inr (Or.inl h))
    · exact Or.inr (Or.inl h.symm)
    · exact absurd h hquote.2
    · exact absurd h (by decide)
    · exact absurd h (by decide)
    · exact Or.inr (Or.inr (Or.inr h))
  · rintro (h | h | h | h)
    · exact Or.inl (Or.inl h.symm)
    · exact Or.inr (Or.inl h.symm)
    · exact Or.inl (Or.inr (Or.inr (Or.inr (Or.inr h))))
    · exact Or.inr (Or.inr (Or.inr (Or.inr (Or.inr h))))

/-- A field of the payload is read as NULL when it is the unquoted marker. -/
def fieldCell (D : Csv.Dialect) (field : List Char) : Option String :=
  if field = nullMarker.toList ∧ ¬ MarkerQuoted D then none else some (String.ofList field)

theorem cellOf_field (D : Csv.Dialect) (field : List Char) :
    cellOf ⟨field.any D.special, field⟩ = fieldCell D field := by
  unfold cellOf fieldCell
  by_cases hfield : field = nullMarker.toList
  · have hquoted := @markerQuoted_iff D
    rw [← hfield] at hquoted
    by_cases hspecial : field.any D.special = true
    · rw [if_neg (fun h => Bool.false_ne_true (h.1.symm.trans hspecial)),
        if_neg (fun h => h.2 (hquoted.mp hspecial))]
    · rw [if_pos ⟨Bool.eq_false_iff.mpr hspecial, hfield⟩,
        if_pos ⟨hfield, fun h => hspecial (hquoted.mpr h)⟩]
  · rw [if_neg (fun h => hfield h.2), if_neg (fun h => hfield h.1)]

theorem cells_tokens (D : Csv.Dialect) (fields : List (List Char)) :
    (D.tokens fields).map cellOf = fields.map (fieldCell D) := by
  unfold Csv.Dialect.tokens
  split
  · next h =>
      rw [h]
      rfl
  · rw [List.map_map]
    exact List.map_congr_left fun field _ => cellOf_field D field

theorem cell_of_ne_null {value : SourceValue} (h : value ≠ .null) :
    value.cell decode = some (csvValue decode value) := by
  cases value with
  | null => exact absurd rfl h
  | str | datetime | date | decimal | bytes | other => rfl

theorem fieldCell_iff (value : SourceValue) :
    fieldCell D (csvValue decode value).toList = value.cell decode ↔ ¬ Confused D decode value := by
  unfold fieldCell Confused
  by_cases hquoted : MarkerQuoted D
  · rw [if_neg (fun h => h.2 hquoted), if_pos hquoted, String.ofList_toList]
    by_cases hnull : value = .null
    · rw [hnull]
      exact ⟨fun h => (nomatch h), fun h => absurd rfl h⟩
    · rw [cell_of_ne_null hnull]
      exact ⟨fun _ => hnull, fun _ => rfl⟩
  · rw [if_neg hquoted]
    by_cases hnull : value = .null
    · rw [hnull, if_pos ⟨rfl, hquoted⟩]
      exact ⟨fun _ h => h.1 rfl, fun _ => rfl⟩
    · rw [cell_of_ne_null hnull]
      by_cases hmarker : csvValue decode value = nullMarker
      · rw [if_pos ⟨congrArg String.toList hmarker, hquoted⟩]
        exact ⟨fun h => (nomatch h), fun h => absurd ⟨hnull, hmarker⟩ h⟩
      · rw [if_neg (fun h => hmarker (String.toList_injective h.1)), String.ofList_toList]
        exact ⟨fun _ h => hmarker h.2, fun _ => rfl⟩

/-! ### The round trip -/

variable {py : Python} {config : Dict} {rows : List SourceRow} {columns : List String}

theorem readBack_write (hD : D.Readable) :
    readBack D (String.ofList (D.write (csvFields decode rows columns))) =
      some (rows.map fun row => columns.map fun column =>
        fieldCell D (csvValue decode (row.get column)).toList) := by
  unfold readBack csvFields
  rw [String.toList_ofList, Csv.read_write hD, Option.map_some, List.map_map, List.map_map]
  congr 1
  refine List.map_congr_left fun row _ => ?_
  show (D.tokens _).map cellOf = _
  rw [cells_tokens, List.map_map]
  rfl

/-- Reading gives back the rows exactly when no character of the delimiters has two roles and no value
is confused with NULL. -/
theorem readBack_eq_iff : readBack D (String.ofList (D.write (csvFields decode rows columns))) =
        some (matrix decode rows columns) ↔
      D.Readable ∧ ∀ row ∈ rows, ∀ column ∈ columns, ¬ Confused D decode (row.get column) := by
  by_cases hD : D.Readable
  · rw [readBack_write hD, Option.some.injEq]
    unfold matrix
    rw [List.map_inj_left]
    simp only [List.map_inj_left, fieldCell_iff, hD, true_and]
  · refine ⟨fun h => ?_, fun h => absurd h.1 hD⟩
    unfold readBack at h
    rw [Csv.read_unreadable hD] at h
    cases h

/-- For every single-character delimiter, and rows with any values: the payload is read back as it is
meant exactly when the delimiters are readable and no value is confused with NULL; on such rows the
encoding is injective. -/
theorem payload_faithful_iff {d : Char}
    (hd : (strOr py (config.get "field_delimiter") ",").toList = [d]) (columns : List String) :
    let D : Csv.Dialect := ⟨d, lineDelimiter py config⟩
    (∀ rows, ∃ payload, rowsToCsv py decode rows columns config = .ok payload ∧
      (readBack D payload = some (matrix decode rows columns) ↔
        D.Readable ∧ ∀ row ∈ rows, ∀ column ∈ columns, ¬ Confused D decode (row.get column))) ∧
    ∀ rows rows', D.Readable →
      (∀ row ∈ rows, ∀ column ∈ columns, ¬ Confused D decode (row.get column)) →
      (∀ row ∈ rows', ∀ column ∈ columns, ¬ Confused D decode (row.get column)) →
      rowsToCsv py decode rows columns config = rowsToCsv py decode rows' columns config →
        matrix decode rows columns = matrix decode rows' columns := by
  intro D
  have hwrite : ∀ rows, rowsToCsv py decode rows columns config =
      .ok (String.ofList (D.write (csvFields decode rows columns))) := by
    intro rows
    unfold rowsToCsv
    rw [hd]
  constructor
  · intro rows
    exact ⟨_, hwrite rows, readBack_eq_iff⟩
  · intro rows rows' hD hrows hrows' hsame
    rw [hwrite, hwrite, Except.ok.injEq] at hsame
    have hread := readBack_eq_iff.mpr ⟨hD, hrows⟩
    rw [hsame, readBack_eq_iff.mpr ⟨hD, hrows'⟩] at hread
    exact (Option.some.inj hread).symm

/-- A row with a number and a NULL. -/
theorem payload_faithful_null :
    ∃ payload, rowsToCsv Python.scalars (fun _ => "") [[("id", .other "7"), ("note", .null)]]
        ["id", "note"] [] = .ok payload ∧
      (readBack ⟨',', ['\n']⟩ payload =
          some (matrix (fun _ => "") [[("id", .other "7"), ("note", .null)]] ["id", "note"]) ↔
        Csv.Dialect.Readable ⟨',', ['\n']⟩ ∧
          ∀ row ∈ ([[("id", .other "7"), ("note", .null)]] : List SourceRow),
            ∀ column ∈ ["id", "note"],
              ¬ Confused ⟨',', ['\n']⟩ (fun _ => "") (row.get column)) :=
  (@payload_faithful_iff (fun _ => "") Python.scalars [] ',' rfl ["id", "note"]).1 _

/-- The text `\N` has the payload of NULL, and is read as NULL. -/
theorem marker_read_as_null :
    (rowsToCsv Python.scalars (fun _ => "") [[("note", .str "\\N")]] ["note"] []).toOption =
        some "\\N\n" ∧
      (rowsToCsv Python.scalars (fun _ => "") [[("note", .null)]] ["note"] []).toOption =
        some "\\N\n" ∧
      readBack ⟨',', ['\n']⟩ "\\N\n" = some [[none]] ∧
      matrix (fun _ => "") [[("note", .str "\\N")]] ["note"] = [[some "\\N"]] := by
  decide +kernel

end DataSync
