import RecoveryService.Lib.Checks
import RecoveryService.Lib.SqlText
import RecoveryService.Lib.Text

/-! # The query of an export

`_clean_export_sql` of `services/query_export.py` with `_clean_select_sql` of `services/doris_sql_etl.py`.
The words that write are looked for between two spaces; a line feed or a bracket beside a word hides it. -/

namespace RecoveryService.QueryExport

open Checks SqlText Text

-- The characters of `\\w`, outside ASCII too.
variable (isAlnum : Char → Bool)

/-! ### The check -/

/-- `_strip_sql`. -/
def stripSql (sql : List Char) : List Char := (stripChars isSpace sql).rdropWhile (· == ';')

/-- A letter of a pattern matches a character under `re.IGNORECASE`. -/
def same (letter c : Char) : Bool :=
  c.toLower == letter || letter == 's' && c == 'ſ' || letter == 'i' && (c == 'İ' || c == 'ı')

/-- A word at the beginning of a text, with `\\b` behind it. -/
def startsWith (word text : List Char) : Bool :=
  decide (List.Forall₂ (fun letter c => same letter c = true) word (text.take word.length)) &&
    !((text.drop word.length).head?.any isAlnum)

/-- `_SELECT_RE.match(clean)`; `\\s` are the spaces of `str.strip`. -/
def isSelect (text : List Char) : Bool :=
  let rest := text.dropWhile isSpace
  startsWith isAlnum "select".toList rest || startsWith isAlnum "with".toList rest

/-- `_clean_select_sql`. -/
def cleanSelectSql (sql : List Char) : Except String (List Char) := do
  raiseIf (¬isSelect isAlnum (stripSql sql)) "Oracle 查询 SQL 首版只允许 SELECT / WITH。"
  return stripSql sql

/-- The words of the check. -/
def writeWords : List (List Char) :=
  ["insert", "update", "delete", "drop", "alter", "create"].map String.toList

/-- `clean.lower()`; no character outside ASCII has a lower case that is part of one of the words. -/
def lowered (text : List Char) : List Char := text.map Char.toLower

/-- One of the words between two spaces. -/
def SpacedWord (text : List Char) : Prop := ∃ word ∈ writeWords, ' ' :: (word ++ [' ']) <:+: lowered text

instance (text : List Char) : Decidable (SpacedWord text) := inferInstanceAs (Decidable (∃ word ∈ _, _))

/-- `_clean_export_sql`. -/
def cleanExportSql (sql : List Char) : Except String (List Char) := do
  let clean ← cleanSelectSql isAlnum sql
  raiseIf (';' ∈ lowered clean ∨ SpacedWord clean) "查询导出仅允许单条只读 SELECT / WITH SQL。"
  return clean

/-! ### Words of the code -/

/-- A character of a name or a keyword, outside of quotes and comments. -/
def isWordPart (x : Mode × Char) : Bool :=
  x.1 == .code && (x.2.isAlphanum || x.2 == '_' || x.2 == '$' || decide (128 ≤ x.2.toNat))

/-- One of the words as a whole token of a text. -/
structure Occurs (text : List Char) (before word after : List (Mode × Char)) : Prop where
  split : lex true .code text = before ++ (word ++ after)
  part : ∀ x ∈ word, isWordPart x = true
  left : ∀ x ∈ before.getLast?, isWordPart x = false
  right : ∀ x ∈ after.head?, isWordPart x = false
  keyword : lowered (word.map Prod.snd) ∈ writeWords

/-- There is a space on both sides. -/
def Spaced (before after : List (Mode × Char)) : Prop :=
  before.getLast?.map Prod.snd = some ' ' ∧ after.head?.map Prod.snd = some ' '

/-- A query that is accepted has none of the words as a token, and no separator. -/
def ReadOnly (sql : List Char) : Prop :=
  ∀ clean, cleanExportSql isAlnum sql = .ok clean →
    (∀ before word after, ¬Occurs clean before word after) ∧ firstSeparator true .code clean = none

/-- Every token among the words has spaces around it; or the text is refused for another reason. -/
def WordsSpaced (text : List Char) : Prop :=
  (∀ before word after, Occurs text before word after → Spaced before after) ∨
    ¬isSelect isAlnum text ∨ ';' ∈ text ∨ SpacedWord text

variable {isAlnum}

theorem semicolon_lowered {text : List Char} : ';' ∈ lowered text ↔ ';' ∈ text := by
  unfold lowered
  rw [List.mem_map]
  constructor
  · rintro ⟨c, hc, hlower⟩
    have hnat := toLower_toNat c
    rw [hlower] at hnat
    have hvalue : ';'.toNat = 59 := rfl
    have heq : c = ';' := by
      rw [← Char.toNat_inj]
      split_ifs at hnat <;> omega
    exact heq ▸ hc
  · intro h
    exact ⟨';', h, by decide⟩

theorem cleanExportSql_ok {sql clean : List Char} : cleanExportSql isAlnum sql = .ok clean ↔
    clean = stripSql sql ∧ isSelect isAlnum clean = true ∧ ';' ∉ clean ∧ ¬SpacedWord clean := by
  unfold cleanExportSql cleanSelectSql
  constructor
  · intro h
    obtain ⟨found, hfound, h⟩ := bind_eq_ok.mp h
    obtain ⟨_, hselect, heq⟩ := bind_eq_ok.mp hfound
    obtain ⟨_, hwords, hclean⟩ := bind_eq_ok.mp h
    cases heq
    cases hclean
    rw [raiseIf_eq_ok] at hselect hwords
    rw [semicolon_lowered, not_or] at hwords
    exact ⟨rfl, not_not.mp hselect, hwords⟩
  · rintro ⟨rfl, hselect, hsemicolon, hword⟩
    refine bind_eq_ok.mpr ⟨stripSql sql, bind_eq_ok.mpr ⟨(), ?_, rfl⟩, bind_eq_ok.mpr ⟨(), ?_, rfl⟩⟩
    · exact raiseIf_eq_ok.mpr (not_not_intro hselect)
    · rw [raiseIf_eq_ok, semicolon_lowered, not_or]
      exact ⟨hsemicolon, hword⟩

/-- A word with spaces around it is found. -/
theorem spacedWord_of_occurs {text : List Char} {before word after : List (Mode × Char)}
    (h : Occurs text before word after) (hspaced : Spaced before after) : SpacedWord text := by
  obtain ⟨x, hx, hleft⟩ := Option.map_eq_some_iff.mp hspaced.1
  obtain ⟨y, hy, hright⟩ := Option.map_eq_some_iff.mp hspaced.2
  obtain ⟨init, rfl⟩ := List.getLast?_eq_some_iff.mp hx
  obtain ⟨tail, rfl⟩ := List.head?_eq_some_iff.mp hy
  have htext := lex_map_snd true .code text
  rw [h.split] at htext
  refine ⟨_, h.keyword, lowered (init.map Prod.snd), lowered (tail.map Prod.snd), ?_⟩
  rw [← htext]
  unfold lowered
  simp only [List.map_append, List.map_cons, List.map_nil, hleft, hright]
  simp

/-- The check is right where the words have spaces around them. -/
theorem cleanExportSql_readOnly_iff (sql : List Char) :
    ReadOnly isAlnum sql ↔ WordsSpaced isAlnum (stripSql sql) := by
  constructor
  · intro h
    by_cases hselect : isSelect isAlnum (stripSql sql) = true
    · by_cases hsemicolon : ';' ∈ stripSql sql
      · exact .inr (.inr (.inl hsemicolon))
      · by_cases hword : SpacedWord (stripSql sql)
        · exact .inr (.inr (.inr hword))
        · have hok := cleanExportSql_ok.mpr ⟨rfl, hselect, hsemicolon, hword⟩
          exact .inl fun before word after hoccurs => absurd hoccurs ((h _ hok).1 before word after)
    · exact .inr (.inl hselect)
  · intro h clean hok
    obtain ⟨rfl, hselect, hsemicolon, hword⟩ := cleanExportSql_ok.mp hok
    refine ⟨fun before word after hoccurs => ?_, ?_⟩
    · rcases h with hspaced | hnot | hmem | hfound
      · exact hword (spacedWord_of_occurs hoccurs (hspaced before word after hoccurs))
      · exact hnot hselect
      · exact hsemicolon hmem
      · exact hword hfound
    · cases hfirst : firstSeparator true .code (stripSql sql) with
      | none => rfl
      | some i =>
          obtain ⟨tail, htail⟩ := firstSeparator_semicolon hfirst
          exact absurd (List.mem_of_mem_drop (htail ▸ List.mem_cons_self)) hsemicolon

/-- An `INSERT` on a line of its own. -/
def insertOnALine : List Char := "with x as (select 1)\ninsert\ninto t select * from x".toList

/-- It is taken for a read-only query. -/
theorem insert_accepted :
    cleanExportSql Char.isAlphanum insertOnALine = .ok insertOnALine ∧ ¬ReadOnly Char.isAlphanum insertOnALine := by
  have hok : cleanExportSql Char.isAlphanum insertOnALine = .ok insertOnALine := by decide +kernel
  refine ⟨hok, fun h => (h _ hok).1 ((lex true .code insertOnALine).take 21)
    (((lex true .code insertOnALine).drop 21).take 6) (((lex true .code insertOnALine).drop 21).drop 6) ?_⟩
  refine ⟨?_, by decide +kernel, by decide +kernel, by decide +kernel, by decide +kernel⟩
  rw [List.take_append_drop, List.take_append_drop]

end RecoveryService.QueryExport
