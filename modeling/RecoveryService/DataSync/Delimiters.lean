import RecoveryService.DataSync.Config
import RecoveryService.DataSync.CsvRows
import RecoveryService.DataSync.StreamLoad
import RecoveryService.Lib.Checks

/-! # The delimiters announced to Doris

The headers of a Stream Load write line feeds, carriage returns and tabs as escapes, which
`_decode_delimiter` takes back.  A decoded text has no escape any more: decoding it again changes nothing,
and what is announced for it is decoded to it. -/

namespace DataSync

open Checks

/-- No `c` stands behind a backslash. -/
def Unescaped (c : Char) (s : List Char) : Prop := s.IsChain fun a b => a = '\\' → b ≠ c

/-- `text.replace(r, "\\" + c)`. -/
def escape (c r : Char) (s : List Char) : List Char := s.flatMap fun d => if d = r then ['\\', c] else [d]

variable {c d r : Char} {s : List Char}

theorem replaceEscape_plain {a : Char} (hplain : ∀ b ∈ s.head?, a = '\\' → b ≠ c) :
    replaceEscape c r (a :: s) = a :: replaceEscape c r s := by
  by_cases ha : a = '\\'
  · subst ha
    cases s with
    | nil => rfl
    | cons b s => rw [replaceEscape, if_neg (hplain b rfl rfl)]
  · exact replaceEscape.eq_2 c r a s fun _ _ h => absurd h ha

theorem replaceEscape_escape (rest : List Char) :
    replaceEscape c r ('\\' :: c :: rest) = r :: replaceEscape c r rest := by
  rw [replaceEscape, if_pos rfl]

/-- What stands first behind a replacement is what stood first, or stands for an escape. -/
theorem head_replaceEscape {b : Char} (h : b ∈ (replaceEscape c r s).head?) : b = r ∨ b ∈ s.head? := by
  fun_cases replaceEscape c r s
  · next rest =>
      rw [replaceEscape_escape] at h
      exact .inl (Option.some.inj h).symm
  · next rest hne =>
      rw [replaceEscape, if_neg hne] at h
      exact .inr h
  · next a rest hplain =>
      rw [replaceEscape.eq_2 _ _ _ _ hplain] at h
      exact .inr h
  · exact .inr h

theorem Unescaped.cons_replaceEscape {a : Char} (hr : r ≠ d) (ha : ∀ b ∈ s.head?, a = '\\' → b ≠ d)
    (ih : Unescaped d (replaceEscape c r s)) : Unescaped d (a :: replaceEscape c r s) := by
  refine List.isChain_cons.mpr ⟨fun b hb hslash => ?_, ih⟩
  rcases head_replaceEscape hb with rfl | hb
  · exact hr
  · exact ha b hb hslash

/-- A replacement keeps a text without other escapes. -/
theorem Unescaped.replaceEscape (hslash : r ≠ '\\') (hr : r ≠ d) (h : Unescaped d s) :
    Unescaped d (replaceEscape c r s) := by
  fun_induction DataSync.replaceEscape c r s with
  | case1 rest ih =>
      exact .cons_replaceEscape hr (fun b _ h => absurd h hslash) (ih h.tail.tail)
  | case2 e rest _ ih => exact .cons_replaceEscape hr (List.isChain_cons.mp h).1 (ih h.tail)
  | case3 a rest _ ih => exact .cons_replaceEscape hr (List.isChain_cons.mp h).1 (ih h.tail)
  | case4 => exact List.isChain_nil

/-- No escape is left. -/
theorem unescaped_replaceEscape (hslash : r ≠ '\\') (hr : r ≠ c) (s : List Char) :
    Unescaped c (replaceEscape c r s) := by
  fun_induction replaceEscape c r s with
  | case1 rest ih => exact .cons_replaceEscape hr (fun b _ h => absurd h hslash) ih
  | case2 e rest hne ih =>
      exact .cons_replaceEscape hr (fun b hb _ he => hne ((Option.some.inj hb).trans he)) ih
  | case3 a rest hplain ih =>
      refine .cons_replaceEscape hr (fun b hb h => ?_) ih
      obtain ⟨tail, rfl⟩ := List.head?_eq_some_iff.mp hb
      exact (hplain b tail h rfl).elim
  | case4 => exact List.isChain_nil

theorem replaceEscape_eq (h : Unescaped c s) : replaceEscape c r s = s := by
  induction s with
  | nil => rfl
  | cons a s ih =>
      obtain ⟨hhead, htail⟩ := List.isChain_cons.mp h
      rw [replaceEscape_plain hhead, ih htail]

/-! ### Writing escapes -/

theorem escape_cons (a : Char) : escape c r (a :: s) = (if a = r then ['\\', c] else [a]) ++ escape c r s :=
  rfl

theorem head_escape {b : Char} (h : b ∈ (escape c r s).head?) : b = '\\' ∨ b ∈ s.head? := by
  cases s with
  | nil => exact .inr h
  | cons a s =>
      rw [escape_cons] at h
      split_ifs at h
      · exact .inl (Option.some.inj h).symm
      · exact .inr h

/-- What is written for a text without escapes is taken back. -/
theorem replaceEscape_escaped (h : Unescaped c s) (hc : c ≠ '\\') : replaceEscape c r (escape c r s) = s := by
  induction s with
  | nil => rfl
  | cons a s ih =>
      obtain ⟨hhead, htail⟩ := List.isChain_cons.mp h
      rw [escape_cons]
      split_ifs with ha
      · rw [List.cons_append, List.singleton_append, replaceEscape_escape, ih htail, ha]
      · rw [List.singleton_append, replaceEscape_plain fun b hb hslash => ?_, ih htail]
        rcases head_escape hb with rfl | hb
        · exact hc.symm
        · exact hhead b hb hslash

/-- Writing one kind of escape makes no other one. -/
theorem Unescaped.escape (hd : d ≠ '\\') (hc : c ≠ '\\') (hne : c ≠ d) (h : Unescaped d s) :
    Unescaped d (escape c r s) := by
  induction s with
  | nil => exact List.isChain_nil
  | cons a s ih =>
      obtain ⟨hhead, htail⟩ := List.isChain_cons.mp h
      have hbehind {e : Char} (he : e = '\\' → ∀ b ∈ s.head?, b ≠ d) :
          Unescaped d (e :: DataSync.escape c r s) := by
        refine List.isChain_cons.mpr ⟨fun b hb hslash => ?_, ih htail⟩
        rcases head_escape hb with rfl | hb
        · exact hd.symm
        · exact he hslash b hb
      rw [escape_cons]
      split_ifs
      · exact List.isChain_cons_cons.mpr ⟨fun _ => hne, hbehind fun h => absurd h hc⟩
      · exact hbehind fun hslash b hb => hhead b hb hslash

/-! ### The two functions -/

/-- The three replacements. -/
def decoded (s : List Char) : List Char :=
  replaceEscape 'r' '\r' (replaceEscape 'n' '\n' (replaceEscape 't' '\t' s))

/-- A text without the escapes that are replaced. -/
def Plain (s : List Char) : Prop := Unescaped 't' s ∧ Unescaped 'n' s ∧ Unescaped 'r' s

theorem plain_decoded (s : List Char) : Plain (decoded s) := by
  refine ⟨?_, ?_, ?_⟩
  · exact ((unescaped_replaceEscape (by decide) (by decide) s).replaceEscape (by decide) (by decide)).replaceEscape
      (by decide) (by decide)
  · exact (unescaped_replaceEscape (by decide) (by decide) _).replaceEscape (by decide) (by decide)
  · exact unescaped_replaceEscape (by decide) (by decide) _

theorem Plain.decoded_eq (h : Plain s) : decoded s = s := by
  unfold decoded
  rw [replaceEscape_eq h.1, replaceEscape_eq h.2.1, replaceEscape_eq h.2.2]

theorem headerDelimiter_eq (text : String) :
    headerDelimiter text = String.ofList (escape 't' '\t' (escape 'n' '\n' (escape 'r' '\r' text.toList))) := by
  unfold headerDelimiter escape
  rw [List.flatMap_assoc, List.flatMap_assoc]
  congr 2
  funext a
  split_ifs with hr hn ht <;> simp_all

variable {text : String}

theorem Plain.decoded_header (h : Plain text.toList) : decoded (headerDelimiter text).toList = text.toList := by
  rw [headerDelimiter_eq, String.toList_ofList]
  unfold decoded
  rw [replaceEscape_escaped _ (by decide), replaceEscape_escaped _ (by decide),
    replaceEscape_escaped h.2.2 (by decide)]
  · exact h.2.1.escape (by decide) (by decide) (by decide)
  · exact (h.1.escape (by decide) (by decide) (by decide)).escape (by decide) (by decide) (by decide)

/-! ### What is announced -/

section

variable (py : Python) (http : Http)

/-- The text the writer takes its delimiter from. -/
def columnDelimiter (config : Dict) : List Char := (strOr py (config.get "field_delimiter") ",").toList

/-- Doris decodes the headers to what the payload is written with. -/
def Announced (password : String) (columns : List String) (config : Dict) : Prop :=
  ∃ column line, (baseHeaders py http password columns config).lookup "column_separator" = some column ∧
    (baseHeaders py http password columns config).lookup "line_delimiter" = some line ∧
    (decodeDelimiter py (.str column)).toList = columnDelimiter py config ∧
    (decodeDelimiter py (.str line)).toList = lineDelimiter py config

/-- The delimiters of a configuration that was normalised. -/
def Decodes (config clean : Dict) : Prop :=
  clean.get "field_delimiter" = .str (decodeDelimiter py (orElse (config.get "field_delimiter") (.str ","))) ∧
  clean.get "line_delimiter" = .str (decodeDelimiter py (orElse (config.get "line_delimiter") (.str "\\n")))

end

variable {py : Python} {http : Http} {fresh : ℕ → String} {maxTableParallelism : ℤ} {config : Dict}
  {items : List Dict} {normalized : Normalized}

theorem decodeDelimiter_str (text : String) :
    decodeDelimiter py (.str text) = String.ofList (decoded text.toList) := by
  unfold decodeDelimiter
  rw [strOr_str]
  rfl

theorem decodeDelimiter_of_plain (h : Plain text.toList) : decodeDelimiter py (.str text) = text := by
  rw [decodeDelimiter_str, h.decoded_eq, String.ofList_toList]

theorem plain_decodeDelimiter (value : Json) : Plain (decodeDelimiter py value).toList := by
  unfold decodeDelimiter
  rw [String.toList_ofList]
  exact plain_decoded _

theorem decodeDelimiter_header (h : Plain text.toList) :
    decodeDelimiter py (.str (headerDelimiter text)) = text := by
  rw [decodeDelimiter_str, h.decoded_header, String.ofList_toList]

/-- A value that `_decode_delimiter` has written, or its default. -/
theorem plain_strOr {default : String} (h : Plain text.toList) (hdefault : Plain default.toList) :
    Plain (strOr py (.str text) default).toList := by
  unfold strOr
  split_ifs
  · rw [py.str_str]
    exact h
  · exact hdefault

theorem strOr_again {raw default : String} (h : Plain text.toList)
    (hraw : decodeDelimiter py (.str raw) = default) :
    strOr py (.str (decodeDelimiter py (orElse (.str text) (.str raw)))) default = strOr py (.str text) default := by
  unfold orElse
  split_ifs with htext
  · rw [decodeDelimiter_of_plain h]
  · rw [hraw]
    unfold strOr
    rw [if_neg htext, py.str_str, ite_self]

theorem normalizeSettings_delimiters {clean : Dict} (h : normalizeSettings py config = .ok clean) : Decodes py config clean := by
  unfold normalizeSettings at h
  dsimp only at h
  split_ifs at h
  obtain ⟨_, -, h⟩ := bind_eq_ok.mp h
  obtain ⟨_, -, h⟩ := bind_eq_ok.mp h
  obtain ⟨_, -, h⟩ := bind_eq_ok.mp h
  obtain ⟨_, -, h⟩ := bind_eq_ok.mp h
  obtain ⟨_, -, h⟩ := bind_eq_ok.mp h
  obtain ⟨_, -, h⟩ := bind_eq_ok.mp h
  obtain ⟨_, -, h⟩ := bind_eq_ok.mp h
  obtain ⟨_, -, h⟩ := bind_eq_ok.mp h
  cases h
  simp [Decodes, Dict.get_set_ne]

theorem normalizeBatch_delimiters (h : normalizeBatch py fresh maxTableParallelism config items = .ok normalized) :
    Decodes py config normalized.config := by
  unfold normalizeBatch at h
  obtain ⟨clean, hclean, h⟩ := bind_eq_ok.mp h
  obtain ⟨_, -, h⟩ := bind_eq_ok.mp h
  obtain ⟨_, -, h⟩ := bind_eq_ok.mp h
  cases h
  simpa [Decodes, Dict.get_set_ne] using normalizeSettings_delimiters hclean

theorem orElse_orElse (value other : Json) : orElse (orElse value other) other = orElse value other := by
  unfold orElse
  split_ifs <;> rfl

theorem normalizeConfig_delimiters
    (h : normalizeConfig py fresh maxTableParallelism config items = .ok normalized) :
    Decodes py config normalized.config := by
  unfold normalizeConfig at h
  split_ifs at h
  · exact normalizeBatch_delimiters h
  · unfold legacyToBatchConfig at h
    obtain ⟨_, -, h⟩ := bind_eq_ok.mp h
    obtain ⟨hcolumn, hline⟩ := normalizeBatch_delimiters h
    refine ⟨hcolumn.trans ?_, hline.trans ?_⟩
    · exact congrArg (fun value => Json.str (decodeDelimiter py value)) (orElse_orElse _ _)
    · exact congrArg (fun value => Json.str (decodeDelimiter py value)) (orElse_orElse _ _)

theorem announced_of_plain {column line : String} (hcolumn : config.get "field_delimiter" = .str column)
    (hplain : Plain column.toList) (hline : config.get "line_delimiter" = .str line)
    (hplain' : Plain line.toList) (password : String) (columns : List String) :
    Announced py http password columns config := by
  refine ⟨_, _, rfl, rfl, ?_, ?_⟩
  · rw [decodeDelimiter_header (by rw [hcolumn]; exact plain_strOr hplain (by simp [Plain, Unescaped]))]
    rfl
  · rw [decodeDelimiter_header (by rw [hline]; exact plain_strOr hplain' (by simp [Plain, Unescaped]))]
    rfl

/-- A delimiter is decoded once for all: what is announced for it is decoded to it, and so are the headers for
every configuration that was normalised, however often. -/
theorem delimiters_announced (py : Python) (http : Http) (fresh : ℕ → String) (maxTableParallelism : ℤ) :
    (∀ s, decodeDelimiter py (.str (headerDelimiter (decodeDelimiter py s))) = decodeDelimiter py s) ∧
    (∀ s, decodeDelimiter py (.str (decodeDelimiter py s)) = decodeDelimiter py s) ∧
    ∀ config items normalized, normalizeConfig py fresh maxTableParallelism config items = .ok normalized →
      (∀ password columns, Announced py http password columns normalized.config) ∧
      ∀ others again, normalizeConfig py fresh maxTableParallelism normalized.config others = .ok again →
        columnDelimiter py again.config = columnDelimiter py normalized.config ∧
          lineDelimiter py again.config = lineDelimiter py normalized.config := by
  refine ⟨fun s => decodeDelimiter_header (plain_decodeDelimiter s),
    fun s => decodeDelimiter_of_plain (plain_decodeDelimiter s), fun config items normalized h => ?_⟩
  obtain ⟨hcolumn, hline⟩ := normalizeConfig_delimiters h
  have hplain := @plain_decodeDelimiter py (orElse (config.get "field_delimiter") (.str ","))
  have hplain' := @plain_decodeDelimiter py (orElse (config.get "line_delimiter") (.str "\\n"))
  refine ⟨announced_of_plain hcolumn hplain hline hplain', fun others again hagain => ?_⟩
  obtain ⟨hcolumn', hline'⟩ := normalizeConfig_delimiters hagain
  rw [hcolumn] at hcolumn'
  rw [hline] at hline'
  unfold columnDelimiter lineDelimiter
  rw [hcolumn, hline, hcolumn', hline', strOr_again hplain (by rw [decodeDelimiter_str]; rfl),
    strOr_again hplain' (by rw [decodeDelimiter_str]; rfl)]
  exact ⟨rfl, rfl⟩

/-- A task with one table whose delimiters are written as escapes. -/
def escapedDelimiters : Dict :=
  [("source_connection_id", .str "c"), ("source_database", .str "s"), ("source_table", .str "t"),
    ("target_connection_id", .str "c"), ("target_database", .str "d"), ("target_table", .str "t"),
    ("field_delimiter", .str "\\t"), ("line_delimiter", .str "\\r\\n")]

theorem delimiters_announced_escaped :
    ∃ normalized, normalizeConfig Python.scalars (fun _ => "id") 4 escapedDelimiters [] = .ok normalized ∧
      normalized.config.get "line_delimiter" = .str "\r\n" ∧
      ∀ http password columns, Announced Python.scalars http password columns normalized.config := by
  have hrun : ∃ normalized, normalizeConfig Python.scalars (fun _ => "id") 4 escapedDelimiters [] = .ok normalized ∧
      normalized.config.get "line_delimiter" = .str "\r\n" := ⟨_, rfl, rfl⟩
  obtain ⟨normalized, h, hline⟩ := hrun
  exact ⟨normalized, h, hline, fun http =>
    ((delimiters_announced Python.scalars http (fun _ => "id") 4).2.2 escapedDelimiters [] normalized h).1⟩

end DataSync
