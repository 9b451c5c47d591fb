import RecoveryService.DataSync.ExecuteTable
import RecoveryService.Lib.Quoted
import RecoveryService.Lib.SqlText

/-! # The query for an Oracle source

The query is written with MySQL's quotes, and for an Oracle source `re.sub` turns what stands between
two backquotes into a name in double quotes (`oracleQuotes`).  A quoted name is rewritten as a whole
(`go_quote`), but so is a pair of backquotes in a fixed value, and the backslashes of the value stay
doubled.  `oracleSelect_iff` says when the query selects the columns that are meant. -/

namespace DataSync

open Program

/-! ### The select list -/

/-- What a column of the target gets: a column of the source, a number as it is printed, a text, or
`NULL`. -/
inductive SelectExpr where
  | source (name : String)
  | bare (text : String)
  | text (s : String)
  | null

/-- An expression and the target column it is selected for. -/
abbrev SelectColumn := SelectExpr × String

section

variable (py : Python)

/-- What is selected for a mapping with the source name and the fixed value. -/
def exprOf (sourceName : String) (fixedValue : Json) : SelectExpr :=
  if sourceName ≠ "" then .source sourceName
  else
    match fixedValue with
    | .null => .null
    | .str s => if s = "" then .null else .text s
    | .bool b => .bare (if b then "1" else "0")
    | .num n => .bare (py.str (.num n))
    | .float t => .bare (py.str (.float t))
    | value => .text (py.str value)

/-- The column of a mapping; a disabled one has none. -/
def selectColumn (item : Json) : Option SelectColumn :=
  if ¬ (item.getOr "enabled" (.bool true)).truthy then none
  else some (exprOf py (Text.strip (strOr py (item.get "source_name") "")) (item.get "fixed_value"),
    Text.strip (strOr py (item.get "target_name") ""))

/-- The mappings of a table: those given, or the columns of the source. -/
def tableMappings (mapping : Dict) : List Json :=
  let columnMappings := ((mapping.get "column_mappings").toList).getD []
  if columnMappings.isEmpty then
    (((mapping.get "source_columns").toList).getD []).map fun column =>
      .obj [("target_name", column.get "name"), ("source_name", column.get "name"),
        ("enabled", .bool true)]
  else columnMappings

/-- The pairs a mapping means. -/
def selectColumns (mapping : Dict) : List SelectColumn := (tableMappings mapping).filterMap (selectColumn py)

end

/-- The text of MySQL; backslashes are doubled in a literal. -/
def SelectExpr.mysql : SelectExpr → String
  | .source name => quote name
  | .bare t => t
  | .text s => "'" ++ String.ofList (s.toList.flatMap fun c =>
      if c = '\\' then ['\\', '\\'] else if c = Char.ofNat 39 then [c, c] else [c]) ++ "'"
  | .null => "NULL"

def mysqlItem (column : SelectColumn) : String := column.1.mysql ++ " AS " ++ quote column.2

/-- The query of `_execute_one_table`. -/
def sourceSql (engine : Engine) (schema table : String) (selectItems : List String) : String :=
  let sql := "SELECT " ++ String.intercalate ", " selectItems ++ " FROM " ++ quote schema ++ "." ++
    quote table
  if engine = .oracle then oracleQuotes sql else sql

variable {py : Python}

theorem cleanExistingIdentifier_eq {value : Json} {label name : String}
    (h : cleanExistingIdentifier py value label = .ok name) : name = Text.strip (strOr py value "") := by
  unfold cleanExistingIdentifier at h
  simp only at h
  split_ifs at h
  cases h
  rfl

/-- A mapping adds its column to the select list. -/
theorem selectItem_items {sourceNames : List String} {acc acc' : SelectItems} {item : Json}
    (h : selectItem py sourceNames acc item = .ok acc') :
    acc'.items = acc.items ++ ((selectColumn py item).toList.map mysqlItem) := by
  unfold selectItem at h
  unfold selectColumn
  by_cases henabled : ¬ (item.getOr "enabled" (.bool true)).truthy
  · rw [if_pos henabled] at h ⊢
    cases h
    exact (List.append_nil _).symm
  · rw [if_neg henabled] at h ⊢
    obtain ⟨targetName, htarget, h⟩ := returns_bind h
    have hname := cleanExistingIdentifier_eq htarget
    rw [← hname]
    simp only at h
    by_cases hseen : py.lower targetName ∈ acc.seen
    · rw [if_pos hseen] at h
      cases h
    rw [if_neg hseen] at h
    unfold exprOf
    by_cases hsource : Text.strip (strOr py (item.get "source_name") "") ≠ ""
    · rw [if_pos hsource] at h ⊢
      obtain ⟨_, -, h⟩ := returns_bind h
      split_ifs at h
      cases h
      rfl
    · rw [if_neg hsource] at h ⊢
      revert h
      cases item.get "fixed_value" with
      | str s =>
          intro h
          by_cases hs : s = ""
          · rw [hs] at h ⊢
            cases h
            rfl
          · split at h
            · next heq => cases heq
            · next heq => exact absurd (Json.str.inj heq) hs
            · cases h
              have htext : sqlLiteral py (.str s) = (SelectExpr.text s).mysql := by
                simp only [sqlLiteral, SelectExpr.mysql, py.str_str]
              simp only [if_neg hs, Option.toList_some, List.map_cons, List.map_nil, mysqlItem, htext]
      | null | bool | num | float | arr | obj =>
          intro h
          cases h
          rfl

theorem foldlM_items {sourceNames : List String} {items : List Json} {acc acc' : SelectItems}
    (h : items.foldlM (selectItem py sourceNames) acc = .ok acc') :
    acc'.items = acc.items ++ (items.filterMap (selectColumn py)).map mysqlItem := by
  induction items generalizing acc with
  | nil =>
      cases h
      exact (List.append_nil _).symm
  | cons item items ih =>
      rw [List.foldlM_cons] at h
      obtain ⟨next, hnext, hrest⟩ := returns_bind h
      rw [ih hrest, selectItem_items hnext, List.append_assoc, ← List.map_append]
      congr 2
      cases hcolumn : selectColumn py item with
      | none => rw [List.filterMap_cons_none hcolumn]; rfl
      | some column => rw [List.filterMap_cons_some hcolumn]; rfl

/-- The select list of a mapping that is accepted. -/
theorem mappingSelectItems_items {mapping : Dict} {items targets : List String}
    (h : mappingSelectItems py mapping = .ok (items, targets)) :
    items = (selectColumns py mapping).map mysqlItem := by
  unfold mappingSelectItems at h
  simp only at h
  obtain ⟨acc, hacc, h⟩ := returns_bind h
  have hitems := foldlM_items hacc
  split_ifs at h
  cases h
  exact hitems

/-! ### Reading the query -/

def backquote : Char := Char.ofNat 96

def doubleQuote : Char := Char.ofNat 34

def singleQuote : Char := Char.ofNat 39

/-- The text stands for the expression: a quoted name, a number, or a literal that Oracle reads as
the text. -/
def SelectExpr.Denoted (text : List Char) : SelectExpr → Prop
  | .source name => Quoted.read doubleQuote text = some name.toList
  | .bare t => text = t.toList
  | .text s => Quoted.read singleQuote text = some s.toList
  | .null => text = "NULL".toList

def DenotesColumn (text : List Char) (column : SelectColumn) : Prop :=
  ∃ expr name, text = expr ++ (" AS ".toList ++ name) ∧ column.1.Denoted expr ∧
    Quoted.read doubleQuote name = some column.2.toList

/-- The query selects the columns. -/
def Selects (sql : String) (columns : List SelectColumn) : Prop :=
  ∃ texts rest, sql.toList =
      "SELECT ".toList ++ (List.intercalate ", ".toList texts ++ (" FROM ".toList ++ rest)) ∧
    List.Forall₂ DenotesColumn texts columns

/-- The only text of an expression. -/
def SelectExpr.oracle : SelectExpr → List Char
  | .source name => Quoted.enclose doubleQuote name.toList
  | .bare t => t.toList
  | .text s => Quoted.enclose singleQuote s.toList
  | .null => "NULL".toList

def oracleItem (column : SelectColumn) : List Char :=
  column.1.oracle ++ (" AS ".toList ++ Quoted.enclose doubleQuote column.2.toList)

theorem denoted_iff {text : List Char} {expr : SelectExpr} : expr.Denoted text ↔ text = expr.oracle := by
  cases expr with
  | source name | text s => exact Quoted.read_iff
  | bare t | null => exact Iff.rfl

theorem denotesColumn_iff {text : List Char} {column : SelectColumn} :
    DenotesColumn text column ↔ text = oracleItem column := by
  constructor
  · rintro ⟨expr, name, rfl, hexpr, hname⟩
    rw [denoted_iff.mp hexpr, Quoted.read_iff.mp hname]
    rfl
  · intro h
    exact ⟨_, _, h, denoted_iff.mpr rfl, Quoted.read_iff.mpr rfl⟩

theorem selects_iff {sql : String} {columns : List SelectColumn} :
    Selects sql columns ↔ ∃ rest, sql.toList = "SELECT ".toList ++
      (List.intercalate ", ".toList (columns.map oracleItem) ++ (" FROM ".toList ++ rest)) := by
  have hitems : ∀ texts : List (List Char),
      List.Forall₂ DenotesColumn texts columns ↔ texts = columns.map oracleItem := by
    intro texts
    have hrel : DenotesColumn = fun text column => text = oracleItem column := by
      funext text column
      exact propext denotesColumn_iff
    rw [hrel, ← List.forall₂_map_right_iff, List.forall₂_eq_eq_eq]
  constructor
  · rintro ⟨texts, rest, hsql, htexts⟩
    rw [(hitems texts).mp htexts] at hsql
    exact ⟨rest, hsql⟩
  · rintro ⟨rest, hsql⟩
    exact ⟨_, rest, hsql, (hitems _).mpr rfl⟩

/-! ### What `re.sub` makes of the query -/

/-- A doubled backquote closes a match and opens the next one, whose two quotes meet. -/
def swapQuote (c : Char) : Char := if c = backquote then doubleQuote else c

def escapeLiteral (c : Char) : List Char :=
  if c = '\\' then ['\\', '\\'] else if c = singleQuote then [c, c] else [c]

theorem quote_toList (name : String) : (quote name).toList = Quoted.enclose backquote name.toList := by
  unfold quote
  simp only [String.toList_append, String.toList_ofList]
  rfl

theorem text_toList (s : String) : (SelectExpr.text s).mysql.toList =
    singleQuote :: (s.toList.flatMap escapeLiteral ++ [singleQuote]) := by
  unfold SelectExpr.mysql
  simp only [String.toList_append, String.toList_ofList]
  rfl

theorem escapeLiteral_eq {c : Char} (hc : c ≠ '\\') : escapeLiteral c = Quoted.double singleQuote c := by
  unfold escapeLiteral Quoted.double
  rw [if_neg hc]
  split_ifs with hquote
  · rw [hquote]
  · rfl

theorem double_backquote {c : Char} (hc : c ≠ backquote) : backquote ∉ Quoted.double singleQuote c := by
  unfold Quoted.double
  split_ifs
  · decide
  · exact fun h => hc (List.mem_singleton.mp h).symm

namespace oracleQuotes

theorem go_cons {c : Char} (hc : c ≠ backquote) (rest : List Char) :
    go none (c :: rest) = c :: go none rest := by
  rw [go]
  exact if_neg hc

theorem go_backquote (rest : List Char) : go none (backquote :: rest) = go (some []) rest := by
  rw [go]
  exact if_pos rfl

theorem go_name_cons {c : Char} (hc : c ≠ backquote) (name rest : List Char) :
    go (some name) (c :: rest) = go (some (c :: name)) rest := by
  rw [go]
  exact if_neg hc

theorem go_name_backquote (name rest : List Char) : go (some name) (backquote :: rest) =
    doubleQuote :: (name.reverse.flatMap (Quoted.double doubleQuote) ++
      doubleQuote :: go none rest) := by
  have hdouble : (fun d => if d = doubleQuote then [d, d] else [d]) = Quoted.double doubleQuote := by
    funext d
    unfold Quoted.double
    split_ifs with hd
    · rw [hd]
    · rfl
  rw [go, if_pos (show backquote = Char.ofNat 96 from rfl), ← hdouble]
  rfl

/-- A text without backquotes stays as it is. -/
theorem go_append {s : List Char} (hs : backquote ∉ s) (rest : List Char) :
    go none (s ++ rest) = s ++ go none rest := by
  induction s with
  | nil => rfl
  | cons c s ih =>
      rw [List.mem_cons, not_or] at hs
      rw [List.cons_append, go_cons (Ne.symm hs.1), ih hs.2, List.cons_append]

/-- A backquote that finds another one becomes a double quote. -/
theorem go_name_head {rest : List Char} (hrest : backquote ∈ rest) (name : List Char) :
    (go (some name) rest).head? = some doubleQuote := by
  induction rest generalizing name with
  | nil => cases hrest
  | cons c rest ih =>
      by_cases hc : c = backquote
      · rw [hc, go_name_backquote]
        rfl
      · rw [go_name_cons hc]
        exact ih ((List.mem_cons.mp hrest).resolve_left (Ne.symm hc)) _

theorem go_name_quote (name s rest : List Char) :
    go (some name) (s.flatMap (Quoted.double backquote) ++ backquote :: rest) =
      doubleQuote :: ((name.reverse ++ s.map swapQuote).flatMap (Quoted.double doubleQuote) ++
        doubleQuote :: go none rest) := by
  induction s generalizing name with
  | nil =>
      rw [List.map_nil, List.append_nil]
      exact go_name_backquote name rest
  | cons c s ih =>
      rw [List.flatMap_cons, List.map_cons, List.append_assoc]
      by_cases hc : c = backquote
      · have hswap : swapQuote backquote = doubleQuote := if_pos rfl
        rw [hc, Quoted.double_self, List.cons_append, List.singleton_append, go_name_backquote,
          go_backquote, ih, hswap, List.reverse_nil, List.nil_append, List.flatMap_append,
          List.flatMap_cons, Quoted.double_self, List.append_assoc]
        rfl
      · have hswap : swapQuote c = c := if_neg hc
        rw [Quoted.double_ne hc, List.singleton_append, go_name_cons hc, ih, hswap,
          List.reverse_cons, List.append_assoc, List.singleton_append]

/-- A quoted name is quoted for Oracle, its backquotes turned to double quotes. -/
theorem go_quote (s rest : List Char) : go none (Quoted.enclose backquote s ++ rest) =
    Quoted.enclose doubleQuote (s.map swapQuote) ++ go none rest := by
  rw [Quoted.enclose_append, Quoted.enclose_append, go_backquote, go_name_quote]
  rfl

/-- A number is kept only without backquotes, as long as another backquote follows. -/
theorem go_bare {t x y : List Char} (hx : backquote ∈ x) (h : go none (t ++ x) = t ++ y) :
    backquote ∉ t ∧ go none x = y := by
  induction t with
  | nil => exact ⟨nofun, h⟩
  | cons c t ih =>
      rw [List.cons_append, List.cons_append] at h
      by_cases hc : c = backquote
      · rw [hc, go_backquote] at h
        have hhead := go_name_head (List.mem_append_right t hx) []
        rw [h, List.head?_cons, Option.some.injEq] at hhead
        exact absurd hhead (by decide)
      · rw [go_cons hc, List.cons.injEq] at h
        obtain ⟨hmem, hrest⟩ := ih h.2
        exact ⟨List.not_mem_cons_of_ne_of_not_mem (Ne.symm hc) hmem, hrest⟩

theorem replicate_ahead {j : ℕ} {c : Char} {u v : List Char} (hc : c ≠ '\\')
    (h : List.replicate j '\\' ++ u = c :: v) : j = 0 := by
  cases j with
  | zero => rfl
  | succ j =>
      rw [List.replicate_succ, List.cons_append, List.cons.injEq] at h
      exact absurd h.1.symm hc

/-- A text is kept only without backquotes and backslashes: each backslash puts the query one further
ahead of the literal (`j`), until the backslashes end. -/
theorem go_text {s x y : List Char} (hx : backquote ∈ x) {j : ℕ}
    (h : List.replicate j '\\' ++ go none (s.flatMap escapeLiteral ++ singleQuote :: x) =
      s.flatMap (Quoted.double singleQuote) ++ singleQuote :: y) :
    j = 0 ∧ (backquote ∉ s ∧ '\\' ∉ s) ∧ go none x = y := by
  induction s generalizing j with
  | nil =>
      rw [List.flatMap_nil, List.flatMap_nil, List.nil_append, List.nil_append,
        go_cons (by decide)] at h
      have hj := replicate_ahead (by decide) h
      rw [hj, List.replicate_zero, List.nil_append, List.cons.injEq] at h
      exact ⟨hj, ⟨nofun, nofun⟩, h.2⟩
  | cons c s ih =>
      rw [List.flatMap_cons, List.flatMap_cons, List.append_assoc, List.append_assoc] at h
      by_cases hslash : c = '\\'
      · have hescape : escapeLiteral '\\' = ['\\', '\\'] := rfl
        have hdouble : Quoted.double singleQuote '\\' = ['\\'] := rfl
        rw [hslash, hescape, hdouble, List.cons_append, List.singleton_append, List.singleton_append,
          go_cons (by decide), go_cons (by decide), List.append_cons, ← List.replicate_succ',
          List.append_cons, ← List.replicate_succ', List.replicate_succ, List.cons_append,
          List.cons.injEq] at h
        exact absurd (ih h.2).1 (Nat.succ_ne_zero j)
      · by_cases hback : c = backquote
        · have hescape : escapeLiteral backquote = [backquote] := rfl
          have hdouble : Quoted.double singleQuote backquote = [backquote] := rfl
          rw [hback, hescape, hdouble, List.singleton_append, List.singleton_append, go_backquote] at h
          have hj := replicate_ahead (by decide) h
          rw [hj, List.replicate_zero, List.nil_append] at h
          have hhead := go_name_head
            (List.mem_append_right (s.flatMap escapeLiteral) (List.mem_cons_of_mem singleQuote hx)) []
          rw [h, List.head?_cons, Option.some.injEq] at hhead
          exact absurd hhead (by decide)
        · have hmem := double_backquote hback
          obtain ⟨u, hu⟩ : ∃ u, Quoted.double singleQuote c = c :: u := by
            unfold Quoted.double
            split_ifs with hquote
            · exact ⟨_, by rw [hquote]⟩
            · exact ⟨_, rfl⟩
          rw [escapeLiteral_eq hslash, go_append hmem] at h
          have hj : j = 0 := by
            rw [hu] at h
            exact replicate_ahead hslash h
          rw [hj, List.replicate_zero, List.nil_append] at h
          obtain ⟨-, ⟨hback', hslash'⟩, hrest⟩ := ih (j := 0) (List.append_cancel_left h)
          exact ⟨hj, ⟨List.not_mem_cons_of_ne_of_not_mem (Ne.symm hback) hback',
            List.not_mem_cons_of_ne_of_not_mem (Ne.symm hslash) hslash'⟩, hrest⟩

/-! ### The select list of Oracle -/

theorem map_swapQuote {s : List Char} : s.map swapQuote = s ↔ backquote ∉ s := by
  have hsame := List.map_inj_left (l := s) (f := swapQuote) (g := id)
  rw [List.map_id] at hsame
  rw [hsame]
  constructor
  · intro h hmem
    exact absurd (h backquote hmem) (by decide)
  · intro h c hc
    exact if_neg fun heq : c = backquote => h (heq ▸ hc)

end oracleQuotes

/-- No backquotes, and no backslashes in a text. -/
def SelectExpr.OracleSafe : SelectExpr → Prop
  | .source name => backquote ∉ name.toList
  | .bare t => backquote ∉ t.toList
  | .text s => backquote ∉ s.toList ∧ '\\' ∉ s.toList
  | .null => True

def OracleSafe (column : SelectColumn) : Prop :=
  column.1.OracleSafe ∧ backquote ∉ column.2.toList

instance : DecidablePred SelectExpr.OracleSafe := fun expr => by
  cases expr <;> unfold SelectExpr.OracleSafe <;> infer_instance

instance : DecidablePred OracleSafe := fun column => by
  unfold OracleSafe
  infer_instance

open oracleQuotes

/-- A quoted name keeps exactly a name without backquotes. -/
theorem go_quote_eq {s rest y : List Char} (hrest : (go none rest).head? ≠ some doubleQuote)
    (hy : y.head? ≠ some doubleQuote) :
    go none (Quoted.enclose backquote s ++ rest) = Quoted.enclose doubleQuote s ++ y ↔
      backquote ∉ s ∧ go none rest = y := by
  rw [go_quote, ← map_swapQuote]
  constructor
  · intro h
    exact Quoted.enclose_append_inj hrest hy h
  · rintro ⟨hs, hgo⟩
    rw [hs, hgo]

/-- An expression is kept exactly when it is safe, as long as a blank and a quoted name follow. -/
theorem go_expr (expr : SelectExpr) {x : List Char} (hx : backquote ∈ x) (y : List Char) :
    go none (expr.mysql.toList ++ ' ' :: x) = expr.oracle ++ ' ' :: y ↔
      expr.OracleSafe ∧ go none x = y := by
  have hx' : backquote ∈ ' ' :: x := List.mem_cons_of_mem _ hx
  have hblank : go none (' ' :: x) = ' ' :: go none x := go_cons (by decide) x
  have hcancel : go none (' ' :: x) = ' ' :: y ↔ go none x = y := by
    rw [hblank, List.cons.injEq]
    exact and_iff_right rfl
  cases expr with
  | source name =>
      have hhead : ∀ z : List Char, (' ' :: z).head? ≠ some doubleQuote := by
        intro z
        rw [List.head?_cons, Ne, Option.some.injEq]
        decide
      show go none ((quote name).toList ++ _) = _ ↔ _
      rw [quote_toList, SelectExpr.oracle, go_quote_eq (hblank ▸ hhead _) (hhead _), hcancel]
      rfl
  | bare t =>
      constructor
      · intro h
        obtain ⟨hsafe, hgo⟩ := go_bare hx' h
        exact ⟨hsafe, hcancel.mp hgo⟩
      · rintro ⟨hsafe, hgo⟩
        show go none (t.toList ++ _) = _
        rw [go_append hsafe, hcancel.mpr hgo]
        rfl
  | text s =>
      rw [text_toList, SelectExpr.oracle, Quoted.enclose_append, List.cons_append, List.append_assoc,
        List.singleton_append, go_cons (by decide), List.cons.injEq]
      constructor
      · rintro ⟨-, h⟩
        obtain ⟨-, hsafe, hgo⟩ := go_text (j := 0) hx' h
        exact ⟨hsafe, hcancel.mp hgo⟩
      · rintro ⟨⟨hback, hslash⟩, hgo⟩
        have hescape : s.toList.flatMap escapeLiteral =
            s.toList.flatMap (Quoted.double singleQuote) :=
          List.flatMap_congr fun c hc => escapeLiteral_eq fun heq => hslash (heq ▸ hc)
        have hmem : backquote ∉ s.toList.flatMap (Quoted.double singleQuote) := by
          intro hmem
          obtain ⟨c, hc, hin⟩ := List.mem_flatMap.mp hmem
          exact double_backquote (fun heq => hback (heq ▸ hc)) hin
        refine ⟨rfl, ?_⟩
        rw [hescape, go_append hmem, go_cons (by decide), hcancel.mpr hgo]
  | null =>
      have hnull : backquote ∉ "NULL".toList := by decide
      show go none ("NULL".toList ++ _) = "NULL".toList ++ _ ↔ _
      rw [go_append hnull, List.append_cancel_left_eq, hcancel]
      exact (and_iff_right trivial).symm

/-- So is an item of the select list, as long as something else than a quote follows. -/
theorem go_item (column : SelectColumn) {c : Char} (hback : c ≠ backquote) (hdouble : c ≠ doubleQuote)
    (x y : List Char) : go none ((mysqlItem column).toList ++ c :: x) = oracleItem column ++ c :: y ↔
      OracleSafe column ∧ go none x = y := by
  obtain ⟨expr, name⟩ := column
  have hhead : ∀ z : List Char, (c :: z).head? ≠ some doubleQuote := by
    intro z
    rw [List.head?_cons, Ne, Option.some.injEq]
    exact hdouble
  have has : backquote ∉ "AS ".toList := by decide
  have hitem : (mysqlItem (expr, name)).toList ++ c :: x = expr.mysql.toList ++
      ' ' :: ("AS ".toList ++ (Quoted.enclose backquote name.toList ++ c :: x)) := by
    unfold mysqlItem
    rw [String.toList_append, String.toList_append, quote_toList, List.append_assoc,
      List.append_assoc]
    rfl
  have horacle : oracleItem (expr, name) ++ c :: y = expr.oracle ++
      ' ' :: ("AS ".toList ++ (Quoted.enclose doubleQuote name.toList ++ c :: y)) := by
    unfold oracleItem
    rw [List.append_assoc, List.append_assoc]
    rfl
  have hmem : backquote ∈ "AS ".toList ++ (Quoted.enclose backquote name.toList ++ c :: x) :=
    List.mem_append_right _ (List.mem_append_left _ List.mem_cons_self)
  rw [hitem, horacle, go_expr expr hmem, go_append has, List.append_cancel_left_eq,
    go_quote_eq (go_cons hback x ▸ hhead _) (hhead _), go_cons hback, List.cons.injEq]
  unfold OracleSafe
  rw [and_assoc]
  simp only [true_and]

/-- The select list is kept exactly when all of its columns are safe. -/
theorem go_selectItems (columns : List SelectColumn) (x y : List Char) :
    go none (List.intercalate ", ".toList (columns.map fun column => (mysqlItem column).toList) ++
        ' ' :: x) = List.intercalate ", ".toList (columns.map oracleItem) ++ ' ' :: y ↔
      (∀ column ∈ columns, OracleSafe column) ∧ go none x = y := by
  induction columns with
  | nil =>
      have hsafe : ∀ column ∈ ([] : List SelectColumn), OracleSafe column := nofun
      rw [List.map_nil, List.map_nil, List.intercalate_nil, List.nil_append, List.nil_append,
        go_cons (by decide), List.cons.injEq]
      exact and_congr_left' (iff_of_true rfl hsafe)
  | cons column columns ih =>
      cases columns with
      | nil =>
          rw [List.map_singleton, List.map_singleton, List.intercalate_singleton,
            List.intercalate_singleton, go_item column (by decide) (by decide), List.forall_mem_singleton]
      | cons next columns =>
          have hsep : ∀ items : List Char, ", ".toList ++ items = ',' :: ' ' :: items := fun _ => rfl
          rw [List.map_cons, List.map_cons] at ih ⊢
          rw [List.map_cons, List.map_cons, List.intercalate_cons_cons, List.intercalate_cons_cons,
            List.append_assoc, List.append_assoc, List.append_assoc, List.append_assoc, hsep, hsep,
            go_item column (by decide) (by decide), go_cons (by decide), List.cons.injEq, ih]
          simp only [true_and, List.forall_mem_cons, and_assoc]

/-- The query of a mapping that is accepted selects the columns of the mapping exactly when no name and no
fixed value has a backquote and no fixed text has a backslash. -/
theorem oracleSelect_iff {mapping : Dict} {items targets : List String}
    (h : mappingSelectItems py mapping = .ok (items, targets)) (schema table : String) :
    Selects (sourceSql .oracle schema table items) (selectColumns py mapping) ↔
      ∀ column ∈ selectColumns py mapping, OracleSafe column := by
  have hitems := mappingSelectItems_items h
  have hselect : backquote ∉ "SELECT ".toList := by decide
  have hfrom : backquote ∉ "FROM ".toList := by decide
  obtain ⟨x, hx⟩ : ∃ x, ("SELECT " ++ String.intercalate ", " items ++ " FROM " ++ quote schema ++ "." ++
      quote table).toList = "SELECT ".toList ++ (List.intercalate ", ".toList
        ((selectColumns py mapping).map fun column => (mysqlItem column).toList) ++
          ' ' :: ("FROM ".toList ++ x)) := by
    refine ⟨(quote schema).toList ++ (".".toList ++ (quote table).toList), ?_⟩
    have hlist : items.map String.toList =
        (selectColumns py mapping).map fun column => (mysqlItem column).toList := by
      rw [hitems, List.map_map]
      rfl
    simp only [String.toList_append, String.toList_intercalate, hlist, List.append_assoc]
    rfl
  have hsql : (sourceSql .oracle schema table items).toList = "SELECT ".toList ++
      go none (List.intercalate ", ".toList
        ((selectColumns py mapping).map fun column => (mysqlItem column).toList) ++
          ' ' :: ("FROM ".toList ++ x)) := by
    unfold sourceSql oracleQuotes
    simp only [if_true, String.toList_ofList]
    rw [hx, go_append hselect]
  rw [selects_iff, hsql]
  constructor
  · rintro ⟨rest, hrest⟩
    exact ((go_selectItems _ _ ("FROM ".toList ++ rest)).mp (List.append_cancel_left hrest)).1
  · intro hsafe
    exact ⟨go none x, congrArg _ ((go_selectItems _ _ _).mpr ⟨hsafe, go_append hfrom x⟩)⟩

/-- A mapping of one column to the name `name`. -/
def oneColumnMapping (sourceName name : String) (fixedValue : Json) : Dict :=
  [("column_mappings", .arr [.obj [("target_name", .str name), ("source_name", .str sourceName),
    ("fixed_value", fixedValue)]])]

/-- Double quotes in names and single quotes in values are kept. -/
theorem oracleSelect_quotes :
    (∃ items, mappingSelectItems Python.scalars (oneColumnMapping "A\"B" "c" .null) = .ok (items, ["c"]) ∧
      Selects (sourceSql .oracle "S" "T" items)
        (selectColumns Python.scalars (oneColumnMapping "A\"B" "c" .null))) ∧
    ∃ items, mappingSelectItems Python.scalars (oneColumnMapping "" "c" (.str "O'B")) = .ok (items, ["c"]) ∧
      Selects (sourceSql .oracle "S" "T" items)
        (selectColumns Python.scalars (oneColumnMapping "" "c" (.str "O'B"))) :=
  ⟨⟨_, rfl, (@oracleSelect_iff Python.scalars (oneColumnMapping "A\"B" "c" .null) _ _ rfl "S" "T").mpr
      (by decide)⟩,
    ⟨_, rfl, (@oracleSelect_iff Python.scalars (oneColumnMapping "" "c" (.str "O'B")) _ _ rfl "S" "T").mpr
      (by decide)⟩⟩

/-- A backslash is read twice. -/
theorem backslash_doubled : ∃ items, mappingSelectItems Python.scalars (oneColumnMapping "" "c" (.str "a\\b")) =
        .ok (items, ["c"]) ∧
      (sourceSql .oracle "S" "T" items = "SELECT 'a\\\\b' AS \"c\" FROM \"S\".\"T\"" ∧
        selectColumns Python.scalars (oneColumnMapping "" "c" (.str "a\\b")) = [(.text "a\\b", "c")] ∧
        ¬ Selects (sourceSql .oracle "S" "T" items) [(.text "a\\b", "c")]) := by
  refine ⟨_, rfl, by decide +kernel, rfl, ?_⟩
  intro hselects
  obtain ⟨rest, hrest⟩ := selects_iff.mp hselects
  have hsql : (sourceSql .oracle "S" "T" ["'a\\\\b' AS " ++ quote "c"]).toList[10]? = some '\\' := by
    decide +kernel
  have hchar : some '\\' = some 'b' := hsql.symm.trans (congrArg (fun chars => chars[10]?) hrest)
  exact absurd hchar (by decide)

/-! ### The query for MySQL -/

open SqlText (code code_cons code_quoted)

/-- A quoted name and a fixed text are read within their quotes, whatever they are made of: the code of a
statement is that of the statement without them. -/
theorem quoted_adds_no_code (py : Python) (comments : Bool) (s : String) (rest : List Char) :
    code comments .code ((quote s).toList ++ rest) = code comments .code rest ∧
      code comments .code ((sqlLiteral py (.str s)).toList ++ rest) = code comments .code rest := by
  constructor
  · rw [quote_toList, Quoted.enclose_append]
    refine code_quoted rfl (fun c rest => ?_) _ _
    unfold Quoted.double
    split_ifs with hc
    · exact (code_cons rfl).trans (code_cons rfl)
    · refine code_cons (q := backquote) ?_
      simp only [SqlText.step, hc, if_false, ite_eq_right_iff, Prod.mk.injEq]
      exact fun h => absurd rfl h.2
  · have htext : sqlLiteral py (.str s) = (SelectExpr.text s).mysql := by
      simp only [sqlLiteral, SelectExpr.mysql, py.str_str]
    rw [htext, text_toList, List.cons_append, List.append_assoc, List.singleton_append]
    refine code_quoted rfl (fun c rest => ?_) _ _
    unfold escapeLiteral
    split_ifs with hslash hquote
    · subst hslash
      exact (code_cons rfl).trans (code_cons rfl)
    · subst hquote
      exact (code_cons rfl).trans (code_cons rfl)
    · refine code_cons (q := singleQuote) ?_
      simp [SqlText.step, hslash, hquote]

end DataSync
