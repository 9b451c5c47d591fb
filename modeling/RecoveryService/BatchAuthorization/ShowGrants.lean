import RecoveryService.Lib.Text

/-! # The privilege check

Before a GRANT the service asks Doris for the privileges of the user and looks for the database
and the table in the text of the answer.  The rows are whatever Doris answered; a row is the
list of its values as strings.

A row that shows a privilege on a table is recognised, unless the name of the database or of the
table has no character that the check keeps (`grantRowsIncludeSourceSelect_of_shows`).  The
converse fails: a name inside a longer one counts as well. -/

namespace RecoveryService.BatchAuthorization

open Text

/-- The characters that `_normalize_grant_token` keeps. -/
def isGrantChar (c : Char) : Bool :=
  ('0' ≤ c ∧ c ≤ '9') ∨ ('A' ≤ c ∧ c ≤ 'Z') ∨ c = '_' ∨
    (0x4E00 ≤ c.toNat ∧ c.toNat ≤ 0x9FFF) ∨ c = '*'

/-- `_normalize_grant_token`. -/
def normalizeGrantToken (value : List Char) : List Char :=
  stripChars (· == '_') (subRuns (fun c => !isGrantChar c) '_' false (upper value))

/-- `" ".join(values).upper()`. -/
def rowText (values : List String) : List Char := upper (" ".intercalate values).toList

/-- `token and token in normalized` for one of the tokens. -/
def hasToken (name : String) (normalized : List Char) : Prop :=
  ∃ token ∈ [normalizeGrantToken name.toList, ['*']], token ≠ [] ∧ token <:+: normalized

instance (name : String) (normalized : List Char) : Decidable (hasToken name normalized) :=
  inferInstanceAs (Decidable (∃ token ∈ _, _))

def grantRowIncludes (sourceDatabase sourceTable : String) (values : List String) : Bool :=
  (∃ priv ∈ ["SELECT_PRIV", "SELECT", "ALL PRIVILEGES", "ALL"], priv.toList <:+: rowText values) ∧
    hasToken sourceDatabase (normalizeGrantToken (rowText values)) ∧
    hasToken sourceTable (normalizeGrantToken (rowText values))

/-- `_grant_rows_include_source_select`. -/
def grantRowsIncludeSourceSelect (rows : List (List String)) (sourceDatabase sourceTable : String) : Bool :=
  rows.any (grantRowIncludes sourceDatabase sourceTable)

/-- The row gives SELECT and has the names of the database and of the table. -/
def Shows (sourceDatabase sourceTable : String) (values : List String) : Prop :=
  "SELECT".toList <:+: rowText values ∧
    sourceDatabase.toList <:+: (" ".intercalate values).toList ∧
    sourceTable.toList <:+: (" ".intercalate values).toList

instance (sourceDatabase sourceTable : String) (values : List String) :
    Decidable (Shows sourceDatabase sourceTable values) :=
  inferInstanceAs (Decidable (_ ∧ _ ∧ _))

/-- The check keeps a character of the name. -/
def Recognisable (name : String) : Prop := normalizeGrantToken name.toList ≠ []

instance (name : String) : Decidable (Recognisable name) := inferInstanceAs (Decidable (_ ≠ _))

theorem infix_normalizeGrantToken {s t : List Char} (h : s <:+: t) :
    normalizeGrantToken s <:+: normalizeGrantToken t :=
  infix_strip_subRuns (infix_upper h)

theorem normalizeGrantToken_upper (s : List Char) : normalizeGrantToken (upper s) = normalizeGrantToken s := by
  unfold normalizeGrantToken
  rw [upper_upper]

theorem hasToken_of_infix {name : String} {values : List String} (hname : Recognisable name)
    (h : name.toList <:+: (" ".intercalate values).toList) :
    hasToken name (normalizeGrantToken (rowText values)) := by
  refine ⟨normalizeGrantToken name.toList, List.mem_cons_self, hname, ?_⟩
  unfold rowText
  rw [normalizeGrantToken_upper]
  exact infix_normalizeGrantToken h

/-- A privilege that is shown is found. -/
theorem grantRowsIncludeSourceSelect_of_shows {rows : List (List String)}
    {sourceDatabase sourceTable : String} (hdatabase : Recognisable sourceDatabase)
    (htable : Recognisable sourceTable) (h : ∃ values ∈ rows, Shows sourceDatabase sourceTable values) :
    grantRowsIncludeSourceSelect rows sourceDatabase sourceTable = true := by
  obtain ⟨values, hmem, hselect, hd, ht⟩ := h
  unfold grantRowsIncludeSourceSelect
  rw [List.any_eq_true]
  refine ⟨values, hmem, ?_⟩
  unfold grantRowIncludes
  rw [decide_eq_true_eq]
  exact ⟨⟨"SELECT", by simp, hselect⟩, hasToken_of_infix hdatabase hd, hasToken_of_infix htable ht⟩

/-- The name of a table that begins with the name of another one counts for both. -/
example : grantRowsIncludeSourceSelect [["'bob'@'%'", "internal.sales.orders_2024: Select_priv"]]
    "sales" "orders" = true := by
  decide

end RecoveryService.BatchAuthorization
