import RecoveryService.DataSync.OracleSql

/-! # The column mapping under the source policy

With `schema_policy` `"source"` the target table gets the columns it lacks
(`alignTargetSchemaWithSource`), and the column mapping is built anew from the columns of the source
(`sourcePolicyColumnMappings`).  What was saved for a target column is looked up by its name in lower
case: `policyEntry` is the entry that comes out. -/

namespace DataSync

open Program

section

variable (py : Python)

/-! ### Names -/

/-- What `str.lower` leaves: the spaces at the ends, the control characters, and the empty text. -/
structure Lowers : Prop where
  strip : ∀ s, py.lower (Text.strip s) = Text.strip (py.lower s)
  control : ∀ s, (py.lower s).toList.any controlChar = s.toList.any controlChar
  empty : ∀ s, py.lower s = "" ↔ s = ""

/-- A name that `_clean_existing_identifier` leaves as it is. -/
def Usable (name : String) : Prop :=
  name ≠ "" ∧ Text.strip name = name ∧ name.toList.any controlChar = false

/-- The name of a column in lower case. -/
def nameKey (column : Json) : String := py.lower (strOr py (column.get "name") "")

/-- The columns of a source table. -/
structure SourceColumns where
  columns : List Json
  usable : ∀ column ∈ columns, ∃ name, column.get "name" = .str name ∧ Usable name
  distinct : columns.Pairwise fun a b => nameKey py a ≠ nameKey py b

/-- The saved entry of a target column; the last one counts. -/
def savedFor (saved : List Json) (key : String) : Option Json :=
  lastWith (fun item => py.lower (strOr py (item.get "target_name") ""))
    (saved.filter fun item => Text.strip (strOr py (item.get "target_name") "") ≠ "") key

/-- The source column that an entry names. -/
def sourceChoice (entry : Json) : String := Text.strip (strOr py (entry.get "source_name") "")

/-- The name that an entry selects its column for. -/
def targetChoice (entry : Json) : String := Text.strip (strOr py (entry.get "target_name") "")

/-- `entry.get("enabled", True)`. -/
def Enabled (entry : Json) : Prop := (entry.getOr "enabled" (.bool true)).truthy = true

instance (entry : Json) : Decidable (Enabled entry) := inferInstanceAs (Decidable (_ = true))

variable (dorisType : Json → String)

/-- The entry of a source column. -/
def policyEntry (saved : List Json) (source target : Json) : Json :=
  let existing := (savedFor py saved (nameKey py source)).getD (.obj [])
  .obj [("target_name", target.get "name"),
    ("target_type", orElse (target.get "type") (.str (dorisType source))),
    ("source_name", orElse (existing.get "source_name") (source.get "name")),
    ("fixed_value", existing.getOr "fixed_value" (.str "")),
    ("enabled", existing.getOr "enabled" (.bool true))]

end

variable {py : Python} {dorisType : Json → String}

variable {name : String}

theorem Usable.clean (h : Usable name) (label : String) :
    cleanExistingIdentifier py (.str name) label = .ok name := by
  unfold cleanExistingIdentifier
  simp only
  rw [strOr_str, h.2.1, if_neg h.1, if_neg (by rw [h.2.2]; exact Bool.false_ne_true)]

theorem SourceColumns.named (sources : SourceColumns py) {column : Json} (h : column ∈ sources.columns) :
    ∃ name, column.get "name" = .str name ∧ Usable name ∧ nameKey py column = py.lower name := by
  obtain ⟨name, hname, husable⟩ := sources.usable column h
  refine ⟨name, hname, husable, ?_⟩
  unfold nameKey
  rw [hname, strOr_str]

/-! ### The last entry of a name -/

theorem lastWith_eq_some {key : Json → String} {items : List Json} {item : Json}
    (h : lastWith key items name = some item) : item ∈ items ∧ key item = name := by
  unfold lastWith at h
  have hkey := List.find?_some h
  exact ⟨List.mem_reverse.mp (List.mem_of_find?_eq_some h), of_decide_eq_true hkey⟩

theorem exists_lastWith {key : Json → String} {items : List Json} {item : Json} (hitem : item ∈ items)
    (hkey : key item = name) : ∃ found, lastWith key items name = some found := by
  unfold lastWith
  refine Option.isSome_iff_exists.mp (List.find?_isSome.mpr ?_)
  exact ⟨item, List.mem_reverse.mpr hitem, decide_eq_true hkey⟩

/-! ### The alignment of the target -/

/-- What the database raises at an `ALTER TABLE`. -/
def DatabaseRaises (env : Env) (e : Raised) : Prop :=
  (∃ k, env.switchCatalog k = .error e) ∨ ∃ k, env.execute k = .error e

/-- The target has the columns it had, in their places, and one for each column of the source. -/
structure Covers (py : Python) (sources targets aligned : List Json) : Prop where
  kept : targets <+: aligned
  covered : ∀ source ∈ sources, ∃ target ∈ aligned, nameKey py target = nameKey py source

theorem spec_ask {α : Type} (answer : ℕ → Except Raised α) :
    Spec (fun _ => True) (ask answer) (fun _ _ => True) fun e _ => ∃ k, answer k = .error e := by
  constructor
  intro w _
  unfold ask
  cases h : answer w.clock with
  | ok a => trivial
  | error e => exact ⟨w.clock, h⟩

variable {E : Raised → World → Prop}

theorem setKey_silent (key : String) (value : Json) :
    Spec (fun _ => True) (setKey key value) (fun _ _ => True) E :=
  spec_update fun _ _ => trivial

theorem getKey_silent (key : String) : Spec (fun _ => True) (getKey key) (fun _ _ => True) E :=
  spec_bind (Q := fun _ _ => True) (spec_state fun _ _ => trivial) fun _ => spec_pure fun _ _ => trivial

theorem appendLog_silent (log : Json) : Spec (fun _ => True) (appendLog log) (fun _ _ => True) E :=
  spec_bind (getKey_silent _) fun _ => setKey_silent _ _

theorem markWriteStarted_silent (stage sql : String) :
    Spec (fun _ => True) (markWriteStarted stage sql) (fun _ _ => True) E := by
  unfold markWriteStarted markRuntimeSql setStage
  refine spec_bind (Q := fun _ _ => True) ?_ fun _ => ?_
  · exact spec_bind (setKey_silent _ _) fun _ => setKey_silent _ _
  · exact spec_bind (setKey_silent _ _) fun _ => spec_update fun _ _ => trivial

theorem spec_sendWrite {α : Type} (request : Write) (answer : ℕ → Except Raised α) :
    Spec (fun _ => True) (sendWrite request answer) (fun _ _ => True) fun e _ => ∃ k, answer k = .error e :=
  spec_bind (Q := fun _ _ => True) (spec_update fun _ _ => trivial) fun _ => spec_ask answer

variable {sources targets : List Json}

/-- The rest of the columns, where `names` are the keys of the target so far. -/
theorem alignLoop_covers (env : Env) (database table : String)
    (husable : ∀ column ∈ sources, ∃ name, column.get "name" = .str name ∧ Usable name) {names : List String}
    (added : List String) (hnames : ∀ name ∈ names, ∃ target ∈ targets, nameKey py target = name) :
    Spec (fun _ => True) (alignLoop py dorisType env database table sources names targets added)
      (fun r _ => Covers py sources targets r.1) (fun e _ => DatabaseRaises env e) := by
  induction sources generalizing names targets added with
  | nil => exact spec_pure fun _ _ => ⟨List.prefix_refl _, fun _ h => (nomatch h)⟩
  | cons column rest ih =>
      obtain ⟨⟨name, hname, hclean⟩, hrest⟩ := List.forall_mem_cons.mp husable
      have hkey : nameKey py column = py.lower name := by
        unfold nameKey
        rw [hname, strOr_str]
      unfold alignLoop
      simp only
      rw [hname, strOr_str, hclean.2.1]
      split_ifs with hskip
      · refine (ih hrest added hnames).mono (fun _ h => h) (fun r _ h => ?_) fun _ _ h => h
        refine ⟨h.kept, List.forall_mem_cons.mpr ⟨?_, h.covered⟩⟩
        obtain ⟨target, htarget, heq⟩ := hnames _ (hskip.resolve_left hclean.1)
        exact ⟨target, h.kept.subset htarget, heq.trans hkey.symm⟩
      · rw [hclean.clean]
        refine spec_bind (Q := fun targetName _ => True ∧ targetName = name) ⟨fun _ _ => ⟨trivial, rfl⟩⟩
          fun targetName => spec_and fun heq => ?_
        subst heq
        refine spec_bind (appendLog_silent _) fun _ => spec_bind (markWriteStarted_silent _ _) fun _ =>
          spec_bind ((spec_ask _).mono (fun _ h => h) (fun _ _ h => h) fun _ _ h => .inl h) fun _ =>
          spec_bind ((spec_sendWrite _ _).mono (fun _ h => h) (fun _ _ h => h) fun _ _ h => .inr h) fun _ => ?_
        have hnew : ∀ key ∈ py.lower targetName :: names, ∃ target ∈ targets ++ [Json.obj
            [("name", .str targetName), ("type", .str (dorisType column)),
              ("ordinal", .num (targets.length + 1)), ("nullable", .bool true),
              ("source_type", orElse (column.get "type") (.str ""))]], nameKey py target = key := by
          intro key hmem
          rcases List.mem_cons.mp hmem with rfl | hmem
          · refine ⟨_, List.mem_append_right _ (List.mem_singleton_self _), ?_⟩
            show py.lower (strOr py (.str targetName) "") = _
            rw [strOr_str]
          · obtain ⟨target, htarget, heq⟩ := hnames key hmem
            exact ⟨target, List.mem_append_left _ htarget, heq⟩
        refine (ih hrest _ hnew).mono (fun _ h => h) (fun r _ h => ?_) fun _ _ h => h
        refine ⟨(List.prefix_append _ _).trans h.kept, List.forall_mem_cons.mpr ⟨?_, h.covered⟩⟩
        obtain ⟨target, htarget, heq⟩ := hnew _ List.mem_cons_self
        exact ⟨target, h.kept.subset htarget, heq.trans hkey.symm⟩

theorem alignTargetSchema_covers (env : Env) (database table : String) (sources : SourceColumns py)
    (targets : List Json) :
    Spec (fun _ => True)
      (alignTargetSchemaWithSource py dorisType env database table sources.columns targets)
      (fun r _ => Covers py sources.columns targets r.1) (fun e _ => DatabaseRaises env e) := by
  refine alignLoop_covers env database table sources.usable [] fun name hname => ?_
  obtain ⟨target, htarget, heq⟩ := List.mem_map.mp hname
  exact ⟨target, htarget, heq⟩

/-! ### The entries -/

/-- An entry of a source column: its target column, and what was saved for it. -/
def EntryOf (py : Python) (dorisType : Json → String) (saved targets : List Json) (source entry : Json) : Prop :=
  ∃ target ∈ targets, nameKey py target = nameKey py source ∧
    entry = policyEntry py dorisType saved source target

variable {saved : List Json} {source : Json}

theorem sourcePolicyColumn_eq (hname : source.get "name" = .str name) (husable : Usable name)
    (hcovered : ∃ target ∈ targets, nameKey py target = nameKey py source) :
    ∃ entry, sourcePolicyColumn py dorisType saved targets source = .ok (some entry) ∧
      EntryOf py dorisType saved targets source entry := by
  have hkey : nameKey py source = py.lower name := by
    unfold nameKey
    rw [hname, strOr_str]
  obtain ⟨other, hother, hsame⟩ := hcovered
  obtain ⟨target, htarget⟩ := @exists_lastWith _ (nameKey py) _ _ hother (hsame.trans hkey)
  obtain ⟨hmem, heq⟩ := lastWith_eq_some htarget
  refine ⟨policyEntry py dorisType saved source target, ?_, target, hmem, heq.trans hkey.symm, rfl⟩
  have hfound : lastWith (fun item => py.lower (strOr py (item.get "name") "")) targets (py.lower name) =
      some target := htarget
  unfold sourcePolicyColumn policyEntry savedFor
  simp only
  rw [hkey, hname, strOr_str, husable.2.1, if_neg husable.1, hfound]
  rfl

theorem sourcePolicyColumnMappings_entries
    (husable : ∀ column ∈ sources, ∃ name, column.get "name" = .str name ∧ Usable name)
    (hcovered : ∀ source ∈ sources, ∃ target ∈ targets, nameKey py target = nameKey py source) :
    ∃ entries, sourcePolicyColumnMappings py dorisType saved sources targets = .ok entries ∧
      List.Forall₂ (EntryOf py dorisType saved targets) sources entries := by
  have hmapped : ∃ entries : List Json,
      sources.mapM (sourcePolicyColumn py dorisType saved targets) = .ok (entries.map some) ∧
        List.Forall₂ (EntryOf py dorisType saved targets) sources entries := by
    induction sources with
    | nil => exact ⟨[], rfl, .nil⟩
    | cons source rest ih =>
        obtain ⟨⟨name, hname, hclean⟩, hrest⟩ := List.forall_mem_cons.mp husable
        obtain ⟨hsource, hcoveredRest⟩ := List.forall_mem_cons.mp hcovered
        obtain ⟨entry, hentry, hof⟩ := sourcePolicyColumn_eq hname hclean hsource
        obtain ⟨entries, hentries, hall⟩ := ih hrest hcoveredRest
        refine ⟨entry :: entries, ?_, .cons hof hall⟩
        rw [List.mapM_cons, hentry, hentries]
        rfl
  obtain ⟨entries, hentries, hall⟩ := hmapped
  refine ⟨entries, ?_, hall⟩
  unfold sourcePolicyColumnMappings
  rw [hentries]
  show Except.ok ((entries.map some).filterMap id) = _
  rw [List.filterMap_map]
  exact congrArg Except.ok List.filterMap_some

/-! ### What an entry selects -/

variable {target : Json}

/-- The saved entry is enabled, if there is one. -/
theorem enabled_policyEntry :
    Enabled (policyEntry py dorisType saved source target) ↔
      ∀ choice ∈ savedFor py saved (nameKey py source), Enabled choice := by
  have hfield : (policyEntry py dorisType saved source target).getOr "enabled" (.bool true) =
      ((savedFor py saved (nameKey py source)).getD (.obj [])).getOr "enabled" (.bool true) := rfl
  unfold Enabled
  rw [hfield]
  cases savedFor py saved (nameKey py source) with
  | none => exact ⟨fun _ _ h => (nomatch h), fun _ => rfl⟩
  | some choice => exact ⟨fun h _ hmem => Option.mem_some_iff.mp hmem ▸ h, fun h => h choice rfl⟩

/-- The source column of an entry is the one that was saved. -/
theorem sourceChoice_policyEntry {choice : Json} (hsaved : savedFor py saved (nameKey py source) = some choice)
    (hne : sourceChoice py choice ≠ "") :
    sourceChoice py (policyEntry py dorisType saved source target) = sourceChoice py choice := by
  have hfield : (policyEntry py dorisType saved source target).get "source_name" =
      orElse (choice.get "source_name") (source.get "name") := by
    unfold policyEntry
    rw [hsaved]
    rfl
  have htruthy : (choice.get "source_name").truthy = true := by
    by_contra hfalse
    apply hne
    unfold sourceChoice strOr
    rw [if_neg hfalse]
    rfl
  unfold sourceChoice
  rw [hfield, orElse, if_pos htruthy]

/-- Otherwise it is the column itself, or blank. -/
theorem sourceChoice_policyEntry_of_blank (hname : source.get "name" = .str name) (husable : Usable name)
    (hsaved : ∀ choice ∈ savedFor py saved (nameKey py source), sourceChoice py choice = "") :
    sourceChoice py (policyEntry py dorisType saved source target) = name ∨
      sourceChoice py (policyEntry py dorisType saved source target) = "" := by
  have hfield : (policyEntry py dorisType saved source target).get "source_name" = orElse
      (((savedFor py saved (nameKey py source)).getD (.obj [])).get "source_name") (source.get "name") := rfl
  unfold sourceChoice
  rw [hfield, orElse]
  split_ifs with htruthy
  · right
    cases hfound : savedFor py saved (nameKey py source) with
    | none =>
        rw [hfound] at htruthy
        cases htruthy
    | some choice => exact hsaved choice hfound
  · left
    rw [hname, strOr_str, husable.2.1]

theorem sourceChoice_policyEntry_of_none (hname : source.get "name" = .str name) (husable : Usable name)
    (hsaved : savedFor py saved (nameKey py source) = none) :
    sourceChoice py (policyEntry py dorisType saved source target) = name := by
  have hfield : (policyEntry py dorisType saved source target).get "source_name" = .str name := by
    unfold policyEntry
    rw [hsaved, ← hname]
    rfl
  unfold sourceChoice
  rw [hfield, strOr_str, husable.2.1]

theorem selectColumn_eq (entry : Json) : selectColumn py entry =
    if ¬Enabled entry then none
    else some (exprOf py (sourceChoice py entry) (entry.get "fixed_value"), targetChoice py entry) := rfl

theorem exprOf_source (hne : name ≠ "") (value : Json) : exprOf py name value = .source name :=
  if_pos hne

theorem selectColumn_of_source {entry : Json} (henabled : Enabled entry)
    (hsource : sourceChoice py entry = name) (hne : name ≠ "") :
    selectColumn py entry = some (.source name, targetChoice py entry) := by
  rw [selectColumn_eq, if_neg (not_not_intro henabled), hsource, exprOf_source hne]

/-- What was saved for a column is what its entry selects: nothing where it was disabled, and the source
column that was chosen.  Without a saved entry the column of the source is selected. -/
def SavedKept (py : Python) (saved : List Json) (source entry : Json) : Prop :=
  match savedFor py saved (nameKey py source) with
  | none => selectColumn py entry = some (.source (strOr py (source.get "name") ""), targetChoice py entry)
  | some choice =>
      (¬Enabled choice → selectColumn py entry = none) ∧
        (Enabled choice → ∃ expr, selectColumn py entry = some (expr, targetChoice py entry) ∧
          (sourceChoice py choice ≠ "" → expr = .source (sourceChoice py choice)))

theorem savedKept (hname : source.get "name" = .str name) (husable : Usable name) :
    SavedKept py saved source (policyEntry py dorisType saved source target) := by
  unfold SavedKept
  have henabled := @enabled_policyEntry py dorisType saved source target
  cases hsaved : savedFor py saved (nameKey py source) with
  | none =>
      rw [hsaved] at henabled
      simp only
      rw [hname, strOr_str]
      exact selectColumn_of_source (henabled.mpr fun _ h => (nomatch h))
        (sourceChoice_policyEntry_of_none hname husable hsaved) husable.1
  | some choice =>
      rw [hsaved] at henabled
      have hiff : Enabled (policyEntry py dorisType saved source target) ↔ Enabled choice :=
        henabled.trans ⟨fun h => h choice rfl, fun h _ hmem => Option.mem_some_iff.mp hmem ▸ h⟩
      refine ⟨fun hdisabled => ?_, fun hchoice => ?_⟩
      · rw [selectColumn_eq, if_pos (mt hiff.mp hdisabled)]
      · refine ⟨_, by rw [selectColumn_eq, if_neg (not_not_intro (hiff.mpr hchoice))], fun hne => ?_⟩
        rw [sourceChoice_policyEntry hsaved hne, exprOf_source hne]

/-! ### The select list -/

/-- The names of the source columns, as `_mapping_select_items` reads them. -/
def sourceNames (py : Python) (sources : List Json) : List String :=
  sources.map fun source => py.str (source.get "name")

/-- No enabled entry was saved with a source column that does not exist. -/
def Known (py : Python) (saved sources : List Json) : Prop :=
  ∀ source ∈ sources, ∀ choice ∈ savedFor py saved (nameKey py source), Enabled choice →
    sourceChoice py choice = "" ∨ sourceChoice py choice ∈ sourceNames py sources

/-- An entry that selects a source column or a fixed value. -/
def Selecting (py : Python) (entry : Json) : Prop :=
  ∃ column ∈ selectColumn py entry, column.1 ≠ .null

theorem usable_of_mem {sources : SourceColumns py} (h : name ∈ sourceNames py sources.columns) : Usable name := by
  obtain ⟨source, hsource, rfl⟩ := List.mem_map.mp h
  obtain ⟨name, hname, husable⟩ := sources.usable source hsource
  rw [hname, py.str_str]
  exact husable

theorem name_mem_sourceNames (h : source ∈ sources) (hname : source.get "name" = .str name) :
    name ∈ sourceNames py sources :=
  List.mem_map.mpr ⟨source, h, by rw [hname, py.str_str]⟩

/-- The column of an enabled entry is known or blank. -/
theorem sourceChoice_known {sources : SourceColumns py} (hknown : Known py saved sources.columns)
    (hsource : source ∈ sources.columns) (henabled : Enabled (policyEntry py dorisType saved source target)) :
    sourceChoice py (policyEntry py dorisType saved source target) = "" ∨
      sourceChoice py (policyEntry py dorisType saved source target) ∈ sourceNames py sources.columns := by
  obtain ⟨name, hname, husable, -⟩ := sources.named hsource
  have hmem : name ∈ sourceNames py sources.columns := name_mem_sourceNames hsource hname
  have hchoices := enabled_policyEntry.mp henabled
  by_cases hblank : ∀ choice ∈ savedFor py saved (nameKey py source), sourceChoice py choice = ""
  · rcases sourceChoice_policyEntry_of_blank hname husable hblank with h | h
    · exact .inr (h ▸ hmem)
    · exact .inl h
  · push Not at hblank
    obtain ⟨choice, hsaved, hne⟩ := hblank
    rw [sourceChoice_policyEntry hsaved hne]
    exact hknown source hsource choice hsaved (hchoices choice hsaved)

/-- A target column that has the name of a source column in another case can be written to. -/
theorem targetChoice_clean (hlower : Lowers py) {entry : Json} (husable : Usable name)
    (hkey : nameKey py target = py.lower name) (htarget : entry.get "target_name" = target.get "name") :
    cleanExistingIdentifier py (entry.get "target_name") "目标字段" = .ok (targetChoice py entry) ∧
      py.lower (targetChoice py entry) = py.lower name := by
  have hlowered : py.lower (targetChoice py entry) = py.lower name := by
    unfold targetChoice
    rw [hlower.strip, htarget]
    show Text.strip (nameKey py target) = _
    rw [hkey, ← hlower.strip, husable.2.1]
  have hne : targetChoice py entry ≠ "" := by
    intro hblank
    rw [hblank, (hlower.empty "").mpr rfl] at hlowered
    exact husable.1 ((hlower.empty name).mp hlowered.symm)
  have hcontrol : (targetChoice py entry).toList.any controlChar = false := by
    rw [← hlower.control, hlowered, hlower.control]
    exact husable.2.2
  refine ⟨?_, hlowered⟩
  unfold cleanExistingIdentifier
  simp only
  unfold targetChoice at hne hcontrol ⊢
  rw [if_neg hne, if_neg (by rw [hcontrol]; exact Bool.false_ne_true)]

/-- What one entry does to the select list. -/
structure AddsItem (py : Python) (entry : Json) (acc acc' : SelectItems) : Prop where
  seen : ∀ key ∈ acc'.seen, key ∈ acc.seen ∨ key = py.lower (targetChoice py entry)
  grows : acc.meaningful ≤ acc'.meaningful
  selects : Selecting py entry → 0 < acc'.meaningful
  disabled : ¬Enabled entry → acc'.targets = acc.targets

theorem selectItem_adds {names : List String} {acc : SelectItems} {entry : Json}
    (hclean : cleanExistingIdentifier py (entry.get "target_name") "目标字段" = .ok (targetChoice py entry))
    (hnew : py.lower (targetChoice py entry) ∉ acc.seen)
    (hsource : Enabled entry → sourceChoice py entry = "" ∨
      Usable (sourceChoice py entry) ∧ sourceChoice py entry ∈ names) :
    ∃ acc', selectItem py names acc entry = .ok acc' ∧ AddsItem py entry acc acc' := by
  by_cases henabled : Enabled entry
  · have hon : ¬¬(entry.getOr "enabled" (.bool true)).truthy := not_not_intro henabled
    have hseen : ∀ key ∈ py.lower (targetChoice py entry) :: acc.seen,
        key ∈ acc.seen ∨ key = py.lower (targetChoice py entry) := fun key h => (List.mem_cons.mp h).symm
    unfold selectItem
    rw [if_neg hon, hclean]
    show ∃ acc', (if py.lower (targetChoice py entry) ∈ acc.seen then _ else _) = _ ∧ _
    rw [if_neg hnew]
    rcases hsource henabled with hblank | ⟨husable, hmem⟩
    · have hcolumn : selectColumn py entry =
          some (exprOf py "" (entry.get "fixed_value"), targetChoice py entry) := by
        rw [selectColumn_eq, if_neg (not_not_intro henabled), hblank]
      have hstrip : Text.strip (strOr py (entry.get "source_name") "") = "" := hblank
      have hnull : exprOf py "" (entry.get "fixed_value") = .null → ¬Selecting py entry := by
        rintro h ⟨column, hmem, hne⟩
        rw [hcolumn, h] at hmem
        exact hne (congrArg Prod.fst (Option.mem_some_iff.mp hmem).symm)
      simp only
      rw [hstrip, if_neg (not_not_intro rfl)]
      split
      · next hvalue =>
          refine ⟨_, rfl, hseen, le_refl _, fun h => absurd h (hnull ?_), fun h => absurd henabled h⟩
          rw [hvalue]
          rfl
      · next hvalue =>
          refine ⟨_, rfl, hseen, le_refl _, fun h => absurd h (hnull ?_), fun h => absurd henabled h⟩
          rw [hvalue]
          rfl
      · exact ⟨_, rfl, hseen, Nat.le_succ _, fun _ => Nat.succ_pos _, fun h => absurd henabled h⟩
    · simp only
      have hstrip : Text.strip (strOr py (entry.get "source_name") "") = sourceChoice py entry := rfl
      rw [hstrip, if_pos husable.1, husable.clean]
      show ∃ acc', (if names ≠ [] ∧ sourceChoice py entry ∉ names then _ else _) = _ ∧ _
      rw [if_neg fun h => h.2 hmem]
      exact ⟨_, rfl, hseen, Nat.le_succ _, fun _ => Nat.succ_pos _, fun h => absurd henabled h⟩
  · have hoff : ¬(entry.getOr "enabled" (.bool true)).truthy := henabled
    unfold selectItem
    rw [if_pos hoff]
    refine ⟨acc, rfl, fun _ h => .inl h, le_refl _, ?_, fun _ => rfl⟩
    rintro ⟨column, hmem, -⟩
    rw [selectColumn_eq, if_pos henabled] at hmem
    cases hmem

/-- The entries are taken one after another: their target columns are different. -/
theorem foldlM_selectItem (hlower : Lowers py) (sources : SourceColumns py)
    (hknown : Known py saved sources.columns) {rest entries : List Json}
    (hall : List.Forall₂ (EntryOf py dorisType saved targets) rest entries)
    (hrest : ∀ source ∈ rest, source ∈ sources.columns)
    (hdistinct : rest.Pairwise fun a b => nameKey py a ≠ nameKey py b) {acc : SelectItems}
    (hseen : ∀ source ∈ rest, nameKey py source ∉ acc.seen) :
    ∃ acc', entries.foldlM (selectItem py (sourceNames py sources.columns)) acc = .ok acc' ∧
      acc.meaningful ≤ acc'.meaningful ∧ ((∃ entry ∈ entries, Selecting py entry) → 0 < acc'.meaningful) ∧
      ((∀ entry ∈ entries, ¬Enabled entry) → acc'.targets = acc.targets) := by
  induction hall generalizing acc with
  | nil =>
      refine ⟨acc, rfl, le_refl _, ?_, fun _ => rfl⟩
      rintro ⟨entry, hentry, -⟩
      cases hentry
  | @cons source entry rest entries hof _ ih =>
      obtain ⟨target, -, hkey, rfl⟩ := hof
      obtain ⟨hsource, hrest⟩ := List.forall_mem_cons.mp hrest
      obtain ⟨hfirst, hdistinct⟩ := List.pairwise_cons.mp hdistinct
      obtain ⟨hnew, hseen⟩ := List.forall_mem_cons.mp hseen
      obtain ⟨name, -, husable, hname⟩ := sources.named hsource
      have hfield : (policyEntry py dorisType saved source target).get "target_name" = target.get "name" := rfl
      obtain ⟨hclean, hlowered⟩ := targetChoice_clean hlower husable (hkey.trans hname) hfield
      rw [← hname] at hlowered
      obtain ⟨next, hnext, hadds⟩ := @selectItem_adds py (sourceNames py sources.columns) acc _ hclean
        (hlowered ▸ hnew) fun henabled => (sourceChoice_known hknown hsource henabled).imp_right
          fun hmem => ⟨usable_of_mem hmem, hmem⟩
      have hseenNext : ∀ other ∈ rest, nameKey py other ∉ next.seen := by
        intro other hother hmem
        rcases hadds.seen _ hmem with hold | heq
        · exact hseen other hother hold
        · exact hfirst other hother (heq.trans hlowered).symm
      obtain ⟨acc', hacc, hgrows, hselects, hdisabled⟩ := ih hrest hdistinct hseenNext
      refine ⟨acc', ?_, hadds.grows.trans hgrows, ?_, fun hoff => ?_⟩
      · rw [List.foldlM_cons, hnext]
        exact hacc
      · rintro ⟨found, hfound, hselecting⟩
        rcases List.mem_cons.mp hfound with rfl | hfound
        · exact Nat.lt_of_lt_of_le (hadds.selects hselecting) hgrows
        · exact hselects ⟨found, hfound, hselecting⟩
      · obtain ⟨hoffFirst, hoffRest⟩ := List.forall_mem_cons.mp hoff
        rw [hdisabled hoffRest, hadds.disabled hoffFirst]

/-! ### The mapping -/

/-- The target and the mapping of a table under the source policy. -/
structure PolicyMapping (py : Python) (saved sources targets aligned entries : List Json) : Prop where
  covers : Covers py sources targets aligned
  /-- One entry for each source column, in their order. -/
  each : List.Forall₂ (fun source entry =>
    (∃ target ∈ aligned, nameKey py target = nameKey py source ∧
      entry.get "target_name" = target.get "name") ∧ SavedKept py saved source entry) sources entries
  accepted : Known py saved sources →
    (∃ entry ∈ entries, Selecting py entry) ∨ (∀ entry ∈ entries, ¬Enabled entry) →
    ∀ mapping : Dict, mapping.get "source_columns" = .arr sources →
      mapping.get "column_mappings" = .arr entries →
      ∃ items names, mappingSelectItems py mapping = .ok (items, names) ∧
        items = (entries.filterMap (selectColumn py)).map mysqlItem

theorem mappingSelectItems_accepted (hlower : Lowers py) (sources : SourceColumns py) {entries : List Json}
    (hall : List.Forall₂ (EntryOf py dorisType saved targets) sources.columns entries)
    (hknown : Known py saved sources.columns)
    (hselects : (∃ entry ∈ entries, Selecting py entry) ∨ (∀ entry ∈ entries, ¬Enabled entry)) {mapping : Dict}
    (hsources : mapping.get "source_columns" = .arr sources.columns)
    (hentries : mapping.get "column_mappings" = .arr entries) :
    ∃ items names, mappingSelectItems py mapping = .ok (items, names) ∧
      items = (entries.filterMap (selectColumn py)).map mysqlItem := by
  have hmappings : tableMappings mapping = entries := by
    unfold tableMappings
    rw [hsources, hentries]
    cases entries with
    | nil =>
        rw [List.forall₂_nil_right_iff.mp hall]
        rfl
    | cons _ _ => rfl
  have hstart : ∀ source ∈ sources.columns, nameKey py source ∉ ({} : SelectItems).seen :=
    fun _ _ h => (nomatch h)
  obtain ⟨acc, hacc, -, hselecting, hdisabled⟩ := foldlM_selectItem hlower sources hknown hall
    (fun _ h => h) sources.distinct hstart
  have hrun : mappingSelectItems py mapping = .ok (acc.items, acc.targets) := by
    have hnot : ¬(acc.targets ≠ [] ∧ acc.meaningful = 0) := by
      rintro ⟨hne, hzero⟩
      rcases hselects with hsome | hnone
      · exact Nat.ne_of_gt (hselecting hsome) hzero
      · exact hne (hdisabled hnone)
    have hfold : (tableMappings mapping).foldlM (selectItem py
        ((((mapping.get "source_columns").toList).getD []).map fun item => py.str (item.get "name"))) {} =
        .ok acc := by
      rw [hmappings, hsources]
      exact hacc
    unfold tableMappings at hfold
    unfold mappingSelectItems
    simp only
    rw [hfold]
    show (if acc.targets ≠ [] ∧ acc.meaningful = 0 then _ else _) = _
    rw [if_neg hnot]
    rfl
  refine ⟨acc.items, acc.targets, hrun, ?_⟩
  rw [mappingSelectItems_items hrun, selectColumns, hmappings]

theorem controlChar_toLower (c : Char) : controlChar c.toLower = controlChar c := by
  have hnat := Text.toLower_toNat c
  unfold controlChar
  rw [hnat, Bool.eq_iff_iff]
  simp only [Bool.or_eq_true, decide_eq_true_eq, beq_iff_eq]
  split_ifs <;> omega

/-- The lower case of ASCII texts. -/
theorem lowers_scalars : Lowers Python.scalars where
  strip s := by
    show Text.lowerAscii (Text.strip s) = Text.strip (Text.lowerAscii s)
    unfold Text.lowerAscii Text.strip
    rw [String.toList_ofList, String.toList_ofList, Text.stripChars_map Text.isSpace_toLower]
  control s := by
    have hsame : controlChar ∘ Char.toLower = controlChar := funext controlChar_toLower
    show (Text.lowerAscii s).toList.any controlChar = _
    unfold Text.lowerAscii
    rw [String.toList_ofList, List.any_map, hsame]
  empty s := by
    show Text.lowerAscii s = "" ↔ s = ""
    rw [← String.toList_inj, ← String.toList_inj]
    unfold Text.lowerAscii
    rw [String.toList_ofList]
    exact List.map_eq_nil_iff

/-- A database that carries out every statement. -/
def answeringEnv : Env where
  emit _ := .ok ()
  waitReady _ := .ok (0, true)
  recover _ := .ok ([], true)
  connect _ := .ok ()
  close _ := .ok ()
  listTables _ := .ok []
  listColumns _ := .ok []
  switchCatalog _ := .ok ()
  execute _ := .ok 0
  query _ := .ok { batches := [] }
  rowsToCsv _ := .ok 0
  streamLoad _ := .ok []

def columnNamed (name : String) : Json := .obj [("name", .str name)]

/-- A saved entry of the column `id`. -/
def savedEntry (sourceName : String) (fixedValue : Json) : Json :=
  .obj [("target_name", .str "id"), ("source_name", .str sourceName), ("fixed_value", fixedValue),
    ("enabled", .bool true)]

theorem usable_id : Usable "id" := ⟨by decide, by decide, by decide⟩

/-- A table with the columns `id` and `Name`. -/
def twoColumns : SourceColumns Python.scalars where
  columns := [columnNamed "id", columnNamed "Name"]
  usable column h := by
    simp only [List.mem_cons, List.not_mem_nil, or_false] at h
    rcases h with rfl | rfl
    · exact ⟨"id", rfl, usable_id⟩
    · exact ⟨"Name", rfl, by decide, by decide, by decide⟩
  distinct := by
    rw [List.pairwise_pair]
    decide

/-- The entries of the column `id` with a saved entry. -/
def idEntries (saved : Json) : Except Raised (List Json) :=
  sourcePolicyColumnMappings Python.scalars (fun _ => "STRING") [saved] [columnNamed "id"] [columnNamed "id"]

def idMapping (entries : List Json) : Dict :=
  [("source_columns", .arr [columnNamed "id"]), ("column_mappings", .arr entries)]

end DataSync
