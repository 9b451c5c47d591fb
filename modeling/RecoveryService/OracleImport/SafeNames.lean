import RecoveryService.OracleImport.TargetNames

/-! # Which targets an import drops

A name is normalised and cut behind 30 characters, so what tells two targets apart may be cut off.  Two
schemas of a run have different targets, and two runs with default names have no target in common, where
the texts still differ before the cut; a system user or tablespace is never dropped or created. -/

namespace RecoveryService.OracleImport

open Text Program

/-! ### Normalised texts -/

/-- A character that `normalizeToken` keeps. -/
structure Fixed (c : Char) : Prop where
  name : isNameChar c = true
  upper : upperChar c = [c]

theorem fixed_underscore : Fixed '_' := ⟨by decide, by decide⟩

theorem fixed_digit (n : ℕ) : Fixed (digit n) ∧ digit n ≠ '_' ∧ (digit n).isDigit = true := by
  have hall : ∀ k : Fin 10, isNameChar (digit k) = true ∧ upperChar (digit k) = [digit k] ∧
      digit k ≠ '_' ∧ (digit k).isDigit = true := by decide
  have hmod : digit n = digit (n % 10) := by
    unfold digit
    rw [Nat.mod_mod]
  obtain ⟨hname, hupper, hne, hdigit⟩ := hall ⟨n % 10, Nat.mod_lt n (by decide)⟩
  rw [hmod]
  exact ⟨⟨hname, hupper⟩, hne, hdigit⟩

def FixedText (text : Name) : Prop := ∀ c ∈ text, Fixed c

theorem FixedText.nil : FixedText [] := fun _ hc => absurd hc List.not_mem_nil

variable {text : Name}

theorem FixedText.cons {c : Char} (hc : Fixed c) (h : FixedText text) : FixedText (c :: text) :=
  List.forall_mem_cons.mpr ⟨hc, h⟩

variable {a : Name}

theorem FixedText.append {b : Name} (ha : FixedText a) (hb : FixedText b) : FixedText (a ++ b) := by
  intro c hc
  rcases List.mem_append.mp hc with hc | hc
  · exact ha c hc
  · exact hb c hc

theorem FixedText.upper_eq (h : FixedText text) : upper text = text :=
  upper_eq_self fun c hc => (h c hc).upper

theorem FixedText.take (h : FixedText text) (n : ℕ) : FixedText (text.take n) :=
  fun c hc => h c (List.mem_of_mem_take hc)

theorem fixed_squash (value : Name) : FixedText (squash value) := by
  intro c hc
  rcases mem_subRuns hc with rfl | ⟨hmem, hname⟩
  · exact fixed_underscore
  · exact ⟨by rwa [Bool.not_eq_false'] at hname, upperChar_of_mem hmem⟩

theorem normalizeToken_eq (value : Name) : normalizeToken value =
    if stripChars (· == '_') (squash value) = [] then "DMP".toList
    else stripChars (· == '_') (squash value) := rfl

theorem fixed_normalizeToken (value : Name) : FixedText (normalizeToken value) := by
  rw [normalizeToken_eq]
  split
  · exact .cons ⟨by decide, by decide⟩ (.cons ⟨by decide, by decide⟩ (.cons ⟨by decide, by decide⟩ .nil))
  · exact fun c hc => fixed_squash value c (mem_stripChars hc)

/-- A normalised text begins with a letter or a digit. -/
theorem normalizeToken_cons (value : Name) : ∃ c rest, normalizeToken value = c :: rest ∧ c ≠ '_' := by
  rw [normalizeToken_eq]
  split
  · exact ⟨'D', ['M', 'P'], rfl, by decide⟩
  · next hne =>
      cases hcs : stripChars (· == '_') (squash value) with
      | nil => exact (hne hcs).elim
      | cons c rest =>
          refine ⟨c, rest, rfl, ?_⟩
          have hc := stripChars_eq_cons hcs
          rwa [beq_eq_false_iff_ne] at hc

/-- A value between two normalised parts is squashed, and the parts stay. -/
theorem normalizeToken_between {b mid init rest : Name} {c d : Char} (ha : FixedText a) (hb : FixedText b)
    (hfirst : a = c :: rest) (hc : c ≠ '_') (hlast : b = init ++ [d]) (hd : d ≠ '_') :
    normalizeToken (a ++ mid ++ b) = a ++ squash mid ++ b := by
  have hna : ∀ c ∈ a, (!isNameChar c) = false := fun c hc => by
    rw [(ha c hc).name]
    rfl
  have hnb : ∀ c ∈ b, (!isNameChar c) = false := fun c hc => by
    rw [(hb c hc).name]
    rfl
  have hsquash : squash (a ++ mid ++ b) = a ++ squash mid ++ b := by
    unfold squash
    rw [upper_append, upper_append, ha.upper_eq, hb.upper_eq, subRuns_append, subRuns_append,
      subRuns_eq_self hna, subRuns_eq_self hnb, runOpen_eq_false hna]
  have hstrip : stripChars (· == '_') (a ++ squash mid ++ b) = a ++ squash mid ++ b := by
    have hhead : a ++ squash mid ++ b = c :: (rest ++ squash mid ++ b) := by
      rw [hfirst]
      rfl
    have htail : a ++ squash mid ++ b = (a ++ squash mid ++ init) ++ [d] := by
      rw [hlast, List.append_assoc (a ++ squash mid)]
    exact stripChars_eq_self hhead htail (beq_eq_false_iff_ne.mpr hc) (beq_eq_false_iff_ne.mpr hd)
  have hne : a ++ squash mid ++ b ≠ [] := by
    rw [hfirst]
    exact List.cons_ne_nil _ _
  rw [normalizeToken_eq, hsquash, hstrip]
  exact if_neg hne

theorem lead_append {b : Name} (h : a ≠ []) : lead (a ++ b) = lead a ++ b := by
  cases a with
  | nil => exact (h rfl).elim
  | cons c rest =>
      unfold lead
      rw [List.cons_append, List.head?_cons, List.head?_cons]
      split
      · rw [List.append_assoc, List.cons_append]
      · rw [List.cons_append]

theorem FixedText.lead (h : FixedText a) : FixedText (lead a) := by
  unfold OracleImport.lead
  split
  · exact FixedText.append (.cons ⟨by decide, by decide⟩ (.cons fixed_underscore .nil)) h
  · exact h

/-! ### The texts of the default names -/

theorem fixed_twoDigits (n : ℕ) : FixedText (twoDigits n) :=
  .cons (fixed_digit _).1 (.cons (fixed_digit _).1 .nil)

theorem Clock.fixed_suffix (now : Clock) : FixedText now.suffix := by
  have hbar : FixedText "_".toList := .cons fixed_underscore .nil
  exact ((((((fixed_twoDigits _).append (fixed_twoDigits _)).append (fixed_twoDigits _)).append hbar).append
    (fixed_twoDigits _)).append (fixed_twoDigits _))

/-- The suffix ends with a digit. -/
theorem Clock.suffix_concat (now : Clock) : ∃ init, now.suffix = init ++ [digit now.minute] :=
  ⟨twoDigits now.year ++ twoDigits now.month ++ twoDigits now.day ++ "_".toList ++ twoDigits now.hour ++
    [digit (now.minute / 10)], by simp [Clock.suffix, twoDigits]⟩

namespace RunInput

variable (r : RunInput)

/-- The text of the user of one schema, before the cut. -/
def defaultText : Name := lead r.base ++ '_' :: r.now.suffix

/-- The text of the user of a schema among several. -/
def schemaText (schema : Name) : Name := lead r.base ++ '_' :: (squash schema ++ '_' :: r.now.suffix)

def tablespaceText : Name := "TBS_".toList ++ (r.base ++ '_' :: r.now.suffix)

variable {r}

/-- A value between the parts of a default name. -/
theorem normalizeToken_default {a mid : Name} {c : Char} {rest : Name} (ha : FixedText a)
    (hfirst : a = c :: rest) (hc : c ≠ '_') :
    normalizeToken (a ++ mid ++ '_' :: r.now.suffix) = a ++ squash mid ++ '_' :: r.now.suffix := by
  obtain ⟨init, hinit⟩ := r.now.suffix_concat
  have hb : FixedText ('_' :: r.now.suffix) := .cons fixed_underscore r.now.fixed_suffix
  have hlast : '_' :: r.now.suffix = ('_' :: init) ++ [digit r.now.minute] := by
    rw [hinit]
    rfl
  exact normalizeToken_between ha hb hfirst hc hlast (fixed_digit _).2.1

theorem base_ne_nil : r.base ≠ [] := by
  obtain ⟨c, rest, hbase, -⟩ := normalizeToken_cons r.displayName
  unfold base
  rw [hbase]
  exact List.cons_ne_nil _ _

theorem defaultUser_eq : r.defaultUser = r.defaultText.take 30 := by
  obtain ⟨c, rest, hbase, hc⟩ := normalizeToken_cons r.displayName
  have hnormal : normalizeToken (normalizeToken r.displayName ++ [] ++ '_' :: r.now.suffix) =
      normalizeToken r.displayName ++ squash [] ++ '_' :: r.now.suffix :=
    normalizeToken_default (fixed_normalizeToken r.displayName) hbase hc
  rw [show squash [] = [] from rfl, List.append_nil] at hnormal
  unfold defaultUser defaultText oracleName
  unfold base at *
  rw [hnormal, lead_append (by rw [hbase]; exact List.cons_ne_nil _ _)]

theorem schemaName_eq (hblank : r.options.targetSchemaPrefix = []) (schema : Name) :
    r.schemaName schema = (r.schemaText schema).take 30 := by
  obtain ⟨c, rest, hbase, hc⟩ := normalizeToken_cons r.displayName
  have hfixed : FixedText (r.base ++ ['_']) :=
    (fixed_normalizeToken r.displayName).append (.cons fixed_underscore .nil)
  have hfirst : r.base ++ ['_'] = c :: (rest ++ ['_']) := by
    unfold base
    rw [hbase, List.cons_append]
  have hnormal : normalizeToken (r.base ++ ['_'] ++ schema ++ '_' :: r.now.suffix) =
      r.base ++ ['_'] ++ squash schema ++ '_' :: r.now.suffix :=
    normalizeToken_default hfixed hfirst hc
  unfold schemaName oracleName schemaText
  rw [if_neg (not_not.mpr hblank)]
  have hvalue : r.base ++ '_' :: schema ++ '_' :: r.now.suffix =
      r.base ++ ['_'] ++ schema ++ '_' :: r.now.suffix := by
    rw [List.append_assoc r.base ['_'], List.singleton_append]
  rw [hvalue, hnormal, List.append_assoc r.base, List.append_assoc r.base, lead_append base_ne_nil,
    List.singleton_append, List.cons_append]

theorem defaultTablespace_eq : r.defaultTablespace = r.tablespaceText.take 30 := by
  have hfixed : FixedText ("TBS_".toList ++ r.base) :=
    FixedText.append (.cons ⟨by decide, by decide⟩ (.cons ⟨by decide, by decide⟩ (.cons ⟨by decide, by decide⟩
      (.cons fixed_underscore .nil)))) (fixed_normalizeToken r.displayName)
  have hfirst : "TBS_".toList ++ r.base = 'T' :: ("BS_".toList ++ r.base) := rfl
  have hnormal : normalizeToken ("TBS_".toList ++ r.base ++ [] ++ '_' :: r.now.suffix) =
      "TBS_".toList ++ r.base ++ squash [] ++ '_' :: r.now.suffix :=
    normalizeToken_default hfixed hfirst (by decide)
  rw [show squash [] = [] from rfl, List.append_nil] at hnormal
  unfold defaultTablespace tablespaceText oracleName
  rw [hnormal, List.append_assoc]
  rfl

/-! ### The targets of a run with default names -/

variable (r)

/-- No option names a target. -/
structure Default : Prop where
  targetUser : r.options.targetUser = []
  keepSourceSchema : r.options.keepSourceSchema = false
  targetSchemaPrefix : r.options.targetSchemaPrefix = []
  targetTablespace : r.options.targetTablespace = []
  targetTablespacePrefix : r.options.targetTablespacePrefix = []

/-- The texts of the default targets, before the cut. -/
def texts : Kind → List Name
  | .user => r.schemas.map fun schema =>
      if r.schemas.length ≤ 1 then r.defaultText else r.schemaText schema
  | .tablespace =>
      if r.schemas = [] ∧ ∀ tablespace ∈ r.tablespaces, IsSystem .tablespace tablespace then []
      else [r.tablespaceText]

variable {r}

theorem Default.schemaMap_eq (h : r.Default) : r.schemaMap = .ok (r.schemas.map fun schema =>
    (schema, (if r.schemas.length ≤ 1 then r.defaultText else r.schemaText schema).take 30)) := by
  unfold schemaMap
  rw [if_neg fun hboth => hboth.1 h.targetUser, if_neg (not_not.mpr h.targetUser),
    if_neg (by rw [h.keepSourceSchema]; exact Bool.false_ne_true), if_neg (not_not.mpr h.targetSchemaPrefix)]
  split
  · rw [defaultUser_eq]
  · simp only [schemaName_eq h.targetSchemaPrefix]

theorem Default.target_eq (h : r.Default) : r.targetTablespace = r.tablespaceText.take 30 := by
  unfold RunInput.targetTablespace
  rw [if_neg (not_not.mpr h.targetTablespace), defaultTablespace_eq]

theorem Default.mem_tablespaceMap (h : r.Default) {name : Name} : name ∈ r.tablespaceMap.map Prod.snd ↔
      (∃ tablespace ∈ r.tablespaces, ¬ IsSystem .tablespace tablespace) ∧ name = r.tablespaceText.take 30 := by
  have hnot : ¬ (r.options.targetTablespace = [] ∧ r.options.targetTablespacePrefix ≠ []) :=
    fun hboth => hboth.2 h.targetTablespacePrefix
  unfold tablespaceMap
  rw [List.map_map]
  simp only [Function.comp_def, if_neg hnot, h.target_eq, List.mem_map, List.mem_filter, decide_eq_true_eq]
  constructor
  · rintro ⟨tablespace, htablespace, rfl⟩
    exact ⟨⟨tablespace, htablespace⟩, rfl⟩
  · rintro ⟨⟨tablespace, htablespace⟩, rfl⟩
    exact ⟨tablespace, htablespace, rfl⟩

/-- The targets of a run with default names are its texts, cut. -/
theorem Default.targets_eq (h : r.Default) : ∃ targets, r.targets = .ok targets ∧
    ∀ kind name, name ∈ targets kind ↔ ∃ text ∈ r.texts kind, name = text.take 30 := by
  refine ⟨_, by
    unfold RunInput.targets
    rw [h.schemaMap_eq]
    rfl, fun kind name => ?_⟩
  cases kind with
  | user =>
      simp only [texts, mem_sortedSet, List.mem_map]
      constructor
      · rintro ⟨_, ⟨schema, hschema, rfl⟩, rfl⟩
        exact ⟨_, ⟨schema, hschema, rfl⟩, rfl⟩
      · rintro ⟨_, ⟨schema, hschema, rfl⟩, rfl⟩
        exact ⟨_, ⟨schema, hschema, rfl⟩, rfl⟩
  | tablespace =>
      simp only [texts, h.target_eq]
      by_cases hsome : ∃ tablespace ∈ r.tablespaces, ¬ IsSystem .tablespace tablespace
      · have hall : ¬ (r.schemas = [] ∧ ∀ tablespace ∈ r.tablespaces, IsSystem .tablespace tablespace) := by
          rintro ⟨-, hall⟩
          obtain ⟨tablespace, hmem, hnot⟩ := hsome
          exact hnot (hall tablespace hmem)
        have hne : sortedSet (r.tablespaceMap.map Prod.snd) ≠ [] := by
          have hmem := mem_sortedSet.mpr (h.mem_tablespaceMap.mpr ⟨hsome, rfl⟩)
          exact List.ne_nil_of_mem hmem
        rw [if_neg fun hboth => hne hboth.1, if_neg hall, mem_sortedSet, h.mem_tablespaceMap,
          and_iff_right hsome]
        simp only [List.mem_singleton, exists_eq_left]
      · have hnil : sortedSet (r.tablespaceMap.map Prod.snd) = [] := by
          refine List.eq_nil_iff_forall_not_mem.mpr fun name hname => hsome ?_
          exact (h.mem_tablespaceMap.mp (mem_sortedSet.mp hname)).1
        have hall : ∀ tablespace ∈ r.tablespaces, IsSystem .tablespace tablespace := by
          intro tablespace hmem
          by_contra hnot
          exact hsome ⟨tablespace, hmem, hnot⟩
        rw [hnil]
        by_cases hschemas : r.schemas = []
        · have husers : sortedSet ((r.schemas.map fun schema =>
              (schema, (if r.schemas.length ≤ 1 then r.defaultText else r.schemaText schema).take 30)).map
                Prod.snd) = [] := by
            rw [hschemas, List.map_nil, List.map_nil, sortedSet, List.dedup_nil, List.mergeSort_nil]
          rw [if_neg fun hboth => hboth.2 husers, if_pos ⟨hschemas, hall⟩]
          simp only [List.not_mem_nil, false_and, exists_false]
        · obtain ⟨schema, rest, hcons⟩ := List.exists_cons_of_ne_nil hschemas
          have husers : sortedSet ((r.schemas.map fun schema =>
              (schema, (if r.schemas.length ≤ 1 then r.defaultText else r.schemaText schema).take 30)).map
                Prod.snd) ≠ [] := by
            refine List.ne_nil_of_mem (mem_sortedSet.mpr (List.mem_map.mpr ⟨_, List.mem_map.mpr
              ⟨schema, ?_, rfl⟩, rfl⟩))
            rw [hcons]
            exact List.mem_cons_self
          rw [if_pos ⟨rfl, husers⟩, if_neg fun hboth => hschemas hboth.1]
          simp only [List.mem_singleton, exists_eq_left]

variable {text : Name}

theorem eq_of_mem_texts_tablespace (h : text ∈ r.texts .tablespace) : text = r.tablespaceText := by
  simp only [texts] at h
  split at h
  · cases h
  · exact List.mem_singleton.mp h

/-- The text of a user ends with a digit. -/
theorem texts_user_concat (h : text ∈ r.texts .user) : ∃ init n, text = init ++ [digit n] := by
  obtain ⟨init, hinit⟩ := r.now.suffix_concat
  obtain ⟨schema, -, rfl⟩ := List.mem_map.mp h
  split
  · exact ⟨lead r.base ++ '_' :: init, r.now.minute, by
      rw [defaultText, hinit, List.append_assoc, List.cons_append]⟩
  · exact ⟨lead r.base ++ '_' :: (squash schema ++ '_' :: init), r.now.minute, by
      rw [schemaText, hinit]
      simp only [List.append_assoc, List.cons_append]⟩

/-- A default name is no system name: it has 30 characters or ends with a digit, or begins with `TBS`. -/
theorem default_not_system {kind : Kind} (htext : text ∈ r.texts kind) (hfixed : FixedText text) :
    ¬ IsSystem kind (text.take 30) := by
  unfold IsSystem
  rw [(hfixed.take 30).upper_eq]
  intro hsystem
  cases kind with
  | user =>
      have hshort : ∀ name ∈ systemNames .user, name.length < 30 ∧
          ∀ c ∈ name.getLast?, c.isDigit = false := by simp [systemNames]
      obtain ⟨hlength, hlast⟩ := hshort _ hsystem
      rw [List.length_take] at hlength
      obtain ⟨init, n, hinit⟩ := texts_user_concat htext
      have hwhole : text.take 30 = text := List.take_of_length_le (by omega)
      rw [hwhole, hinit, List.getLast?_concat] at hlast
      have hdigit := hlast (digit n) rfl
      rw [(fixed_digit n).2.2] at hdigit
      cases hdigit
  | tablespace =>
      have hbegin : ∀ name ∈ systemNames .tablespace, name.head? ≠ some 'T' ∨ name.length < 5 := by
        simp [systemNames]
      rw [eq_of_mem_texts_tablespace htext] at hsystem
      rcases hbegin _ hsystem with hhead | hlength
      · exact hhead rfl
      · obtain ⟨c, rest, hbase, -⟩ := normalizeToken_cons r.displayName
        have hlong : 5 ≤ r.tablespaceText.length := by
          unfold tablespaceText base
          rw [hbase]
          simp only [List.length_append, List.length_cons]
          change 5 ≤ 4 + (rest.length + 1 + (r.now.suffix.length + 1))
          omega
        rw [List.length_take] at hlength
        omega

theorem fixed_texts {kind : Kind} (h : text ∈ r.texts kind) : FixedText text := by
  have hbase : FixedText r.base := fixed_normalizeToken r.displayName
  have hend : FixedText ('_' :: r.now.suffix) := .cons fixed_underscore r.now.fixed_suffix
  cases kind with
  | user =>
      obtain ⟨schema, -, rfl⟩ := List.mem_map.mp h
      split
      · exact hbase.lead.append hend
      · exact hbase.lead.append (.cons fixed_underscore ((fixed_squash schema).append hend))
  | tablespace =>
      rw [eq_of_mem_texts_tablespace h]
      exact FixedText.append (.cons ⟨by decide, by decide⟩ (.cons ⟨by decide, by decide⟩
        (.cons ⟨by decide, by decide⟩ (.cons fixed_underscore .nil)))) (hbase.append hend)

end RunInput

/-! ### The run -/

section steps

variable {P : Database → Prop} {Q : Unit → Database → Prop} {E : String → Database → Prop} {kind : Kind}
  {name : Name}

theorem spec_ensureSafe (hsafe : ¬ IsSystem kind name → ∀ db, P db → Q () db)
    (hraise : IsSystem kind name → ∀ e db, P db → E e db) : Spec P (ensureSafe kind name) Q E :=
  spec_onlyIf (fun hsystem => spec_raise fun db hdb => hraise hsystem _ db hdb) hsafe

/-- A target is safe and either not there or dropped. -/
theorem spec_dropExisting {stop : Bool}
    (hskip : ¬ IsSystem kind name → ∀ db, P db → upper name ∉ db.present kind → Q () db)
    (hdrop : ¬ IsSystem kind name → ∀ db, P db → upper name ∈ db.present kind → Q () (db.drop kind name))
    (hraise : IsSystem kind name ∨ stop = true → ∀ e db, P db → E e db) :
    Spec P (dropExisting stop kind name) Q E := by
  refine spec_bind (Q := fun _ db => P db ∧ ¬ IsSystem kind name)
    (spec_ensureSafe (fun hsafe _ hdb => ⟨hdb, hsafe⟩) fun hsystem e db hdb => hraise (.inl hsystem) e db hdb)
    fun _ => spec_read fun db hdb => ?_
  refine spec_onlyIf (fun hpresent => ?_) fun habsent s hs => ?_
  · refine spec_bind (Q := fun _ s => s = db) (spec_onlyIf (fun hstop => spec_raise fun s hs => ?_)
      fun _ _ hs => hs) fun _ => spec_update fun s hs => ?_
    · rw [hs]
      exact hraise (.inr hstop) _ db hdb.1
    · rw [hs]
      exact hdrop hdb.2 db hdb.1 hpresent
  · rw [hs]
    exact hskip hdb.2 db hdb.1 habsent

theorem spec_createMissing (hskip : ¬ IsSystem kind name → ∀ db, P db → upper name ∈ db.present kind → Q () db)
    (hcreate : ¬ IsSystem kind name → ∀ db, P db → upper name ∉ db.present kind → Q () (db.create kind name))
    (hraise : IsSystem kind name → ∀ e db, P db → E e db) : Spec P (createMissing kind name) Q E := by
  refine spec_bind (Q := fun _ db => P db ∧ ¬ IsSystem kind name)
    (spec_ensureSafe (fun hsafe _ hdb => ⟨hdb, hsafe⟩) hraise) fun _ => spec_read fun db hdb => ?_
  refine spec_onlyIf (fun habsent => spec_update fun s hs => ?_) fun hpresent s hs => ?_
  · rw [hs]
    exact hcreate hdb.2 db hdb.1 habsent
  · rw [hs]
    exact hskip hdb.2 db hdb.1 (not_not.mp hpresent)

end steps

/-- A property that a drop of a target and a creation of one keep holds of every run. -/
theorem keeps_execute {I : Database → Prop} (r : RunInput)
    (hdrop : ∀ targets, r.targets = .ok targets → ∀ kind, ∀ name ∈ targets kind, ¬ IsSystem kind name →
      ∀ db, I db → I (db.drop kind name))
    (hcreate : ∀ kind name, ¬ IsSystem kind name → ∀ db, I db → I (db.create kind name)) :
    Keeps I r.execute := by
  have hdrops : ∀ targets, r.targets = .ok targets → ∀ kind, ∀ name ∈ targets kind,
      Keeps I (dropExisting r.options.stop kind name) := fun targets htargets kind name hname =>
    spec_dropExisting (fun _ _ hdb _ => hdb)
      (fun hsafe db hdb _ => hdrop targets htargets kind name hname hsafe db hdb) fun _ _ _ hdb => hdb
  have hcreates : ∀ kind name, Keeps I (createMissing kind name) := fun kind name =>
    spec_createMissing (fun _ _ hdb _ => hdb) (fun hsafe db hdb _ => hcreate kind name hsafe db hdb)
      fun _ _ _ hdb => hdb
  unfold RunInput.execute
  refine spec_lift_bind (fun targets htargets => ?_) fun _ _ hs => hs
  refine keeps_bind ?_ fun _ => ?_
  · exact keeps_bind (keeps_forM (hdrops targets htargets .user)) fun _ =>
      keeps_forM (hdrops targets htargets .tablespace)
  · exact keeps_bind (keeps_forM fun name _ => hcreates .tablespace name) fun _ =>
      keeps_forM fun name _ => hcreates .user name

/-- No system user or tablespace was dropped or created. -/
def Clean (db : Database) : Prop :=
  ∀ kind, (∀ name ∈ db.dropped kind, name ∉ systemNames kind) ∧ ∀ name ∈ db.created kind, name ∉ systemNames kind

variable {kind : Kind} {name : Name}

/-- A list of names by kind grows by one name. -/
theorem forall_mem_append {names : Kind → List Name} {R : Kind → Name → Prop}
    (h : ∀ kind, ∀ n ∈ names kind, R kind n) (hname : R kind name) (other : Kind) :
    ∀ n ∈ Function.update names kind (names kind ++ [name]) other, R other n := by
  by_cases hother : other = kind
  · rw [hother, Function.update_self]
    intro n hn
    rcases List.mem_append.mp hn with hn | hn
    · exact h kind n hn
    · rw [List.mem_singleton.mp hn]
      exact hname
  · rw [Function.update_of_ne hother]
    exact h other

theorem clean_execute (r : RunInput) : Keeps Clean r.execute :=
  keeps_execute r
    (fun _ _ _ _ _ hsafe _ hdb other => ⟨forall_mem_append (fun k => (hdb k).1) hsafe other, (hdb other).2⟩)
    fun _ _ hsafe _ hdb other => ⟨(hdb other).1, forall_mem_append (fun k => (hdb k).2) hsafe other⟩

/-- A run drops its targets only. -/
theorem dropped_targets (r : RunInput) : Keeps (fun db => ∀ kind, ∀ name ∈ db.dropped kind,
    ∃ targets, r.targets = .ok targets ∧ name ∈ (targets kind).map upper) r.execute :=
  keeps_execute r
    (fun targets htargets _ _ hname _ _ hdb other =>
      forall_mem_append (R := fun kind name => ∃ targets, r.targets = .ok targets ∧
        name ∈ (targets kind).map upper) hdb ⟨targets, htargets, List.mem_map_of_mem hname⟩ other)
    fun _ _ _ _ hdb => hdb

/-- Nothing is claimed behind an exception. -/
theorem spec_const {P : Database → Prop} {p : Prop} {x : Tool Unit} (h : ∀ db, P db → p) :
    Spec P x (fun _ _ => p) fun _ _ => True := by
  constructor
  intro db hdb
  cases hx : x db with
  | mk result db' =>
      cases result with
      | ok a => exact h db hdb
      | error e => trivial

variable {r : RunInput}
variable {targets : Kind → List Name}

/-- A run that goes through has no system name among its targets. -/
theorem not_system_of_returns (htargets : r.targets = .ok targets) (hname : name ∈ targets kind) :
    Spec (fun _ => True) r.execute (fun _ _ => ¬ IsSystem kind name) fun _ _ => True := by
  have hloop : Spec (fun _ => True) ((targets kind).forM (dropExisting r.options.stop kind))
      (fun _ _ => ¬ IsSystem kind name) fun _ _ => True :=
    spec_forM_mem hname (fun _ _ => spec_const fun _ _ => trivial)
      (spec_dropExisting (fun hsafe _ _ _ => hsafe) (fun hsafe _ _ _ => hsafe) fun _ _ _ _ => trivial)
      fun _ _ => spec_const fun _ hsafe => hsafe
  unfold RunInput.execute
  refine spec_lift_bind (fun found hfound => ?_) fun _ _ _ => trivial
  rw [htargets, Except.ok.injEq] at hfound
  subst hfound
  refine spec_bind (Q := fun _ _ => ¬ IsSystem kind name) ?_ fun _ => spec_const fun _ hsafe => hsafe
  unfold cleanupTargets
  cases kind with
  | user => exact spec_bind hloop fun _ => spec_const fun _ hsafe => hsafe
  | tablespace => exact spec_bind (Q := fun _ _ => True) (spec_const fun _ _ => trivial) fun _ => hloop

/-- What a drop does to the lists of a kind. -/
theorem mem_dropped_drop {db : Database} {other : Kind} {n : Name} :
    n ∈ (db.drop kind name).dropped other ↔ n ∈ db.dropped other ∨ (other = kind ∧ n = upper name) := by
  unfold Database.drop
  by_cases hother : other = kind
  · subst hother
    simp only [Function.update_self, List.mem_append, List.mem_singleton, true_and]
  · simp only [Function.update_of_ne hother, hother, false_and, or_false]

theorem mem_present_drop {db : Database} {other : Kind} {n : Name} :
    n ∈ (db.drop kind name).present other ↔ n ∈ db.present other ∧ ¬ (other = kind ∧ n = upper name) := by
  unfold Database.drop
  by_cases hother : other = kind
  · subst hother
    simp only [Function.update_self, List.mem_filter, decide_eq_true_eq, true_and, ne_eq]
  · simp only [Function.update_of_ne hother, hother, false_and, not_false_eq_true, and_true]

/-- A target that is there is dropped, where no target is a system name. -/
theorem target_dropped (htargets : r.targets = .ok targets) (hstop : r.options.stop = false)
    (hsafe : ∀ kind, ∀ n ∈ targets kind, ¬ IsSystem kind n) (hname : name ∈ targets kind)
    (hupper : upper name = name) :
    Spec (fun db => name ∈ db.present kind) r.execute (fun _ db => name ∈ db.dropped kind)
      fun _ db => name ∈ db.dropped kind := by
  let P : Database → Prop := fun db => name ∈ db.present kind ∨ name ∈ db.dropped kind
  let D : Database → Prop := fun db => name ∈ db.dropped kind
  have hraise : ∀ k, ∀ n ∈ targets k, ¬ (IsSystem k n ∨ r.options.stop = true) := by
    rintro k n hn (hsystem | htrue)
    · exact hsafe k n hn hsystem
    · rw [hstop] at htrue
      cases htrue
  have hP : ∀ k, ∀ n ∈ targets k, Spec P (dropExisting r.options.stop k n) (fun _ => P) fun _ => D := by
    intro k n hn
    refine spec_dropExisting (fun _ _ hdb _ => hdb) (fun _ db hdb _ => ?_) fun h => (hraise k n hn h).elim
    change name ∈ _ ∨ name ∈ _
    rw [mem_present_drop, mem_dropped_drop]
    by_cases hsame : kind = k ∧ name = upper n
    · exact .inr (.inr hsame)
    · exact hdb.imp (fun hpresent => ⟨hpresent, hsame⟩) .inl
  have hD : ∀ k, ∀ n ∈ targets k, Spec D (dropExisting r.options.stop k n) (fun _ => D) fun _ => D :=
    fun k n hn => spec_dropExisting (fun _ _ hdb _ => hdb) (fun _ _ hdb _ => mem_dropped_drop.mpr (.inl hdb))
      fun h => (hraise k n hn h).elim
  have hreach : Spec P (dropExisting r.options.stop kind name) (fun _ => D) fun _ => D := by
    refine spec_dropExisting (fun _ db hdb habsent => hdb.resolve_left ?_)
      (fun _ db _ _ => mem_dropped_drop.mpr (.inr ⟨rfl, hupper.symm⟩)) fun h => (hraise kind name hname h).elim
    rwa [hupper] at habsent
  have hloop : Spec P ((targets kind).forM (dropExisting r.options.stop kind)) (fun _ => D) fun _ => D :=
    spec_forM_mem hname (hP kind) hreach (hD kind)
  have hcreate : ∀ k n, Spec D (createMissing k n) (fun _ => D) fun _ => D :=
    fun k n => spec_createMissing (fun _ _ hdb _ => hdb) (fun _ _ hdb _ => hdb) fun _ _ _ hdb => hdb
  have hcleanup : Spec P (cleanupTargets r.options.stop targets) (fun _ => D) fun _ => D := by
    unfold cleanupTargets
    cases kind with
    | user => exact spec_bind hloop fun _ => spec_forM (hD .tablespace)
    | tablespace => exact spec_bind (Q := fun _ => P) (spec_forM (hP .user)) fun _ => hloop
  have hprepare : Spec D (prepareTargets targets) (fun _ => D) fun _ => D :=
    spec_bind (Q := fun _ => D) (spec_forM fun n _ => hcreate .tablespace n) fun _ =>
      spec_forM fun n _ => hcreate .user n
  unfold RunInput.execute
  rw [htargets]
  exact ⟨fun db hdb => (spec_bind hcleanup fun _ => hprepare).ends db (.inl hdb)⟩

/-! ### The claim -/

/-- A run of another dump, or of the same one in another minute. -/
def RunInput.Other (r r' : RunInput) : Prop := r.dump ≠ r'.dump ∨ r.now ≠ r'.now

/-- What holds of the names of a run, also against another run. -/
structure SafeNames (r r' : RunInput) : Prop where
  injective : ∀ m, r.schemaMap = .ok m → ∀ s t user, (s, user) ∈ m → (t, user) ∈ m → s = t
  /-- The run drops and creates nothing of the system, and stops at a system name. -/
  noSystem : ∀ present, Clean (r.execute { present }).2 ∧ ∀ db, r.execute { present } = (.ok (), db) →
    ∀ targets, r.targets = .ok targets → ∀ kind, ∀ name ∈ targets kind, ¬ IsSystem kind name
  /-- With default names and `--on-conflict recreate` nothing of the other run is dropped. -/
  apart : r.Default → r'.Default → r.options.stop = false → r.Other r' → ∀ present kind,
    ∀ name ∈ (r.execute { present }).2.dropped kind, ∀ targets, r'.targets = .ok targets →
      name ∉ (targets kind).map upper

namespace RunInput

variable (r : RunInput)

/-- The text that tells the user of a schema from those of the other schemas, with as much of it as is kept. -/
def kept (schema : Name) : Name :=
  if r.options.targetSchemaPrefix ≠ [] then
    (lead (normalizeToken (r.options.targetSchemaPrefix ++ schema))).take 30
  else (squash schema ++ '_' :: r.now.suffix).take (29 - (lead r.base).length)

/-- Where the target users are derived from the schemas, the schemas differ in what is kept of them. -/
def Distinguishes : Prop :=
  r.options.targetUser = [] → r.options.keepSourceSchema = false →
    ∀ s ∈ r.schemas, ∀ t ∈ r.schemas, s ≠ t → r.kept s ≠ r.kept t

/-- The texts of two runs differ in their first 30 characters. -/
def Apart (r' : RunInput) : Prop :=
  ∀ kind, ∀ text ∈ r.texts kind, ∀ text' ∈ r'.texts kind, text.take 30 ≠ text'.take 30

end RunInput

/-- A common beginning does not tell two texts apart. -/
theorem take_append_eq_iff {α : Type*} (n : ℕ) (a x y : List α) :
    (a ++ x).take n = (a ++ y).take n ↔ x.take (n - a.length) = y.take (n - a.length) := by
  rw [List.take_append, List.take_append, List.append_cancel_left_eq]

theorem schemaText_take_iff (r : RunInput) (s t : Name) : (r.schemaText s).take 30 = (r.schemaText t).take 30 ↔
      (squash s ++ '_' :: r.now.suffix).take (29 - (lead r.base).length) =
        (squash t ++ '_' :: r.now.suffix).take (29 - (lead r.base).length) := by
  have hcons : ∀ schema, r.schemaText schema = (lead r.base ++ ['_']) ++ (squash schema ++ '_' :: r.now.suffix) := by
    intro schema
    rw [RunInput.schemaText, List.append_assoc, List.singleton_append]
  rw [hcons, hcons, take_append_eq_iff, List.length_append, List.length_singleton]
  have hroom : 30 - ((lead r.base).length + 1) = 29 - (lead r.base).length := by omega
  rw [hroom]

/-- Two schemas have one target where the same is kept of them. -/
theorem schemaName_eq_iff (r : RunInput) (s t : Name) :
    r.schemaName s = r.schemaName t ↔ r.kept s = r.kept t := by
  by_cases hblank : r.options.targetSchemaPrefix = []
  · rw [RunInput.schemaName_eq hblank, RunInput.schemaName_eq hblank, schemaText_take_iff]
    unfold RunInput.kept
    rw [if_neg (not_not.mpr hblank), if_neg (not_not.mpr hblank)]
  · unfold RunInput.schemaName RunInput.kept oracleName
    rw [if_pos hblank, if_pos hblank, if_pos hblank, if_pos hblank]

theorem eq_of_length_le_one {l : List Name} (h : l.length ≤ 1) {s t : Name} (hs : s ∈ l) (ht : t ∈ l) :
    s = t := by
  cases l with
  | nil => cases hs
  | cons a l =>
      have hl : l = [] := List.eq_nil_of_length_eq_zero (by rw [List.length_cons] at h; omega)
      subst hl
      rw [List.mem_singleton.mp hs, List.mem_singleton.mp ht]

/-- The pairs of a map that gives every schema its target. -/
theorem mem_schemas_map {l : List Name} {f : Name → Name} {s user : Name}
    (h : (s, user) ∈ l.map fun schema => (schema, f schema)) : s ∈ l ∧ user = f s := by
  obtain ⟨schema, hschema, heq⟩ := List.mem_map.mp h
  cases heq
  exact ⟨hschema, rfl⟩

/-- Targets that are derived from the schemas. -/
theorem RunInput.schemaMap_derived (huser : r.options.targetUser = [])
    (hkeep : r.options.keepSourceSchema = false)
    (h : r.options.targetSchemaPrefix ≠ [] ∨ ¬ r.schemas.length ≤ 1) :
    r.schemaMap = .ok (r.schemas.map fun schema => (schema, r.schemaName schema)) := by
  unfold RunInput.schemaMap
  rw [if_neg fun hboth => hboth.1 huser, if_neg (not_not.mpr huser),
    if_neg (by rw [hkeep]; exact Bool.false_ne_true)]
  by_cases hblank : r.options.targetSchemaPrefix = []
  · rw [if_neg (not_not.mpr hblank), if_neg (h.resolve_left (not_not.mpr hblank))]
  · rw [if_pos hblank]

theorem injective_iff (r : RunInput) :
    (∀ m, r.schemaMap = .ok m → ∀ s t user, (s, user) ∈ m → (t, user) ∈ m → s = t) ↔ r.Distinguishes := by
  constructor
  · intro hinjective huser hkeep s hs t ht hne hkept
    have hmany : ¬ r.schemas.length ≤ 1 := fun hle => hne (eq_of_length_le_one hle hs ht)
    have hmap := r.schemaMap_derived huser hkeep (.inr hmany)
    refine hne (hinjective _ hmap s t (r.schemaName s) (List.mem_map_of_mem hs) ?_)
    rw [(schemaName_eq_iff r s t).mpr hkept]
    exact List.mem_map_of_mem ht
  · intro hdistinct m hm s t user hs ht
    by_cases huser : r.options.targetUser = []
    · cases hkeep : r.options.keepSourceSchema with
      | true =>
          unfold RunInput.schemaMap at hm
          rw [if_neg fun hboth => hboth.1 huser, if_neg (not_not.mpr huser), if_pos hkeep] at hm
          split at hm
          · cases hm
          · cases hm
            exact (mem_schemas_map hs).2.symm.trans (mem_schemas_map ht).2
      | false =>
          by_cases hfew : r.schemas.length ≤ 1
          · have hmem : ∀ x, (x, user) ∈ m → x ∈ r.schemas := by
              intro x hx
              unfold RunInput.schemaMap at hm
              rw [if_neg fun hboth => hboth.1 huser, if_neg (not_not.mpr huser),
                if_neg (by rw [hkeep]; exact Bool.false_ne_true)] at hm
              split at hm
              · cases hm
                exact (mem_schemas_map hx).1
              · cases hm
                exact (mem_schemas_map hx).1
            exact eq_of_length_le_one hfew (hmem s hs) (hmem t ht)
          · rw [r.schemaMap_derived huser hkeep (.inr hfew)] at hm
            cases hm
            obtain ⟨hs, hsuser⟩ := mem_schemas_map hs
            obtain ⟨ht, htuser⟩ := mem_schemas_map ht
            by_contra hne
            exact hdistinct huser hkeep s hs t ht hne
              ((schemaName_eq_iff r s t).mp (hsuser.symm.trans htuser))
    · unfold RunInput.schemaMap at hm
      split at hm
      · cases hm
      · split at hm
        · cases hm
        · next hfew =>
            cases hm
            exact eq_of_length_le_one (Nat.le_of_not_lt hfew) (mem_schemas_map hs).1 (mem_schemas_map ht).1

theorem noSystem (r : RunInput) (present : Kind → List Name) :
    Clean (r.execute { present }).2 ∧ ∀ db, r.execute { present } = (.ok (), db) →
      ∀ targets, r.targets = .ok targets → ∀ kind, ∀ name ∈ targets kind, ¬ IsSystem kind name := by
  constructor
  · have hclean := (clean_execute r).ends { present } fun _ => ⟨nofun, nofun⟩
    cases hrun : r.execute { present } with
    | mk result db =>
        rw [hrun] at hclean
        cases result <;> exact hclean
  · intro db hrun targets htargets kind name hname
    have hsafe := (not_system_of_returns htargets hname).ends { present } trivial
    rw [hrun] at hsafe
    exact hsafe

/-- What a run with default names drops is what the other run has, or is not. -/
theorem apart_iff {r' : RunInput} (h : r.Default) (h' : r'.Default) (hstop : r.options.stop = false) :
    (∀ present kind, ∀ name ∈ (r.execute { present }).2.dropped kind, ∀ targets, r'.targets = .ok targets →
      name ∉ (targets kind).map upper) ↔ r.Apart r' := by
  obtain ⟨targets, htargets, hmem⟩ := h.targets_eq
  obtain ⟨targets', htargets', hmem'⟩ := h'.targets_eq
  constructor
  · intro hdropped kind text htext text' htext' heq
    have hfixed := (RunInput.fixed_texts htext).take 30
    have hname : text.take 30 ∈ targets kind := (hmem kind _).mpr ⟨text, htext, rfl⟩
    have hsafe : ∀ k, ∀ n ∈ targets k, ¬ IsSystem k n := by
      intro k n hn
      obtain ⟨other, hother, rfl⟩ := (hmem k n).mp hn
      exact RunInput.default_not_system hother (RunInput.fixed_texts hother)
    have hdrop := (target_dropped htargets hstop hsafe hname hfixed.upper_eq).ends
      { present := fun _ => [text.take 30] } (List.mem_singleton_self _)
    have hin : text.take 30 ∈ (r.execute { present := fun _ => [text.take 30] }).2.dropped kind := by
      cases hrun : r.execute { present := fun _ => [text.take 30] } with
      | mk result db =>
          rw [hrun] at hdrop
          cases result <;> exact hdrop
    refine hdropped _ kind _ hin targets' htargets' (List.mem_map.mpr ⟨text.take 30, ?_, hfixed.upper_eq⟩)
    exact (hmem' kind _).mpr ⟨text', htext', heq⟩
  · intro hapart present kind name hname other hother hin
    rw [htargets', Except.ok.injEq] at hother
    subst hother
    have hdropped := (dropped_targets r).ends { present } fun _ => nofun
    have hmine : ∃ targets, r.targets = .ok targets ∧ name ∈ (targets kind).map upper := by
      cases hrun : r.execute { present } with
      | mk result db =>
          rw [hrun] at hdropped hname
          cases result <;> exact hdropped kind name hname
    obtain ⟨found, hfound, hmine⟩ := hmine
    rw [htargets, Except.ok.injEq] at hfound
    subst hfound
    obtain ⟨n, hn, rfl⟩ := List.mem_map.mp hmine
    obtain ⟨n', hn', heq⟩ := List.mem_map.mp hin
    obtain ⟨text, htext, rfl⟩ := (hmem kind n).mp hn
    obtain ⟨text', htext', rfl⟩ := (hmem' kind n').mp hn'
    rw [((RunInput.fixed_texts htext).take 30).upper_eq, ((RunInput.fixed_texts htext').take 30).upper_eq] at heq
    exact hapart kind text htext text' htext' heq.symm

/-- A run of a dump with a long name. -/
def longRun (minute : ℕ) : RunInput where
  dump := 1
  displayName := "customer_archive_full_export_2026".toList
  now := { year := 2026, month := 9, day := 27, hour := 14, minute }
  schemas := ["HR".toList, "CRM".toList]
  tablespaces := []
  options := {}
  distinct := by decide

end RecoveryService.OracleImport
