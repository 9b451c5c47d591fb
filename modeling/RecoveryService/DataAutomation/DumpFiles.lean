import RecoveryService.OracleDumps.ExactDumps

/-! # The dump files of a scan

`_group_dump_files`, `_dump_pattern` and the dump file name of `_queue_restore` in
`services/data_automation.py`: the files whose names differ in the number before `.dmp` are one
dump set, and the restore is queued with `%U` for the number. -/

namespace RecoveryService.DumpFiles

open Buckets OracleDumps

variable (chars : Characters)

/-- A file that `_list_template_dmp_files` lists. -/
structure DumpFile where
  relativePath : Name
  sizeBytes : ℕ
  modifiedEpoch : ℤ
  dump : isDump relativePath = true

/-! ### The groups -/

/-- The name without `.dmp`. -/
def body (name : Name) : Name := name.take (name.length - 4)

/-- `.dmp`, as it is written in the name. -/
def ending (name : Name) : Name := name.drop (name.length - 4)

/-- The digits before `.dmp`. -/
def number (name : Name) : Name := (body name).rtakeWhile chars.isDecimal

/-- What stands before the number. -/
def stem (name : Name) : Name := (body name).rdropWhile chars.isDecimal

/-- `([_-])\\d{2,4}(?=\\.dmp$)`: the digits of a match are all those before `.dmp`. -/
def Numbered (name : Name) : Prop :=
  2 ≤ (number chars name).length ∧ (number chars name).length ≤ 4 ∧
    ((stem chars name).getLast? = some '_' ∨ (stem chars name).getLast? = some '-')

instance (name : Name) : Decidable (Numbered chars name) := inferInstanceAs (Decidable (_ ∧ _))

/-- `re.sub(r"(?i)([_-])\\d{2,4}(?=\\.dmp$)", r"\\1%U", name)`. -/
def withPercentU (name : Name) : Name :=
  if Numbered chars name then stem chars name ++ '%' :: 'U' :: ending name else name

/-- The key of a file. -/
def DumpFile.key (file : DumpFile) : Name := withPercentU chars file.relativePath

/-- `sorted(items, key=lambda value: value["relative_path"])`. -/
def sortedFiles (files : List DumpFile) : List DumpFile :=
  files.mergeSort fun a b => decide (a.relativePath ≤ b.relativePath)

/-- `_group_dump_files`. -/
def groupDumpFiles (files : List DumpFile) : List (List DumpFile) :=
  ((groupBy (DumpFile.key chars) files).mergeSort fun a b => decide (a.1 ≤ b.1)).map fun group =>
    sortedFiles group.2

/-- `"%U" in text`. -/
def HasPercentU (text : Name) : Prop := Token.digits ∈ tokens text

instance (text : Name) : Decidable (HasPercentU text) := inferInstanceAs (Decidable (_ ∈ _))

/-- `_dump_pattern`; without a name it raises `IndexError`. -/
def dumpPattern : List Name → Option Name
  | [] => none
  | [name] => some name
  | name :: _ =>
      let pattern := withPercentU chars name
      some (if HasPercentU pattern then pattern else name)

/-- `source_name` of `_queue_restore`; the source files of the batch are a group. -/
def sourceName (group : List DumpFile) : Option Name := dumpPattern chars (group.map DumpFile.relativePath)

/-! ### What the restore reads -/

/-- Oracle reads a file of this name, with the numbers 01 to 99 for `%U`. -/
def Matches (pattern name : Name) : Prop := ∃ i, 1 ≤ i ∧ i ≤ 99 ∧ expand i pattern = name

/-- Each file is in one group, and the restore of a group reads all of its files. -/
def Complete (files : List DumpFile) : Prop :=
  (groupDumpFiles chars files).flatten.Perm files ∧
    ∀ group ∈ groupDumpFiles chars files, ∃ pattern, sourceName chars group = some pattern ∧
      ∀ file ∈ group, Matches pattern file.relativePath

/-- No name has a `%U`, and the number of a file that has others in its group is one of 01 to 99. -/
def HoldsWhen (files : List DumpFile) : Prop :=
  ∀ file ∈ files, ¬HasPercentU file.relativePath ∧
    ∀ other ∈ files, other.relativePath ≠ file.relativePath → other.key chars = file.key chars →
      ∃ i, 1 ≤ i ∧ i ≤ 99 ∧ number chars file.relativePath = twoDigits i

variable {chars}

/-! ### Names -/

theorem stem_number_ending (name : Name) : stem chars name ++ (number chars name ++ ending name) = name := by
  unfold stem number ending
  rw [← List.append_assoc, List.rdropWhile_append_rtakeWhile]
  exact List.take_append_drop _ _

variable {name : Name}

theorem percent_notMem_ending (h : isDump name = true) : '%' ∉ ending name := by
  intro hmem
  have hlower : (ending name).map Char.toLower = ".dmp".toList := beq_iff_eq.mp h
  have hin : ('%').toLower ∈ ".dmp".toList := hlower ▸ List.mem_map_of_mem hmem
  exact absurd hin (by decide)

theorem percent_notMem_number (name : Name) : '%' ∉ number chars name := by
  intro hmem
  have hdigit := List.mem_rtakeWhile_imp hmem
  rw [decimal_percent] at hdigit
  exact Bool.false_ne_true hdigit

theorem key_of_numbered (h : Numbered chars name) :
    withPercentU chars name = stem chars name ++ '%' :: 'U' :: ending name :=
  if_pos h

theorem key_of_not_numbered (h : ¬Numbered chars name) : withPercentU chars name = name :=
  if_neg h

theorem hasPercentU_append (a b : Name) : HasPercentU (a ++ '%' :: 'U' :: b) := by
  unfold HasPercentU
  rw [tokens_append]
  exact List.mem_append_right _ List.mem_cons_self

/-- A `%U` of a numbered name stands before the number. -/
theorem hasPercentU_stem (hdump : isDump name = true) (hnum : Numbered chars name) (h : HasPercentU name) :
    HasPercentU (stem chars name) := by
  obtain ⟨x, y, heq⟩ := exists_of_digits_mem h
  have hrest : '%' ∉ number chars name ++ ending name := by
    rw [List.mem_append]
    exact fun hmem => hmem.elim (percent_notMem_number name) (percent_notMem_ending hdump)
  rw [← stem_number_ending name, List.append_eq_append_iff] at heq
  rcases heq with ⟨c, -, hy⟩ | ⟨a, hstem, hy⟩
  · exact absurd (hy ▸ List.mem_append_right c List.mem_cons_self) hrest
  · match a, hstem, hy with
    | [], _, hy => exact absurd (hy ▸ List.mem_cons_self) hrest
    | [p], hstem, hy =>
        have hp : '%' = p := (List.cons.inj hy).1
        have hlast := hnum.2.2
        rw [hstem, ← hp, List.getLast?_append] at hlast
        rcases hlast with hlast | hlast <;> cases hlast
    | p :: u :: a, hstem, hy =>
        have hp := (List.cons.inj hy).1
        have hu := (List.cons.inj (List.cons.inj hy).2).1
        rw [hstem, ← hp, ← hu]
        exact hasPercentU_append x a

theorem not_hasPercentU_stem (h : ¬HasPercentU name) : ¬HasPercentU (stem chars name) := by
  intro hmem
  obtain ⟨x, y, hstem⟩ := exists_of_digits_mem hmem
  apply h
  rw [← @stem_number_ending chars name, hstem, List.append_assoc]
  exact hasPercentU_append x _

/-! ### Expansion -/

theorem length_expand (i : ℕ) (a : Name) : (expand i a).length = a.length := by
  induction a using tokens.induct with
  | case1 rest ih =>
      rw [expand, List.length_append, ih]
      exact Nat.add_comm 2 _
  | case2 c rest hnot ih =>
      rw [expand, List.length_cons, List.length_cons, ih]
      exact hnot
  | case3 => rfl

theorem expand_percentU (i : ℕ) (a b : Name) :
    expand i (a ++ '%' :: 'U' :: b) = expand i a ++ (twoDigits i ++ expand i b) := by
  induction a using tokens.induct with
  | case1 rest ih =>
      rw [List.cons_append, List.cons_append, expand, expand, ih, List.append_assoc]
  | case2 c rest hnot ih =>
      rw [List.cons_append, expand, expand, ih]
      · rfl
      · exact hnot
      · intro rest' hc hrest
        cases rest with
        | nil =>
            rw [List.nil_append, List.cons.injEq] at hrest
            exact absurd hrest.1 (by decide)
        | cons x xs =>
            rw [List.cons_append, List.cons.injEq] at hrest
            exact hnot xs hc (hrest.1 ▸ rfl)
  | case3 => rfl

theorem digit_ne_percent : ∀ d < 10, digit d ≠ '%' := by decide

/-- A name that is its own expansion has no `%U`. -/
theorem not_hasPercentU_of_expand {i : ℕ} {a : Name} (h : expand i a = a) : ¬HasPercentU a := by
  intro hmem
  obtain ⟨x, y, rfl⟩ := exists_of_digits_mem hmem
  rw [expand_percentU] at h
  have hrest := (List.append_inj h (length_expand i x)).2
  have hhead : digit (i / 10 % 10) = '%' := (List.cons.inj hrest).1
  exact digit_ne_percent _ (Nat.mod_lt _ (by decide)) hhead

/-- A name matches itself where it has no `%U`. -/
theorem matches_self_iff : Matches name name ↔ ¬HasPercentU name := by
  constructor
  · rintro ⟨i, -, -, h⟩
    exact not_hasPercentU_of_expand h
  · intro h
    exact ⟨1, le_refl 1, by decide, expand_of_no_digits h 1⟩

/-- The key of a numbered file is its pattern for two-digit numbers only. -/
theorem matches_key_iff (hdump : isDump name = true) (hnum : Numbered chars name) :
    Matches (withPercentU chars name) name ↔
      ¬HasPercentU name ∧ ∃ i, 1 ≤ i ∧ i ≤ 99 ∧ number chars name = twoDigits i := by
  have hending : ∀ i, expand i (ending name) = ending name :=
    expand_of_no_digits (tokens_of_no_percent (percent_notMem_ending hdump))
  rw [key_of_numbered hnum]
  constructor
  · rintro ⟨i, hle, hlt, h⟩
    rw [expand_percentU, hending] at h
    have hsplit := h.trans (@stem_number_ending chars name).symm
    have hparts := List.append_inj hsplit (length_expand i _)
    refine ⟨fun hmem => ?_, i, hle, hlt, ?_⟩
    · exact not_hasPercentU_of_expand hparts.1 (hasPercentU_stem hdump hnum hmem)
    · exact (List.append_cancel_right hparts.2).symm
  · rintro ⟨hno, i, hle, hlt, hi⟩
    refine ⟨i, hle, hlt, ?_⟩
    rw [expand_percentU, hending, expand_of_no_digits (not_hasPercentU_stem hno), ← hi,
      stem_number_ending]

/-! ### The groups -/

variable {files : List DumpFile}

theorem mem_sortedFiles {file : DumpFile} : file ∈ sortedFiles files ↔ file ∈ files :=
  List.mem_mergeSort

theorem sortedFiles_perm (files : List DumpFile) : (sortedFiles files).Perm files :=
  List.mergeSort_perm _ _

theorem groupDumpFiles_perm (files : List DumpFile) : (groupDumpFiles chars files).flatten.Perm files := by
  unfold groupDumpFiles
  rw [← List.flatMap_def]
  calc List.Perm _ ((groupBy (DumpFile.key chars) files).flatMap fun group => sortedFiles group.2) :=
        (List.mergeSort_perm _ _).flatMap_right _
    List.Perm _ ((groupBy (DumpFile.key chars) files).flatMap Prod.snd) :=
        List.Perm.flatMap_left _ fun group _ => sortedFiles_perm group.2
    List.Perm _ files := (grouped_groupBy _ files).perm

variable {group : List DumpFile}

/-- A group has all the files of one key. -/
theorem group_files (h : group ∈ groupDumpFiles chars files) :
    group ≠ [] ∧ ∃ key, ∀ file, file ∈ group ↔ file ∈ files ∧ file.key chars = key := by
  obtain ⟨⟨key, items⟩, hmem, rfl⟩ := List.mem_map.mp h
  have hgroup := List.mem_mergeSort.mp hmem
  have hgrouped := grouped_groupBy (DumpFile.key chars) files
  refine ⟨fun hnil => ?_, key, fun file => ?_⟩
  · have hperm := sortedFiles_perm items
    rw [hnil] at hperm
    exact hgrouped.nonempty _ hgroup hperm.symm.eq_nil
  · rw [mem_sortedFiles]
    constructor
    · intro hfile
      exact ⟨hgrouped.mem_items hgroup hfile, hgrouped.sound _ hgroup file hfile⟩
    · rintro ⟨hfile, hkey⟩
      exact hgrouped.mem_of_key hgroup hfile hkey

theorem exists_group {file : DumpFile} (h : file ∈ files) :
    ∃ group ∈ groupDumpFiles chars files, file ∈ group :=
  List.mem_flatten.mp ((groupDumpFiles_perm files).mem_iff.mpr h)

/-- Where another file has the same key, one of the two is numbered. -/
theorem numbered_of_key {other : Name} (hne : other ≠ name)
    (hkey : withPercentU chars other = withPercentU chars name) : HasPercentU (withPercentU chars name) := by
  by_cases hname : Numbered chars name
  · rw [key_of_numbered hname]
    exact hasPercentU_append _ _
  · by_cases hother : Numbered chars other
    · rw [← hkey, key_of_numbered hother]
      exact hasPercentU_append _ _
    · rw [key_of_not_numbered hname, key_of_not_numbered hother] at hkey
      exact absurd hkey hne

/-- The pattern of a group with two files is its key. -/
theorem sourceName_of_two {first second : DumpFile} {rest : List DumpFile}
    (hne : second.relativePath ≠ first.relativePath) (hkey : second.key chars = first.key chars) :
    sourceName chars (first :: second :: rest) = some (first.key chars) := by
  have hpercent := numbered_of_key hne hkey
  unfold sourceName
  rw [List.map_cons, List.map_cons, dumpPattern]
  · rw [if_pos hpercent]
    rfl
  · exact List.cons_ne_nil _ _

/-- The key of a group with two files matches one of them. -/
theorem matches_of_other_iff {file other : DumpFile} (hne : other.relativePath ≠ file.relativePath)
    (hkey : other.key chars = file.key chars) :
    Matches (file.key chars) file.relativePath ↔ ¬HasPercentU file.relativePath ∧
      ∃ i, 1 ≤ i ∧ i ≤ 99 ∧ number chars file.relativePath = twoDigits i := by
  have hpercent := numbered_of_key hne hkey
  by_cases hnum : Numbered chars file.relativePath
  · exact matches_key_iff file.dump hnum
  · have hself : file.key chars = file.relativePath := key_of_not_numbered hnum
    rw [key_of_not_numbered hnum] at hpercent
    rw [hself, matches_self_iff]
    exact ⟨fun hno => absurd hpercent hno, fun hno => absurd hpercent hno.1⟩

/-- What `HoldsWhen` says of one group. -/
theorem group_complete_iff {key : Name} (hne : group ≠ []) (hkey : ∀ file ∈ group, file.key chars = key)
    (hpaths : (group.map DumpFile.relativePath).Nodup) :
    (∃ pattern, sourceName chars group = some pattern ∧ ∀ file ∈ group, Matches pattern file.relativePath) ↔
      ∀ file ∈ group, ¬HasPercentU file.relativePath ∧
        ∀ other ∈ group, other.relativePath ≠ file.relativePath →
          ∃ i, 1 ≤ i ∧ i ≤ 99 ∧ number chars file.relativePath = twoDigits i := by
  match group, hne with
  | [file], _ =>
      constructor
      · rintro ⟨pattern, hpattern, hmatches⟩ x hx
        have hpath : pattern = file.relativePath := (Option.some.inj hpattern).symm
        rw [List.mem_singleton] at hx
        subst hx
        refine ⟨matches_self_iff.mp (hpath ▸ hmatches x (List.mem_singleton_self x)), ?_⟩
        intro other hother hdiff
        exact absurd (congrArg DumpFile.relativePath (List.mem_singleton.mp hother)) hdiff
      · intro h
        refine ⟨file.relativePath, rfl, fun x hx => ?_⟩
        have hno := (h x hx).1
        rw [List.mem_singleton] at hx
        subst hx
        exact matches_self_iff.mpr hno
  | first :: second :: rest, _ =>
      have hfirst := hkey first List.mem_cons_self
      have hsecond := hkey second (List.mem_cons_of_mem _ List.mem_cons_self)
      have hdiff : second.relativePath ≠ first.relativePath := by
        intro heq
        exact (List.nodup_cons.mp hpaths).1 (heq ▸ List.mem_cons_self)
      have hother : ∀ file ∈ first :: second :: rest,
          ∃ other ∈ first :: second :: rest, other.relativePath ≠ file.relativePath := by
        intro file _
        by_cases heq : file.relativePath = first.relativePath
        · exact ⟨second, List.mem_cons_of_mem _ List.mem_cons_self, heq ▸ hdiff⟩
        · exact ⟨first, List.mem_cons_self, Ne.symm heq⟩
      rw [sourceName_of_two hdiff (hsecond.trans hfirst.symm)]
      constructor
      · rintro ⟨pattern, hpattern, hmatches⟩ file hfile
        have hpath : pattern = file.key chars :=
          (Option.some.inj hpattern).symm.trans (hfirst.trans (hkey file hfile).symm)
        obtain ⟨other, hin, hne⟩ := hother file hfile
        have hsame := (hkey other hin).trans (hkey file hfile).symm
        obtain ⟨hno, hnumber⟩ := (matches_of_other_iff hne hsame).mp (hpath ▸ hmatches file hfile)
        exact ⟨hno, fun _ _ _ => hnumber⟩
      · intro h
        refine ⟨first.key chars, rfl, fun file hfile => ?_⟩
        obtain ⟨other, hin, hne⟩ := hother file hfile
        have hsame := (hkey other hin).trans (hkey file hfile).symm
        rw [hfirst.trans (hkey file hfile).symm]
        exact (matches_of_other_iff hne hsame).mpr ⟨(h file hfile).1, (h file hfile).2 other hin hne⟩

theorem group_paths (h : (files.map DumpFile.relativePath).Nodup) (hgroup : group ∈ groupDumpFiles chars files) :
    (group.map DumpFile.relativePath).Nodup := by
  have hperm : (groupDumpFiles chars files).flatten.Perm files := groupDumpFiles_perm files
  have hflat := (hperm.map DumpFile.relativePath).nodup_iff.mpr h
  exact hflat.sublist ((List.sublist_flatten_of_mem hgroup).map _)

/-- Every file is in one group, and each group is restored whole, exactly where no name has a `%U`
and the numbers of the sets have two digits. -/
theorem groupDumpFiles_complete_iff (files : List DumpFile) (h : (files.map DumpFile.relativePath).Nodup) :
    Complete chars files ↔ HoldsWhen chars files := by
  constructor
  · rintro ⟨-, hgroups⟩ file hfile
    obtain ⟨group, hgroup, hmem⟩ := @exists_group chars files file hfile
    obtain ⟨hne, key, hkey⟩ := group_files hgroup
    have hfiles := (group_complete_iff hne (fun x hx => ((hkey x).mp hx).2) (group_paths h hgroup)).mp
      (hgroups group hgroup) file hmem
    refine ⟨hfiles.1, fun other hother hdiff hsame => hfiles.2 other ?_ hdiff⟩
    exact (hkey other).mpr ⟨hother, hsame.trans ((hkey file).mp hmem).2⟩
  · intro hholds
    refine ⟨groupDumpFiles_perm files, fun group hgroup => ?_⟩
    obtain ⟨hne, key, hkey⟩ := group_files hgroup
    refine (group_complete_iff hne (fun x hx => ((hkey x).mp hx).2) (group_paths h hgroup)).mpr ?_
    intro file hmem
    obtain ⟨hfile, hfileKey⟩ := (hkey file).mp hmem
    refine ⟨(hholds file hfile).1, fun other hother hdiff => ?_⟩
    obtain ⟨hin, hotherKey⟩ := (hkey other).mp hother
    exact (hholds file hfile).2 other hin hdiff (hotherKey.trans hfileKey.symm)

/-- Two volumes, and a file of its own. -/
def twoVolumes : List DumpFile :=
  [⟨"a_01.dmp".toList, 1, 1, by decide⟩, ⟨"b.DMP".toList, 1, 1, by decide⟩,
    ⟨"a_02.dmp".toList, 1, 1, by decide⟩]

theorem two_volumes_complete : Complete asciiCharacters twoVolumes := by
  refine (groupDumpFiles_complete_iff twoVolumes (by decide)).mpr ?_
  have hnumber : ∀ file ∈ twoVolumes, ¬HasPercentU file.relativePath ∧
      ∀ other ∈ twoVolumes, other.relativePath ≠ file.relativePath →
        other.key asciiCharacters = file.key asciiCharacters →
          ∃ i ∈ [1, 2], number asciiCharacters file.relativePath = twoDigits i := by
    decide
  intro file hfile
  refine ⟨(hnumber file hfile).1, fun other hother hne hkey => ?_⟩
  obtain ⟨i, hi, heq⟩ := (hnumber file hfile).2 other hother hne hkey
  have hbound : ∀ i ∈ [1, 2], 1 ≤ i ∧ i ≤ 99 := by decide
  exact ⟨i, (hbound i hi).1, (hbound i hi).2, heq⟩

/-- Volumes with numbers of three digits. -/
def threeDigits : List DumpFile :=
  [⟨"EXP_001.dmp".toList, 1, 1, by decide⟩, ⟨"EXP_002.dmp".toList, 1, 1, by decide⟩]

/-- `EXP_%U.dmp` is read as `EXP_01.dmp` and so on. -/
theorem three_digits_incomplete :
    (threeDigits.map DumpFile.relativePath).Nodup ∧ ¬Complete asciiCharacters threeDigits := by
  have hpaths : (threeDigits.map DumpFile.relativePath).Nodup := by decide
  refine ⟨hpaths, ?_⟩
  rintro ⟨-, hgroups⟩
  have hpair : ∃ file ∈ threeDigits, ∃ other ∈ threeDigits, other.relativePath ≠ file.relativePath ∧
      other.key asciiCharacters = file.key asciiCharacters ∧
      (number asciiCharacters file.relativePath).length = 3 := by
    decide
  obtain ⟨file, hfile, other, hother, hne, hsame, hlength⟩ := hpair
  obtain ⟨group, hgroup, hmem⟩ := @exists_group asciiCharacters threeDigits file hfile
  obtain ⟨hnonempty, key, hkey⟩ := group_files hgroup
  have hin := (hkey other).mpr ⟨hother, hsame.trans ((hkey file).mp hmem).2⟩
  have hwhole := group_complete_iff hnonempty (fun x hx => ((hkey x).mp hx).2) (group_paths hpaths hgroup)
  obtain ⟨i, -, -, hnumber⟩ := (hwhole.mp (hgroups group hgroup) file hmem).2 other hin hne
  rw [hnumber] at hlength
  exact absurd hlength (by decide : (2 : ℕ) ≠ 3)

end RecoveryService.DumpFiles
