import RecoveryService.OracleDumps.ExactDumps

/-! # The groups of a dump set

Whether `classify_artifacts` brings the files of a template `p%U.dmp` together, and no others with them. -/

namespace RecoveryService.OracleDumps

open Buckets

variable (chars : Characters)

/-- The files that the template `p%U.dmp` names. -/
def Names (p file : Name) : Prop := ∃ i, 1 ≤ i ∧ i ≤ 99 ∧ file = volume p ".dmp".toList i

/-- Each dump is in one group; the files of the template are in one group, and nothing else is in it. -/
structure GroupsVolumes (files : List Name) (p : Name) : Prop where
  dumps : ((classifyArtifacts chars files).flatMap Prod.snd).Perm (files.filter isDump)
  one : ∀ file ∈ files, isDump file = true →
    ∃! group, group ∈ classifyArtifacts chars files ∧ file ∈ group.2
  together : ∀ file ∈ files, ∀ other ∈ files, Names p file → Names p other →
    ∀ group ∈ classifyArtifacts chars files, file ∈ group.2 → other ∈ group.2
  apart : ∀ group ∈ classifyArtifacts chars files, (∃ file ∈ group.2, Names p file) → ∀ file ∈ group.2, Names p file

/-- The base that the files of a template share; without it each file has a base of its own. -/
def stem (p : Name) : Name :=
  if '%' ∈ p then stripEnd (p.takeWhile (· ≠ '%'))
  else
    let start := p.rdropWhile chars.isDecimal
    if '\n' ∈ start then [] else stripEnd start

/-- With more than one file, they look like volumes and share a base; and no other file that looks like a volume
has the base of one of them. -/
def Separated (files : List Name) (p : Name) : Prop :=
  ((∀ file ∈ files, ∀ other ∈ files, Names p file → Names p other → file = other) ∨
    (∀ file ∈ files, Names p file → isMultiVolume chars file = true) ∧ stem chars p ≠ []) ∧
  ∀ file ∈ files, Names p file → isMultiVolume chars file = true →
    ∀ other ∈ files, isDump other = true → isMultiVolume chars other = true →
      multiVolumeBase chars other = multiVolumeBase chars file → Names p other

variable {chars} {p : Name}

/-! ### Groups -/

theorem groupId_eq_iff {file other : Name} : groupId chars file = groupId chars other ↔
    file = other ∨ isMultiVolume chars file = true ∧ isMultiVolume chars other = true ∧
      multiVolumeBase chars file = multiVolumeBase chars other := by
  unfold groupId
  constructor
  · intro h
    split_ifs at h with hfile hother hother
    · exact .inr ⟨hfile, hother, GroupId.multi.inj h⟩
    · exact .inl (GroupId.single.inj h)
  · rintro (rfl | ⟨hfile, hother, hbase⟩)
    · rfl
    · rw [if_pos hfile, if_pos hother, hbase]

/-! ### The names of a template -/

theorem isDump_volume (i : ℕ) : isDump (volume p ".dmp".toList i) = true := by
  have hlength : (volume p ".dmp".toList i).length - 4 = (p ++ twoDigits i).length := by
    rw [volume, List.length_append]
    rfl
  unfold isDump
  rw [hlength, volume, List.drop_left]
  rfl

theorem reverse_volume (i : ℕ) : (volume p ".dmp".toList i).reverse =
    ['p', 'm', 'd'] ++ '.' :: ((twoDigits i).reverse ++ p.reverse) := by
  rw [volume, List.reverse_append, List.reverse_append]
  rfl

theorem splitExt_volume (i : ℕ) : (volume p ".dmp".toList i).reverse.takeWhile (· ≠ '.') = ['p', 'm', 'd'] ∧
      (volume p ".dmp".toList i).reverse.dropWhile (· ≠ '.') = '.' :: ((twoDigits i).reverse ++ p.reverse) := by
  rw [reverse_volume]
  refine @takeWhile_append_stop ['p', 'm', 'd'] (fun c => decide (c ≠ '.')) _ (by simp) fun c hc => ?_
  cases hc
  rfl

theorem withoutExt_volume (i : ℕ) : withoutExt (volume p ".dmp".toList i) = p ++ twoDigits i := by
  unfold withoutExt
  rw [(splitExt_volume i).2]
  dsimp only
  rw [List.reverse_append, List.reverse_reverse, List.reverse_reverse]

theorem twoDigits_decimal (i : ℕ) : ∀ c ∈ twoDigits i, chars.isDecimal c = true := by
  rw [twoDigits, List.forall_mem_cons, List.forall_mem_singleton]
  exact ⟨digit_decimal (Nat.mod_lt _ (by decide)), digit_decimal (Nat.mod_lt _ (by decide))⟩

theorem splitVolumeName_volume (i : ℕ) : (splitVolumeName chars (volume p ".dmp".toList i)).map (·.1) =
    if '\n' ∈ p.rdropWhile chars.isDecimal then none else some (p.rdropWhile chars.isDecimal) := by
  have hdigits : ∀ c ∈ (twoDigits i).reverse, chars.isDecimal c = true :=
    fun c hc => twoDigits_decimal i c (List.mem_reverse.mp hc)
  simp only [splitVolumeName]
  rw [(splitExt_volume i).1, (splitExt_volume i).2]
  dsimp only
  rw [List.takeWhile_append_of_pos hdigits, List.dropWhile_append_of_pos hdigits]
  have hline : '\n' ∈ p.reverse.dropWhile chars.isDecimal ↔ '\n' ∈ p.rdropWhile chars.isDecimal :=
    List.mem_reverse.symm
  by_cases hmem : '\n' ∈ p.rdropWhile chars.isDecimal
  · rw [if_pos hmem, if_neg fun h => h.2.2 (hline.mpr hmem)]
    rfl
  · rw [if_neg hmem, if_pos]
    · rfl
    · refine ⟨by decide, ?_, fun h => hmem (hline.mp h)⟩
      rw [List.length_append]
      exact Nat.le_add_right 2 _

theorem stripEnd_digits (i : ℕ) : stripEnd (p ++ twoDigits i) = p ++ twoDigits i := by
  have hdigit : ∀ d < 10, (digit d == '_' || digit d == '.' || digit d == '-') = false := by decide
  have hreverse : (p ++ twoDigits i).reverse = digit (i % 10) :: digit (i / 10 % 10) :: p.reverse := by
    rw [List.reverse_append]
    rfl
  unfold stripEnd
  rw [hreverse, List.dropWhile_cons_of_neg (by rw [hdigit _ (Nat.mod_lt _ (by decide))]; decide), ← hreverse,
    List.reverse_reverse]

/-- The base of a file of the template. -/
theorem multiVolumeBase_volume (i : ℕ) : multiVolumeBase chars (volume p ".dmp".toList i) =
    orName (stem chars p) (if '%' ∈ p then volume p ".dmp".toList i else p ++ twoDigits i) := by
  have hpercent : '%' ∈ volume p ".dmp".toList i ↔ '%' ∈ p := by
    have hdigits : '%' ∉ twoDigits i := fun h =>
      Bool.false_ne_true ((@decimal_percent chars).symm.trans (twoDigits_decimal i _ h))
    rw [volume, List.mem_append, List.mem_append, or_iff_left hdigits, or_iff_left (by decide +kernel)]
  unfold multiVolumeBase stem
  by_cases hmem : '%' ∈ p
  · rw [if_pos (hpercent.mpr hmem), if_pos hmem, if_pos hmem]
    obtain ⟨before, behind, rfl, hbefore⟩ := List.eq_append_cons_of_mem hmem
    have hne (c : Char) (hc : c ∈ before) : decide (c ≠ '%') = true := by
      rw [decide_eq_true_iff]
      rintro rfl
      exact hbefore hc
    have hstop (rest : Name) : (before ++ '%' :: rest).takeWhile (· ≠ '%') = before := by
      refine (takeWhile_append_stop hne fun c hc => ?_).1
      cases hc
      rfl
    have hwhole : volume (before ++ '%' :: behind) ".dmp".toList i =
        before ++ '%' :: (behind ++ twoDigits i ++ ".dmp".toList) := by
      rw [volume, List.append_assoc, List.append_assoc, List.cons_append, List.append_assoc]
    rw [hstop]
    congr 2
    rw [hwhole, hstop]
  rw [if_neg (mt hpercent.mp hmem), if_neg hmem, if_neg hmem]
  have hsplit := @splitVolumeName_volume chars p i
  have hstem : orName (p ++ twoDigits i) (volume p ".dmp".toList i) = p ++ twoDigits i :=
    if_neg (List.append_ne_nil_of_right_ne_nil _ (List.cons_ne_nil _ _))
  dsimp only
  cases hname : splitVolumeName chars (volume p ".dmp".toList i) with
  | none =>
      rw [hname] at hsplit
      have hline : '\n' ∈ p.rdropWhile chars.isDecimal := by
        by_contra hline
        rw [if_neg hline] at hsplit
        cases hsplit
      dsimp only
      rw [if_pos hline, withoutExt_volume, stripEnd_digits, hstem]
      rfl
  | some parts =>
      obtain ⟨start, digits, suffix⟩ := parts
      rw [hname] at hsplit
      have hline : '\n' ∉ p.rdropWhile chars.isDecimal := by
        intro hline
        rw [if_pos hline] at hsplit
        cases hsplit
      rw [if_neg hline] at hsplit
      rw [if_neg hline, withoutExt_volume, ← Option.some.inj hsplit]

theorem eq_of_own {i j : ℕ} (h : (if '%' ∈ p then volume p ".dmp".toList i else p ++ twoDigits i) =
    if '%' ∈ p then volume p ".dmp".toList j else p ++ twoDigits j) :
    volume p ".dmp".toList i = volume p ".dmp".toList j := by
  split_ifs at h
  · exact h
  · rw [volume, volume, h]

/-- Two files of the template have one base exactly where it is the stem. -/
theorem base_eq_iff {i j : ℕ} :
    multiVolumeBase chars (volume p ".dmp".toList i) = multiVolumeBase chars (volume p ".dmp".toList j) ↔
      volume p ".dmp".toList i = volume p ".dmp".toList j ∨ stem chars p ≠ [] := by
  constructor
  · intro h
    by_contra hnot
    rw [not_or, not_not] at hnot
    rw [multiVolumeBase_volume, multiVolumeBase_volume, hnot.2] at h
    exact hnot.1 (eq_of_own h)
  · rintro (h | h)
    · rw [h]
    · rw [multiVolumeBase_volume, multiVolumeBase_volume, orName, orName, if_neg h, if_neg h]

/-- The groups are those of the template exactly where the names of the files are separated. -/
theorem groupsVolumes_iff (chars : Characters) (files : List Name) (p : Name) :
    GroupsVolumes chars files p ↔ Separated chars files p := by
  have hgrouped := @grouped_classifyArtifacts chars files
  have hmem {file : Name} (hfile : file ∈ files) (hname : Names p file) : file ∈ files.filter isDump := by
    obtain ⟨i, -, -, rfl⟩ := hname
    exact List.mem_filter.mpr ⟨hfile, isDump_volume i⟩
  constructor
  · intro h
    have hsame {file other : Name} (hfile : file ∈ files) (hother : other ∈ files) (hname : Names p file)
        (hname' : Names p other) : groupId chars file = groupId chars other := by
      obtain ⟨group, hgroup, hkey, hin⟩ := hgrouped.exists_group (hmem hfile hname)
      have hin' := h.together file hfile other hother hname hname' group hgroup hin
      rw [hgrouped.sound group hgroup file hin, hgrouped.sound group hgroup other hin']
    refine ⟨?_, fun file hfile hname hmulti other hother hdump hmulti' hbase => ?_⟩
    · by_cases hall : ∀ file ∈ files, ∀ other ∈ files, Names p file → Names p other → file = other
      · exact .inl hall
      · push Not at hall
        obtain ⟨file, hfile, other, hother, hname, hname', hne⟩ := hall
        obtain ⟨hmulti, -, hbase⟩ := (groupId_eq_iff.mp (hsame hfile hother hname hname')).resolve_left hne
        refine .inr ⟨fun third hthird hname'' => ?_, ?_⟩
        · rcases groupId_eq_iff.mp (hsame hfile hthird hname hname'') with rfl | ⟨-, hmulti', -⟩
          · exact hmulti
          · exact hmulti'
        · obtain ⟨i, -, -, rfl⟩ := hname
          obtain ⟨k, -, -, rfl⟩ := hname'
          exact (base_eq_iff.mp hbase).resolve_left hne
    · obtain ⟨group, hgroup, hkey, hin⟩ := hgrouped.exists_group (hmem hfile hname)
      refine h.apart group hgroup ⟨file, hin, hname⟩ other ?_
      refine hgrouped.mem_of_key hgroup (List.mem_filter.mpr ⟨hother, hdump⟩) ?_
      rw [hkey]
      exact groupId_eq_iff.mpr (.inr ⟨hmulti', hmulti, hbase⟩)
  · rintro ⟨htogether, hapart⟩
    refine ⟨hgrouped.perm, fun file hfile hdump => ?_,
      fun file hfile other hother hname hname' group hgroup hin => ?_, fun group hgroup ⟨file, hin, hname⟩ other hother => ?_⟩
    · obtain ⟨group, hgroup, hkey, hin⟩ := hgrouped.exists_group (List.mem_filter.mpr ⟨hfile, hdump⟩)
      refine ⟨group, ⟨hgroup, hin⟩, fun other ⟨hother, hin'⟩ => ?_⟩
      exact List.inj_on_of_nodup_map hgrouped.keys hother hgroup
        ((hgrouped.sound other hother file hin').symm.trans hkey.symm)
    · refine hgrouped.mem_of_key hgroup (hmem hother hname') ?_
      rw [← hgrouped.sound group hgroup file hin, groupId_eq_iff]
      rcases htogether with hall | ⟨hmulti, hstem⟩
      · exact .inl (hall other hother file hfile hname' hname)
      · refine .inr ⟨hmulti other hother hname', hmulti file hfile hname, ?_⟩
        obtain ⟨i, -, -, rfl⟩ := hname
        obtain ⟨k, -, -, rfl⟩ := hname'
        exact base_eq_iff.mpr (.inr hstem)
    · have hkey := (hgrouped.sound group hgroup other hother).trans (hgrouped.sound group hgroup file hin).symm
      obtain ⟨hfile, -⟩ := List.mem_filter.mp (hgrouped.mem_items hgroup hin)
      obtain ⟨hother, hdump⟩ := List.mem_filter.mp (hgrouped.mem_items hgroup hother)
      rcases groupId_eq_iff.mp hkey with rfl | ⟨hmulti', hmulti, hbase⟩
      · exact hname
      · exact hapart file hfile hname hmulti other hother hdump hmulti' hbase

/-- Without a separator before the number the files of a dump set stay apart. -/
theorem export_split : ¬∀ (chars : Characters) (files : List Name) (p : Name), GroupsVolumes chars files p := by
  intro h
  have htogether := (h asciiCharacters ["exp01.dmp".toList, "exp02.dmp".toList] "exp".toList).together
  have hfirst : Names "exp".toList "exp01.dmp".toList := ⟨1, by decide, by decide, rfl⟩
  have hsecond : Names "exp".toList "exp02.dmp".toList := ⟨2, by decide, by decide, rfl⟩
  have hin := htogether _ List.mem_cons_self _ (List.mem_cons_of_mem _ List.mem_cons_self) hfirst hsecond
    (.single "exp01.dmp".toList, ["exp01.dmp".toList]) (by decide +kernel) (by decide +kernel)
  exact absurd hin (by decide +kernel)

end RecoveryService.OracleDumps
