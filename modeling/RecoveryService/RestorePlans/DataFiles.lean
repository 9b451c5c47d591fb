import RecoveryService.RestorePlans.Plans

/-! # The data files of SQL Server databases

The files `db.mdf`, `db_<k>.ndf` and `db_log.ldf` of any databases, as `group_sqlserver_files` groups them.  The group
of a file is named by its stem without a log ending and without separators at its ends, so that a secondary file never
meets its own database, and a name that ends in `log` loses its end. -/

namespace RecoveryService.RestorePlans

open Text

inductive DataKind where
  | main
  | secondary (number : ℕ)
  | log

/-- A file of a database. -/
structure DataFile where
  db : Name
  kind : DataKind
  named : db ≠ []

namespace DataFile

def ending : DataKind → Name
  | .main => "mdf".toList
  | .secondary _ => "ndf".toList
  | .log => "ldf".toList

/-- What stands behind the name of the database. -/
def tail : DataKind → Name
  | .main => []
  | .secondary number => '_' :: Nat.toDigits 10 number
  | .log => "_log".toList

def fileStem (f : DataFile) : Name := f.db ++ tail f.kind

def filename (f : DataFile) : Name := f.fileStem ++ '.' :: ending f.kind

end DataFile

/-- What is used of `str.lower`. -/
structure Lowercases (lower : Name → Name) : Prop where
  fixed : ∀ text : Name, (text.all fun c => c.isDigit || c.isLower || c == '.') = true → lower text = text
  split : ∀ a b, lower (a ++ '_' :: b) = lower a ++ '_' :: lower b

variable {lower : Name → Name}

/-! ### The names of the groups -/

def isSeparator (c : Char) : Bool := c == '_' || c == '-' || c == '.'

/-- A name without one of the log endings. -/
def withoutLog (name : Name) : Name :=
  match (["_log", "-log", ".log", "log"].map String.toList).find? (·.isSuffixOf name) with
  | some token => name.take (name.length - token.length)
  | none => name

/-- What is left of a name, without a log ending and separators at its ends. -/
def mainWord (name : Name) : Name :=
  if stripChars isSeparator (withoutLog name) = [] then name else stripChars isSeparator (withoutLog name)

def secondaryWord (name : Name) (number : ℕ) : Name := (name ++ '_' :: Nat.toDigits 10 number).dropWhile isSeparator

def logWord (name : Name) : Name :=
  if stripChars isSeparator name = [] then name ++ "_log".toList else stripChars isSeparator name

/-- What is left of a file by its kind, from the name of its database in lower case. -/
def word (name : Name) : DataKind → Name
  | .main => mainWord name
  | .secondary number => secondaryWord name number
  | .log => logWord name

theorem splitDot_dot {a b : Name} (hb : '.' ∉ b) : splitDot (a ++ '.' :: b) = some (a, b) := by
  have hspan : (a ++ '.' :: b).reverse.span (· ≠ '.') = (b.reverse, '.' :: a.reverse) := by
    rw [List.span_eq_takeWhile_dropWhile, List.reverse_append, List.reverse_cons, List.append_assoc,
      List.singleton_append]
    have hall : ∀ c ∈ b.reverse, (decide (c ≠ '.')) = true := by
      intro c hc
      exact decide_eq_true fun h => hb (h ▸ List.mem_reverse.mp hc)
    rw [List.takeWhile_append_of_pos hall, List.dropWhile_append_of_pos hall, List.takeWhile_cons_of_neg (by decide),
      List.dropWhile_cons_of_neg (by decide), List.append_nil]
  unfold splitDot
  rw [hspan]
  dsimp only
  rw [List.reverse_reverse, List.reverse_reverse]

theorem splitDot_filename (f : DataFile) : splitDot f.filename = some (f.fileStem, DataFile.ending f.kind) := by
  refine splitDot_dot ?_
  cases f.kind with
  | main | secondary _ | log => exact of_decide_eq_true rfl

theorem lowerSuffix_filename (hlower : Lowercases lower) (f : DataFile) :
    lowerSuffix lower f.filename = '.' :: DataFile.ending f.kind := by
  have hstem : f.fileStem ≠ [] := List.append_ne_nil_of_left_ne_nil f.named _
  have hending : DataFile.ending f.kind ≠ [] := by
    cases f.kind with
    | main | secondary _ | log => exact (nomatch ·)
  unfold lowerSuffix suffix
  rw [splitDot_filename]
  dsimp only
  rw [if_pos ⟨hstem, hending⟩]
  refine hlower.fixed _ ?_
  cases f.kind with
  | main | secondary _ | log => rfl

theorem digits_spec (n : ℕ) : ∃ init c, Nat.toDigits 10 n = init ++ [c] ∧ c.isDigit = true := by
  refine ⟨_, _, (List.dropLast_append_getLast Nat.toDigits_ne_nil).symm, ?_⟩
  exact Nat.isDigit_of_mem_toDigits (by decide) (by decide) (List.getLast_mem Nat.toDigits_ne_nil)

theorem not_separator {c : Char} (h : c.isDigit = true ∨ c = 'g') : isSeparator c = false := by
  refine Bool.eq_false_of_not_eq_true fun hsep => ?_
  simp only [isSeparator, Bool.or_eq_true, beq_iff_eq, or_assoc] at hsep
  rcases hsep with rfl | rfl | rfl <;> exact absurd h (by decide)

/-- Nothing is cut off behind a last character that is no separator. -/
theorem stripChars_last {name : Name} {c : Char} (hc : isSeparator c = false) :
    stripChars isSeparator (name ++ [c]) = (name ++ [c]).dropWhile isSeparator := by
  have hlast : ∃ front, (name ++ [c]).dropWhile isSeparator = front ++ [c] := by
    rw [List.dropWhile_append]
    split_ifs
    · exact ⟨[], by rw [List.dropWhile_cons_of_neg (by rw [hc]; exact Bool.false_ne_true)]; rfl⟩
    · exact ⟨_, rfl⟩
  obtain ⟨front, hfront⟩ := hlast
  unfold stripChars
  rw [hfront, List.reverse_append, List.reverse_singleton, List.singleton_append,
    List.dropWhile_cons_of_neg (by rw [hc]; exact Bool.false_ne_true), List.reverse_cons, List.reverse_reverse]

theorem withoutLog_digit {name : Name} {c : Char} (hc : c.isDigit = true) :
    withoutLog (name ++ [c]) = name ++ [c] := by
  have hnone : (["_log", "-log", ".log", "log"].map String.toList).find? (·.isSuffixOf (name ++ [c])) = none := by
    refine List.find?_eq_none.mpr fun token htoken hsuffix => ?_
    have hg : ∃ front, token = front ++ ['g'] := by
      have hall : ∀ token ∈ ["_log", "-log", ".log", "log"].map String.toList,
          token = token.dropLast ++ ['g'] := by decide
      exact ⟨_, hall token htoken⟩
    obtain ⟨front, rfl⟩ := hg
    obtain ⟨before, hbefore⟩ := List.isSuffixOf_iff_suffix.mp hsuffix
    rw [← List.append_assoc] at hbefore
    have hsame : 'g' = c := List.singleton_injective (List.append_inj' hbefore rfl).2
    exact absurd (hsame ▸ hc) (by decide)
  unfold withoutLog
  rw [hnone]

theorem withoutLog_log (name : Name) : withoutLog (name ++ "_log".toList) = name := by
  have hsome : (["_log", "-log", ".log", "log"].map String.toList).find? (·.isSuffixOf (name ++ "_log".toList)) =
      some "_log".toList := by
    rw [List.map_cons, List.find?_cons_of_pos]
    exact List.isSuffixOf_iff_suffix.mpr (List.suffix_append name _)
  unfold withoutLog
  rw [hsome]
  dsimp only
  rw [List.length_append, Nat.add_sub_cancel, List.take_left]

/-- The group of a file. -/
theorem baseName_filename (hlower : Lowercases lower) (f : DataFile) :
    baseName lower f.filename = word (lower f.db) f.kind := by
  have hstem : stem f.filename = f.fileStem := by
    unfold stem
    rw [splitDot_filename]
    rfl
  have hbase : baseName lower f.filename = mainWord (lower f.fileStem) := by
    unfold baseName
    rw [hstem]
    rfl
  rw [hbase]
  unfold DataFile.fileStem
  cases f.kind with
  | main =>
      rw [DataFile.tail, List.append_nil]
      rfl
  | secondary number =>
      have hnumber : lower (Nat.toDigits 10 number) = Nat.toDigits 10 number :=
        hlower.fixed _ (List.all_eq_true.mpr fun c hc => by
          rw [Nat.isDigit_of_mem_toDigits (by decide) (by decide) hc, Bool.true_or, Bool.true_or])
      have hlast : ∃ front c, lower f.db ++ '_' :: Nat.toDigits 10 number = front ++ [c] ∧ c.isDigit = true := by
        obtain ⟨init, c, heq, hc⟩ := digits_spec number
        exact ⟨lower f.db ++ '_' :: init, c, by rw [heq, List.append_assoc, List.cons_append], hc⟩
      rw [DataFile.tail, hlower.split, hnumber, word, secondaryWord]
      obtain ⟨front, c, heq, hc⟩ := hlast
      have hne : (front ++ [c]).dropWhile isSeparator ≠ [] := by
        rw [Ne, List.dropWhile_eq_nil_iff]
        intro hall
        exact Bool.false_ne_true ((not_separator (.inl hc)).symm.trans (hall c (by simp)))
      rw [heq, mainWord, withoutLog_digit hc, stripChars_last (not_separator (.inl hc)), if_neg hne]
  | log =>
      have hlog : lower (f.db ++ DataFile.tail .log) = lower f.db ++ "_log".toList := by
        rw [show DataFile.tail .log = '_' :: "log".toList from rfl, hlower.split,
          hlower.fixed "log".toList rfl]
        rfl
      rw [hlog, mainWord, withoutLog_log, word, logWord]

/-! ### Secondary files -/

theorem mainWord_infix (name : Name) : mainWord name <:+: name := by
  unfold mainWord
  split_ifs
  · exact List.infix_rfl
  · refine (infix_of_infix_stripChars List.infix_rfl).trans ?_
    unfold withoutLog
    split
    · exact (List.take_prefix _ name).isInfix
    · exact List.infix_rfl

theorem dropWhile_digits (number : ℕ) :
    (Nat.toDigits 10 number).dropWhile isSeparator = Nat.toDigits 10 number := by
  rw [List.dropWhile_eq_self_iff]
  intro hpos
  rw [not_separator (.inl (Nat.isDigit_of_mem_toDigits (b := 10) (by decide) (by decide) (List.getElem_mem _)))]
  exact Bool.false_ne_true

/-- A name of separators leaves only the number. -/
theorem secondaryWord_eq (name : Name) (number : ℕ) : secondaryWord name number =
    if stripChars isSeparator name = [] then Nat.toDigits 10 number
    else name.dropWhile isSeparator ++ '_' :: Nat.toDigits 10 number := by
  unfold secondaryWord
  simp only [List.dropWhile_append, stripChars_eq_nil_iff, List.isEmpty_iff, List.dropWhile_eq_nil_iff]
  rw [List.dropWhile_cons_of_pos (by decide), dropWhile_digits]

/-- The word of a secondary file is longer than any other of its database. -/
theorem not_infix_secondaryWord (name : Name) (number : ℕ) : ¬secondaryWord name number <:+: name := by
  intro h
  have hlength := (infix_dropWhile (p := isSeparator) h).length_le
  have hsame : (secondaryWord name number).dropWhile isSeparator = secondaryWord name number :=
    List.dropWhile_idempotent isSeparator _
  have hpos : 0 < (Nat.toDigits 10 number).length := Nat.length_toDigits_pos
  rw [hsame, secondaryWord_eq] at hlength
  split_ifs at hlength with hempty
  · rw [List.dropWhile_eq_nil_iff.mpr (stripChars_eq_nil_iff.mp hempty), List.length_nil] at hlength
    omega
  · rw [List.length_append, List.length_cons] at hlength
    omega

theorem toDigits_inj {j k : ℕ} (h : Nat.toDigits 10 j = Nat.toDigits 10 k) : j = k := by
  have hvalue := congrArg (Nat.ofDigitChars 10 · 0) h
  rwa [Nat.ofDigitChars_toDigits (by decide) (by decide), Nat.ofDigitChars_toDigits (by decide) (by decide)] at hvalue

/-- No other file of a database has the word of a secondary one. -/
theorem secondary_lone {name : Name} {number : ℕ} {kind : DataKind}
    (h : word name kind = secondaryWord name number) : kind = .secondary number := by
  cases kind with
  | main => exact absurd (h ▸ mainWord_infix name) (not_infix_secondaryWord name number)
  | secondary other =>
      rw [word, secondaryWord_eq, secondaryWord_eq] at h
      split_ifs at h
      · rw [toDigits_inj h]
      · rw [toDigits_inj (List.cons.inj (List.append_cancel_left h)).2]
  | log =>
      rw [word, logWord] at h
      split_ifs at h with hempty
      · rw [secondaryWord_eq, if_pos hempty] at h
        have hg : 'g' ∈ Nat.toDigits 10 number := h ▸ List.mem_append_right name (by decide)
        exact absurd (Nat.isDigit_of_mem_toDigits (b := 10) (by decide) (by decide) hg) (by decide)
      · exact absurd (h ▸ infix_of_infix_stripChars List.infix_rfl) (not_infix_secondaryWord name number)

/-! ### Groups and plans -/

def members (group : SqlServerFileSet) : List Name :=
  group.bakFiles ++ (group.mdfFiles ++ group.ndfFiles ++ group.ldfFiles)

/-- The group of a base name. -/
def filesOf (lower : Name → Name) (files : List DataFile) (base : Name) : SqlServerFileSet :=
  let of := fun ending => (files.map DataFile.filename).filter fun f =>
    baseName lower f = base ∧ lowerSuffix lower f = String.toList ending
  { mdfFiles := of ".mdf", ndfFiles := of ".ndf", ldfFiles := of ".ldf" }

def bases (lower : Name → Name) (files : List DataFile) : List Name :=
  ((files.map DataFile.filename).map (baseName lower)).dedup.insertionSort (· ≤ ·)

theorem groups_eq (hlower : Lowercases lower) (files : List DataFile) :
    groupSqlserverFiles lower (files.map DataFile.filename) = (bases lower files).map (filesOf lower files) := by
  have hdata : (files.map DataFile.filename).filter (isData lower) = files.map DataFile.filename := by
    refine List.filter_eq_self.mpr fun name hname => ?_
    obtain ⟨f, -, rfl⟩ := List.mem_map.mp hname
    unfold isData
    rw [lowerSuffix_filename hlower]
    cases f.kind with
    | main | secondary _ | log => rfl
  have hbak : (files.map DataFile.filename).filter (fun f => lowerSuffix lower f = ".bak".toList) = [] := by
    refine List.filter_eq_nil_iff.mpr fun name hname => ?_
    obtain ⟨f, -, rfl⟩ := List.mem_map.mp hname
    rw [lowerSuffix_filename hlower]
    cases f.kind with
    | main | secondary _ | log => exact (nomatch ·)
  unfold groupSqlserverFiles
  rw [hdata, hbak]
  rfl

theorem mem_members (hlower : Lowercases lower) {files : List DataFile} {f : DataFile} (hf : f ∈ files)
    (base : Name) : f.filename ∈ members (filesOf lower files base) ↔ word (lower f.db) f.kind = base := by
  have hmem : f.filename ∈ files.map DataFile.filename := List.mem_map_of_mem hf
  simp only [members, filesOf, List.nil_append, List.mem_append, List.mem_filter, hmem, true_and, decide_eq_true_eq,
    baseName_filename hlower, lowerSuffix_filename hlower]
  rw [← and_or_left, ← and_or_left, and_iff_left_iff_imp]
  intro _
  cases f.kind with
  | main => exact .inl (.inl rfl)
  | secondary _ => exact .inl (.inr rfl)
  | log => exact .inr rfl

theorem mem_bases (hlower : Lowercases lower) (files : List DataFile) (base : Name) :
    base ∈ bases lower files ↔ ∃ f ∈ files, word (lower f.db) f.kind = base := by
  unfold bases
  rw [List.mem_insertionSort, List.mem_dedup, List.map_map, List.mem_map]
  simp only [Function.comp_apply, baseName_filename hlower]

/-- The plan attaches the files. -/
def Attaches (plan : SqlServerRestorePlan) : Prop := plan.method = .attach ∨ plan.method = .attachRebuildLog

theorem attaches_files {group : SqlServerFileSet} (hbak : group.bakFiles = [])
    (h : Attaches (chooseSqlserverPlan lower group)) : (chooseSqlserverPlan lower group).files = members group := by
  have hsorted : sortedFiles lower group.bakFiles = [] := by rw [hbak]; rfl
  unfold Attaches chooseSqlserverPlan at h
  unfold chooseSqlserverPlan members
  rw [hsorted] at h ⊢
  rw [hbak]
  dsimp only at h ⊢
  cases hmdf : group.mdfFiles with
  | cons mdf mdfs => cases group.ldfFiles <;> rfl
  | nil =>
      rw [hmdf] at h
      cases hldf : group.ldfFiles with
      | nil | cons _ _ =>
          rw [hldf] at h
          exact h.elim (nomatch ·) (nomatch ·)

/-- Each file is in one group, with the files of its database and no others, and a plan that attaches files attaches
all those of one database. -/
structure Sorted (lower : Name → Name) (files : List DataFile) (groups : List SqlServerFileSet) : Prop where
  placed : ∀ f ∈ files, ∃! i : ℕ, ∃ group, groups[i]? = some group ∧ f.filename ∈ members group
  separated : ∀ group ∈ groups, ∀ f ∈ files, ∀ g ∈ files, f.filename ∈ members group →
    (g.filename ∈ members group ↔ g.db = f.db)
  attached : ∀ group ∈ groups, Attaches (chooseSqlserverPlan lower group) →
    ∃ db, ∀ f ∈ files, f.filename ∈ (chooseSqlserverPlan lower group).files ↔ f.db = db

/-- No file stands beside a secondary one of its database, a name with a log ending is the same without it, and
different databases leave different words. -/
structure Distinguishable (lower : Name → Name) (files : List DataFile) : Prop where
  lone : ∀ f ∈ files, ∀ g ∈ files, ∀ number, f.db = g.db → g.kind = .secondary number → f.kind = .secondary number
  logs : ∀ f ∈ files, ∀ g ∈ files, f.db = g.db → f.kind = .main → g.kind = .log →
    mainWord (lower f.db) = logWord (lower g.db)
  apart : ∀ f ∈ files, ∀ g ∈ files, f.db ≠ g.db → word (lower f.db) f.kind ≠ word (lower g.db) g.kind

theorem distinguishable_iff (files : List DataFile) : Distinguishable lower files ↔
    ∀ f ∈ files, ∀ g ∈ files, word (lower f.db) f.kind = word (lower g.db) g.kind ↔ f.db = g.db := by
  constructor
  · intro h f hf g hg
    refine ⟨fun hword => by_contra fun hne => h.apart f hf g hg hne hword, fun hdb => ?_⟩
    rw [hdb]
    cases hkind : f.kind with
    | secondary number => rw [h.lone g hg f hf number hdb.symm hkind]
    | main =>
        cases hother : g.kind with
        | main => rfl
        | secondary number => exact absurd (hkind.symm.trans (h.lone f hf g hg number hdb hother)) (nomatch ·)
        | log => exact hdb ▸ h.logs f hf g hg hdb hkind hother
    | log =>
        cases hother : g.kind with
        | main => exact (hdb ▸ h.logs g hg f hf hdb.symm hother hkind).symm
        | secondary number => exact absurd (hkind.symm.trans (h.lone f hf g hg number hdb hother)) (nomatch ·)
        | log => rfl
  · intro h
    refine ⟨fun f hf g hg number hdb hkind => ?_, fun f hf g hg hdb hmain hlog => ?_,
      fun f hf g hg hne hword => hne ((h f hf g hg).mp hword)⟩
    · have hword := (h f hf g hg).mpr hdb
      rw [hkind, hdb] at hword
      exact secondary_lone hword
    · have hword := (h f hf g hg).mpr hdb
      rwa [hmain, hlog] at hword

theorem sorted_iff (hlower : Lowercases lower) (files : List DataFile) :
    Sorted lower files (groupSqlserverFiles lower (files.map DataFile.filename)) ↔ Distinguishable lower files := by
  rw [groups_eq hlower, distinguishable_iff]
  constructor
  · intro h f hf g hg
    have hbase := (mem_bases hlower files _).mpr ⟨f, hf, rfl⟩
    have hiff := h.separated _ (List.mem_map_of_mem hbase) f hf g hg ((mem_members hlower hf _).mpr rfl)
    rw [mem_members hlower hg] at hiff
    exact ⟨fun hword => (hiff.mp hword.symm).symm, fun hdb => (hiff.mpr hdb.symm).symm⟩
  · intro h
    have hnodup : (bases lower files).Nodup :=
      (List.perm_insertionSort _ _).nodup_iff.mpr (List.nodup_dedup _)
    refine ⟨fun f hf => ?_, fun group hgroup f hf g hg hin => ?_, fun group hgroup hattach => ?_⟩
    · obtain ⟨i, hi, heq⟩ := List.mem_iff_getElem.mp ((mem_bases hlower files _).mpr ⟨f, hf, rfl⟩)
      have hgroup : ((bases lower files).map (filesOf lower files))[i]? =
          some (filesOf lower files (bases lower files)[i]) := by
        rw [List.getElem?_map, List.getElem?_eq_getElem hi]
        rfl
      refine ⟨i, ⟨_, hgroup, (mem_members hlower hf _).mpr heq.symm⟩, ?_⟩
      rintro j ⟨group, hj, hin⟩
      rw [List.getElem?_map, Option.map_eq_some_iff] at hj
      obtain ⟨base, hbase, rfl⟩ := hj
      obtain ⟨hlt, hbase⟩ := List.getElem?_eq_some_iff.mp hbase
      rw [mem_members hlower hf] at hin
      exact (List.Nodup.getElem_inj_iff hnodup).mp (hbase.trans (hin.symm.trans heq.symm))
    · obtain ⟨base, -, rfl⟩ := List.mem_map.mp hgroup
      rw [mem_members hlower hf] at hin
      rw [mem_members hlower hg, ← hin, h g hg f hf]
    · obtain ⟨base, hbase, rfl⟩ := List.mem_map.mp hgroup
      obtain ⟨f, hf, rfl⟩ := (mem_bases hlower files base).mp hbase
      refine ⟨f.db, fun g hg => ?_⟩
      rw [attaches_files rfl hattach, mem_members hlower hg]
      exact h g hg f hf

/-- The files are sorted by their databases exactly where these are distinguishable. -/
theorem groupSqlserverFiles_sorted_iff (hlower : Lowercases lower) (files : List DataFile) :
    Sorted lower files (groupSqlserverFiles lower (files.map DataFile.filename)) ↔ Distinguishable lower files :=
  sorted_iff hlower files

/-! ### Examples -/

theorem lowercases_toLower : Lowercases (List.map Char.toLower) := by
  refine ⟨fun text htext => ?_, fun a b => by rw [List.map_append]; rfl⟩
  refine (List.map_congr_left fun c hc => ?_).trans (List.map_id text)
  have hsmall : ¬(65 ≤ c.val.toNat ∧ c.val.toNat ≤ 90) := by
    have hc := List.all_eq_true.mp htext c hc
    simp only [Bool.or_eq_true, beq_iff_eq, or_assoc] at hc
    rcases hc with h | h | rfl
    · simp only [Char.isDigit, Bool.and_eq_true, decide_eq_true_eq, UInt32.le_iff_toNat_le] at h
      have hle : c.val.toNat ≤ 57 := h.2
      omega
    · simp only [Char.isLower, Bool.and_eq_true, decide_eq_true_eq, UInt32.le_iff_toNat_le, ge_iff_le] at h
      have hle : 97 ≤ c.val.toNat := h.1
      omega
    · decide
  unfold Char.toLower
  rw [dif_neg]
  · rfl
  · exact fun h => hsmall ⟨UInt32.le_iff_toNat_le.mp h.1, UInt32.le_iff_toNat_le.mp h.2⟩

def salesFile (kind : DataKind) : DataFile := ⟨"Sales".toList, kind, nofun⟩

/-- A database of two files. -/
theorem sales_sorted : Sorted (List.map Char.toLower) [salesFile .main, salesFile .log]
    (groupSqlserverFiles (List.map Char.toLower) ([salesFile .main, salesFile .log].map DataFile.filename)) := by
  refine (groupSqlserverFiles_sorted_iff lowercases_toLower _).mpr ⟨?_, ?_, ?_⟩
  · intro f hf g hg number _ hkind
    fin_cases hg <;> exact (nomatch hkind)
  · intro f hf g hg _ _ _
    fin_cases hf <;> fin_cases hg <;> decide +kernel
  · intro f hf g hg hne
    fin_cases hf <;> fin_cases hg <;> exact absurd rfl hne

/-- A secondary file is left without its database. -/
theorem secondary_lost : ¬∀ files : List DataFile, Sorted (List.map Char.toLower) files
    (groupSqlserverFiles (List.map Char.toLower) (files.map DataFile.filename)) := by
  intro hall
  have hlone := ((sorted_iff lowercases_toLower _).mp (hall [salesFile .main, salesFile (.secondary 1)])).lone
    (salesFile .main) List.mem_cons_self (salesFile (.secondary 1)) (List.mem_cons_of_mem _ List.mem_cons_self) 1
    rfl rfl
  exact (nomatch hlone)

end RecoveryService.RestorePlans
