import RecoveryService.Lib.Text

/-! # The columns of a header

`_build_columns` of `services/doris_csv_import.py` with `_safe_identifier`.  A name that has been given before gets
the number of its occurrence behind it, without another look at its length or at the other names. -/

namespace RecoveryService.DorisCsvImport

open Text

abbrev Name := List Char

/-- `str(n)`. -/
abbrev digits (n : ℕ) : Name := Nat.toDigits 10 n

section

-- The characters of `\\w`, and of `str.isdigit`.
variable (isWord isDigit : Char → Bool)

/-- The characters of `[^\w一-鿿]`. -/
def isOutside (c : Char) : Bool := !isWord c && !(0x4E00 ≤ c.toNat && c.toNat ≤ 0x9FFF)

def isControl (c : Char) : Bool := c.toNat ≤ 0x1F || c.toNat == 0x7F

def safeIdentifier (value fallback : Name) : Name :=
  let name := subRuns (isOutside isWord) '_' false ((stripChars isSpace value).map fun c =>
    if c.toNat = 0x60 then '_' else c)
  let name := subRuns (· == '_') '_' false (subRuns isControl '_' false name)
  let name := stripChars (· == '_') name
  let name := if name = [] then fallback else name
  (if name.head?.any isDigit then "t_".toList ++ name else name).take 64

structure ColumnPreview where
  originalName : Name
  name : Name
  type : String := "VARCHAR(65533)"

def fallbackName (index : ℕ) : Name := "col_".toList ++ digits index

/-- The name of a cell alone. -/
def cellName (index : ℕ) (raw : Name) : Name :=
  let original := stripChars isSpace raw
  safeIdentifier isWord isDigit (if original = [] then fallbackName index else original) (fallbackName index)

/-- A name at its `count`th occurrence. -/
def numbered (name : Name) (count : ℕ) : Name := if 1 < count then name ++ '_' :: digits count else name

def duplicateWarning (original : Name) (index : ℕ) (name : Name) : Name :=
  "字段 ".toList ++ (if original = [] then digits index else original) ++ " 重名，已改为 ".toList ++ name ++ ['。']

def blankWarning (index : ℕ) (name : Name) : Name :=
  "第 ".toList ++ digits index ++ " 个字段名为空，已改为 ".toList ++ name ++ ['。']

def columnWarnings (original : Name) (index count : ℕ) (name : Name) : List Name :=
  (if 1 < count then [duplicateWarning original index name] else []) ++
    if original = [] then [blankWarning index name] else []

/-- The columns from one of the cells on, and the warnings; `seen` counts the names given so far. -/
def buildColumnsFrom (index : ℕ) (seen : Name → ℕ) : List Name → List ColumnPreview × List Name
  | [] => ([], [])
  | raw :: header =>
      let original := stripChars isSpace raw
      let name := cellName isWord isDigit index raw
      let count := seen name + 1
      let rest := buildColumnsFrom (index + 1) (Function.update seen name count) header
      ({ originalName := original, name := numbered name count } :: rest.1,
        columnWarnings original index count (numbered name count) ++ rest.2)

def buildColumns (header : List Name) : List ColumnPreview × List Name :=
  buildColumnsFrom isWord isDigit 1 (fun _ => 0) header

/-- The names of the cells, each alone. -/
def cellNames (index : ℕ) : List Name → List Name
  | [] => []
  | raw :: header => cellName isWord isDigit index raw :: cellNames (index + 1) header

variable {isWord isDigit}

/-! ### Names and their occurrences -/

theorem cellName_bounds (index : ℕ) (raw : Name) :
    cellName isWord isDigit index raw ≠ [] ∧ (cellName isWord isDigit index raw).length ≤ 64 := by
  unfold cellName safeIdentifier
  dsimp only
  generalize stripChars (· == '_') _ = name
  refine ⟨?_, List.length_take_le _ _⟩
  have hname : (if name = [] then fallbackName index else name) ≠ [] := by
    split_ifs with h
    · exact (nomatch ·)
    · exact h
  generalize (if name = [] then fallbackName index else name) = name at hname
  obtain ⟨c, rest, rfl⟩ := List.exists_cons_of_ne_nil hname
  split_ifs <;> exact (nomatch ·)

/-- Each name with the number of its occurrence. -/
def occurrences (seen : Name → ℕ) : List Name → List (Name × ℕ)
  | [] => []
  | name :: names => (name, seen name + 1) :: occurrences (Function.update seen name (seen name + 1)) names

theorem mem_occurrences {names : List Name} {seen : Name → ℕ} {name : Name} {k : ℕ} :
    (name, k) ∈ occurrences seen names ↔ seen name < k ∧ k ≤ seen name + names.count name := by
  induction names generalizing seen with
  | nil =>
      rw [List.count_nil]
      exact iff_of_false List.not_mem_nil (by omega)
  | cons first names ih =>
      rw [occurrences, List.mem_cons, ih, Prod.mk.injEq]
      by_cases hname : name = first
      · rw [hname, Function.update_self, List.count_cons_self, and_iff_right rfl]
        omega
      · rw [Function.update_of_ne hname, List.count_cons_of_ne (Ne.symm hname)]
        exact or_iff_right fun h => hname h.1

theorem nodup_occurrences (names : List Name) (seen : Name → ℕ) : (occurrences seen names).Nodup := by
  induction names generalizing seen with
  | nil => exact List.nodup_nil
  | cons name names ih =>
      refine List.nodup_cons.mpr ⟨fun hmem => ?_, ih _⟩
      have hlt := (mem_occurrences.mp hmem).1
      rw [Function.update_self] at hlt
      exact lt_irrefl _ hlt

theorem buildColumnsFrom_columns (header : List Name) (index : ℕ) (seen : Name → ℕ) :
    (buildColumnsFrom isWord isDigit index seen header).1.map ColumnPreview.originalName =
        header.map (stripChars isSpace) ∧
      (buildColumnsFrom isWord isDigit index seen header).1.map ColumnPreview.name =
        (occurrences seen (cellNames isWord isDigit index header)).map fun p => numbered p.1 p.2 := by
  induction header generalizing index seen with
  | nil => exact ⟨rfl, rfl⟩
  | cons raw header ih =>
      obtain ⟨horiginal, hname⟩ := ih (index + 1)
        (Function.update seen (cellName isWord isDigit index raw) (seen (cellName isWord isDigit index raw) + 1))
      exact ⟨congrArg (_ :: ·) horiginal, congrArg (_ :: ·) hname⟩

theorem cellNames_bounds {header : List Name} {index : ℕ} {name : Name}
    (h : name ∈ cellNames isWord isDigit index header) : name ≠ [] ∧ name.length ≤ 64 := by
  induction header generalizing index with
  | nil => exact absurd h List.not_mem_nil
  | cons raw header ih =>
      rcases List.mem_cons.mp h with rfl | h
      · exact cellName_bounds index raw
      · exact ih h

end

/-! ### The condition -/

/-- A comparison of names without case, character by character, leaves the numbers as they are. -/
structure Folds (fold : Char → Char) : Prop where
  underscore : fold '_' = '_'
  digit : ∀ c, c.isDigit = true → fold c = c

variable {fold : Char → Char}

/-- A numbered name gives its number away. -/
theorem Folds.numbered_inj (h : Folds fold) {a b : Name} {j k : ℕ} (hj : 1 < j) (hk : 1 < k)
    (heq : (numbered a j).map fold = (numbered b k).map fold) : a.map fold = b.map fold ∧ j = k := by
  have hfold : ∀ n, (digits n).map fold = digits n := fun n =>
    (List.map_congr_left fun c hc => h.digit c (Nat.isDigit_of_mem_toDigits (by decide) (by decide) hc)).trans
      (List.map_id _)
  have hlast : ∀ (name : Name) (n : ℕ), ((name.map fold ++ '_' :: digits n).reverse.takeWhile (· ≠ '_')).reverse =
      digits n := by
    intro name n
    rw [List.reverse_append, List.reverse_cons, List.append_assoc, List.takeWhile_append_of_pos,
      List.singleton_append, List.takeWhile_cons_of_neg (by decide), List.append_nil, List.reverse_reverse]
    intro c hc
    rw [List.mem_reverse] at hc
    exact decide_eq_true fun heq => Nat.underscore_not_in_toDigits (heq ▸ hc)
  unfold numbered at heq
  rw [if_pos hj, if_pos hk, List.map_append, List.map_append, List.map_cons, List.map_cons, h.underscore, hfold,
    hfold] at heq
  have hdigits : digits j = digits k := (hlast a j).symm.trans (heq ▸ hlast b k)
  rw [hdigits] at heq
  refine ⟨List.append_cancel_right heq, ?_⟩
  have hvalue := congrArg (Nat.ofDigitChars 10 · 0) hdigits
  rwa [Nat.ofDigitChars_toDigits (by decide) (by decide), Nat.ofDigitChars_toDigits (by decide) (by decide)] at hvalue

/-- The names of the cells are the same or different without case too, and a number behind a repeated one makes it
neither too long nor another name of the header. -/
structure Spread (fold : Char → Char) (names : List Name) : Prop where
  apart : ∀ a ∈ names, ∀ b ∈ names, a.map fold = b.map fold → a = b
  short : ∀ a k, 1 < k → k ≤ names.count a → (numbered a k).length ≤ 64
  free : ∀ a k, 1 < k → k ≤ names.count a → ∀ b ∈ names, (numbered a k).map fold ≠ b.map fold

/-- One column for each cell, in their order, under names that Doris takes. -/
structure Named (fold : Char → Char) (header : List Name) (columns : List ColumnPreview) : Prop where
  cells : columns.map ColumnPreview.originalName = header.map (stripChars isSpace)
  bounds : ∀ c ∈ columns, c.name ≠ [] ∧ c.name.length ≤ 64
  distinct : (columns.map fun c => c.name.map fold).Nodup

/-- Doris takes the names exactly where the names of the cells are spread. -/
theorem buildColumns_named_iff (isWord isDigit : Char → Bool) (hfold : Folds fold) (header : List Name) :
    Named fold header (buildColumns isWord isDigit header).1 ↔
      Spread fold (cellNames isWord isDigit 1 header) := by
  obtain ⟨hcells, hnames⟩ := @buildColumnsFrom_columns isWord isDigit header 1 fun _ => 0
  have hbounds : ∀ name ∈ cellNames isWord isDigit 1 header, name ≠ [] ∧ name.length ≤ 64 := fun _ => cellNames_bounds
  change (buildColumns isWord isDigit header).1.map _ = _ at hcells hnames
  generalize (buildColumns isWord isDigit header).1 = columns at hcells hnames ⊢
  generalize cellNames isWord isDigit 1 header = names at hnames hbounds ⊢
  have hfound : ∀ {name : Name} {k : ℕ}, (name, k) ∈ occurrences (fun _ => 0) names ↔
      0 < k ∧ k ≤ names.count name := by
    intro name k
    rw [mem_occurrences, Nat.zero_add]
  have hmem : ∀ {name : Name} {k : ℕ}, (name, k) ∈ occurrences (fun _ => 0) names → name ∈ names := by
    intro name k h
    have hcount := hfound.mp h
    exact List.count_pos_iff.mp (by omega)
  have hdistinct : (columns.map fun c => c.name.map fold).Nodup ↔ ∀ p ∈ occurrences (fun _ => 0) names,
      ∀ q ∈ occurrences (fun _ => 0) names, (numbered p.1 p.2).map fold = (numbered q.1 q.2).map fold → p = q := by
    have heq : (columns.map fun c => c.name.map fold) =
        (occurrences (fun _ => 0) names).map fun p => (numbered p.1 p.2).map fold := by
      have hmap := congrArg (List.map (List.map fold)) hnames
      rwa [List.map_map, List.map_map] at hmap
    rw [heq]
    exact List.nodup_map_iff_inj_on (nodup_occurrences names _)
  have hlengths : (∀ c ∈ columns, c.name ≠ [] ∧ c.name.length ≤ 64) ↔
      ∀ p ∈ occurrences (fun _ => 0) names, numbered p.1 p.2 ≠ [] ∧ (numbered p.1 p.2).length ≤ 64 := by
    rw [← List.forall_mem_map (f := ColumnPreview.name) (P := fun name => name ≠ [] ∧ name.length ≤ 64), hnames,
      List.forall_mem_map]
  have hfirst : ∀ {name : Name}, name ∈ names → (name, 1) ∈ occurrences (fun _ => 0) names :=
    fun h => hfound.mpr ⟨Nat.one_pos, List.count_pos_iff.mpr h⟩
  constructor
  · intro h
    have hinj := hdistinct.mp h.distinct
    refine ⟨fun a ha b hb heq => ?_, fun a k hk hle => ?_, fun a k hk hle b hb heq => ?_⟩
    · exact congrArg Prod.fst (hinj (a, 1) (hfirst ha) (b, 1) (hfirst hb) heq)
    · exact (hlengths.mp h.bounds (a, k) (hfound.mpr ⟨by omega, hle⟩)).2
    · have hsame := hinj (a, k) (hfound.mpr ⟨by omega, hle⟩) (b, 1) (hfirst hb) heq
      have hone := congrArg Prod.snd hsame
      dsimp only at hone
      omega
  · intro h
    refine ⟨hcells, hlengths.mpr fun (a, k) ha => ?_, hdistinct.mpr fun (a, j) ha (b, k) hb heq => ?_⟩
    · by_cases hk : 1 < k
      · refine ⟨?_, h.short a k hk (hfound.mp ha).2⟩
        rw [numbered, if_pos hk]
        exact List.append_ne_nil_of_right_ne_nil _ (nomatch ·)
      · rw [numbered, if_neg hk]
        exact hbounds a (hmem ha)
    · obtain ⟨hj, hja⟩ := hfound.mp ha
      obtain ⟨hk, hkb⟩ := hfound.mp hb
      by_cases hj1 : 1 < j
      · by_cases hk1 : 1 < k
        · obtain ⟨hsame, rfl⟩ := hfold.numbered_inj hj1 hk1 heq
          rw [h.apart a (hmem ha) b (hmem hb) hsame]
        · refine absurd heq ?_
          dsimp only
          rw [numbered.eq_1 b k, if_neg hk1]
          exact h.free a j hj1 hja b (hmem hb)
      · by_cases hk1 : 1 < k
        · refine absurd heq.symm ?_
          dsimp only
          rw [numbered.eq_1 a j, if_neg hj1]
          exact h.free b k hk1 hkb a (hmem ha)
        · dsimp only at heq
          rw [numbered, numbered, if_neg hj1, if_neg hk1] at heq
          rw [h.apart a (hmem ha) b (hmem hb) heq, show j = k by omega]

/-! ### Examples -/

theorem folds_toLower : Folds Char.toLower := by
  refine ⟨by decide, fun c hc => ?_⟩
  simp only [Char.isDigit, Bool.and_eq_true, decide_eq_true_eq, UInt32.le_iff_toNat_le] at hc
  unfold Char.toLower
  rw [dif_neg]
  intro h
  have hletter : 65 ≤ c.val.toNat := UInt32.le_iff_toNat_le.mp h.1
  have hdigit : c.val.toNat ≤ 57 := hc.2
  omega

/-- A name that is given twice gets a number. -/
theorem repeated_named : Named Char.toLower ["id".toList, "id".toList]
    (buildColumns Char.isAlphanum Char.isDigit ["id".toList, "id".toList]).1 := by
  refine (buildColumns_named_iff Char.isAlphanum Char.isDigit folds_toLower _).mpr ?_
  have hnames : cellNames Char.isAlphanum Char.isDigit 1 ["id".toList, "id".toList] = ["id".toList, "id".toList] := by
    decide +kernel
  have hnumber : ∀ a k, 1 < k → k ≤ ["id".toList, "id".toList].count a → a = "id".toList ∧ k = 2 := by
    intro a k hk hle
    by_cases ha : a = "id".toList
    · rw [ha] at hle
      have hcount : ["id".toList, "id".toList].count "id".toList = 2 := by decide
      exact ⟨ha, by omega⟩
    · have hcount : ["id".toList, "id".toList].count a = 0 := by
        refine List.count_eq_zero.mpr fun hmem => ha ?_
        rcases List.mem_cons.mp hmem with h | h
        · exact h
        · exact List.mem_singleton.mp h
      omega
  rw [hnames]
  refine ⟨by decide, fun a k hk hle => ?_, fun a k hk hle => ?_⟩
  · obtain ⟨rfl, rfl⟩ := hnumber a k hk hle
    decide
  · obtain ⟨rfl, rfl⟩ := hnumber a k hk hle
    decide

/-- A number makes a repeated name one that the header has already. -/
theorem numbered_clash : ¬∀ header : List Name, Named Char.toLower header
    (buildColumns (fun c => c.isAlphanum || c == '_') Char.isDigit header).1 := by
  intro hall
  have hdistinct := (hall ["id_2".toList, "id".toList, "id".toList]).distinct
  exact absurd hdistinct (by decide +kernel)

end RecoveryService.DorisCsvImport
