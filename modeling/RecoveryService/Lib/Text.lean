import Mathlib

/-! # Python strings -/

namespace Text

/-- Membership in a list of texts is decided with it. -/
instance lawfulBEq : LawfulBEq (List Char) := inferInstance

/-- The characters `str.strip` removes. -/
def isSpace (c : Char) : Bool :=
  (0x09 ≤ c.toNat && c.toNat ≤ 0x0D) || (0x1C ≤ c.toNat && c.toNat ≤ 0x20) || c.toNat == 0x85 ||
    c.toNat == 0xA0 || c.toNat == 0x1680 || (0x2000 ≤ c.toNat && c.toNat ≤ 0x200A) ||
    c.toNat == 0x2028 || c.toNat == 0x2029 || c.toNat == 0x202F || c.toNat == 0x205F ||
    c.toNat == 0x3000

/-- Remove the characters satisfying `p` at both ends. -/
def stripChars (p : Char → Bool) (cs : List Char) : List Char :=
  ((cs.dropWhile p).reverse.dropWhile p).reverse

theorem stripChars_map {p : Char → Bool} {f : Char → Char} (hf : ∀ c, p (f c) = p c) (cs : List Char) :
    stripChars p (cs.map f) = (stripChars p cs).map f := by
  have hsame : p ∘ f = p := funext hf
  unfold stripChars
  rw [List.dropWhile_map, hsame, ← List.map_reverse, List.dropWhile_map, hsame, ← List.map_reverse]

/-- `s.strip()`. -/
def strip (s : String) : String := String.ofList (stripChars isSpace s.toList)

theorem stripChars_stripChars (p : Char → Bool) (cs : List Char) :
    stripChars p (stripChars p cs) = stripChars p cs := by
  have hprefix : stripChars p cs <+: cs.dropWhile p := List.rdropWhile_prefix p _
  have hdrop : (stripChars p cs).dropWhile p = stripChars p cs := by
    cases hs : stripChars p cs with
    | nil => rfl
    | cons c rest =>
        obtain ⟨tail, htail⟩ := hs ▸ hprefix
        have hc : ¬ p c = true := by
          have hhead := List.head?_dropWhile_not p cs
          rw [← htail] at hhead
          simpa using hhead
        rw [List.dropWhile_cons_of_neg hc]
  unfold stripChars at hdrop ⊢
  rw [hdrop]
  exact List.rdropWhile_idempotent p _

theorem strip_strip (s : String) : strip (strip s) = strip s := by
  unfold strip
  rw [String.toList_ofList, stripChars_stripChars]

/-- `a or b` on strings. -/
def orElse (a b : String) : String := if a = "" then b else a

/-- `", ".join(names)`. -/
def listed (names : List String) : String := ", ".intercalate names

/-- `s.lower()` of an ASCII string. -/
def lowerAscii (s : String) : String := String.ofList (s.toList.map Char.toLower)

/-! ### Upper case

A reader that drops every letter outside ASCII sees only the ASCII letters of an upper case.  The
table has the characters outside ASCII whose upper case contains one. -/

def upperTable (n : ℕ) : Option (List Char) :=
  match n with
  | 0xDF => some ['S', 'S']
  | 0x131 => some ['I']
  | 0x149 => some [Char.ofNat 0x2BC, 'N']
  | 0x17F => some ['S']
  | 0x1F0 => some ['J', Char.ofNat 0x30C]
  | 0x1E96 => some ['H', Char.ofNat 0x331]
  | 0x1E97 => some ['T', Char.ofNat 0x308]
  | 0x1E98 => some ['W', Char.ofNat 0x30A]
  | 0x1E99 => some ['Y', Char.ofNat 0x30A]
  | 0x1E9A => some ['A', Char.ofNat 0x2BE]
  | 0xFB00 => some ['F', 'F']
  | 0xFB01 => some ['F', 'I']
  | 0xFB02 => some ['F', 'L']
  | 0xFB03 => some ['F', 'F', 'I']
  | 0xFB04 => some ['F', 'F', 'L']
  | 0xFB05 => some ['S', 'T']
  | 0xFB06 => some ['S', 'T']
  | _ => none

def upperChar (c : Char) : List Char := (upperTable c.toNat).getD [c.toUpper]

/-- `s.upper()`. -/
def upper (cs : List Char) : List Char := cs.flatMap upperChar

theorem toUpper_toNat (c : Char) :
    c.toUpper.toNat = if 0x61 ≤ c.toNat ∧ c.toNat ≤ 0x7A then c.toNat - 0x20 else c.toNat := by
  unfold Char.toUpper
  have ha : 'a'.val.toNat = 0x61 := rfl
  have hz : 'z'.val.toNat = 0x7A := rfl
  have hd : ('A'.val - 'a'.val).toNat = 2 ^ 32 - 0x20 := by decide
  simp only [UInt32.le_iff_toNat_le, ha, hz]
  split_ifs with h h' h'
  · change (c.val + ('A'.val - 'a'.val)).toNat = c.val.toNat - 0x20
    rw [UInt32.toNat_add, hd]
    omega
  · exact absurd h h'
  · exact absurd h' h
  · rfl

theorem toLower_toNat (c : Char) :
    c.toLower.toNat = if 0x41 ≤ c.toNat ∧ c.toNat ≤ 0x5A then c.toNat + 0x20 else c.toNat := by
  unfold Char.toLower
  have hA : 'A'.val.toNat = 0x41 := rfl
  have hZ : 'Z'.val.toNat = 0x5A := rfl
  have hd : ('a'.val - 'A'.val).toNat = 0x20 := by decide
  simp only [ge_iff_le, UInt32.le_iff_toNat_le, hA, hZ]
  split_ifs with h h' h'
  · change (c.val + ('a'.val - 'A'.val)).toNat = c.val.toNat + 0x20
    rw [UInt32.toNat_add, hd]
    omega
  · exact absurd h h'
  · exact absurd h' h
  · rfl

variable {c : Char}

theorem isSpace_eq_false (h : 0x41 ≤ c.toNat) (h' : c.toNat ≤ 0x7A) : isSpace c = false := by
  rw [Bool.eq_false_iff]
  intro hspace
  simp only [isSpace, Bool.or_eq_true, Bool.and_eq_true, decide_eq_true_eq, beq_iff_eq] at hspace
  omega

theorem isSpace_toUpper (c : Char) : isSpace c.toUpper = isSpace c := by
  have hupper := toUpper_toNat c
  by_cases h : 0x61 ≤ c.toNat ∧ c.toNat ≤ 0x7A
  · rw [if_pos h] at hupper
    rw [isSpace_eq_false (by omega) (by omega), isSpace_eq_false (by omega) h.2]
  · rw [if_neg h] at hupper
    unfold isSpace
    rw [hupper]

theorem isSpace_toLower (c : Char) : isSpace c.toLower = isSpace c := by
  have hlower := toLower_toNat c
  by_cases h : 0x41 ≤ c.toNat ∧ c.toNat ≤ 0x5A
  · rw [if_pos h] at hlower
    rw [isSpace_eq_false (by omega) (by omega), isSpace_eq_false h.1 (by omega)]
  · rw [if_neg h] at hlower
    unfold isSpace
    rw [hlower]

theorem upperTable_eq_none (h : upperTable c.toNat = none) : upperTable c.toUpper.toNat = none := by
  rw [toUpper_toNat]
  split_ifs with hc
  · unfold upperTable
    split <;> first | omega | rfl
  · exact h

variable {cs : List Char}

theorem upper_of_upperTable {n : ℕ} (h : upperTable n = some cs) : upper cs = cs := by
  unfold upperTable at h
  split at h <;> cases h <;> decide

theorem upper_upperChar (c : Char) : upper (upperChar c) = upperChar c := by
  unfold upperChar
  cases h : upperTable c.toNat with
  | some cs => exact upper_of_upperTable h
  | none =>
      unfold upper upperChar
      simp [upperTable_eq_none h]

theorem upper_upper (cs : List Char) : upper (upper cs) = upper cs := by
  induction cs with
  | nil => rfl
  | cons c cs ih =>
      unfold upper at *
      rw [List.flatMap_cons, List.flatMap_append, ih]
      congr 1
      exact upper_upperChar c

variable {s t : List Char}

theorem infix_upper (h : s <:+: t) : upper s <:+: upper t := by
  obtain ⟨a, b, rfl⟩ := h
  unfold upper
  rw [List.flatMap_append, List.flatMap_append]
  exact List.infix_append _ _ _

/-! ### Runs of characters -/

/-- `re.sub("[p]+", r, s)`: every maximal run of characters with `p` becomes one `r`; `inRun` when
the character before the text belongs to a run. -/
def subRuns (p : Char → Bool) (r : Char) : Bool → List Char → List Char
  | _, [] => []
  | inRun, c :: cs =>
      if p c then
        if inRun then subRuns p r true cs else r :: subRuns p r true cs
      else c :: subRuns p r false cs

variable {p : Char → Bool} {r : Char}

/-- Whether a run is open behind a text. -/
def runOpen (p : Char → Bool) : Bool → List Char → Bool
  | inRun, [] => inRun
  | _, c :: cs => runOpen p (p c) cs

theorem subRuns_append (inRun : Bool) (a b : List Char) :
    subRuns p r inRun (a ++ b) = subRuns p r inRun a ++ subRuns p r (runOpen p inRun a) b := by
  induction a generalizing inRun with
  | nil => rfl
  | cons c a ih =>
      rw [List.cons_append]
      cases hc : p c with
      | true => cases inRun <;> simp [subRuns, runOpen, hc, ih]
      | false => simp [subRuns, runOpen, hc, ih]

/-- An open run only decides about a first `r`. -/
theorem subRuns_open (cs : List Char) :
    subRuns p r false cs = subRuns p r true cs ∨ subRuns p r false cs = r :: subRuns p r true cs := by
  cases cs with
  | nil => exact Or.inl rfl
  | cons c cs =>
      unfold subRuns
      cases p c <;> simp

theorem infix_dropWhile (h : s <:+: t) : s.dropWhile p <:+: t.dropWhile p := by
  obtain ⟨a, b, rfl⟩ := h
  have hs : s.dropWhile p <:+: s := (List.dropWhile_suffix p).isInfix
  rw [List.append_assoc, List.dropWhile_append]
  split_ifs with ha
  · -- nothing of `a` remains
    rw [List.dropWhile_append]
    split_ifs with hs'
    · rw [List.isEmpty_iff.mp hs']
      exact List.nil_infix
    · exact List.infix_append_left
  · exact hs.trans (List.infix_append' _ _ _)

/-- Whether the text begins inside a run does not matter once the `r` at its ends are gone. -/
theorem stripChars_subRuns (cs : List Char) :
    stripChars (· == r) (subRuns p r false cs) = stripChars (· == r) (subRuns p r true cs) := by
  obtain h | h := subRuns_open (p := p) (r := r) cs
  · rw [h]
  · rw [h]
    have hdrop : (r :: subRuns p r true cs).dropWhile (· == r) =
        (subRuns p r true cs).dropWhile (· == r) := by
      simp
    unfold stripChars
    rw [hdrop]

theorem infix_stripChars (h : s <:+: t) : stripChars p s <:+: stripChars p t := by
  unfold stripChars
  rw [List.reverse_infix]
  apply infix_dropWhile
  rw [List.reverse_infix]
  exact infix_dropWhile h

/-- A part of a text remains a part when the runs are replaced and the ends stripped. -/
theorem infix_strip_subRuns (h : s <:+: t) :
    stripChars (· == r) (subRuns p r false s) <:+: stripChars (· == r) (subRuns p r false t) := by
  obtain ⟨a, b, rfl⟩ := h
  have hpart : subRuns p r (runOpen p false a) s <:+: subRuns p r false (a ++ s ++ b) := by
    rw [subRuns_append, subRuns_append]
    exact List.infix_append _ _ _
  have hstrip : stripChars (· == r) (subRuns p r false s) =
      stripChars (· == r) (subRuns p r (runOpen p false a) s) := by
    cases runOpen p false a with
    | true => exact stripChars_subRuns s
    | false => rfl
  rw [hstrip]
  exact infix_stripChars hpart

/-- A part of what the runs are replaced in comes from a part of the text. -/
theorem subRuns_eq_append {inRun : Bool} {x y : List Char} (h : subRuns p r inRun cs = x ++ y) :
    ∃ u v, cs = u ++ v ∧ subRuns p r inRun u = x ∧ subRuns p r (runOpen p inRun u) v = y := by
  induction cs generalizing inRun x with
  | nil =>
      obtain ⟨rfl, rfl⟩ := List.append_eq_nil_iff.mp h.symm
      exact ⟨[], [], rfl, rfl, rfl⟩
  | cons c cs ih =>
      cases x with
      | nil => exact ⟨[], c :: cs, rfl, rfl, h⟩
      | cons d x =>
          by_cases hskip : p c = true ∧ inRun = true
          · have hrest : subRuns p r true cs = d :: x ++ y := by
              rw [subRuns, if_pos hskip.1, if_pos hskip.2] at h
              exact h
            obtain ⟨u, v, rfl, hu, hv⟩ := ih hrest
            refine ⟨c :: u, v, rfl, ?_, ?_⟩
            · rw [subRuns, if_pos hskip.1, if_pos hskip.2, hu]
            · rw [runOpen, hskip.1]
              exact hv
          · have hstep : ∀ rest, subRuns p r inRun (c :: rest) =
                (if p c then r else c) :: subRuns p r (p c) rest := by
              intro rest
              rw [subRuns]
              by_cases hc : p c = true
              · have hclosed : ¬inRun = true := fun hin => hskip ⟨hc, hin⟩
                rw [if_pos hc, if_neg hclosed, if_pos hc, hc]
              · rw [if_neg hc, if_neg hc, Bool.eq_false_iff.mpr hc]
            rw [hstep, List.cons_append, List.cons.injEq] at h
            obtain ⟨u, v, rfl, hu, hv⟩ := ih h.2
            refine ⟨c :: u, v, rfl, ?_, hv⟩
            rw [hstep, hu, h.1]

theorem stripChars_eq_nil_iff : stripChars p cs = [] ↔ ∀ c ∈ cs, p c = true := by
  unfold stripChars
  rw [List.reverse_eq_nil_iff, List.dropWhile_eq_nil_iff]
  constructor
  · intro h c hc
    by_contra hnot
    have hhead := List.head?_dropWhile_not p cs
    have hmem : c ∈ cs.dropWhile p := by
      rcases List.mem_append.mp (List.takeWhile_append_dropWhile (p := p) (l := cs) ▸ hc) with htake | hdrop
      · exact absurd (List.mem_takeWhile_imp htake) hnot
      · exact hdrop
    exact hnot (h c (List.mem_reverse.mpr hmem))
  · intro h c hc
    exact h c ((List.dropWhile_suffix p).subset (List.mem_reverse.mp hc))

/-- A part between two characters that are not stripped is one of the whole text. -/
theorem infix_of_infix_stripChars (h : s <:+: stripChars p t) : s <:+: t := by
  have hdrop : stripChars p t <:+: t.dropWhile p := (List.rdropWhile_prefix p _).isInfix
  exact h.trans (hdrop.trans (List.dropWhile_suffix p).isInfix)

/-! ### Texts that stay as they are -/

theorem upper_eq_self (h : ∀ c ∈ cs, upperChar c = [c]) : upper cs = cs := by
  induction cs with
  | nil => rfl
  | cons c cs ih =>
      rw [List.forall_mem_cons] at h
      unfold upper at *
      rw [List.flatMap_cons, h.1, ih h.2, List.singleton_append]

theorem upper_append (a b : List Char) : upper (a ++ b) = upper a ++ upper b := List.flatMap_append

theorem toUpper_toUpper (c : Char) : c.toUpper.toUpper = c.toUpper := by
  rw [← Char.toNat_inj, toUpper_toNat c.toUpper, toUpper_toNat c]
  split_ifs <;> omega

/-- An upper case has no lower case letter left. -/
theorem upperChar_of_mem (h : c ∈ upper cs) : upperChar c = [c] := by
  obtain ⟨d, -, hd⟩ := List.mem_flatMap.mp h
  unfold upperChar at hd
  cases htable : upperTable d.toNat with
  | some us =>
      rw [htable, Option.getD_some] at hd
      unfold upperTable at htable
      split at htable <;> cases htable <;> simp only [List.mem_cons, List.not_mem_nil, or_false] at hd <;>
        first
        | (subst hd; decide)
        | (rcases hd with rfl | rfl <;> decide)
        | (rcases hd with rfl | rfl | rfl <;> decide)
  | none =>
      rw [htable, Option.getD_none, List.mem_singleton] at hd
      subst hd
      rw [upperChar, upperTable_eq_none htable, Option.getD_none, toUpper_toUpper]

theorem subRuns_eq_self (h : ∀ c ∈ cs, p c = false) (inRun : Bool) : subRuns p r inRun cs = cs := by
  induction cs generalizing inRun with
  | nil => rfl
  | cons c cs ih =>
      rw [List.forall_mem_cons] at h
      rw [subRuns, h.1, if_neg Bool.false_ne_true, ih h.2]

/-- Behind a text without a character of `p` no run is open. -/
theorem runOpen_eq_false (h : ∀ c ∈ cs, p c = false) : runOpen p false cs = false := by
  induction cs with
  | nil => rfl
  | cons c cs ih =>
      rw [List.forall_mem_cons] at h
      rw [runOpen, h.1, ih h.2]

theorem mem_subRuns {inRun : Bool} (h : c ∈ subRuns p r inRun cs) : c = r ∨ (c ∈ cs ∧ p c = false) := by
  induction cs generalizing inRun with
  | nil => cases h
  | cons d cs ih =>
      have hrest : ∀ b, c ∈ subRuns p r b cs → c = r ∨ (c ∈ d :: cs ∧ p c = false) :=
        fun b hc => (ih hc).imp_right fun hc => ⟨List.mem_cons_of_mem _ hc.1, hc.2⟩
      rw [subRuns] at h
      split at h
      · split at h
        · exact hrest _ h
        · rcases List.mem_cons.mp h with rfl | h
          · exact .inl rfl
          · exact hrest _ h
      · next hd =>
          rcases List.mem_cons.mp h with rfl | h
          · exact .inr ⟨List.mem_cons_self, Bool.not_eq_true _ ▸ hd⟩
          · exact hrest _ h

theorem mem_stripChars (h : c ∈ stripChars p cs) : c ∈ cs := by
  unfold stripChars at h
  have hdrop := (List.dropWhile_suffix p).subset (List.mem_reverse.mp h)
  exact (List.dropWhile_suffix p).subset (List.mem_reverse.mp hdrop)

/-- What is stripped does not begin with a stripped character. -/
theorem stripChars_eq_cons {rest : List Char} (h : stripChars p cs = c :: rest) : p c = false := by
  have hprefix : stripChars p cs <+: cs.dropWhile p := List.rdropWhile_prefix p _
  obtain ⟨tail, htail⟩ := h ▸ hprefix
  have hhead := List.head?_dropWhile_not p cs
  rw [← htail] at hhead
  exact hhead

/-- A text between two characters that are not stripped. -/
theorem stripChars_eq_self {d : Char} {init rest : List Char} (hfirst : cs = c :: rest)
    (hlast : cs = init ++ [d]) (hc : p c = false) (hd : p d = false) : stripChars p cs = cs := by
  have hdrop : cs.dropWhile p = cs := by
    rw [hfirst, List.dropWhile_cons_of_neg (by rw [hc]; exact Bool.false_ne_true)]
  have hreverse : cs.reverse.dropWhile p = cs.reverse := by
    rw [hlast, List.reverse_concat, List.dropWhile_cons_of_neg (by rw [hd]; exact Bool.false_ne_true)]
  rw [stripChars, hdrop, hreverse, List.reverse_reverse]

end Text
