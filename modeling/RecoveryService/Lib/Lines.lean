import Mathlib

/-! # The lines of a text -/

namespace Lines

/-- The characters at which `str.splitlines` ends a line. -/
def isLineBreak (c : Char) : Bool :=
  (0x0A ≤ c.toNat && c.toNat ≤ 0x0D) || (0x1C ≤ c.toNat && c.toNat ≤ 0x1E) || c.toNat == 0x85 ||
    c.toNat == 0x2028 || c.toNat == 0x2029

/-- `text.splitlines()`. -/
def splitLines : List Char → List (List Char)
  | [] => []
  | '\r' :: '\n' :: text => [] :: splitLines text
  | c :: text =>
      if isLineBreak c then [] :: splitLines text
      else match splitLines text with
        | [] => [[c]]
        | line :: lines => (c :: line) :: lines

def joined (lines : List (List Char)) : List Char := lines.flatMap fun line => line ++ ['\n']

theorem splitLines_plain {c : Char} (h : isLineBreak c = false) (text : List Char) :
    splitLines (c :: text) = match splitLines text with
      | [] => [[c]]
      | line :: lines => (c :: line) :: lines := by
  rw [splitLines.eq_3 c text, if_neg (by rw [h]; exact Bool.false_ne_true)]
  rintro _ rfl _
  exact absurd h (by decide)

theorem splitLines_line {line : List Char} (h : ∀ c ∈ line, isLineBreak c = false) (text : List Char) :
    splitLines (line ++ '\n' :: text) = line :: splitLines text := by
  induction line with
  | nil => rw [List.nil_append, splitLines.eq_3 _ _ (fun _ h => absurd h (by decide)), if_pos (by decide)]
  | cons c line ih =>
      rw [List.cons_append, splitLines_plain (h c List.mem_cons_self),
        ih fun d hd => h d (List.mem_cons_of_mem c hd)]

theorem splitLines_joined {lines : List (List Char)} (h : ∀ line ∈ lines, ∀ c ∈ line, isLineBreak c = false) :
    splitLines (joined lines) = lines := by
  induction lines with
  | nil => rfl
  | cons line lines ih =>
      have hline : joined (line :: lines) = line ++ '\n' :: joined lines := by
        unfold joined
        rw [List.flatMap_cons, List.append_assoc, List.singleton_append]
      rw [hline, splitLines_line (h line List.mem_cons_self),
        ih fun other hother => h other (List.mem_cons_of_mem line hother)]

variable {text : List Char}

theorem no_break_of_mem : ∀ line ∈ splitLines text, ∀ c ∈ line, isLineBreak c = false := by
  fun_induction splitLines text with
  | case1 => exact fun _ h => absurd h List.not_mem_nil
  | case2 text ih =>
      rintro line (_ | ⟨_, hline⟩)
      · exact fun _ h => absurd h List.not_mem_nil
      · exact ih line hline
  | case3 c text _ _ ih =>
      rintro line (_ | ⟨_, hline⟩)
      · exact fun _ h => absurd h List.not_mem_nil
      · exact ih line hline
  | case4 c text _ hc hempty ih =>
      intro line hline d hd
      rw [List.mem_singleton.mp hline, List.mem_singleton] at hd
      rw [hd]
      exact Bool.eq_false_of_not_eq_true hc
  | case5 c text _ hc first lines heq ih =>
      rintro line (_ | ⟨_, hline⟩) d hd
      · rcases List.mem_cons.mp hd with rfl | hd
        · exact Bool.eq_false_of_not_eq_true hc
        · exact ih first (heq ▸ List.mem_cons_self) d hd
      · exact ih line (heq ▸ List.mem_cons_of_mem first hline) d hd

/-! ### Lines with their ends -/

/-- The lines of a text with their ends; a carriage return belongs to the line feed behind it. -/
def cut (ends : Char → Bool) : List Char → List (List Char)
  | [] => []
  | '\r' :: '\n' :: text => ['\r', '\n'] :: cut ends text
  | c :: text =>
      if ends c then [c] :: cut ends text
      else match cut ends text with
        | [] => [[c]]
        | line :: lines => (c :: line) :: lines

variable {ends : Char → Bool}

theorem cut_ne_nil (h : text ≠ []) : cut ends text ≠ [] := by
  fun_cases cut ends text
  · exact absurd rfl h
  · exact List.cons_ne_nil _ _
  · exact List.cons_ne_nil _ _
  · exact List.cons_ne_nil _ _
  · exact List.cons_ne_nil _ _

theorem flatten_cut (text : List Char) : (cut ends text).flatten = text := by
  fun_induction cut ends text with
  | case1 => rfl
  | case2 text ih => rw [List.flatten_cons, ih]; rfl
  | case3 c text _ _ ih => rw [List.flatten_cons, ih]; rfl
  | case4 c text _ _ hnil ih =>
      rw [hnil] at ih
      rw [← ih]
      rfl
  | case5 c text _ _ line lines hcons ih =>
      rw [hcons] at ih
      rw [← ih]
      rfl

theorem cut_feed (hfeed : ends '\n' = true) (text : List Char) :
    cut ends ('\n' :: text) = ['\n'] :: cut ends text := by
  rw [cut.eq_3 _ _ _ fun _ h => absurd h (by decide), if_pos hfeed]

/-- Behind a line feed the lines are those of the rest alone. -/
theorem cut_append (hfeed : ends '\n' = true) (line rest : List Char) :
    cut ends (line ++ '\n' :: rest) = cut ends (line ++ ['\n']) ++ cut ends rest := by
  have hcons {c : Char} {text : List Char} (hplain : ∀ t, c = '\r' → text = '\n' :: t → False)
      (ih : cut ends (text ++ '\n' :: rest) = cut ends (text ++ ['\n']) ++ cut ends rest) :
      cut ends (c :: text ++ '\n' :: rest) = cut ends (c :: text ++ ['\n']) ++ cut ends rest := by
    by_cases hlast : text = [] ∧ c = '\r'
    · obtain ⟨rfl, rfl⟩ := hlast
      rfl
    have hplain' (tail t : List Char) (hc : c = '\r') (htext : text ++ '\n' :: tail = '\n' :: t) : False := by
      cases text with
      | nil => exact hlast ⟨rfl, hc⟩
      | cons d text =>
          rw [List.cons_append, List.cons.injEq] at htext
          exact hplain text hc (htext.1 ▸ rfl)
    rw [List.cons_append, List.cons_append, cut.eq_3 _ _ _ (hplain' rest), cut.eq_3 _ _ _ (hplain' []), ih]
    split_ifs with hend
    · rfl
    · have hne : cut ends (text ++ ['\n']) ≠ [] :=
        cut_ne_nil (List.append_ne_nil_of_right_ne_nil _ (List.cons_ne_nil _ _))
      obtain ⟨first, lines, hfirst⟩ := List.exists_cons_of_ne_nil hne
      rw [hfirst]
      rfl
  fun_induction cut ends line with
  | case1 => rw [List.nil_append, List.nil_append, cut_feed hfeed, cut_feed hfeed]; rfl
  | case2 text ih =>
      change ['\r', '\n'] :: cut ends (text ++ '\n' :: rest) =
        ['\r', '\n'] :: cut ends (text ++ ['\n']) ++ cut ends rest
      rw [ih]
      rfl
  | case3 c text hplain _ ih => exact hcons hplain ih
  | case4 c text hplain _ _ ih => exact hcons hplain ih
  | case5 c text hplain _ _ _ _ ih => exact hcons hplain ih

/-- All lines but the last one end with a line feed. -/
theorem feed_of_cut {before rest : List (List Char)} (h : cut (· == '\n') text = before ++ rest)
    (hrest : rest ≠ []) : ∀ line ∈ before, ∃ start, line = start ++ ['\n'] := by
  fun_induction cut (· == '\n') text generalizing before with
  | case1 => exact absurd (List.append_eq_nil_iff.mp h.symm).2 hrest
  | case2 text ih =>
      cases before with
      | nil => exact fun _ hl => absurd hl List.not_mem_nil
      | cons first before =>
          obtain ⟨rfl, htail⟩ := List.cons.inj h
          exact List.forall_mem_cons.mpr ⟨⟨['\r'], rfl⟩, ih htail⟩
  | case3 c text _ hend ih =>
      cases before with
      | nil => exact fun _ hl => absurd hl List.not_mem_nil
      | cons first before =>
          obtain ⟨rfl, htail⟩ := List.cons.inj h
          exact List.forall_mem_cons.mpr ⟨⟨[], congrArg (fun d => [d]) (beq_iff_eq.mp hend)⟩, ih htail⟩
  | case4 c text _ _ hnil ih =>
      cases before with
      | nil => exact fun _ hl => absurd hl List.not_mem_nil
      | cons first before =>
          obtain ⟨-, htail⟩ := List.cons.inj h
          exact absurd (List.append_eq_nil_iff.mp htail.symm).2 hrest
  | case5 c text _ _ line lines hcons ih =>
      cases before with
      | nil => exact fun _ hl => absurd hl List.not_mem_nil
      | cons first before =>
          obtain ⟨rfl, htail⟩ := List.cons.inj h
          obtain ⟨⟨start, hstart⟩, hbefore⟩ :=
            List.forall_mem_cons.mp (@ih (line :: before) (hcons.trans (congrArg (line :: ·) htail)))
          exact List.forall_mem_cons.mpr ⟨⟨c :: start, congrArg (c :: ·) hstart⟩, hbefore⟩

end Lines
