import Mathlib

/-! # Formatting with `%`

`text % values` where `values` is a dictionary: `%(key)s` stands for a value, `%%` for a percent
sign, and every other directive formats a value or the dictionary itself in its own way.  The
values are not filled in here: the result is a list of parts.

A character of the result that was not made by a directive stands in the text, and a percent sign
of the result takes two of the text (`formatFrom_count_text`, `formatFrom_count_percent`). -/

namespace PercentFormat

/-- A part of a formatted text. -/
inductive Part
  | text (c : Char)
  | value (key : List Char)
  | other (conversion : Char)
deriving DecidableEq

def Part.isValue : Part → Bool
  | .value _ => true
  | _ => false

/-! ### Directives -/

/-- The key behind an opening parenthesis, and what follows it; `depth` parentheses are open
inside. -/
def readKey : ℕ → List Char → Option (List Char × List Char)
  | _, [] => none
  | depth, c :: cs =>
      if c = ')' then
        if depth = 0 then some ([], cs) else (readKey (depth - 1) cs).map (fun r => (c :: r.1, r.2))
      else if c = '(' then (readKey (depth + 1) cs).map (fun r => (c :: r.1, r.2))
      else (readKey depth cs).map (fun r => (c :: r.1, r.2))

def skipFlags (cs : List Char) : List Char := cs.dropWhile (fun c => c ∈ ['#', '0', '-', ' ', '+'])

/-- A number, or a star. -/
def skipNumber : List Char → List Char
  | [] => []
  | c :: cs => if c = '*' then cs else (c :: cs).dropWhile Char.isDigit

def skipPrecision : List Char → List Char
  | [] => []
  | c :: cs => if c = '.' then skipNumber cs else c :: cs

def skipLength : List Char → List Char
  | [] => []
  | c :: cs => if c ∈ ['h', 'l', 'L'] then cs else c :: cs

def conversions : List Char := "diouxXeEfFgGcrsa".toList

/-- The end of a directive: flags, width, precision, length and the conversion. -/
def convert (cs : List Char) : Except String (Part × List Char) :=
  match skipLength (skipPrecision (skipNumber (skipFlags cs))) with
  | [] => .error "incomplete format"
  | c :: rest =>
      if c = '%' then .ok (.text '%', rest)
      else if c ∈ conversions then .ok (.other c, rest)
      else .error "unsupported format character"

/-- The directive behind a percent sign, and what follows it. -/
def readDirective : List Char → Except String (Part × List Char)
  | [] => .error "incomplete format"
  | c :: cs =>
      if c = '(' then
        match readKey 0 cs with
        | none => .error "incomplete format key"
        | some (key, rest) => if rest.head? = some 's' then .ok (.value key, rest.tail) else convert rest
      else convert (c :: cs)

/-- The parts of a text; no turn leaves nothing. -/
def formatFrom : ℕ → List Char → Except String (List Part)
  | 0, _ => .ok []
  | _ + 1, [] => .ok []
  | n + 1, c :: cs =>
      if c = '%' then do
        let (part, rest) ← readDirective cs
        let parts ← formatFrom n rest
        return part :: parts
      else do
        let parts ← formatFrom n cs
        return .text c :: parts

/-- `text % values`. -/
def format (cs : List Char) : Except String (List Part) := formatFrom cs.length cs

/-! ### What a directive takes -/

variable {cs rest : List Char}
variable {key : List Char}

theorem readKey_suffix {depth : ℕ} (h : readKey depth cs = some (key, rest)) : rest <:+ cs := by
  induction cs generalizing depth key with
  | nil => cases h
  | cons c cs ih =>
      unfold readKey at h
      split_ifs at h
      · cases h
        exact List.suffix_cons _ _
      all_goals
        obtain ⟨r, hr, he⟩ := Option.map_eq_some_iff.mp h
        cases he
        exact (ih hr).trans (List.suffix_cons _ _)

theorem skipNumber_suffix (cs : List Char) : skipNumber cs <:+ cs := by
  unfold skipNumber
  split
  · exact List.suffix_refl _
  · split_ifs
    · exact List.suffix_cons _ _
    · exact List.dropWhile_suffix _

theorem skipPrecision_suffix (cs : List Char) : skipPrecision cs <:+ cs := by
  unfold skipPrecision
  split
  · exact List.suffix_refl _
  · split_ifs
    · exact (skipNumber_suffix _).trans (List.suffix_cons _ _)
    · exact List.suffix_refl _

theorem skipLength_suffix (cs : List Char) : skipLength cs <:+ cs := by
  unfold skipLength
  split
  · exact List.suffix_refl _
  · split_ifs
    · exact List.suffix_cons _ _
    · exact List.suffix_refl _

theorem convert_suffix {part : Part} (h : convert cs = .ok (part, rest)) :
    (∃ c, (c :: rest) <:+ cs ∧ (part = .text '%' ∧ c = '%' ∨ part = .other c)) := by
  have hall : skipLength (skipPrecision (skipNumber (skipFlags cs))) <:+ cs :=
    ((skipLength_suffix _).trans (skipPrecision_suffix _)).trans
      ((skipNumber_suffix _).trans (List.dropWhile_suffix _))
  unfold convert at h
  cases hskip : skipLength (skipPrecision (skipNumber (skipFlags cs))) with
  | nil =>
      rw [hskip] at h
      cases h
  | cons c rest' =>
      rw [hskip] at h hall
      simp only at h
      split_ifs at h with hpercent
      · cases h
        exact ⟨c, hall, Or.inl ⟨rfl, hpercent⟩⟩
      · cases h
        exact ⟨c, hall, Or.inr rfl⟩

/-- A directive that stands for a percent sign has one more of them. -/
theorem readDirective_spec {part : Part} (h : readDirective cs = .ok (part, rest)) :
    rest <:+ cs ∧ (part = .text '%' ∧ rest.count '%' + 1 ≤ cs.count '%' ∨
      (∃ key, part = .value key) ∨ ∃ c, part = .other c) := by
  have hconvert : ∀ cs' : List Char, cs' <:+ cs → convert cs' = .ok (part, rest) →
      rest <:+ cs ∧ (part = .text '%' ∧ rest.count '%' + 1 ≤ cs.count '%' ∨
        (∃ key, part = .value key) ∨ ∃ c, part = .other c) := by
    intro cs' hsuffix hc
    obtain ⟨c, hrest, ⟨rfl, rfl⟩ | rfl⟩ := convert_suffix hc
    · refine ⟨(List.suffix_cons _ _).trans (hrest.trans hsuffix), Or.inl ⟨rfl, ?_⟩⟩
      have hcount := (hrest.trans hsuffix).sublist.count_le '%'
      rw [List.count_cons_self] at hcount
      exact hcount
    · exact ⟨(List.suffix_cons _ _).trans (hrest.trans hsuffix), Or.inr (Or.inr ⟨c, rfl⟩)⟩
  unfold readDirective at h
  cases cs with
  | nil => cases h
  | cons c cs =>
      simp only at h
      split_ifs at h
      · cases hkey : readKey 0 cs with
        | none =>
            rw [hkey] at h
            cases h
        | some r =>
            obtain ⟨key, behind⟩ := r
            rw [hkey] at h
            have hbehind : behind <:+ c :: cs := (readKey_suffix hkey).trans (List.suffix_cons _ _)
            simp only at h
            split_ifs at h
            · cases h
              exact ⟨(List.tail_suffix _).trans hbehind, Or.inr (Or.inl ⟨key, rfl⟩)⟩
            · exact hconvert behind hbehind h
      · exact hconvert _ (List.suffix_refl _) h

/-! ### What a text gives -/

variable {n : ℕ} {parts : List Part}

theorem formatFrom_cons_percent (h : formatFrom (n + 1) ('%' :: cs) = .ok parts) :
    ∃ part rest others, readDirective cs = .ok (part, rest) ∧ formatFrom n rest = .ok others ∧
      parts = part :: others := by
  rw [formatFrom, if_pos rfl] at h
  cases hread : readDirective cs with
  | error e =>
      rw [hread] at h
      cases h
  | ok r =>
      obtain ⟨part, rest⟩ := r
      rw [hread] at h
      cases hrest : formatFrom n rest with
      | error e =>
          have herror : (formatFrom n rest >>= fun parts => pure (part :: parts)) = .ok parts := h
          rw [hrest] at herror
          cases herror
      | ok others =>
          have hok : (formatFrom n rest >>= fun parts => pure (part :: parts)) = .ok parts := h
          rw [hrest] at hok
          cases hok
          exact ⟨part, rest, others, rfl, hrest, rfl⟩

theorem formatFrom_cons_text {c : Char} (hc : c ≠ '%') (h : formatFrom (n + 1) (c :: cs) = .ok parts) :
    ∃ others, formatFrom n cs = .ok others ∧ parts = .text c :: others := by
  rw [formatFrom, if_neg hc] at h
  cases hrest : formatFrom n cs with
  | error e =>
      rw [hrest] at h
      cases h
  | ok others =>
      rw [hrest] at h
      cases h
      exact ⟨others, rfl, rfl⟩

/-- Characters come from characters. -/
theorem formatFrom_count_text {c : Char} (hc : c ≠ '%') (h : formatFrom n cs = .ok parts) :
    parts.count (.text c) ≤ cs.count c := by
  induction n generalizing cs parts with
  | zero =>
      cases h
      exact Nat.zero_le _
  | succ n ih =>
      cases cs with
      | nil =>
          cases h
          exact Nat.zero_le _
      | cons d cs =>
          by_cases hd : d = '%'
          · subst hd
            obtain ⟨part, rest, others, hread, hrest, rfl⟩ := formatFrom_cons_percent h
            obtain ⟨hsuffix, hpart⟩ := readDirective_spec hread
            have hne : part ≠ .text c := by
              obtain ⟨rfl, -⟩ | ⟨key, rfl⟩ | ⟨d, rfl⟩ := hpart
              · exact fun he => hc (Part.text.inj he).symm
              · exact Part.noConfusion
              · exact Part.noConfusion
            rw [List.count_cons_of_ne hne, List.count_cons_of_ne (Ne.symm hc)]
            exact (ih hrest).trans (hsuffix.sublist.count_le c)
          · obtain ⟨others, hrest, rfl⟩ := formatFrom_cons_text hd h
            have hle := ih hrest
            by_cases hdc : d = c
            · subst hdc
              rw [List.count_cons_self, List.count_cons_self]
              omega
            · rw [List.count_cons_of_ne (fun he => hdc (Part.text.inj he)), List.count_cons_of_ne hdc]
              exact hle

/-- A percent sign takes two, a value takes one. -/
theorem formatFrom_count_percent (h : formatFrom n cs = .ok parts) :
    2 * parts.count (.text '%') + parts.countP Part.isValue ≤ cs.count '%' := by
  induction n generalizing cs parts with
  | zero =>
      cases h
      exact Nat.zero_le _
  | succ n ih =>
      cases cs with
      | nil =>
          cases h
          exact Nat.zero_le _
      | cons d cs =>
          by_cases hd : d = '%'
          · subst hd
            obtain ⟨part, rest, others, hread, hrest, rfl⟩ := formatFrom_cons_percent h
            obtain ⟨hsuffix, hpart⟩ := readDirective_spec hread
            have hle := ih hrest
            have hcount := hsuffix.sublist.count_le '%'
            rw [List.count_cons_self]
            obtain ⟨rfl, hmore⟩ | ⟨key, rfl⟩ | ⟨d, rfl⟩ := hpart
            · rw [List.count_cons_self, List.countP_cons_of_neg (by decide)]
              omega
            · rw [List.count_cons_of_ne Part.noConfusion, List.countP_cons_of_pos rfl]
              omega
            · rw [List.count_cons_of_ne Part.noConfusion, List.countP_cons_of_neg (by simp [Part.isValue])]
              omega
          · obtain ⟨others, hrest, rfl⟩ := formatFrom_cons_text hd h
            have hle := ih hrest
            rw [List.count_cons_of_ne (fun he => hd (Part.text.inj he)), List.count_cons_of_ne hd,
              List.countP_cons_of_neg (by simp [Part.isValue])]
            exact hle

/-- The key of a directive without parentheses in it. -/
theorem readKey_append (hkey : ∀ c ∈ key, c ≠ '(' ∧ c ≠ ')') :
    readKey 0 (key ++ ')' :: rest) = some (key, rest) := by
  induction key with
  | nil => rw [List.nil_append, readKey, if_pos rfl, if_pos rfl]
  | cons c key ih =>
      rw [List.forall_mem_cons] at hkey
      rw [List.cons_append, readKey, if_neg hkey.1.2, if_neg hkey.1.1, ih hkey.2]
      rfl

/-- `%(key)s`. -/
theorem formatFrom_value (hkey : ∀ c ∈ key, c ≠ '(' ∧ c ≠ ')') :
    formatFrom (n + 1) ('%' :: '(' :: (key ++ ')' :: 's' :: rest)) =
      (formatFrom n rest).map (Part.value key :: ·) := by
  have hread : readDirective ('(' :: (key ++ ')' :: 's' :: rest)) = .ok (.value key, rest) := by
    rw [readDirective, if_pos rfl, readKey_append hkey]
    rfl
  rw [formatFrom, if_pos rfl, hread]
  show (formatFrom n rest >>= fun parts => pure (Part.value key :: parts)) = _
  cases formatFrom n rest <;> rfl

theorem formatFrom_text {c : Char} (hc : c ≠ '%') :
    formatFrom (n + 1) (c :: cs) = (formatFrom n cs).map (Part.text c :: ·) := by
  rw [formatFrom, if_neg hc]
  cases formatFrom n cs <;> rfl

example : format "a%%b%(k)s".toList = .ok [.text 'a', .text '%', .text 'b', .value ['k']] := by decide

end PercentFormat
