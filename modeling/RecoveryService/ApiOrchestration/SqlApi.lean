import RecoveryService.Lib.PercentFormat

/-! # The statement of an SQL API

`invoke_sql_api` turns every `:name` of the text into `%(name)s`, wherever it stands, and the
driver formats the result with `%`.  The statement that is meant has its placeholders outside of
literals, quoted identifiers and comments only.  Which places these are is up to the dialect; a
dialect is given by a lexer, and `mysqlLexer` is the one of MySQL and Doris.

Statements are kept with their values still to be filled in. -/

namespace RecoveryService.ApiOrchestration

open PercentFormat

/-! ### Placeholders -/

def isNameStart (c : Char) : Bool := c.isAlpha || c = '_'

def isNameChar (c : Char) : Bool := c.isAlphanum || c = '_'

/-- A name stands at the start. -/
def startsName (cs : List Char) : Bool := cs.head?.any isNameStart

/-- `re.sub(r":([A-Za-z_][A-Za-z0-9_]*)", r"%(\1)s", text)`; no turn leaves nothing. -/
def rewriteFrom : ℕ → List Char → List Char
  | 0, _ => []
  | _ + 1, [] => []
  | n + 1, c :: cs =>
      if c = ':' ∧ startsName cs = true then
        '%' :: '(' :: (cs.takeWhile isNameChar ++ ')' :: 's' :: rewriteFrom n (cs.dropWhile isNameChar))
      else c :: rewriteFrom n cs

def rewrite (cs : List Char) : List Char := rewriteFrom cs.length cs

/-- The places of a text that are code; the others belong to literals, quoted identifiers and
comments. -/
structure Lexer where
  marks : List Char → List (Char × Bool)
  text : ∀ cs, (marks cs).map Prod.fst = cs

/-- The parts of a marked text: its placeholders are those that start at code. -/
def originalFrom : ℕ → List (Char × Bool) → List Part
  | 0, _ => []
  | _ + 1, [] => []
  | n + 1, (c, code) :: cs =>
      if c = ':' ∧ code = true ∧ startsName (cs.map Prod.fst) = true then
        .value ((cs.map Prod.fst).takeWhile isNameChar) ::
          originalFrom n (cs.dropWhile (fun e => isNameChar e.1))
      else .text c :: originalFrom n cs

/-- The statement with native binds. -/
def Lexer.original (lexer : Lexer) (cs : List Char) : List Part :=
  originalFrom cs.length (lexer.marks cs)

/-- The statement that the driver makes of the text. -/
def sent (cs : List Char) : Except String (List Part) := format (rewrite cs)

/-- A colon and a name that do not start at code. -/
def StrayColon (marked : List (Char × Bool)) : Prop :=
  ∃ before behind, marked = before ++ (':', false) :: behind ∧
    startsName (behind.map Prod.fst) = true

/-! ### The lexer of MySQL -/

def singleQuote : Char := Char.ofNat 39

def doubleQuote : Char := Char.ofNat 34

def backquote : Char := Char.ofNat 96

def backslash : Char := Char.ofNat 92

inductive Mode
  | code
  | quoted (quote : Char)
  | escaped (quote : Char)
  | line
  | block
  | blockEnd

/-- The mode behind a character and whether the character is code; `next` are the characters that
follow it. -/
def Mode.step (mode : Mode) (c : Char) (next : List Char) : Bool × Mode :=
  match mode with
  | .code =>
      if c = singleQuote ∨ c = doubleQuote ∨ c = backquote then (false, .quoted c)
      else if c = '#' then (false, .line)
      else if c = '-' ∧ next.head? = some '-' ∧ (next.tail.head?.all Char.isWhitespace) = true then
        (false, .line)
      else if c = '/' ∧ next.head? = some '*' then (false, .block)
      else (true, .code)
  | .quoted quote =>
      if c = backslash ∧ quote ≠ backquote then (false, .escaped quote)
      else if c = quote then (false, .code)
      else (false, .quoted quote)
  | .escaped quote => (false, .quoted quote)
  | .line => if c = '\n' then (false, .code) else (false, .line)
  | .block => if c = '*' ∧ next.head? = some '/' then (false, .blockEnd) else (false, .block)
  | .blockEnd => (false, .code)

/-- A doubled quote closes the literal and opens it again. -/
def marksFrom : Mode → List Char → List (Char × Bool)
  | _, [] => []
  | mode, c :: cs => (c, (mode.step c cs).1) :: marksFrom (mode.step c cs).2 cs

theorem marksFrom_text (mode : Mode) (cs : List Char) : (marksFrom mode cs).map Prod.fst = cs := by
  induction cs generalizing mode with
  | nil => rfl
  | cons c cs ih => rw [marksFrom, List.map_cons, ih]

def mysqlLexer : Lexer := ⟨marksFrom .code, marksFrom_text .code⟩

example : mysqlLexer.original "':a' + :b".toList =
    [.text singleQuote, .text ':', .text 'a', .text singleQuote, .text ' ', .text '+', .text ' ',
      .value ['b']] := by decide

/-! ### Counting colons and percent signs -/

/-- The places with a colon and a name. -/
def placeholders : List Char → ℕ
  | [] => 0
  | c :: cs => (if c = ':' ∧ startsName cs = true then 1 else 0) + placeholders cs

/-- Those of them that start at code. -/
def binds : List (Char × Bool) → ℕ
  | [] => 0
  | (c, code) :: cs =>
      (if c = ':' ∧ code = true ∧ startsName (cs.map Prod.fst) = true then 1 else 0) + binds cs

theorem isNameChar_ne {c : Char} (h : isNameChar c = true) : c ≠ ':' ∧ c ≠ '%' ∧ c ≠ '(' ∧ c ≠ ')' := by
  refine ⟨?_, ?_, ?_, ?_⟩ <;>
  · rintro rfl
    revert h
    decide

theorem placeholders_dropName (cs : List Char) : placeholders (cs.dropWhile isNameChar) = placeholders cs := by
  induction cs with
  | nil => rfl
  | cons c cs ih =>
      by_cases hc : isNameChar c = true
      · rw [List.dropWhile_cons_of_pos hc, ih, placeholders,
          if_neg (fun h => (isNameChar_ne hc).1 h.1), Nat.zero_add]
      · rw [List.dropWhile_cons_of_neg hc]

theorem count_dropName {c : Char} (hc : isNameChar c = false) (cs : List Char) :
    (cs.dropWhile isNameChar).count c = cs.count c := by
  induction cs with
  | nil => rfl
  | cons d cs ih =>
      by_cases hd : isNameChar d = true
      · have hne : d ≠ c := by
          rintro rfl
          rw [hc] at hd
          cases hd
        rw [List.dropWhile_cons_of_pos hd, ih, List.count_cons_of_ne hne]
      · rw [List.dropWhile_cons_of_neg hd]

theorem count_takeName {c : Char} (hc : isNameChar c = false) (cs : List Char) :
    (cs.takeWhile isNameChar).count c = 0 := by
  refine List.count_eq_zero.mpr fun hmem => ?_
  have hname := List.mem_takeWhile_imp hmem
  rw [hc] at hname
  cases hname

/-- The rewriting takes the colons of the placeholders away, and gives them percent signs. -/
theorem rewriteFrom_count {n : ℕ} {cs : List Char} (hn : cs.length ≤ n) :
    (rewriteFrom n cs).count ':' + placeholders cs = cs.count ':' ∧
      (rewriteFrom n cs).count '%' = cs.count '%' + placeholders cs := by
  have hcolon : isNameChar ':' = false := by decide
  have hpercent : isNameChar '%' = false := by decide
  induction n generalizing cs with
  | zero =>
      rw [List.length_eq_zero_iff.mp (by omega : cs.length = 0)]
      exact ⟨rfl, rfl⟩
  | succ n ih =>
      cases cs with
      | nil => exact ⟨rfl, rfl⟩
      | cons c cs =>
          rw [List.length_cons] at hn
          rw [rewriteFrom, placeholders]
          by_cases hmatch : c = ':' ∧ startsName cs = true
          · rw [if_pos hmatch, if_pos hmatch, hmatch.1]
            have hlen : (cs.dropWhile isNameChar).length ≤ n :=
              (List.dropWhile_suffix _).length_le.trans (by omega)
            obtain ⟨h₁, h₂⟩ := ih hlen
            rw [placeholders_dropName, count_dropName hcolon] at h₁
            rw [placeholders_dropName, count_dropName hpercent] at h₂
            simp only [List.count_cons, List.count_append, count_takeName hcolon,
              count_takeName hpercent]
            simp
            omega
          · rw [if_neg hmatch, if_neg hmatch]
            obtain ⟨h₁, h₂⟩ := ih (show cs.length ≤ n by omega)
            rw [List.count_cons, List.count_cons, List.count_cons, List.count_cons]
            omega

theorem binds_dropName (marked : List (Char × Bool)) :
    binds (marked.dropWhile (fun e => isNameChar e.1)) = binds marked := by
  induction marked with
  | nil => rfl
  | cons e marked ih =>
      by_cases hc : isNameChar e.1 = true
      · rw [List.dropWhile_cons, if_pos hc, ih, binds,
          if_neg (fun h => (isNameChar_ne hc).1 h.1), Nat.zero_add]
      · rw [List.dropWhile_cons, if_neg hc]

theorem map_dropName (marked : List (Char × Bool)) : (marked.dropWhile (fun e => isNameChar e.1)).map Prod.fst =
      (marked.map Prod.fst).dropWhile isNameChar := by
  rw [List.dropWhile_map]
  rfl

variable {marked : List (Char × Bool)}

/-- The statement that is meant keeps the other colons, and all percent signs. -/
theorem originalFrom_count {n : ℕ} (hn : marked.length ≤ n) :
    (originalFrom n marked).count (.text ':') + binds marked = (marked.map Prod.fst).count ':' ∧
      (originalFrom n marked).count (.text '%') = (marked.map Prod.fst).count '%' ∧
      (originalFrom n marked).countP Part.isValue = binds marked := by
  have hcolon : isNameChar ':' = false := by decide
  have hpercent : isNameChar '%' = false := by decide
  induction n generalizing marked with
  | zero =>
      rw [List.length_eq_zero_iff.mp (by omega : marked.length = 0)]
      exact ⟨rfl, rfl, rfl⟩
  | succ n ih =>
      cases marked with
      | nil => exact ⟨rfl, rfl, rfl⟩
      | cons e marked =>
          obtain ⟨c, code⟩ := e
          rw [List.length_cons] at hn
          rw [originalFrom, binds, List.map_cons]
          by_cases hmatch : c = ':' ∧ code = true ∧ startsName (marked.map Prod.fst) = true
          · rw [if_pos hmatch, if_pos hmatch, hmatch.1]
            have hlen : (marked.dropWhile (fun e => isNameChar e.1)).length ≤ n :=
              (List.dropWhile_suffix _).length_le.trans (by omega)
            obtain ⟨h₁, h₂, h₃⟩ := ih hlen
            rw [binds_dropName, map_dropName, count_dropName hcolon] at h₁
            rw [map_dropName, count_dropName hpercent] at h₂
            rw [binds_dropName] at h₃
            have hvalue : ∀ (key : List Char) (d : Char) (parts : List Part),
                (Part.value key :: parts).count (.text d) = parts.count (.text d) := by
              intro key d parts
              rw [List.count_cons]
              simp
            have hpc : (':' :: marked.map Prod.fst).count '%' = (marked.map Prod.fst).count '%' :=
              List.count_cons_of_ne (by decide)
            rw [hvalue, hvalue, List.countP_cons_of_pos rfl, List.count_cons_self, hpc]
            omega
          · rw [if_neg hmatch, if_neg hmatch]
            obtain ⟨h₁, h₂, h₃⟩ := ih (show marked.length ≤ n by omega)
            have hcount : ∀ d : Char, (Part.text c :: originalFrom n marked).count (.text d) =
                (originalFrom n marked).count (.text d) + if c = d then 1 else 0 := by
              intro d
              rw [List.count_cons]
              simp
            rw [hcount, hcount, List.countP_cons_of_neg (by simp [Part.isValue]), List.count_cons,
              List.count_cons]
            simp only [beq_iff_eq]
            omega

theorem binds_le (marked : List (Char × Bool)) : binds marked ≤ placeholders (marked.map Prod.fst) := by
  induction marked with
  | nil => exact le_refl _
  | cons e marked ih =>
      rw [binds, List.map_cons, placeholders]
      split_ifs with h₁ h₂
      · omega
      · exact absurd ⟨h₁.1, h₁.2.2⟩ h₂
      · omega
      · omega

/-- A placeholder that does not start at code is not counted as a bind. -/
theorem binds_lt (h : StrayColon marked) : binds marked < placeholders (marked.map Prod.fst) := by
  obtain ⟨before, behind, rfl, hname⟩ := h
  induction before with
  | nil =>
      have hle := binds_le behind
      rw [List.nil_append, binds, List.map_cons, placeholders, if_neg (by simp),
        if_pos ⟨rfl, hname⟩]
      omega
  | cons e before ih =>
      rw [List.cons_append, binds, List.map_cons, placeholders]
      split_ifs with h₁ h₂
      · omega
      · exact absurd ⟨h₁.1, h₁.2.2⟩ h₂
      · omega
      · omega

/-! ### When the statement is the one that is meant -/

theorem not_strayColon_tail {e : Char × Bool} (h : ¬ StrayColon (e :: marked)) {rest : List (Char × Bool)}
    (hrest : rest <:+ marked) : ¬ StrayColon rest := by
  rintro ⟨before, behind, rfl, hname⟩
  obtain ⟨front, rfl⟩ := hrest
  exact h ⟨e :: front ++ before, behind, by simp, hname⟩

/-- Without percent signs and stray colons every `%(name)s` becomes the value that is meant. -/
theorem format_rewriteFrom {n k : ℕ} (hn : marked.length ≤ n)
    (hk : (rewriteFrom n (marked.map Prod.fst)).length ≤ k) (hpercent : '%' ∉ marked.map Prod.fst)
    (hstray : ¬ StrayColon marked) :
    formatFrom k (rewriteFrom n (marked.map Prod.fst)) = .ok (originalFrom n marked) := by
  induction n generalizing k marked with
  | zero =>
      rw [List.length_eq_zero_iff.mp (by omega : marked.length = 0)]
      cases k <;> rfl
  | succ n ih =>
      cases marked with
      | nil => cases k <;> rfl
      | cons e marked =>
          obtain ⟨c, code⟩ := e
          rw [List.length_cons] at hn
          rw [List.map_cons, List.mem_cons, not_or] at hpercent
          rw [List.map_cons, rewriteFrom] at hk ⊢
          rw [originalFrom]
          by_cases hmatch : c = ':' ∧ startsName (marked.map Prod.fst) = true
          · have hcode : code = true := by
              rw [← Bool.not_eq_false]
              rintro rfl
              exact hstray ⟨[], marked, by rw [hmatch.1]; rfl, hmatch.2⟩
            rw [if_pos hmatch] at hk ⊢
            rw [if_pos ⟨hmatch.1, hcode, hmatch.2⟩]
            obtain ⟨k, rfl⟩ : ∃ k', k = k' + 1 := ⟨k - 1, by simp only [List.length_cons] at hk; omega⟩
            have hsuffix : marked.dropWhile (fun e => isNameChar e.1) <:+ marked := List.dropWhile_suffix _
            have hlen := hsuffix.length_le
            rw [formatFrom_value fun d hd => ?_]
            · rw [← map_dropName] at hk ⊢
              rw [ih (by omega) ?_ ?_ (not_strayColon_tail hstray hsuffix)]
              · rfl
              · simp only [List.length_cons, List.length_append] at hk
                omega
              · exact fun hmem => hpercent.2 ((hsuffix.sublist.map Prod.fst).subset hmem)
            · have hname := isNameChar_ne (List.mem_takeWhile_imp hd)
              exact ⟨hname.2.2.1, hname.2.2.2⟩
          · rw [if_neg hmatch] at hk ⊢
            rw [if_neg (fun h => hmatch ⟨h.1, h.2.2⟩)]
            obtain ⟨k, rfl⟩ : ∃ k', k = k' + 1 := ⟨k - 1, by simp only [List.length_cons] at hk; omega⟩
            rw [List.length_cons] at hk
            rw [formatFrom_text (Ne.symm hpercent.1), ih (by omega) (by omega) hpercent.2
              (not_strayColon_tail hstray (List.suffix_refl _))]
            rfl

/-- The driver sends the statement that is meant exactly when the text has no percent sign, and no
colon before a name in a literal, a quoted identifier or a comment. -/
theorem sent_iff (lexer : Lexer) (cs : List Char) :
    sent cs = .ok (lexer.original cs) ↔ '%' ∉ cs ∧ ¬ StrayColon (lexer.marks cs) := by
  have htext := lexer.text cs
  have hlen : (lexer.marks cs).length = cs.length := by
    rw [← List.length_map Prod.fst, htext]
  constructor
  · intro h
    have hcolon := formatFrom_count_text (c := ':') (by decide) h
    have hpercent := formatFrom_count_percent h
    obtain ⟨hr₁, hr₂⟩ := rewriteFrom_count (le_refl cs.length)
    obtain ⟨ho₁, ho₂, ho₃⟩ := originalFrom_count hlen.le
    have hle := binds_le (lexer.marks cs)
    rw [htext] at ho₁ ho₂ hle
    unfold rewrite at hcolon hpercent
    unfold Lexer.original at hcolon hpercent
    refine ⟨?_, fun hstray => ?_⟩
    · rw [← List.count_eq_zero]
      omega
    · have hlt := binds_lt hstray
      rw [htext] at hlt
      omega
  · rintro ⟨hpercent, hstray⟩
    unfold sent format rewrite Lexer.original
    have h := format_rewriteFrom (k := (rewriteFrom cs.length cs).length) hlen.le
    rw [htext] at h
    exact h (le_refl _) hpercent hstray

/-- A pattern in a literal, with a percent sign. -/
def likeText : List Char := "SELECT * FROM t WHERE name LIKE 'a%' AND id = :id".toList

/-- The percent sign of the literal starts a directive that the driver refuses. -/
theorem likeText_refused : ¬ sent likeText = .ok (mysqlLexer.original likeText) := by
  have hrefused : (sent likeText).toOption = none := by decide +kernel
  intro h
  rw [h] at hrefused
  cases hrefused

end RecoveryService.ApiOrchestration
