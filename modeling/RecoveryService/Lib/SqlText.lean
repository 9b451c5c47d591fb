import Mathlib.Data.List.Basic
import Mathlib.Tactic.Common

/-! # The lexical structure of SQL

Each character of a text is read in a mode: as code, in a quoted text or name, or in a comment.  A lexer
without comments reads their characters as code. -/

namespace SqlText

def singleQuote : Char := Char.ofNat 39

def doubleQuote : Char := Char.ofNat 34

def backquote : Char := Char.ofNat 96

def isQuote (c : Char) : Bool := c == singleQuote || c == doubleQuote || c == backquote

inductive Mode
  | code
  | quoted (quote : Char)
  /-- Behind a backslash. -/
  | escaped (quote : Char)
  | line
  /-- At the star that opens a comment. -/
  | opened
  | block
  /-- At the slash that closes it. -/
  | closed
deriving DecidableEq

/-- What a character is read as, and the mode behind it; `next` is the character that follows. -/
def step (comments : Bool) (mode : Mode) (c : Char) (next : Option Char) : Mode × Mode :=
  match mode with
  | .code =>
      if isQuote c then (.quoted c, .quoted c)
      else if comments ∧ c = '-' ∧ next = some '-' then (.line, .line)
      else if comments ∧ c = '/' ∧ next = some '*' then (.block, .opened)
      else (.code, .code)
  | .quoted quote =>
      if c = '\\' ∧ quote ≠ backquote then (.quoted quote, .escaped quote)
      else if c = quote then (.quoted quote, .code)
      else (.quoted quote, .quoted quote)
  | .escaped quote => (.quoted quote, .quoted quote)
  | .line => if c = '\n' then (.line, .code) else (.line, .line)
  | .opened => (.block, .block)
  | .block => if c = '*' ∧ next = some '/' then (.block, .closed) else (.block, .block)
  | .closed => (.block, .code)

/-- The characters of a text with what they are read as. -/
def lex (comments : Bool) (mode : Mode) : List Char → List (Mode × Char)
  | [] => []
  | c :: cs =>
      ((step comments mode c cs.head?).1, c) :: lex comments (step comments mode c cs.head?).2 cs

/-- A semicolon in the code. -/
def isSeparator (x : Mode × Char) : Bool := x.1 == .code && x.2 == ';'

/-- The place of the first separator. -/
def firstSeparator (comments : Bool) (mode : Mode) (text : List Char) : Option ℕ :=
  (lex comments mode text).findIdx? isSeparator

example : firstSeparator true .code "';' -- ;\n;".toList = some 9 := by decide

theorem lex_map_snd (comments : Bool) (mode : Mode) (text : List Char) :
    (lex comments mode text).map Prod.snd = text := by
  induction text generalizing mode with
  | nil => rfl
  | cons c cs ih => rw [lex, List.map_cons, ih]

theorem firstSeparator_cons (comments : Bool) (mode : Mode) (c : Char) (cs : List Char) :
    firstSeparator comments mode (c :: cs) =
      if (step comments mode c cs.head?).1 = .code ∧ c = ';' then some 0
      else (firstSeparator comments (step comments mode c cs.head?).2 cs).map (· + 1) := by
  unfold firstSeparator
  rw [lex, List.findIdx?_cons]
  by_cases h : (step comments mode c cs.head?).1 = .code ∧ c = ';'
  · have hsep : isSeparator ((step comments mode c cs.head?).1, c) = true := by
      unfold isSeparator
      rw [h.1, h.2]
      rfl
    rw [if_pos hsep, if_pos h]
  · have hsep : ¬isSeparator ((step comments mode c cs.head?).1, c) = true := by
      unfold isSeparator
      rw [Bool.and_eq_true, beq_iff_eq, beq_iff_eq]
      exact h
    rw [if_neg hsep, if_neg h]

/-- A separator is a semicolon of the text. -/
theorem firstSeparator_semicolon {comments : Bool} {mode : Mode} {text : List Char} {i : ℕ}
    (h : firstSeparator comments mode text = some i) : ∃ tail, text.drop i = ';' :: tail := by
  induction text generalizing mode i with
  | nil => cases h
  | cons c cs ih =>
      rw [firstSeparator_cons] at h
      split_ifs at h with hsep
      · cases h
        exact ⟨cs, by rw [List.drop_zero, hsep.2]⟩
      · obtain ⟨j, hj, rfl⟩ := Option.map_eq_some_iff.mp h
        exact ih hj

/-! ### Quiet comments -/

/-- No comment has a quote or a semicolon. -/
def QuietComments (text : List Char) : Prop :=
  ∀ x ∈ lex true .code text, x.1 = .line ∨ x.1 = .block → isQuote x.2 = false ∧ x.2 ≠ ';'

instance (text : List Char) : Decidable (QuietComments text) :=
  inferInstanceAs (Decidable (∀ x ∈ _, _))

/-- The modes of the two lexers at a place of a text with quiet comments. -/
inductive InStep : Mode → Mode → Prop
  | same {mode : Mode} (hline : mode ≠ .line) (hopened : mode ≠ .opened) (hblock : mode ≠ .block)
      (hclosed : mode ≠ .closed) : InStep mode mode
  | line : InStep .code .line
  | opened : InStep .code .opened
  | block : InStep .code .block
  | closed : InStep .code .closed

theorem InStep.code : InStep .code .code := .same nofun nofun nofun nofun

theorem InStep.quoted (quote : Char) : InStep (.quoted quote) (.quoted quote) := .same nofun nofun nofun nofun

/-- A character of a quiet comment is no more than a character of the code. -/
theorem step_quiet {c : Char} {next : Option Char} (hquote : isQuote c = false) :
    step false .code c next = (.code, .code) := by
  unfold step
  simp only
  rw [if_neg (by rw [hquote]; exact Bool.false_ne_true), if_neg (fun h => (nomatch h.1)),
    if_neg (fun h => (nomatch h.1))]

/-- Either both lexers read a separator, or none does, and they stay in step. -/
theorem inStep_step {mode other : Mode} (h : InStep mode other) {c : Char} {next : Option Char}
    (hquiet : (step true other c next).1 = .line ∨ (step true other c next).1 = .block →
      isQuote c = false ∧ c ≠ ';') :
    ((step false mode c next).1 = .code ∧ c = ';' ↔ (step true other c next).1 = .code ∧ c = ';') ∧
      InStep (step false mode c next).2 (step true other c next).2 := by
  cases h with
  | line =>
      have hlabel : (step true .line c next).1 = .line := by
        unfold step
        simp only
        split_ifs <;> rfl
      obtain ⟨hquote, hne⟩ := hquiet (.inl hlabel)
      rw [step_quiet hquote]
      refine ⟨iff_of_false (fun h => hne h.2) (fun h => hne h.2), ?_⟩
      unfold step
      simp only
      split_ifs
      · exact .code
      · exact .line
  | opened =>
      obtain ⟨hquote, hne⟩ := hquiet (.inr rfl)
      rw [step_quiet hquote]
      exact ⟨iff_of_false (fun h => hne h.2) (fun h => hne h.2), .block⟩
  | block =>
      have hlabel : (step true .block c next).1 = .block := by
        unfold step
        simp only
        split_ifs <;> rfl
      obtain ⟨hquote, hne⟩ := hquiet (.inr hlabel)
      rw [step_quiet hquote]
      refine ⟨iff_of_false (fun h => hne h.2) (fun h => hne h.2), ?_⟩
      unfold step
      simp only
      split_ifs
      · exact .closed
      · exact .block
  | closed =>
      obtain ⟨hquote, hne⟩ := hquiet (.inr rfl)
      rw [step_quiet hquote]
      exact ⟨iff_of_false (fun h => hne h.2) (fun h => hne h.2), .code⟩
  | same hline hopened hblock hclosed =>
      cases mode with
      | line => exact absurd rfl hline
      | opened => exact absurd rfl hopened
      | block => exact absurd rfl hblock
      | closed => exact absurd rfl hclosed
      | escaped quote => exact ⟨Iff.rfl, .quoted quote⟩
      | quoted quote =>
          refine ⟨Iff.rfl, ?_⟩
          unfold step
          simp only
          split_ifs
          · exact .same nofun nofun nofun nofun
          · exact .code
          · exact .quoted quote
      | code =>
          by_cases hquote : isQuote c = true
          · have hboth : ∀ b, step b .code c next = (.quoted c, .quoted c) := fun b => by
              unfold step
              simp only
              rw [if_pos hquote]
            rw [hboth, hboth]
            exact ⟨Iff.rfl, .quoted c⟩
          · rw [step_quiet (Bool.eq_false_iff.mpr hquote)]
            unfold step
            simp only
            rw [if_neg hquote]
            split_ifs with hdash hslash
            · exact ⟨iff_of_false (fun h => absurd (hdash.2.1.symm.trans h.2) (by decide)) (fun h => (nomatch h.1)),
                .line⟩
            · exact ⟨iff_of_false (fun h => absurd (hslash.2.1.symm.trans h.2) (by decide)) (fun h => (nomatch h.1)),
                .opened⟩
            · exact ⟨⟨fun h => ⟨rfl, h.2⟩, fun h => ⟨trivial, h.2⟩⟩, .code⟩

/-- Where no comment has a quote or a semicolon, comments need not be known to find the first separator. -/
theorem firstSeparator_quiet {text : List Char} (h : QuietComments text) :
    firstSeparator false .code text = firstSeparator true .code text := by
  have hmodes : ∀ {mode other : Mode}, InStep mode other →
      (∀ x ∈ lex true other text, x.1 = .line ∨ x.1 = .block → isQuote x.2 = false ∧ x.2 ≠ ';') →
      firstSeparator false mode text = firstSeparator true other text := by
    clear h
    induction text with
    | nil => exact fun _ _ => rfl
    | cons c cs ih =>
        intro mode other hstep hquiet
        rw [lex, List.forall_mem_cons] at hquiet
        obtain ⟨hsep, hnext⟩ := inStep_step hstep hquiet.1
        rw [firstSeparator_cons, firstSeparator_cons, ih hnext hquiet.2]
        exact if_congr hsep rfl rfl
  exact hmodes .code h

/-! ### What stands outside of quotes -/

/-- The characters of a text that are read as code. -/
def code (comments : Bool) (mode : Mode) (text : List Char) : List Char :=
  ((lex comments mode text).filter (·.1 == .code)).map Prod.snd

variable {comments : Bool}

theorem code_cons {mode next : Mode} {c : Char} {cs : List Char} {q : Char}
    (h : step comments mode c cs.head? = (.quoted q, next)) :
    code comments mode (c :: cs) = code comments next cs := by
  unfold code
  rw [lex, h]
  rfl

/-- Between quotes there is no code, where what is made of each character stays within them. -/
theorem code_quoted {q : Char} (hq : isQuote q = true) {piece : Char → List Char}
    (hpiece : ∀ c rest, code comments (.quoted q) (piece c ++ rest) = code comments (.quoted q) rest)
    (s rest : List Char) : code comments .code (q :: (s.flatMap piece ++ q :: rest)) = code comments .code rest := by
  have hopen : step comments .code q (s.flatMap piece ++ q :: rest).head? = (.quoted q, .quoted q) := if_pos hq
  rw [code_cons hopen]
  clear hopen
  induction s with
  | nil =>
      have hslash : ¬(q = '\\' ∧ q ≠ backquote) := by
        rintro ⟨rfl, -⟩
        cases hq
      refine code_cons (q := q) ?_
      simp [step, hslash]
  | cons c s ih => rw [List.flatMap_cons, List.append_assoc, hpiece, ih]

end SqlText
