import RecoveryService.Lib.Json

/-! # The text of a JSON value

`json.dumps(value, ensure_ascii=False, separators=(",", ":"))`.  Two values with one text are
equal (`dumps_injective`): a token ends at a comma or a closing bracket, and the text of a string
ends at its closing quote. -/

namespace Json

theorem induction {motive : Json → Prop} (null : motive .null) (bool : ∀ b, motive (.bool b))
    (num : ∀ n, motive (.num n)) (float : ∀ text, motive (.float text)) (str : ∀ s, motive (.str s))
    (arr : ∀ items, (∀ v ∈ items, motive v) → motive (.arr items))
    (obj : ∀ entries, (∀ e ∈ entries, motive e.2) → motive (.obj entries)) (v : Json) : motive v :=
  @Json.rec motive (fun items => ∀ v ∈ items, motive v) (fun entries => ∀ e ∈ entries, motive e.2)
    (fun e => motive e.2) null bool num float str arr obj
    (by simp) (fun _ _ h₁ h₂ => List.forall_mem_cons.mpr ⟨h₁, h₂⟩)
    (by simp) (fun _ _ h₁ h₂ => List.forall_mem_cons.mpr ⟨h₁, h₂⟩) (fun _ _ h => h) v

/-! ### Strings -/

def doubleQuote : Char := Char.ofNat 34

def backslash : Char := Char.ofNat 92

/-- The letter after the backslash for the characters with a short escape. -/
def shortEscape : ℕ → Option Char
  | 8 => some 'b'
  | 9 => some 't'
  | 10 => some 'n'
  | 12 => some 'f'
  | 13 => some 'r'
  | 34 => some doubleQuote
  | 92 => some backslash
  | _ => none

def hexDigit (n : ℕ) : Char := if n < 10 then Char.ofNat (48 + n) else Char.ofNat (87 + n)

def escape (c : Char) : List Char :=
  match shortEscape c.toNat with
  | some letter => [backslash, letter]
  | none =>
      if c.toNat < 32 then
        [backslash, 'u', '0', '0', hexDigit (c.toNat / 16), hexDigit (c.toNat % 16)]
      else [c]

def quoted (s : String) : List Char := doubleQuote :: (s.toList.flatMap escape ++ [doubleQuote])

/-- The character with a short escape. -/
def shortCode (letter : Char) : ℕ :=
  if letter = 'b' then 8 else if letter = 't' then 9 else if letter = 'n' then 10
  else if letter = 'f' then 12 else if letter = 'r' then 13 else letter.toNat

theorem shortCode_eq {n : ℕ} {letter : Char} (h : shortEscape n = some letter) :
    shortCode letter = n ∧ letter ≠ 'u' := by
  unfold shortEscape at h
  split at h
  case h_8 => exact nomatch h
  all_goals
    obtain rfl := Option.some.inj h
    decide

theorem hexDigit_inj : ∀ m < 16, ∀ n < 16, hexDigit m = hexDigit n → m = n := by decide

/-- The three forms of an escaped character. -/
theorem escape_cases (c : Char) :
    (∃ letter, shortEscape c.toNat = some letter ∧ escape c = [backslash, letter]) ∨ (c.toNat < 32 ∧ escape c =
      [backslash, 'u', '0', '0', hexDigit (c.toNat / 16), hexDigit (c.toNat % 16)]) ∨
    (c ≠ backslash ∧ c ≠ doubleQuote ∧ escape c = [c]) := by
  unfold escape
  cases h : shortEscape c.toNat with
  | some letter => exact .inl ⟨letter, rfl, rfl⟩
  | none =>
      by_cases h32 : c.toNat < 32
      · exact .inr (.inl ⟨h32, if_pos h32⟩)
      · refine .inr (.inr ⟨?_, ?_, if_neg h32⟩)
        · rintro rfl
          exact absurd h (by decide)
        · rintro rfl
          exact absurd h (by decide)

theorem toNat_inj {c d : Char} (h : c.toNat = d.toNat) : c = d := by
  rw [← Char.ofNat_toNat c, ← Char.ofNat_toNat d, h]

variable {s t : List Char}

/-- An escaped character can be told from what follows it. -/
theorem escape_append {c d : Char} (h : escape c ++ s = escape d ++ t) : c = d ∧ s = t := by
  rcases escape_cases c with ⟨l, hl, hc⟩ | ⟨hlt, hc⟩ | ⟨hb, -, hc⟩ <;>
    rcases escape_cases d with ⟨l', hl', hd⟩ | ⟨hlt', hd⟩ | ⟨hb', -, hd⟩ <;>
      simp only [hc, hd, List.cons_append, List.nil_append, List.cons.injEq, true_and] at h
  · obtain ⟨rfl, rfl⟩ := h
    exact ⟨toNat_inj ((shortCode_eq hl).1.symm.trans (shortCode_eq hl').1), rfl⟩
  · exact absurd h.1 (shortCode_eq hl).2
  · exact absurd h.1.symm hb'
  · exact absurd h.1.symm (shortCode_eq hl').2
  · obtain ⟨h₁, h₂, rfl⟩ := h
    have e₁ := hexDigit_inj _ (by omega) _ (by omega) h₁
    have e₂ := hexDigit_inj _ (by omega) _ (by omega) h₂
    exact ⟨toNat_inj (by omega), rfl⟩
  · exact absurd h.1.symm hb'
  · exact absurd h.1 hb
  · exact absurd h.1 hb
  · exact h

/-- An escaped character does not start with a quote. -/
theorem escape_ne_quote (c : Char) (s t : List Char) : escape c ++ s ≠ doubleQuote :: t := by
  intro h
  rcases escape_cases c with ⟨l, -, hc⟩ | ⟨-, hc⟩ | ⟨-, hq, hc⟩ <;>
    simp only [hc, List.cons_append, List.nil_append, List.cons.injEq] at h
  · exact absurd h.1 (by decide)
  · exact absurd h.1 (by decide)
  · exact absurd h.1 hq

theorem escapes_append {a b : List Char}
    (h : a.flatMap escape ++ doubleQuote :: s = b.flatMap escape ++ doubleQuote :: t) : a = b ∧ s = t := by
  induction a generalizing b with
  | nil =>
      cases b with
      | nil => exact ⟨rfl, List.tail_eq_of_cons_eq h⟩
      | cons d b =>
          rw [List.flatMap_cons, List.append_assoc] at h
          exact absurd h.symm (escape_ne_quote d _ _)
  | cons c a ih =>
      cases b with
      | nil =>
          rw [List.flatMap_cons, List.append_assoc] at h
          exact absurd h (escape_ne_quote c _ _)
      | cons d b =>
          rw [List.flatMap_cons, List.flatMap_cons, List.append_assoc, List.append_assoc] at h
          obtain ⟨rfl, hrest⟩ := escape_append h
          obtain ⟨rfl, rfl⟩ := ih hrest
          exact ⟨rfl, rfl⟩

theorem quoted_append {a b : String} (h : quoted a ++ s = quoted b ++ t) : a = b ∧ s = t := by
  simp only [quoted, List.cons_append, List.append_assoc, List.nil_append] at h
  obtain ⟨hchars, rfl⟩ := escapes_append (List.tail_eq_of_cons_eq h)
  exact ⟨String.toList_injective hchars, rfl⟩

/-! ### Values -/

def openBrace : Char := Char.ofNat 123

def closeBrace : Char := Char.ofNat 125

mutual
/-- The text of a value. -/
def text : Json → List Char
  | null => "null".toList
  | bool b => if b then "true".toList else "false".toList
  | num n => n.repr.toList
  | float t => t.toList
  | str s => quoted s
  | arr [] => ['[', ']']
  | arr (v :: items) => '[' :: (text v ++ itemsText items)
  | obj [] => [openBrace, closeBrace]
  | obj ((k, v) :: entries) => openBrace :: (quoted k ++ ':' :: (text v ++ entriesText entries))

/-- What follows an item of a list. -/
def itemsText : List Json → List Char
  | [] => [']']
  | v :: items => ',' :: (text v ++ itemsText items)

/-- What follows an entry of a dictionary. -/
def entriesText : List (String × Json) → List Char
  | [] => [closeBrace]
  | (k, v) :: entries => ',' :: (quoted k ++ ':' :: (text v ++ entriesText entries))
end

def dumps (value : Json) : String := String.ofList (text value)

/-! ### Numbers -/

def isNumberChar (c : Char) : Bool :=
  c.isDigit || c = '-' || c = '+' || c = '.' || c = 'e'

/-- The text Python prints for a finite float: a point or an exponent tells it from an integer. -/
def isFloatText (t : String) : Bool :=
  t.toList.all isNumberChar && t.toList.any (fun c => c = '.' || c = 'e')

mutual
/-- The floats of a value are kept as their texts. -/
def floatsPrinted : Json → Bool
  | float t => isFloatText t
  | arr items => itemsPrinted items
  | obj entries => entriesPrinted entries
  | _ => true

def itemsPrinted : List Json → Bool
  | [] => true
  | v :: items => floatsPrinted v && itemsPrinted items

def entriesPrinted : List (String × Json) → Bool
  | [] => true
  | (_, v) :: entries => floatsPrinted v && entriesPrinted entries
end

theorem itemsPrinted_iff (items : List Json) :
    itemsPrinted items = true ↔ ∀ v ∈ items, v.floatsPrinted = true := by
  induction items with
  | nil => simp [itemsPrinted]
  | cons v items ih => simp [itemsPrinted, ih]

theorem entriesPrinted_iff (entries : List (String × Json)) :
    entriesPrinted entries = true ↔ ∀ e ∈ entries, e.2.floatsPrinted = true := by
  induction entries with
  | nil => simp [entriesPrinted]
  | cons e entries ih => simp [entriesPrinted, ih]

theorem repr_chars (n : ℤ) : ∀ c ∈ n.repr.toList, c.isDigit = true ∨ c = '-' := by
  have hnat : ∀ m : ℕ, ∀ c ∈ m.repr.toList, c.isDigit = true := by
    intro m c hc
    rw [Nat.toList_repr] at hc
    exact Nat.isDigit_of_mem_toDigits (by decide) (by decide) hc
  intro c hc
  cases n with
  | ofNat m => exact .inl (hnat m c hc)
  | negSucc m =>
      rw [Int.repr, String.toList_append] at hc
      rcases List.mem_append.mp hc with h | h
      · exact .inr (by simpa using h)
      · exact .inl (hnat _ c h)

/-- The text goes on with something other than a number. -/
def Ends (s : List Char) : Prop := ∀ c ∈ s.head?, isNumberChar c = false

/-- A number ends where its characters do. -/
theorem number_append {a b : List Char} (ha : ∀ c ∈ a, isNumberChar c = true)
    (hb : ∀ c ∈ b, isNumberChar c = true) (hs : Ends s) (ht : Ends t) (h : a ++ s = b ++ t) :
    a = b ∧ s = t := by
  induction a generalizing b with
  | nil =>
      cases b with
      | nil => exact ⟨rfl, h⟩
      | cons d b =>
          obtain rfl : s = d :: (b ++ t) := h
          exact absurd (hb d (.head _)) (by rw [hs d rfl]; decide)
  | cons c a ih =>
      cases b with
      | nil =>
          obtain rfl : t = c :: (a ++ s) := h.symm
          exact absurd (ha c (.head _)) (by rw [ht c rfl]; decide)
      | cons d b =>
          obtain ⟨rfl, hrest⟩ := List.cons.inj h
          obtain ⟨rfl, rfl⟩ := ih (fun c hc => ha c (.tail _ hc)) (fun c hc => hb c (.tail _ hc)) hrest
          exact ⟨rfl, rfl⟩

/-- The text of a number. -/
def IsNumber (v : Json) : Prop := ∀ c ∈ text v, isNumberChar c = true

theorem isNumber_num (n : ℤ) : IsNumber (.num n) := by
  intro c hc
  have hc' := repr_chars n c (by simpa only [text] using hc)
  simp only [isNumberChar, Bool.or_eq_true, decide_eq_true_eq]
  tauto

theorem isNumber_float {t : String} (h : isFloatText t = true) : IsNumber (.float t) := by
  intro c hc
  rw [isFloatText, Bool.and_eq_true, List.all_eq_true] at h
  exact h.1 c (by simpa only [text] using hc)

/-- An integer is not printed as a float. -/
theorem repr_ne_float {n : ℤ} {t : String} (h : isFloatText t = true) : n.repr.toList ≠ t.toList := by
  intro heq
  rw [isFloatText, Bool.and_eq_true, List.any_eq_true] at h
  obtain ⟨-, c, hc, hpoint⟩ := h
  rcases repr_chars n c (heq ▸ hc) with hdigit | rfl
  · rw [Bool.or_eq_true, decide_eq_true_eq, decide_eq_true_eq] at hpoint
    rcases hpoint with rfl | rfl <;> exact absurd hdigit (by decide)
  · exact absurd hpoint (by decide)

/-! ### Two values with one text -/

/-- What the first character of a text says about the value. -/
def startKind (c : Char) : ℕ :=
  if isNumberChar c then 0 else if c = 'n' then 1 else if c = 't' then 2 else if c = 'f' then 3
  else if c = doubleQuote then 4 else if c = '[' then 5 else if c = openBrace then 6 else 7

def kind : Json → ℕ
  | num _ => 0
  | float _ => 0
  | null => 1
  | bool true => 2
  | bool false => 3
  | str _ => 4
  | arr _ => 5
  | obj _ => 6

theorem kind_lt (v : Json) : kind v < 7 := by
  rcases v with _ | (_ | _) | _ | _ | _ | _ | _ <;> simp [kind]

variable {v : Json}

theorem number_start (hv : IsNumber v) (hne : text v ≠ []) :
    ∃ c rest, text v = c :: rest ∧ startKind c = 0 := by
  obtain ⟨c, rest, htext⟩ := List.exists_cons_of_ne_nil hne
  exact ⟨c, rest, htext, if_pos (hv c (htext ▸ .head _))⟩

theorem repr_ne_nil (n : ℤ) : n.repr.toList ≠ [] := by
  cases n with
  | ofNat m =>
      show m.repr.toList ≠ []
      rw [Nat.toList_repr, ← List.length_pos_iff]
      exact Nat.length_toDigits_pos
  | negSucc m =>
      rw [Int.repr, String.toList_append]
      exact nofun

theorem text_start (h : v.floatsPrinted = true) : ∃ c rest, text v = c :: rest ∧ startKind c = kind v := by
  cases v with
  | null | str s => exact ⟨_, _, rfl, rfl⟩
  | bool b => cases b <;> exact ⟨_, _, rfl, rfl⟩
  | num n => exact number_start (isNumber_num n) (by rw [text]; exact repr_ne_nil n)
  | float t =>
      rw [floatsPrinted] at h
      refine number_start (isNumber_float h) ?_
      rw [text]
      intro hnil
      rw [isFloatText, hnil] at h
      exact absurd h (by decide)
  | arr items => cases items <;> exact ⟨_, _, by rw [text], rfl⟩
  | obj entries =>
      rcases entries with _ | ⟨⟨k, v⟩, entries⟩
      · exact ⟨_, _, by rw [text], rfl⟩
      · exact ⟨_, _, by rw [text], rfl⟩

theorem kind_eq {w : Json} (hv : v.floatsPrinted = true) (hw : w.floatsPrinted = true)
    (h : text v ++ s = text w ++ t) : kind v = kind w := by
  obtain ⟨c, rest, htext, hkind⟩ := text_start hv
  obtain ⟨d, rest', htext', hkind'⟩ := text_start hw
  rw [htext, htext'] at h
  rw [← hkind, ← hkind', (List.cons.inj h).1]

theorem ends_itemsText (items : List Json) (s : List Char) : Ends (itemsText items ++ s) := by
  cases items <;> rintro c ⟨⟩ <;> decide

theorem ends_entriesText (entries : List (String × Json)) (s : List Char) :
    Ends (entriesText entries ++ s) := by
  rcases entries with _ | ⟨⟨k, v⟩, entries⟩ <;> rintro c ⟨⟩ <;> decide

/-- The text of the value can be told from what follows it. -/
def Delimited (v : Json) : Prop :=
  ∀ w s t, v.floatsPrinted = true → w.floatsPrinted = true → Ends s → Ends t →
    text v ++ s = text w ++ t → v = w ∧ s = t

theorem itemsText_append {items items' : List Json} (ih : ∀ v ∈ items, Delimited v)
    (hv : itemsPrinted items = true) (hw : itemsPrinted items' = true)
    (h : itemsText items ++ s = itemsText items' ++ t) : items = items' ∧ s = t := by
  induction items generalizing items' with
  | nil =>
      cases items' with
      | nil => exact ⟨rfl, List.tail_eq_of_cons_eq h⟩
      | cons w items' => exact absurd (List.head_eq_of_cons_eq h) (by decide)
  | cons v items hind =>
      cases items' with
      | nil => exact absurd (List.head_eq_of_cons_eq h) (by decide)
      | cons w items' =>
          rw [itemsPrinted, Bool.and_eq_true] at hv hw
          simp only [itemsText, List.cons_append, List.append_assoc] at h
          obtain ⟨rfl, hrest⟩ := ih v (.head _) w _ _ hv.1 hw.1 (ends_itemsText _ _)
            (ends_itemsText _ _) (List.tail_eq_of_cons_eq h)
          obtain ⟨rfl, rfl⟩ := hind (fun v hv => ih v (.tail _ hv)) hv.2 hw.2 hrest
          exact ⟨rfl, rfl⟩

variable {entries entries' : List (String × Json)}

theorem entriesText_append (ih : ∀ e ∈ entries, Delimited e.2) (hv : entriesPrinted entries = true)
    (hw : entriesPrinted entries' = true) (h : entriesText entries ++ s = entriesText entries' ++ t) :
    entries = entries' ∧ s = t := by
  induction entries generalizing entries' with
  | nil =>
      cases entries' with
      | nil => exact ⟨rfl, List.tail_eq_of_cons_eq h⟩
      | cons e entries' => exact absurd (List.head_eq_of_cons_eq h) (by decide)
  | cons e entries hind =>
      cases entries' with
      | nil => exact absurd (List.head_eq_of_cons_eq h) (by decide)
      | cons e' entries' =>
          rw [entriesPrinted, Bool.and_eq_true] at hv hw
          simp only [entriesText, List.cons_append, List.append_assoc] at h
          obtain ⟨hkey, hvalue⟩ := quoted_append (List.tail_eq_of_cons_eq h)
          obtain ⟨hval, hrest⟩ := ih e (.head _) e'.2 _ _ hv.1 hw.1 (ends_entriesText _ _)
            (ends_entriesText _ _) (List.tail_eq_of_cons_eq hvalue)
          obtain ⟨rfl, rfl⟩ := hind (fun e he => ih e (.tail _ he)) hv.2 hw.2 hrest
          exact ⟨by rw [Prod.ext hkey hval], rfl⟩

theorem text_ne_close (hv : v.floatsPrinted = true) : text v ++ s ≠ ']' :: t := by
  intro h
  obtain ⟨c, rest, htext, hkind⟩ := text_start hv
  rw [htext] at h
  rw [List.head_eq_of_cons_eq h] at hkind
  have hclose : startKind ']' = 7 := by decide
  have hlt := kind_lt v
  omega

theorem arr_append {items items' : List Json} (ih : ∀ v ∈ items, Delimited v) (hv : itemsPrinted items = true)
    (hw : itemsPrinted items' = true) (h : text (.arr items) ++ s = text (.arr items') ++ t) :
    items = items' ∧ s = t := by
  cases items with
  | nil =>
      cases items' with
      | nil => exact ⟨rfl, List.append_cancel_left h⟩
      | cons w items' =>
          rw [itemsPrinted, Bool.and_eq_true] at hw
          simp only [text, List.cons_append, List.append_assoc] at h
          exact absurd (List.tail_eq_of_cons_eq h).symm (text_ne_close hw.1)
  | cons v items =>
      cases items' with
      | nil =>
          rw [itemsPrinted, Bool.and_eq_true] at hv
          simp only [text, List.cons_append, List.append_assoc] at h
          exact absurd (List.tail_eq_of_cons_eq h) (text_ne_close hv.1)
      | cons w items' =>
          have htail : itemsText (v :: items) ++ s = itemsText (w :: items') ++ t := by
            rw [text, text] at h
            exact congrArg (',' :: ·) (List.tail_eq_of_cons_eq h)
          exact itemsText_append ih hv hw htail

theorem obj_append (ih : ∀ e ∈ entries, Delimited e.2) (hv : entriesPrinted entries = true)
    (hw : entriesPrinted entries' = true) (h : text (.obj entries) ++ s = text (.obj entries') ++ t) :
    entries = entries' ∧ s = t := by
  cases entries with
  | nil =>
      cases entries' with
      | nil => exact ⟨rfl, List.append_cancel_left h⟩
      | cons e entries' =>
          have hquote := List.head_eq_of_cons_eq (List.tail_eq_of_cons_eq h)
          exact absurd hquote (by decide)
  | cons e entries =>
      cases entries' with
      | nil =>
          have hquote := List.head_eq_of_cons_eq (List.tail_eq_of_cons_eq h)
          exact absurd hquote (by decide)
      | cons e' entries' =>
          have htail : entriesText (e :: entries) ++ s = entriesText (e' :: entries') ++ t := by
            rw [text, text] at h
            exact congrArg (',' :: ·) (List.tail_eq_of_cons_eq h)
          exact entriesText_append ih hv hw htail

theorem delimited (v : Json) : Delimited v := by
  induction v using Json.induction with
  | null =>
      intro w s t hv hw hs ht h
      have hkind := kind_eq hv hw h
      rcases w with _ | (_ | _) | _ | _ | _ | _ | _ <;> simp [kind] at hkind
      exact ⟨rfl, List.append_cancel_left h⟩
  | bool b =>
      intro w s t hv hw hs ht h
      have hkind := kind_eq hv hw h
      cases b <;> rcases w with _ | (_ | _) | _ | _ | _ | _ | _ <;> simp [kind] at hkind
      · exact ⟨rfl, List.append_cancel_left h⟩
      · exact ⟨rfl, List.append_cancel_left h⟩
  | num n =>
      intro w s t hv hw hs ht h
      have hkind := kind_eq hv hw h
      rcases w with _ | (_ | _) | m | u | _ | _ | _ <;> simp [kind] at hkind
      · obtain ⟨htext, rfl⟩ := number_append (isNumber_num n) (isNumber_num m) hs ht h
        rw [text, text] at htext
        exact ⟨congrArg num (Int.repr_injective (String.toList_injective htext)), rfl⟩
      · have htext := (number_append (isNumber_num n) (isNumber_float hw) hs ht h).1
        rw [text, text] at htext
        exact absurd htext (repr_ne_float hw)
  | float u =>
      intro w s t hv hw hs ht h
      have hkind := kind_eq hv hw h
      rcases w with _ | (_ | _) | m | u' | _ | _ | _ <;> simp [kind] at hkind
      · have htext := (number_append (isNumber_float hv) (isNumber_num m) hs ht h).1
        rw [text, text] at htext
        exact absurd htext.symm (repr_ne_float hv)
      · obtain ⟨htext, rfl⟩ := number_append (isNumber_float hv) (isNumber_float hw) hs ht h
        rw [text, text] at htext
        exact ⟨congrArg float (String.toList_injective htext), rfl⟩
  | str a =>
      intro w s t hv hw hs ht h
      have hkind := kind_eq hv hw h
      rcases w with _ | (_ | _) | _ | _ | b | _ | _ <;> simp [kind] at hkind
      rw [text, text] at h
      obtain ⟨rfl, rfl⟩ := quoted_append h
      exact ⟨rfl, rfl⟩
  | arr items ih =>
      intro w s t hv hw hs ht h
      have hkind := kind_eq hv hw h
      rcases w with _ | (_ | _) | _ | _ | _ | items' | _ <;> simp [kind] at hkind
      obtain ⟨rfl, rfl⟩ := arr_append ih hv hw h
      exact ⟨rfl, rfl⟩
  | obj entries ih =>
      intro w s t hv hw hs ht h
      have hkind := kind_eq hv hw h
      rcases w with _ | (_ | _) | _ | _ | _ | _ | entries' <;> simp [kind] at hkind
      obtain ⟨rfl, rfl⟩ := obj_append ih hv hw h
      exact ⟨rfl, rfl⟩

theorem dumps_injective {w : Json} (hv : v.floatsPrinted = true) (hw : w.floatsPrinted = true)
    (h : dumps v = dumps w) : v = w := by
  have htext : text v ++ [] = text w ++ [] := congrArg (· ++ []) (String.ofList_injective h)
  exact (delimited v w [] [] hv hw nofun nofun htext).1

example : dumps (.obj [("sql", .str "a\tb"), ("limit", .num (-5)), ("on", .arr [.bool true, .null])]) =
    "\x7b\"sql\":\"a\\tb\",\"limit\":-5,\"on\":[true,null]\x7d" := by decide

end Json
