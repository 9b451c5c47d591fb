import RecoveryService.Lib.SqlText
import RecoveryService.Lib.Text

/-! # One statement

`_normalize_single_statement` of `services/doris_sql_etl.py` looks for the first semicolon outside
quotes, with four flags.  The flags are a lexer that knows no comments (`semicolonAt_eq`). -/

namespace RecoveryService.DorisSqlEtl

open SqlText Text

/-! ### The scanner -/

structure Flags where
  inSingle : Bool := false
  inDouble : Bool := false
  inBacktick : Bool := false
  escape : Bool := false

/-- The loop of `_normalize_single_statement`: `semicolon_at`, counted from here. -/
def semicolonAt (flags : Flags) : List Char → Option ℕ
  | [] => none
  | char :: rest =>
      if flags.escape then (semicolonAt { flags with escape := false } rest).map (· + 1)
      else if char = '\\' ∧ (flags.inSingle ∨ flags.inDouble) then
        (semicolonAt { flags with escape := true } rest).map (· + 1)
      else if char = singleQuote ∧ ¬flags.inDouble ∧ ¬flags.inBacktick then
        (semicolonAt { flags with inSingle := !flags.inSingle } rest).map (· + 1)
      else if char = doubleQuote ∧ ¬flags.inSingle ∧ ¬flags.inBacktick then
        (semicolonAt { flags with inDouble := !flags.inDouble } rest).map (· + 1)
      else if char = backquote ∧ ¬flags.inSingle ∧ ¬flags.inDouble then
        (semicolonAt { flags with inBacktick := !flags.inBacktick } rest).map (· + 1)
      else if char = ';' ∧ ¬flags.inSingle ∧ ¬flags.inDouble ∧ ¬flags.inBacktick then some 0
      else (semicolonAt flags rest).map (· + 1)

/-- `_normalize_single_statement`; the `ValueError` has one text. -/
def normalizeSingleStatement (sql : List Char) : Except String (List Char) :=
  let text := stripChars isSpace sql
  if text = [] then .ok []
  else
    match semicolonAt {} text with
    | none => .ok text
    | some i =>
        if stripChars isSpace (text.drop (i + 1)) ≠ [] then
          .error "Doris SQL 工作台只允许执行单条 SQL，不能提交多语句。"
        else .ok (stripChars isSpace (text.take i))

/-! ### What a statement is -/

/-- A text is one statement: it has no separator, or one that only blanks follow. -/
inductive OneStatement (text : List Char) : List Char → Prop
  | bare (h : firstSeparator true .code text = none) : OneStatement text text
  | closed {i : ℕ} (h : firstSeparator true .code text = some i)
      (hblank : stripChars isSpace (text.drop (i + 1)) = []) : OneStatement text (text.take i)

/-- The function accepts what is one statement, and gives it without the semicolon. -/
def Meets (sql : List Char) : Prop :=
  ∀ result, normalizeSingleStatement sql = .ok result ↔
    ∃ statement, OneStatement (stripChars isSpace sql) statement ∧ result = stripChars isSpace statement

/-- With the comments read as code the first separator is the same, or the text is refused in both readings. -/
def CommentsHarmless (text : List Char) : Prop :=
  firstSeparator false .code text = firstSeparator true .code text ∨
    ∃ i j, firstSeparator false .code text = some i ∧ firstSeparator true .code text = some j ∧
      stripChars isSpace (text.drop (i + 1)) ≠ [] ∧ stripChars isSpace (text.drop (j + 1)) ≠ []

/-! ### The flags are a lexer -/

/-- The flags in a mode. -/
inductive Reads : Flags → Mode → Prop
  | code : Reads {} .code
  | single : Reads { inSingle := true } (.quoted singleQuote)
  | double : Reads { inDouble := true } (.quoted doubleQuote)
  | backtick : Reads { inBacktick := true } (.quoted backquote)
  | singleEscaped : Reads { inSingle := true, escape := true } (.escaped singleQuote)
  | doubleEscaped : Reads { inDouble := true, escape := true } (.escaped doubleQuote)

theorem not_quote {c : Char} (hs : c ≠ singleQuote) (hd : c ≠ doubleQuote) (hb : c ≠ backquote) :
    ¬isQuote c = true := by
  unfold isQuote
  rw [Bool.or_eq_true, Bool.or_eq_true, beq_iff_eq, beq_iff_eq, beq_iff_eq]
  rintro ((h | h) | h)
  · exact hs h
  · exact hd h
  · exact hb h

/-- A separator ends the loop, and another character leads to the flags of the next mode. -/
structure Follows (flags : Flags) (mode : Mode) (c : Char) (next : Option Char) (flags' : Flags) : Prop where
  reads : Reads flags' (step false mode c next).2
  semicolonAt : ∀ rest, semicolonAt flags (c :: rest) =
    if (step false mode c next).1 = .code ∧ c = ';' then some 0 else (semicolonAt flags' rest).map (· + 1)

/-- Outside of quotes. -/
theorem follows_code (c : Char) (next : Option Char) : ∃ flags', Follows {} .code c next flags' := by
  by_cases hs : c = singleQuote
  · subst hs
    exact ⟨_, Reads.single, fun rest => rfl⟩
  by_cases hd : c = doubleQuote
  · subst hd
    exact ⟨_, Reads.double, fun rest => rfl⟩
  by_cases hb : c = backquote
  · subst hb
    exact ⟨_, Reads.backtick, fun rest => rfl⟩
  have hstep : step false .code c next = (.code, .code) :=
    step_quiet (Bool.eq_false_iff.mpr (not_quote hs hd hb))
  refine ⟨{}, hstep ▸ .code, fun rest => ?_⟩
  have hflags : semicolonAt {} (c :: rest) = if c = ';' then some 0 else (semicolonAt {} rest).map (· + 1) := by
    rw [semicolonAt]
    simp only [Bool.false_eq_true, or_self, and_false, not_false_eq_true, and_true, if_false, if_neg hs, if_neg hd,
      if_neg hb]
  rw [hflags, hstep]
  exact if_congr ⟨fun h => ⟨rfl, h⟩, fun h => h.2⟩ rfl rfl

/-- In a quoted text. -/
theorem follows_quoted {flags : Flags} {quote : Char} (h : Reads flags (.quoted quote)) (c : Char)
    (next : Option Char) : ∃ flags', Follows flags (.quoted quote) c next flags' := by
  have hstay : c ≠ quote → ¬(c = '\\' ∧ quote ≠ backquote) →
      step false (.quoted quote) c next = (.quoted quote, .quoted quote) := by
    intro hquote hescape
    unfold step
    simp only
    rw [if_neg hescape, if_neg hquote]
  by_cases hquote : c = quote
  · subst hquote
    cases h with
    | single | double | backtick => exact ⟨_, Reads.code, fun rest => rfl⟩
  by_cases hescape : c = '\\'
  · subst hescape
    cases h with
    | single => exact ⟨_, Reads.singleEscaped, fun rest => rfl⟩
    | double => exact ⟨_, Reads.doubleEscaped, fun rest => rfl⟩
    | backtick => exact ⟨_, Reads.backtick, fun rest => rfl⟩
  · have hstep := hstay hquote fun hboth => hescape hboth.1
    refine ⟨flags, hstep ▸ h, fun rest => ?_⟩
    have hflags : semicolonAt flags (c :: rest) = (semicolonAt flags rest).map (· + 1) := by
      rw [semicolonAt]
      cases h <;> simp [hquote, hescape]
    rw [hflags, hstep, if_neg fun hcode => (nomatch hcode.1)]

theorem follows {flags : Flags} {mode : Mode} (h : Reads flags mode) (c : Char) (next : Option Char) :
    ∃ flags', Follows flags mode c next flags' := by
  cases h with
  | code => exact follows_code c next
  | single => exact follows_quoted .single c next
  | double => exact follows_quoted .double c next
  | backtick => exact follows_quoted .backtick c next
  | singleEscaped => exact ⟨_, .single, fun rest => rfl⟩
  | doubleEscaped => exact ⟨_, .double, fun rest => rfl⟩

/-- The scanner is the lexer without comments. -/
theorem semicolonAt_eq {flags : Flags} {mode : Mode} (h : Reads flags mode) (text : List Char) :
    semicolonAt flags text = firstSeparator false mode text := by
  induction text generalizing flags mode with
  | nil => rfl
  | cons c cs ih =>
      obtain ⟨flags', hfollows⟩ := follows h c cs.head?
      rw [hfollows.semicolonAt, firstSeparator_cons, ih hfollows.reads]

/-! ### The result -/

/-- The statement of a text with its first separator at `i`. -/
def statementAt (text : List Char) : Option ℕ → Option (List Char)
  | none => some text
  | some i =>
      if stripChars isSpace (text.drop (i + 1)) ≠ [] then none else some (stripChars isSpace (text.take i))

theorem normalizeSingleStatement_ok {sql result : List Char} : normalizeSingleStatement sql = .ok result ↔
    statementAt (stripChars isSpace sql) (firstSeparator false .code (stripChars isSpace sql)) = some result := by
  unfold normalizeSingleStatement
  simp only
  generalize stripChars isSpace sql = text
  rw [semicolonAt_eq .code]
  by_cases hnil : text = []
  · rw [if_pos hnil, hnil]
    exact ⟨fun h => congrArg some (Except.ok.inj h), fun h => congrArg Except.ok (Option.some.inj h)⟩
  · rw [if_neg hnil]
    cases firstSeparator false .code text with
    | none => exact ⟨fun h => congrArg some (Except.ok.inj h), fun h => congrArg Except.ok (Option.some.inj h)⟩
    | some i =>
        simp only [statementAt]
        split_ifs with htail
        · exact iff_of_false (fun h => nomatch h) fun h => nomatch h
        · exact ⟨fun h => congrArg some (Except.ok.inj h), fun h => congrArg Except.ok (Option.some.inj h)⟩

variable {text : List Char}

theorem exists_oneStatement_iff {result : List Char} (hstrip : stripChars isSpace text = text) :
    (∃ statement, OneStatement text statement ∧ result = stripChars isSpace statement) ↔
      statementAt text (firstSeparator true .code text) = some result := by
  constructor
  · rintro ⟨statement, hone | ⟨hsome, hblank⟩, rfl⟩
    · rw [hone, hstrip]
      rfl
    · rw [hsome, statementAt, if_neg (not_not_intro hblank)]
  · intro h
    cases hfirst : firstSeparator true .code text with
    | none =>
        rw [hfirst] at h
        exact ⟨text, .bare hfirst, (Option.some.inj h).symm.trans hstrip.symm⟩
    | some i =>
        rw [hfirst, statementAt] at h
        split_ifs at h with hblank
        exact ⟨_, .closed hfirst (not_not.mp hblank), (Option.some.inj h).symm⟩

/-- A text without its separator is shorter. -/
theorem strip_take_ne {comments : Bool} {i : ℕ} (h : firstSeparator comments .code text = some i) :
    stripChars isSpace (text.take i) ≠ text := by
  obtain ⟨tail, htail⟩ := firstSeparator_semicolon h
  intro heq
  have hlt : i < text.length := by
    by_contra hge
    rw [List.drop_eq_nil_of_le (Nat.not_lt.mp hge)] at htail
    cases htail
  have hle : (stripChars isSpace (text.take i)).length ≤ (text.take i).length :=
    (infix_of_infix_stripChars (List.infix_refl _)).length_le
  rw [heq, List.length_take] at hle
  omega

/-- Behind the first of two semicolons there is something. -/
theorem strip_drop_ne {comments : Bool} {i j : ℕ} (hij : i < j)
    (h : firstSeparator comments .code text = some j) : stripChars isSpace (text.drop (i + 1)) ≠ [] := by
  obtain ⟨tail, htail⟩ := firstSeparator_semicolon h
  intro hnil
  have hmem : ';' ∈ text.drop (i + 1) := by
    have hdrop : (text.drop (i + 1)).drop (j - (i + 1)) = ';' :: tail := by
      rw [List.drop_drop, Nat.add_sub_cancel' hij, htail]
    exact List.mem_of_mem_drop (hdrop ▸ List.mem_cons_self)
  exact absurd (stripChars_eq_nil_iff.mp hnil ';' hmem) (by decide)

/-- Two readings give the same statement where the first separators are the same, or something is behind both. -/
theorem statementAt_eq_iff {a b : Bool} :
    statementAt text (firstSeparator a .code text) = statementAt text (firstSeparator b .code text) ↔
      firstSeparator a .code text = firstSeparator b .code text ∨
        ∃ i j, firstSeparator a .code text = some i ∧ firstSeparator b .code text = some j ∧
          stripChars isSpace (text.drop (i + 1)) ≠ [] ∧ stripChars isSpace (text.drop (j + 1)) ≠ [] := by
  have hshorter : ∀ {c : Bool} {i : ℕ}, firstSeparator c .code text = some i →
      statementAt text (some i) ≠ some text := by
    intro c i h heq
    rw [statementAt] at heq
    split_ifs at heq
    exact strip_take_ne h (Option.some.inj heq)
  constructor
  · intro heq
    cases hi : firstSeparator a .code text with
    | none =>
        cases hj : firstSeparator b .code text with
        | none => exact .inl rfl
        | some j =>
            rw [hi, hj] at heq
            exact absurd heq.symm (hshorter hj)
    | some i =>
        cases hj : firstSeparator b .code text with
        | none =>
            rw [hi, hj] at heq
            exact absurd heq (hshorter hi)
        | some j =>
            rw [hi, hj, statementAt, statementAt] at heq
            rcases Nat.lt_trichotomy i j with hij | rfl | hji
            · have htail := strip_drop_ne hij hj
              rw [if_pos htail] at heq
              refine .inr ⟨i, j, rfl, rfl, htail, fun hblank => ?_⟩
              rw [if_neg (not_not_intro hblank)] at heq
              cases heq
            · exact .inl rfl
            · have htail := strip_drop_ne hji hi
              rw [if_pos htail] at heq
              refine .inr ⟨i, j, rfl, rfl, fun hblank => ?_, htail⟩
              rw [if_neg (not_not_intro hblank)] at heq
              cases heq
  · rintro (heq | ⟨i, j, hi, hj, htail, htail'⟩)
    · rw [heq]
    · rw [hi, hj, statementAt, statementAt, if_pos htail, if_pos htail']

/-- The function accepts exactly the single statements where the comments do no harm, and they do none where they
have neither quotes nor semicolons. -/
theorem normalizeSingleStatement_iff (sql : List Char) :
    (Meets sql ↔ CommentsHarmless (stripChars isSpace sql)) ∧
      (QuietComments (stripChars isSpace sql) → CommentsHarmless (stripChars isSpace sql)) := by
  refine ⟨?_, fun h => .inl (firstSeparator_quiet h)⟩
  have hmeets : Meets sql ↔
      statementAt (stripChars isSpace sql) (firstSeparator false .code (stripChars isSpace sql)) =
        statementAt (stripChars isSpace sql) (firstSeparator true .code (stripChars isSpace sql)) := by
    unfold Meets
    constructor
    · intro h
      refine Option.ext fun result => ?_
      rw [← normalizeSingleStatement_ok, h, exists_oneStatement_iff (stripChars_stripChars _ _)]
    · intro heq result
      rw [normalizeSingleStatement_ok, heq, exists_oneStatement_iff (stripChars_stripChars _ _)]
  exact hmeets.trans statementAt_eq_iff

/-- A quote in a comment hides the semicolon behind it, and a semicolon in a comment separates. -/
theorem comments_read_as_code :
    (normalizeSingleStatement "SELECT 1 -- it's\n; DROP TABLE t".toList =
        .ok "SELECT 1 -- it's\n; DROP TABLE t".toList ∧
      ¬Meets "SELECT 1 -- it's\n; DROP TABLE t".toList) ∧
    normalizeSingleStatement "SELECT 1 /* a;b */".toList =
        .error "Doris SQL 工作台只允许执行单条 SQL，不能提交多语句。" ∧
      ¬Meets "SELECT 1 /* a;b */".toList := by
  have haccepted : normalizeSingleStatement "SELECT 1 -- it's\n; DROP TABLE t".toList =
      .ok "SELECT 1 -- it's\n; DROP TABLE t".toList := by decide +kernel
  have hrefused : normalizeSingleStatement "SELECT 1 /* a;b */".toList =
      .error "Doris SQL 工作台只允许执行单条 SQL，不能提交多语句。" := by decide +kernel
  refine ⟨⟨haccepted, fun h => ?_⟩, hrefused, fun h => ?_⟩
  · have hone := (exists_oneStatement_iff (stripChars_stripChars _ _)).mp ((h _).mp haccepted)
    exact absurd hone (by decide +kernel)
  · have hone : statementAt (stripChars isSpace "SELECT 1 /* a;b */".toList)
        (firstSeparator true .code (stripChars isSpace "SELECT 1 /* a;b */".toList)) =
        some "SELECT 1 /* a;b */".toList := by decide +kernel
    have hok := (h _).mpr ((exists_oneStatement_iff (stripChars_stripChars _ _)).mpr hone)
    rw [hrefused] at hok
    cases hok

end RecoveryService.DorisSqlEtl
