import RecoveryService.Lib.Text

/-! # The Doris type of a source column

`_source_column_to_doris_type` with `_type_params`: the text of a source type is read up to its first
bracket, and the numbers in the brackets are its parameters.  `base_written` and `typeParams_written` say
what is read from a type that is written with parameters. -/

namespace DataSync

open Text

/-! ### Doris types -/

/-- The types that the function names. -/
inductive DorisType
  | char (length : ℕ)
  | varchar (length : ℕ)
  | string
  | tinyint
  | smallint
  | int
  | bigint
  | largeint
  | decimal (precision scale : ℕ)
  | float
  | double
  | boolean
  | date
  | datetime
deriving DecidableEq

/-- The text that stands in the DDL. -/
def DorisType.text : DorisType → String
  | char length => "CHAR(" ++ toString length ++ ")"
  | varchar length => "VARCHAR(" ++ toString length ++ ")"
  | string => "STRING"
  | tinyint => "TINYINT"
  | smallint => "SMALLINT"
  | int => "INT"
  | bigint => "BIGINT"
  | largeint => "LARGEINT"
  | decimal precision scale => "DECIMAL(" ++ toString precision ++ "," ++ toString scale ++ ")"
  | float => "FLOAT"
  | double => "DOUBLE"
  | boolean => "BOOLEAN"
  | date => "DATE"
  | datetime => "DATETIME"

def dorisMaxVarcharLength : ℕ := 65533

def dorisMaxCharLength : ℕ := 255

def dorisMaxDecimalPrecision : ℕ := 38

/-! ### Reading a type -/

/-- `re.search(r"\\(([^)]*)\\)", type_text)`. -/
def parenthesized (typeText : List Char) : Option (List Char) :=
  match typeText.dropWhile (· ≠ '(') with
  | [] => none
  | _ :: rest => if ')' ∈ rest then some (rest.takeWhile (· ≠ ')')) else none

/-- `int(item)` of an item of digits; no type has digits outside ASCII among its parameters. -/
def typeParam (item : List Char) : Option ℕ :=
  let item := stripChars isSpace item
  if item ≠ [] ∧ item.all Char.isDigit then some (Nat.ofDigitChars 10 item 0) else none

/-- `_type_params`. -/
def typeParams (typeText : List Char) : List ℕ :=
  match parenthesized typeText with
  | none => []
  | some body => (body.splitOn ',').filterMap typeParam

/-- `re.sub(r"\\s+", " ", type_text).split("(", 1)[0].strip()`. -/
def typeBase (typeText : List Char) : List Char :=
  stripChars isSpace ((subRuns isSpace ' ' false typeText).takeWhile (· ≠ '('))

/-- The branches of `_source_column_to_doris_type`. -/
inductive Branch
  | char
  | varchar
  | string
  | tinyint
  | smallint
  | int
  | bigint
  | largeint
  | number
  | float
  | double
  | boolean
  | date
  | datetime
deriving DecidableEq

def branch (base : List Char) : Branch :=
  let isOneOf (names : List String) : Bool := names.contains (String.ofList base)
  if isOneOf ["CHAR", "NCHAR"] then .char
  else if isOneOf ["VARCHAR", "VARCHAR2", "NVARCHAR", "NVARCHAR2", "CHARACTER VARYING"] then .varchar
  else if isOneOf ["STRING", "TEXT", "TINYTEXT", "MEDIUMTEXT", "LONGTEXT", "CLOB", "NCLOB", "LONG"] then .string
  else if isOneOf ["TINYINT", "BYTE"] then .tinyint
  else if isOneOf ["SMALLINT", "INT2"] then .smallint
  else if isOneOf ["INT", "INTEGER", "INT4", "MEDIUMINT"] then .int
  else if isOneOf ["BIGINT", "INT8"] then .bigint
  else if isOneOf ["LARGEINT"] then .largeint
  else if isOneOf ["NUMBER", "NUMERIC", "DECIMAL", "DEC"] then .number
  else if isOneOf ["FLOAT", "BINARY_FLOAT"] then .float
  else if isOneOf ["DOUBLE", "DOUBLE PRECISION", "REAL", "BINARY_DOUBLE"] then .double
  else if isOneOf ["BOOLEAN", "BOOL", "BIT"] then .boolean
  else if isOneOf ["DATE"] then .date
  else if isOneOf ["DATETIME", "TIMESTAMP", "TIMESTAMP WITHOUT TIME ZONE", "TIMESTAMP WITH TIME ZONE"] then
    .datetime
  else .string

/-- The branch of the numbers with precision and scale. -/
def numberType (params : List ℕ) : DorisType :=
  let precision := params.headD dorisMaxDecimalPrecision
  let scale := params.getD 1 0
  if scale ≤ 0 ∧ precision ≤ 9 then .int
  else if scale ≤ 0 ∧ precision ≤ 18 then .bigint
  else if scale ≤ 0 ∧ precision ≤ 38 then .largeint
  else
    let precision := max 1 (min dorisMaxDecimalPrecision precision)
    .decimal precision (max 0 (min scale precision))

def branchType (params : List ℕ) : Branch → DorisType
  | .char => .char (max 1 (min dorisMaxCharLength (params.headD 1 * 2)))
  | .varchar => .varchar (max 1 (min dorisMaxVarcharLength (params.headD dorisMaxVarcharLength * 2)))
  | .string => .string
  | .tinyint => .tinyint
  | .smallint => .smallint
  | .int => .int
  | .bigint => .bigint
  | .largeint => .largeint
  | .number => numberType params
  | .float => .float
  | .double => .double
  | .boolean => .boolean
  | .date => .date
  | .datetime => .datetime

/-- `_source_column_to_doris_type`, for the `type` of a column. -/
def sourceColumnToDorisType (type : List Char) : DorisType :=
  let typeText := upper (stripChars isSpace type)
  branchType (typeParams typeText) (branch (typeBase typeText))

example : (sourceColumnToDorisType " decimal( 12 , 2) unsigned".toList).text = "DECIMAL(12,2)" := by
  decide +kernel

/-! ### Types with parameters -/

/-- A number as it is written in a type. -/
def intText (n : ℤ) : List Char := (toString n).toList

/-- `name(body)suffix`. -/
def written (name : String) (body : List Char) (suffix : String) : List Char :=
  name.toList ++ ('(' :: (body ++ (')' :: suffix.toList)))

def endsIn (p : Char → Bool) (text : List Char) : Bool := text.getLast?.any p

/-- The text after the name does not end in a space. -/
def Closed (suffix : String) : Prop := endsIn (fun c => !isSpace c) (')' :: suffix.toList) = true

instance (suffix : String) : Decidable (Closed suffix) := inferInstanceAs (Decidable (_ = _))

/-- What is needed of the name of a type to read it. -/
structure Named (name : String) (kind : Branch) : Prop where
  first : name.toList.head?.any (fun c => !isSpace c) = true
  last : endsIn (fun c => !isSpace c) name.toList = true
  plain : '(' ∉ upper name.toList
  kind : branch (stripChars isSpace (subRuns isSpace ' ' false (upper name.toList))) = kind

instance (name : String) (kind : Branch) : Decidable (Named name kind) :=
  decidable_of_iff (name.toList.head?.any (fun c => !isSpace c) = true ∧
    endsIn (fun c => !isSpace c) name.toList = true ∧ '(' ∉ upper name.toList ∧
    branch (stripChars isSpace (subRuns isSpace ' ' false (upper name.toList))) = kind)
    ⟨fun h => ⟨h.1, h.2.1, h.2.2.1, h.2.2.2⟩, fun h => ⟨h.first, h.last, h.plain, h.kind⟩⟩

theorem upperChar_of_digit {c : Char} (h : c.isDigit = true ∨ c = '-' ∨ c = ',' ∨ c = '(' ∨ c = ')') :
    upperChar c = [c] := by
  have hnat : c.toNat < 0x61 := by
    rcases h with h | rfl | rfl | rfl | rfl
    · unfold Char.isDigit at h
      simp only [Bool.and_eq_true, decide_eq_true_eq, UInt32.le_iff_toNat_le] at h
      exact Nat.lt_of_le_of_lt h.2 (by decide)
    all_goals decide
  have htable : upperTable c.toNat = none := by
    unfold upperTable
    split <;> first | omega | rfl
  have hupper : c.toUpper = c := by
    rw [← Char.toNat_inj, toUpper_toNat, if_neg (by omega)]
  rw [upperChar, htable, Option.getD_none, hupper]

theorem stripChars_of_none {cs : List Char} (h : ∀ c ∈ cs, isSpace c = false) : stripChars isSpace cs = cs := by
  have hdrop : ∀ l : List Char, (∀ c ∈ l, isSpace c = false) → l.dropWhile isSpace = l := by
    intro l hl
    cases l with
    | nil => rfl
    | cons c l => exact List.dropWhile_cons_of_neg (by rw [hl c List.mem_cons_self]; exact Bool.false_ne_true)
  rw [stripChars, hdrop cs h, hdrop cs.reverse fun c hc => h c (List.mem_reverse.mp hc), List.reverse_reverse]

theorem strip_of_ends {text : List Char} (hfirst : text.head?.any (fun c => !isSpace c) = true)
    (hlast : endsIn (fun c => !isSpace c) text = true) : stripChars isSpace text = text := by
  cases text with
  | nil => rfl
  | cons c rest =>
      obtain ⟨init, d, heq⟩ : ∃ init d, c :: rest = init ++ [d] :=
        ⟨_, _, (List.dropLast_append_getLast (List.cons_ne_nil c rest)).symm⟩
      rw [heq, endsIn, List.getLast?_concat] at hlast
      exact stripChars_eq_self rfl heq ((Bool.not_eq_true' _).mp hfirst) ((Bool.not_eq_true' _).mp hlast)

variable {name suffix : String} {kind : Branch}

theorem strip_written (h : Named name kind) (hsuffix : Closed suffix) (body : List Char) :
    stripChars isSpace (written name body suffix) = written name body suffix := by
  refine strip_of_ends ?_ ?_
  · have hfirst := h.first
    unfold written
    cases hname : name.toList with
    | nil =>
        rw [hname] at hfirst
        cases hfirst
    | cons c rest =>
        rw [hname] at hfirst
        exact hfirst
  · unfold written endsIn
    rw [← List.cons_append, ← List.append_assoc, List.getLast?_append_cons]
    exact hsuffix

theorem upper_written (name suffix : String) (body : List Char) : upper (written name body suffix) =
    upper name.toList ++ ('(' :: (upper body ++ (')' :: upper suffix.toList))) := by
  have hcons : ∀ (c : Char) (cs : List Char), upperChar c = [c] → upper (c :: cs) = c :: upper cs := by
    intro c cs hc
    unfold upper
    rw [List.flatMap_cons, hc]
    rfl
  unfold written
  rw [upper_append, hcons '(' _ (by decide), upper_append, hcons ')' _ (by decide)]

/-- A type is read up to its first bracket. -/
theorem typeBase_written (h : Named name kind) (hsuffix : Closed suffix) (body : List Char) :
    branch (typeBase (upper (stripChars isSpace (written name body suffix)))) = kind := by
  rw [strip_written h hsuffix, upper_written]
  unfold typeBase
  have hopen : ∀ (inRun : Bool) (cs : List Char),
      subRuns isSpace ' ' inRun ('(' :: cs) = '(' :: subRuns isSpace ' ' false cs := by
    intro inRun cs
    rw [subRuns, if_neg (by decide)]
  have hplain : ∀ c ∈ subRuns isSpace ' ' false (upper name.toList), decide (c ≠ '(') = true := by
    intro c hc
    rw [decide_eq_true_eq]
    rintro rfl
    rcases mem_subRuns hc with hspace | hmem
    · exact absurd hspace (by decide)
    · exact h.plain hmem.1
  rw [subRuns_append, hopen, List.takeWhile_append_of_pos hplain, List.takeWhile_cons_of_neg (by decide),
    List.append_nil]
  exact h.kind

/-- Its parameters are the numbers between the brackets. -/
theorem typeParams_written (h : Named name kind) (hsuffix : Closed suffix) {body : List Char}
    (hbody : ∀ c ∈ body, c.isDigit = true ∨ c = '-' ∨ c = ',') :
    typeParams (upper (stripChars isSpace (written name body suffix))) =
      (body.splitOn ',').filterMap typeParam := by
  have hupper : upper body = body := by
    refine upper_eq_self fun c hc => upperChar_of_digit ?_
    rcases hbody c hc with hdigit | hminus | hcomma
    · exact .inl hdigit
    · exact .inr (.inl hminus)
    · exact .inr (.inr (.inl hcomma))
  have hclose : ∀ c ∈ body, decide (c ≠ ')') = true := by
    intro c hc
    rw [decide_eq_true_eq]
    rintro rfl
    rcases hbody _ hc with hdigit | hminus | hcomma
    · exact absurd hdigit (by decide)
    · exact absurd hminus (by decide)
    · exact absurd hcomma (by decide)
  have hplain : ∀ c ∈ upper name.toList, decide (c ≠ '(') = true := by
    intro c hc
    rw [decide_eq_true_eq]
    rintro rfl
    exact h.plain hc
  rw [strip_written h hsuffix, upper_written, hupper]
  unfold typeParams parenthesized
  rw [List.dropWhile_append_of_pos hplain, List.dropWhile_cons_of_neg (by decide)]
  simp only
  rw [if_pos (List.mem_append_right _ List.mem_cons_self), List.takeWhile_append_of_pos hclose,
    List.takeWhile_cons_of_neg (by decide), List.append_nil]

theorem sourceColumnToDorisType_written (h : Named name kind) (hsuffix : Closed suffix) {body : List Char}
    (hbody : ∀ c ∈ body, c.isDigit = true ∨ c = '-' ∨ c = ',') :
    sourceColumnToDorisType (written name body suffix) =
      branchType ((body.splitOn ',').filterMap typeParam) kind := by
  unfold sourceColumnToDorisType
  simp only
  rw [typeBase_written h hsuffix, typeParams_written h hsuffix hbody]

/-- A type without brackets has no parameters. -/
theorem sourceColumnToDorisType_plain (h : Named name kind) :
    sourceColumnToDorisType name.toList = branchType [] kind := by
  have hplain : ∀ c ∈ upper name.toList, decide (c ≠ '(') = true := by
    intro c hc
    rw [decide_eq_true_eq]
    rintro rfl
    exact h.plain hc
  have hruns : ∀ c ∈ subRuns isSpace ' ' false (upper name.toList), decide (c ≠ '(') = true := by
    intro c hc
    rw [decide_eq_true_eq]
    rintro rfl
    rcases mem_subRuns hc with hspace | hmem
    · exact absurd hspace (by decide)
    · exact h.plain hmem.1
  have hparams : typeParams (upper name.toList) = [] := by
    unfold typeParams parenthesized
    rw [List.dropWhile_eq_nil_iff.mpr hplain]
  unfold sourceColumnToDorisType typeBase
  simp only
  rw [strip_of_ends h.first h.last, hparams, List.takeWhile_eq_self_iff.mpr hruns, h.kind]

/-! ### Numbers in types -/

theorem intText_ofNat (n : ℕ) : intText n = Nat.toDigits 10 n := Nat.toList_repr

theorem intText_negSucc (n : ℕ) : intText (Int.negSucc n) = '-' :: Nat.toDigits 10 (n + 1) := by
  show ("-" ++ Nat.repr (n + 1)).toList = _
  rw [String.toList_append, Nat.toList_repr]
  rfl

theorem digit_of_mem {n : ℕ} {c : Char} (h : c ∈ Nat.toDigits 10 n) : c.isDigit = true :=
  Nat.isDigit_of_mem_toDigits (by decide) (by decide) h

theorem intText_chars {n : ℤ} {c : Char} (h : c ∈ intText n) : c.isDigit = true ∨ c = '-' := by
  cases n with
  | ofNat n =>
      rw [Int.ofNat_eq_natCast, intText_ofNat] at h
      exact .inl (digit_of_mem h)
  | negSucc n =>
      rw [intText_negSucc] at h
      exact (List.mem_cons.mp h).symm.imp_left digit_of_mem

theorem isSpace_of_digit {c : Char} (h : c.isDigit = true ∨ c = '-') : isSpace c = false := by
  rcases h with h | rfl
  · unfold Char.isDigit at h
    simp only [Bool.and_eq_true, decide_eq_true_eq, UInt32.le_iff_toNat_le] at h
    have hlow : 0x30 ≤ c.toNat := h.1
    have hhigh : c.toNat ≤ 0x39 := h.2
    rw [Bool.eq_false_iff]
    intro hspace
    simp only [isSpace, Bool.or_eq_true, Bool.and_eq_true, decide_eq_true_eq, beq_iff_eq] at hspace
    omega
  · decide

/-- A negative number is no parameter. -/
theorem typeParam_intText (n : ℤ) : typeParam (intText n) = if 0 ≤ n then some n.toNat else none := by
  have hstrip : stripChars isSpace (intText n) = intText n :=
    stripChars_of_none fun c hc => isSpace_of_digit (intText_chars hc)
  unfold typeParam
  simp only
  rw [hstrip]
  cases n with
  | ofNat n =>
      rw [Int.ofNat_eq_natCast, intText_ofNat, if_pos, if_pos (Int.natCast_nonneg n), Nat.ofDigitChars_ten_toDigits,
        Int.toNat_natCast]
      exact ⟨Nat.toDigits_ne_nil, List.all_eq_true.mpr fun c hc => digit_of_mem hc⟩
  | negSucc n =>
      rw [intText_negSucc, if_neg, if_neg (Int.not_le.mpr (Int.negSucc_lt_zero n))]
      rintro ⟨-, hall⟩
      exact absurd (List.all_eq_true.mp hall '-' List.mem_cons_self) (by decide)

theorem comma_notMem_intText (n : ℤ) : ',' ∉ intText n := by
  intro h
  rcases intText_chars h with hdigit | hminus
  · exact absurd hdigit (by decide)
  · exact absurd hminus (by decide)

theorem splitOn_intText (n : ℤ) : (intText n).splitOn ',' = [intText n] :=
  List.splitOn_eq_singleton (comma_notMem_intText n)

theorem splitOn_two (m n : ℤ) : (intText m ++ ',' :: intText n).splitOn ',' = [intText m, intText n] := by
  rw [List.splitOn_append_cons_self, splitOn_intText, splitOn_intText]
  rfl

/-- A type with one parameter. -/
theorem sourceColumnToDorisType_one (h : Named name kind) (hsuffix : Closed suffix) (n : ℕ) :
    sourceColumnToDorisType (written name (intText n) suffix) = branchType [n] kind := by
  rw [sourceColumnToDorisType_written h hsuffix fun c hc => (intText_chars hc).imp_right .inl, splitOn_intText]
  simp [typeParam_intText]

/-- A type with two parameters, of which the second may be negative. -/
theorem sourceColumnToDorisType_two (h : Named name kind) (hsuffix : Closed suffix) (p : ℕ) (s : ℤ) :
    sourceColumnToDorisType (written name (intText p ++ ',' :: intText s) suffix) =
      branchType (if 0 ≤ s then [p, s.toNat] else [p]) kind := by
  have hbody : ∀ c ∈ intText p ++ ',' :: intText s, c.isDigit = true ∨ c = '-' ∨ c = ',' := by
    intro c hc
    rcases List.mem_append.mp hc with hc | hc
    · exact (intText_chars hc).imp_right .inl
    · rcases List.mem_cons.mp hc with rfl | hc
      · exact .inr (.inr rfl)
      · exact (intText_chars hc).imp_right .inl
  rw [sourceColumnToDorisType_written h hsuffix hbody, splitOn_two]
  simp only [List.filterMap_cons, List.filterMap_nil, typeParam_intText, Int.natCast_nonneg, if_true,
    Int.toNat_natCast]
  split_ifs <;> rfl

end DataSync
