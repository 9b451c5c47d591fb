import RecoveryService.DataSync.TypeValues

/-! # Types of Oracle

The built-in types of Oracle as `_list_oracle_columns` writes them, with the values that a column of the type
can have, and the types whose values the Doris type keeps. -/

namespace DataSync

open NumberFormats Text

/-! ### Types -/

inductive TimeZone
  | without
  | withZone
  | withLocalZone

/-- Types that are named by their text alone. -/
inductive OraclePlain
  | clob
  | nclob
  | blob
  | bfile
  | raw
  | long
  | longRaw
  | rowid
  | urowid
  | xmltype
  | json

/-- A text type has its `DATA_LENGTH`, and the length in UTF-8 of its longest value, which depends on the
character set of the database. -/
inductive OracleType
  /-- `NUMBER`. -/
  | number
  /-- `NUMBER(*, s)`. -/
  | numberStar (s : ℤ)
  | numberOf (p : ℕ+) (s : ℤ)
  | float (bits : ℕ)
  | binaryFloat
  | binaryDouble
  | varchar2 (length longest : ℕ)
  | nvarchar2 (length longest : ℕ)
  | char (length longest : ℕ)
  | nchar (length longest : ℕ)
  | date
  | timestamp (precision : ℕ) (zone : TimeZone)
  | boolean
  | intervalYear (precision : ℕ)
  | intervalDay (days seconds : ℕ)
  | plain (type : OraclePlain)

/-- A row of `ALL_TAB_COLUMNS`. -/
structure OracleRow where
  dataType : List Char
  dataLength : ℕ := 0
  dataPrecision : Option ℕ := none
  dataScale : Option ℤ := none

/-- The types that are written with their length. -/
def sizedNames : List String := ["VARCHAR2", "NVARCHAR2", "CHAR", "NCHAR"]

/-- The `type` that `_list_oracle_columns` makes of a row. -/
def oracleTypeText (row : OracleRow) : List Char :=
  let dataType := upper (if row.dataType = [] then "VARCHAR2".toList else row.dataType)
  if dataType = "NUMBER".toList ∧ row.dataPrecision ≠ none then
    written "NUMBER" (intText (row.dataPrecision.getD 0) ++ ',' :: intText (row.dataScale.getD 0)) ""
  else if dataType ∈ sizedNames.map String.toList then
    dataType ++ '(' :: (intText (if row.dataLength = 0 then 1 else row.dataLength) ++ [')'])
  else dataType

def OraclePlain.name : OraclePlain → String
  | clob => "CLOB"
  | nclob => "NCLOB"
  | blob => "BLOB"
  | bfile => "BFILE"
  | raw => "RAW"
  | long => "LONG"
  | longRaw => "LONG RAW"
  | rowid => "ROWID"
  | urowid => "UROWID"
  | xmltype => "XMLTYPE"
  | json => "JSON"

def TimeZone.suffix : TimeZone → String
  | without => ""
  | withZone => " WITH TIME ZONE"
  | withLocalZone => " WITH LOCAL TIME ZONE"

def secondsText (seconds : ℕ) : String := " TO SECOND(" ++ toString seconds ++ ")"

/-- The row of a column of the type. -/
def OracleType.row : OracleType → OracleRow
  | number => { dataType := "NUMBER".toList, dataLength := 22 }
  | numberStar s => { dataType := "NUMBER".toList, dataLength := 22, dataScale := some s }
  | numberOf p s => { dataType := "NUMBER".toList, dataLength := 22, dataPrecision := some p, dataScale := some s }
  | float bits => { dataType := "FLOAT".toList, dataLength := 22, dataPrecision := some bits }
  | binaryFloat => { dataType := "BINARY_FLOAT".toList, dataLength := 4 }
  | binaryDouble => { dataType := "BINARY_DOUBLE".toList, dataLength := 8 }
  | varchar2 length _ => { dataType := "VARCHAR2".toList, dataLength := length }
  | nvarchar2 length _ => { dataType := "NVARCHAR2".toList, dataLength := length }
  | char length _ => { dataType := "CHAR".toList, dataLength := length }
  | nchar length _ => { dataType := "NCHAR".toList, dataLength := length }
  | date => { dataType := "DATE".toList, dataLength := 7 }
  | timestamp precision zone =>
      { dataType := written "TIMESTAMP" (intText precision) zone.suffix, dataScale := some precision }
  | boolean => { dataType := "BOOLEAN".toList }
  | intervalYear precision => { dataType := written "INTERVAL YEAR" (intText precision) " TO MONTH" }
  | intervalDay days seconds => { dataType := written "INTERVAL DAY" (intText days) (secondsText seconds) }
  | plain type => { dataType := type.name.toList }

/-- A floating number of Oracle: `digits` decimal digits and an exponent. -/
def OracleFloating (digits : ℕ) (q : ℚ) : Prop :=
  ∃ n e : ℤ, |n| < 10 ^ digits ∧ -130 ≤ e ∧ |q| < 10 ^ 126 ∧ q = n * 10 ^ e

/-- The decimal digits of `FLOAT(bits)`. -/
def floatDigits (bits : ℕ) : ℕ := max 1 (bits * 30103 / 100000 + 1)

/-- A column of the type can have the value. -/
def OracleType.Has : OracleType → Value → Prop
  | number, .number q => OracleFloating 38 q
  | numberStar s, .number q => Decimal 38 s q
  | numberOf p s, .number q => Decimal p s q
  | float bits, .number q => OracleFloating (floatDigits bits) q
  | binaryFloat, .number q => binary32 q
  | binaryDouble, .number q => binary64 q
  | varchar2 _ longest, .text bytes => bytes ≤ longest
  | nvarchar2 _ longest, .text bytes => bytes ≤ longest
  | char _ longest, .text bytes => bytes ≤ longest
  | nchar _ longest, .text bytes => bytes ≤ longest
  | date, .moment timeOfDay zone => timeOfDay % second = 0 ∧ zone = none
  | timestamp precision zone, .moment timeOfDay stored =>
      timeOfDay % 10 ^ (9 - precision) = 0 ∧ (stored.isSome ↔ zone = .withZone)
  | boolean, .number q => Integer 0 1 q
  | intervalYear _, .other => True
  | intervalDay _ _, .other => True
  | plain _, .other => True
  | _, _ => False

/-! ### Values that are kept -/

/-- A length is doubled and cut off at the limit. -/
def TextKept (limit length longest : ℕ) : Prop := longest ≤ limit ∧ longest ≤ 2 * max 1 length

def OracleType.Kept : OracleType → Prop
  | number => False
  | numberStar s => s = 0
  | numberOf p s => NumberKept p s
  | float _ => False
  | varchar2 length longest => TextKept dorisMaxVarcharLength length longest
  | nvarchar2 length longest => TextKept dorisMaxVarcharLength length longest
  | char length longest => TextKept dorisMaxCharLength length longest
  | nchar length longest => TextKept dorisMaxCharLength length longest
  | date => False
  | timestamp precision zone => precision = 0 ∧ zone ≠ .withZone
  | _ => True

/-! ### The texts of the catalogue -/

/-- A name as the catalogue has it. -/
structure Catalogued (name : String) (kind : Branch) : Prop where
  named : Named name kind
  upper : upper name.toList = name.toList

instance (name : String) (kind : Branch) : Decidable (Catalogued name kind) :=
  decidable_of_iff (Named name kind ∧ Text.upper name.toList = name.toList)
    ⟨fun h => ⟨h.1, h.2⟩, fun h => ⟨h.named, h.upper⟩⟩

/-- The names of the types, and where they are read. -/
def oracleNames : List (String × Branch) :=
  [("NUMBER", .number), ("FLOAT", .float), ("BINARY_FLOAT", .float), ("BINARY_DOUBLE", .double),
    ("VARCHAR2", .varchar), ("NVARCHAR2", .varchar), ("CHAR", .char), ("NCHAR", .char), ("DATE", .date),
    ("TIMESTAMP", .datetime), ("BOOLEAN", .boolean), ("INTERVAL YEAR", .string), ("INTERVAL DAY", .string),
    ("CLOB", .string), ("NCLOB", .string), ("BLOB", .string), ("BFILE", .string), ("RAW", .string),
    ("LONG", .string), ("LONG RAW", .string), ("ROWID", .string), ("UROWID", .string), ("XMLTYPE", .string),
    ("JSON", .string)]

theorem oracleNames_catalogued : ∀ entry ∈ oracleNames, Catalogued entry.1 entry.2 := by
  decide +kernel

section Texts

variable {name : String} {kind : Branch}

theorem toList_mem_sizedNames : name.toList ∈ sizedNames.map String.toList ↔ name ∈ sizedNames :=
  List.mem_map_of_injective fun _ _ h => String.toList_inj.mp h

theorem Named.ne_nil (h : Named name kind) : name.toList ≠ [] := by
  intro hnil
  have hfirst := h.first
  rw [hnil] at hfirst
  cases hfirst

/-- A type that is neither a number with a precision nor sized is written as the catalogue names it. -/
theorem oracle_other {dataType : List Char} {length : ℕ} {precision : Option ℕ} {scale : Option ℤ}
    (hne : dataType ≠ []) (hupper : upper dataType = dataType)
    (hnumber : dataType ≠ "NUMBER".toList ∨ precision = none)
    (hsized : dataType ∉ sizedNames.map String.toList) :
    oracleTypeText ⟨dataType, length, precision, scale⟩ = dataType := by
  unfold oracleTypeText
  simp only
  rw [if_neg hne, hupper, if_neg, if_neg hsized]
  rintro ⟨heq, hprecision⟩
  rcases hnumber with hnumber | hnumber
  · exact hnumber heq
  · exact hprecision hnumber

theorem oracle_named (hentry : (name, kind) ∈ oracleNames) {length : ℕ} {precision : Option ℕ}
    {scale : Option ℤ} (hnumber : name ≠ "NUMBER" ∨ precision = none) (hsized : name ∉ sizedNames) :
    sourceColumnToDorisType (oracleTypeText ⟨name.toList, length, precision, scale⟩) = branchType [] kind := by
  have h : Catalogued name kind := oracleNames_catalogued _ hentry
  rw [oracle_other h.named.ne_nil h.upper (hnumber.imp_left fun hne heq => hne (String.toList_inj.mp heq))
    (mt toList_mem_sizedNames.mp hsized)]
  exact sourceColumnToDorisType_plain h.named

theorem oracle_precise {dataType : List Char} {length p : ℕ} {s : ℤ} (hne : dataType ≠ [])
    (hupper : upper dataType = dataType) (hnumber : dataType = "NUMBER".toList) :
    oracleTypeText ⟨dataType, length, some p, some s⟩ = written "NUMBER" (intText p ++ ',' :: intText s) "" := by
  unfold oracleTypeText
  simp only
  rw [if_neg hne, hupper, if_pos ⟨hnumber, Option.some_ne_none p⟩]
  rfl

theorem oracle_numberOf (p : ℕ+) (s : ℤ) :
    sourceColumnToDorisType (oracleTypeText (OracleType.numberOf p s).row) =
      numberType (if 0 ≤ s then [(p : ℕ), s.toNat] else [(p : ℕ)]) := by
  have hentry : ("NUMBER", Branch.number) ∈ oracleNames := by simp [oracleNames]
  have h : Catalogued "NUMBER" .number := oracleNames_catalogued _ hentry
  have htext : oracleTypeText (OracleType.numberOf p s).row =
      written "NUMBER" (intText (p : ℕ) ++ ',' :: intText s) "" := oracle_precise h.named.ne_nil h.upper rfl
  rw [htext]
  exact sourceColumnToDorisType_two h.named (by decide) p s

/-- The texts with a length. -/
theorem oracle_sized (hentry : (name, kind) ∈ oracleNames) (hsized : name ∈ sizedNames) (length : ℕ) :
    sourceColumnToDorisType (oracleTypeText { dataType := name.toList, dataLength := length }) =
      branchType [if length = 0 then 1 else length] kind := by
  have h : Catalogued name kind := oracleNames_catalogued _ hentry
  have hnumber : name.toList ≠ "NUMBER".toList := by
    intro heq
    rw [String.toList_inj.mp heq] at hsized
    simp [sizedNames] at hsized
  unfold oracleTypeText
  simp only
  rw [if_neg h.named.ne_nil, h.upper, if_neg fun hnot => hnumber hnot.1,
    if_pos (toList_mem_sizedNames.mpr hsized), ← Nat.cast_one, ← Nat.cast_ite]
  exact @sourceColumnToDorisType_one name "" kind h.named (by decide) (if length = 0 then 1 else length)

theorem upper_intText (n : ℕ) : upper (intText n) = intText n :=
  upper_eq_self fun _ hc => upperChar_of_digit ((intText_chars hc).imp_right .inl)

/-- A type with its precision in the name. -/
theorem oracle_written {suffix : String} (hentry : (name, kind) ∈ oracleNames)
    (hupper : upper suffix.toList = suffix.toList) (hsuffix : Closed suffix) (n : ℕ) (scale : Option ℤ) :
    sourceColumnToDorisType (oracleTypeText { dataType := written name (intText n) suffix, dataScale := scale }) =
      branchType [n] kind := by
  have h : Catalogued name kind := oracleNames_catalogued _ hentry
  have hparen : '(' ∈ written name (intText n) suffix := List.mem_append_right _ List.mem_cons_self
  have hplain : ∀ other ∈ sizedNames.map String.toList, '(' ∉ other := by decide
  have htext : upper (written name (intText n) suffix) = written name (intText n) suffix := by
    rw [upper_written, h.upper, upper_intText, hupper]
    rfl
  rw [oracle_other (List.ne_nil_of_mem hparen) htext (.inr rfl) fun hmem => hplain _ hmem hparen]
  exact sourceColumnToDorisType_one h.named hsuffix n

theorem oracle_timestamp (precision : ℕ) (zone : TimeZone) :
    sourceColumnToDorisType (oracleTypeText (OracleType.timestamp precision zone).row) = .datetime := by
  have hentry : ("TIMESTAMP", Branch.datetime) ∈ oracleNames := by simp [oracleNames]
  refine oracle_written hentry ?_ ?_ precision (some precision)
  · cases zone <;> rfl
  · cases zone <;> decide

theorem oracle_intervalDay (days seconds : ℕ) :
    sourceColumnToDorisType (oracleTypeText (OracleType.intervalDay days seconds).row) = .string := by
  have hentry : ("INTERVAL DAY", Branch.string) ∈ oracleNames := by simp [oracleNames]
  have htext : (secondsText seconds).toList = " TO SECOND(".toList ++ intText seconds ++ [')'] := by
    unfold secondsText
    rw [String.toList_append, String.toList_append]
    rfl
  refine oracle_written hentry ?_ ?_ days none
  · rw [htext, upper_append, upper_append, upper_intText]
    rfl
  · unfold Closed endsIn
    rw [htext, ← List.cons_append, List.getLast?_concat]
    decide

theorem oracle_plain (type : OraclePlain) :
    sourceColumnToDorisType (oracleTypeText (OracleType.plain type).row) = .string := by
  have hentry : (type.name, Branch.string) ∈ oracleNames := by
    cases type <;> simp [oracleNames, OraclePlain.name]
  refine oracle_named hentry (.inr rfl) ?_
  cases type <;> decide

end Texts

/-! ### Types that lose values -/

theorem not_integer_half {lo hi : ℤ} : ¬Integer lo hi (1 / 2) := by
  rintro ⟨n, -, -, heq⟩
  have hcast : (1 : ℚ) = (2 * n : ℤ) := by
    push_cast
    linarith
  have htwo : (1 : ℤ) = 2 * n := by exact_mod_cast hcast
  omega

/-- A number without precision has digits behind the point. -/
theorem number_lost : ¬DorisType.largeint.Keeps OracleType.number.Has := by
  intro hall
  refine not_integer_half (hall (.number (1 / 2)) ⟨5, -1, by norm_num, by norm_num, ?_, by norm_num⟩)
  rw [abs_of_pos (by norm_num)]
  norm_num

/-- A floating number of Oracle goes further than a `FLOAT`. -/
theorem float_lost (bits : ℕ) : ¬DorisType.float.Keeps (OracleType.float bits).Has := by
  intro hall
  have hdigits : 1 < (10 : ℤ) ^ floatDigits bits :=
    one_lt_pow₀ (by norm_num) (Nat.one_le_iff_ne_zero.mp (le_max_left _ _))
  have hvalue : (10 : ℚ) ^ 100 = ((1 : ℤ) : ℚ) * 10 ^ (100 : ℤ) := by norm_num
  have hlt := Binary.lt (hall (.number (10 ^ 100)) ⟨1, 100, by rwa [abs_one], by norm_num, by norm_num, hvalue⟩)
  norm_num at hlt

theorem numberStar_keeps (s : ℤ) : DorisType.largeint.Keeps (OracleType.numberStar s).Has ↔ s = 0 := by
  have hdecimals : Decimals (OracleType.numberStar s).Has 38 s := by
    refine ⟨?_, fun h _ => h⟩
    intro value h
    cases value with
    | number q => exact ⟨q, rfl, h⟩
    | _ => exact h.elim
  rw [keeps_iff fun value hvalue => (hdecimals.decimal hvalue).imp fun q hq => hq.1]
  constructor
  · intro hall
    have hs : s ≤ 0 := integer_step (hall _ (hdecimals.all (decimal_step (by norm_num) s) (step_nonneg s)))
    have h := (@integer_keeps _ _ _ 38 20 _ _ hdecimals hs (by omega) (by omega) (by norm_num) (by norm_num)
      (by norm_num)).mp hall
    omega
  · rintro rfl
    exact (@integer_keeps _ _ _ 38 20 _ _ hdecimals le_rfl (by omega) (by omega) (by norm_num) (by norm_num)
      (by norm_num)).mpr (by omega)

/-- The time of the day is not in a `DATE`. -/
theorem date_lost : ¬DorisType.date.Keeps OracleType.date.Has := by
  intro hall
  exact absurd (hall (.moment second none) ⟨Nat.mod_self _, rfl⟩).1 (by decide)

/-! ### Which types are kept -/

theorem oracle_sized_keeps {name : String} {kind : Branch} {has : Value → Prop} {longest length limit : ℕ}
    (hentry : (name, kind) ∈ oracleNames) (hsized : name ∈ sizedNames)
    (hhas : ∀ value, has value ↔ ∃ bytes ≤ longest, value = .text bytes)
    (hholds : ∀ m bytes, (branchType [m] kind).Holds (.text bytes) ↔ bytes ≤ max 1 (min limit (m * 2)))
    (hlimit : 2 ≤ limit) :
    (sourceColumnToDorisType (oracleTypeText { dataType := name.toList, dataLength := length })).Keeps has ↔
      TextKept limit length longest := by
  rw [oracle_sized hentry hsized, keeps_texts hhas (hholds _), TextKept]
  split_ifs <;> omega

/-- A source of numbers of the same format. -/
theorem keeps_same {has : Value → Prop} {type : DorisType}
    (h : ∀ value, has value → ∃ q, value = .number q ∧ type.Holds (.number q)) : type.Keeps has := by
  intro value hvalue
  obtain ⟨q, rfl, hq⟩ := h value hvalue
  exact hq

theorem oracle_keeps (type : OracleType) :
    (sourceColumnToDorisType (oracleTypeText type.row)).Keeps type.Has ↔ type.Kept := by
  cases type with
  | number =>
      have htype : sourceColumnToDorisType (oracleTypeText OracleType.number.row) = .largeint :=
        @oracle_named "NUMBER" .number (by simp [oracleNames]) _ _ _ (.inr rfl) (by decide)
      rw [htype]
      exact iff_of_false number_lost id
  | numberStar s =>
      have htype : sourceColumnToDorisType (oracleTypeText (OracleType.numberStar s).row) = .largeint :=
        @oracle_named "NUMBER" .number (by simp [oracleNames]) _ _ _ (.inr rfl) (by decide)
      rw [htype]
      exact numberStar_keeps s
  | numberOf p s =>
      have hdecimals : Decimals (OracleType.numberOf p s).Has p s := by
        refine ⟨?_, fun h _ => h⟩
        intro value h
        cases value with
        | number q => exact ⟨q, rfl, h⟩
        | _ => exact h.elim
      rw [oracle_numberOf]
      exact numberType_keeps hdecimals p.pos
  | float bits =>
      have htype : sourceColumnToDorisType (oracleTypeText (OracleType.float bits).row) = .float :=
        @oracle_named "FLOAT" .float (by simp [oracleNames]) _ _ _ (.inl (by decide)) (by decide)
      rw [htype]
      exact iff_of_false (float_lost bits) id
  | binaryFloat =>
      have htype : sourceColumnToDorisType (oracleTypeText OracleType.binaryFloat.row) = .float :=
        @oracle_named "BINARY_FLOAT" .float (by simp [oracleNames]) _ _ _ (.inr rfl) (by decide)
      rw [htype]
      refine iff_of_true (keeps_same fun value h => ?_) trivial
      cases value with
      | number q => exact ⟨q, rfl, h⟩
      | _ => exact h.elim
  | binaryDouble =>
      have htype : sourceColumnToDorisType (oracleTypeText OracleType.binaryDouble.row) = .double :=
        @oracle_named "BINARY_DOUBLE" .double (by simp [oracleNames]) _ _ _ (.inr rfl) (by decide)
      rw [htype]
      refine iff_of_true (keeps_same fun value h => ?_) trivial
      cases value with
      | number q => exact ⟨q, rfl, h⟩
      | _ => exact h.elim
  | varchar2 length longest =>
      have hentry : ("VARCHAR2", Branch.varchar) ∈ oracleNames := by simp [oracleNames]
      refine oracle_sized_keeps hentry (by decide) (fun value => ?_) (fun _ _ => Iff.rfl) (by decide)
      cases value <;> simp [OracleType.Has]
  | nvarchar2 length longest =>
      have hentry : ("NVARCHAR2", Branch.varchar) ∈ oracleNames := by simp [oracleNames]
      refine oracle_sized_keeps hentry (by decide) (fun value => ?_) (fun _ _ => Iff.rfl) (by decide)
      cases value <;> simp [OracleType.Has]
  | char length longest =>
      have hentry : ("CHAR", Branch.char) ∈ oracleNames := by simp [oracleNames]
      refine oracle_sized_keeps hentry (by decide) (fun value => ?_) (fun _ _ => Iff.rfl) (by decide)
      cases value <;> simp [OracleType.Has]
  | nchar length longest =>
      have hentry : ("NCHAR", Branch.char) ∈ oracleNames := by simp [oracleNames]
      refine oracle_sized_keeps hentry (by decide) (fun value => ?_) (fun _ _ => Iff.rfl) (by decide)
      cases value <;> simp [OracleType.Has]
  | date =>
      have htype : sourceColumnToDorisType (oracleTypeText OracleType.date.row) = .date :=
        @oracle_named "DATE" .date (by simp [oracleNames]) _ _ _ (.inr rfl) (by decide)
      rw [htype]
      exact iff_of_false date_lost id
  | timestamp precision zone =>
      rw [oracle_timestamp]
      refine keeps_moments fun value => ?_
      cases value <;> simp [OracleType.Has]
  | boolean =>
      have htype : sourceColumnToDorisType (oracleTypeText OracleType.boolean.row) = .boolean :=
        @oracle_named "BOOLEAN" .boolean (by simp [oracleNames]) _ _ _ (.inr rfl) (by decide)
      rw [htype]
      refine iff_of_true (keeps_same fun value h => ?_) trivial
      cases value with
      | number q => exact ⟨q, rfl, h⟩
      | _ => exact h.elim
  | intervalYear precision =>
      have hentry : ("INTERVAL YEAR", Branch.string) ∈ oracleNames := by simp [oracleNames]
      have htype : sourceColumnToDorisType (oracleTypeText (OracleType.intervalYear precision).row) = .string :=
        oracle_written hentry (by decide +kernel) (by decide) precision none
      rw [htype]
      exact iff_of_true (keeps_string _) trivial
  | intervalDay days seconds =>
      rw [oracle_intervalDay]
      exact iff_of_true (keeps_string _) trivial
  | plain type =>
      rw [oracle_plain]
      exact iff_of_true (keeps_string _) trivial

end DataSync
