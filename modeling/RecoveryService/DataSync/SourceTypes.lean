import RecoveryService.DataSync.OracleTypes

/-! # Types of MySQL, and the source types that keep their values

The types of MySQL as `COLUMN_TYPE` shows them, with the values of a column, and for both databases the types
whose values the chosen Doris type holds (`sourceColumnToDorisType_keeps_iff`). -/

namespace DataSync

open NumberFormats Text

/-! ### Types -/

inductive IntSize
  | tiny
  | small
  | medium
  | int
  | big
deriving DecidableEq

def IntSize.bits : IntSize → ℕ
  | tiny => 8
  | small => 16
  | medium => 24
  | int => 32
  | big => 64

def IntSize.name : IntSize → String
  | tiny => "tinyint"
  | small => "smallint"
  | medium => "mediumint"
  | int => "int"
  | big => "bigint"

/-- Texts, bytes, JSON and the spatial types, which are named by their text alone. -/
inductive MysqlPlain
  | tinytext
  | text
  | mediumtext
  | longtext
  | tinyblob
  | blob
  | mediumblob
  | longblob
  | json
  | geometry
  | point
  | linestring
  | polygon
  | multipoint
  | multilinestring
  | multipolygon
  | geomcollection

def MysqlPlain.name : MysqlPlain → String
  | tinytext => "tinytext"
  | text => "text"
  | mediumtext => "mediumtext"
  | longtext => "longtext"
  | tinyblob => "tinyblob"
  | blob => "blob"
  | mediumblob => "mediumblob"
  | longblob => "longblob"
  | json => "json"
  | geometry => "geometry"
  | point => "point"
  | linestring => "linestring"
  | polygon => "polygon"
  | multipoint => "multipoint"
  | multilinestring => "multilinestring"
  | multipolygon => "multipolygon"
  | geomcollection => "geomcollection"

/-- `unsigned` and `zerofill` behind a number type. -/
inductive Sign
  | signed
  | unsigned
  | zerofill
deriving DecidableEq

def Sign.suffix : Sign → String
  | signed => ""
  | unsigned => " unsigned"
  | zerofill => " unsigned zerofill"

/-- Of `char` and `varchar` also the bytes of UTF-8 that a character of the column may need are kept, which
depend on its character set. -/
inductive MysqlType
  | integer (size : IntSize) (width : Option ℕ) (sign : Sign)
  | decimal (p : ℕ+) (s : ℕ) (sign : Sign)
  | float (digits : Option (ℕ × ℕ)) (sign : Sign)
  | double (digits : Option (ℕ × ℕ)) (sign : Sign)
  | bit (n : ℕ)
  | char (n bytes : ℕ)
  | varchar (n bytes : ℕ)
  | binary (n : ℕ)
  | varbinary (n : ℕ)
  | plain (type : MysqlPlain)
  /-- `enum` and `set`, with the list of their values as it is written. -/
  | enum (items : List Char)
  | set (items : List Char)
  | date
  | datetime (precision : Option ℕ)
  | timestamp (precision : Option ℕ)
  | time (precision : Option ℕ)
  | year (width : Option ℕ)

/-- A name with its parameters, if there are any. -/
def withParams (name : String) (body : Option (List Char)) (suffix : String) : List Char :=
  match body with
  | none => (name ++ suffix).toList
  | some body => written name body suffix

def pairText (digits : ℕ × ℕ) : List Char := intText digits.1 ++ ',' :: intText digits.2

/-- `COLUMN_TYPE`. -/
def MysqlType.text : MysqlType → List Char
  | integer size width sign => withParams size.name (width.map fun n : ℕ => intText n) sign.suffix
  | decimal p s sign => written "decimal" (intText (p : ℕ) ++ ',' :: intText s) sign.suffix
  | float digits sign => withParams "float" (digits.map pairText) sign.suffix
  | double digits sign => withParams "double" (digits.map pairText) sign.suffix
  | bit n => written "bit" (intText n) ""
  | char n _ => written "char" (intText n) ""
  | varchar n _ => written "varchar" (intText n) ""
  | binary n => written "binary" (intText n) ""
  | varbinary n => written "varbinary" (intText n) ""
  | plain type => type.name.toList
  | enum items => written "enum" items ""
  | set items => written "set" items ""
  | date => "date".toList
  | datetime precision => withParams "datetime" (precision.map fun n : ℕ => intText n) ""
  | timestamp precision => withParams "timestamp" (precision.map fun n : ℕ => intText n) ""
  | time precision => withParams "time" (precision.map fun n : ℕ => intText n) ""
  | year width => withParams "year" (width.map fun n : ℕ => intText n) ""

/-- The range of an integer type. -/
def IntSize.range (size : IntSize) (sign : Sign) : ℚ → Prop :=
  if sign = .signed then Integer (-2 ^ (size.bits - 1)) (2 ^ (size.bits - 1) - 1)
  else Integer 0 (2 ^ size.bits - 1)

/-- A column of the type can have the value. -/
def MysqlType.Has : MysqlType → Value → Prop
  | integer size _ sign, .number q => size.range sign q
  | decimal p s sign, .number q => Decimal p s q ∧ (sign ≠ .signed → 0 ≤ q)
  | float _ sign, .number q => binary32 q ∧ (sign ≠ .signed → 0 ≤ q)
  | double _ sign, .number q => binary64 q ∧ (sign ≠ .signed → 0 ≤ q)
  | bit n, .number q => Integer 0 (2 ^ n - 1) q
  | char n bytes, .text length => length ≤ bytes * n
  | varchar n bytes, .text length => length ≤ bytes * n
  | date, .moment timeOfDay zone => timeOfDay = 0 ∧ zone = none
  | datetime precision, .moment timeOfDay zone =>
      timeOfDay % 10 ^ (9 - precision.getD 0) = 0 ∧ zone = none
  | timestamp precision, .moment timeOfDay zone =>
      timeOfDay % 10 ^ (9 - precision.getD 0) = 0 ∧ zone = none
  | binary _, .other => True
  | varbinary _, .other => True
  | plain _, .other => True
  | enum _, .other => True
  | set _, .other => True
  | time _, .other => True
  | year _, .other => True
  | _, _ => False

/-! ### Values that are kept -/

/-- `n` characters are given the place of `2 * n` bytes. -/
def CharactersKept (limit n bytes : ℕ) : Prop := n = 0 ∨ bytes ≤ 2 ∧ bytes * n ≤ limit

def MysqlType.Kept : MysqlType → Prop
  | integer size width sign => width = none ∨ sign = .signed ∨ size = .medium
  | decimal p s _ => NumberKept p s
  | bit n => n ≤ 1
  | char n bytes => CharactersKept dorisMaxCharLength n bytes
  | varchar n bytes => CharactersKept dorisMaxVarcharLength n bytes
  | datetime precision => precision.getD 0 = 0
  | timestamp precision => precision.getD 0 = 0
  | _ => True

/-! ### The texts of `COLUMN_TYPE` -/

/-- Where the names are read. -/
def mysqlNames : List (String × Branch) :=
  [("tinyint", .tinyint), ("smallint", .smallint), ("mediumint", .int), ("int", .int), ("bigint", .bigint),
    ("decimal", .number), ("float", .float), ("double", .double), ("bit", .boolean), ("char", .char),
    ("varchar", .varchar), ("binary", .string), ("varbinary", .string), ("enum", .string), ("set", .string),
    ("date", .date), ("datetime", .datetime), ("timestamp", .datetime), ("time", .string), ("year", .string)]

/-- The numbers whose sign may stand behind the name. -/
def signedNames : List String := ["tinyint", "smallint", "mediumint", "int", "bigint", "float", "double"]

theorem mysqlNames_named : ∀ entry ∈ mysqlNames, Named entry.1 entry.2 := by
  decide +kernel

theorem signedNames_named : ∀ name ∈ signedNames, ∀ sign ∈ [Sign.unsigned, .zerofill],
    Named (name ++ sign.suffix) .string := by
  decide +kernel

theorem mysqlPlain_named (type : MysqlPlain) : Named type.name .string := by
  cases type <;> decide +kernel

section Texts

variable {name : String} {kind : Branch}

theorem sign_closed (sign : Sign) : Closed sign.suffix := by
  cases sign <;> decide

/-- Behind brackets `unsigned` is not read. -/
theorem mysql_signed {α : Type} {type : DorisType} {params : Option α} {body : α → List Char} (sign : Sign)
    (hentry : (name, kind) ∈ mysqlNames) (hsigned : name ∈ signedNames) (hnone : branchType [] kind = type)
    (hsome : ∀ a, sourceColumnToDorisType (written name (body a) sign.suffix) = type) :
    sourceColumnToDorisType (withParams name (params.map body) sign.suffix) =
      if params = none ∧ sign ≠ .signed then .string else type := by
  cases params with
  | none =>
      show sourceColumnToDorisType (name ++ sign.suffix).toList = _
      cases sign with
      | signed =>
          rw [if_neg fun h => h.2 rfl, ← hnone]
          exact (congrArg (fun text => sourceColumnToDorisType (String.toList text)) (String.append_empty)).trans
            (sourceColumnToDorisType_plain (mysqlNames_named _ hentry))
      | unsigned =>
          rw [if_pos ⟨rfl, by decide⟩]
          exact sourceColumnToDorisType_plain (signedNames_named name hsigned .unsigned (by decide))
      | zerofill =>
          rw [if_pos ⟨rfl, by decide⟩]
          exact sourceColumnToDorisType_plain (signedNames_named name hsigned .zerofill (by decide))
  | some a =>
      rw [if_neg fun h => Option.some_ne_none a h.1]
      exact hsome a

/-- The integer type of Doris for one of MySQL. -/
def IntSize.dorisType : IntSize → DorisType
  | tiny => .tinyint
  | small => .smallint
  | medium => .int
  | int => .int
  | big => .bigint

theorem mysql_integer (size : IntSize) (width : Option ℕ) (sign : Sign) :
    sourceColumnToDorisType (MysqlType.integer size width sign).text =
      if width = none ∧ sign ≠ .signed then .string else size.dorisType := by
  obtain ⟨kind, hentry, hkind⟩ :
      ∃ kind, (size.name, kind) ∈ mysqlNames ∧ ∀ params, branchType params kind = size.dorisType := by
    cases size with
    | tiny => exact ⟨.tinyint, by simp [mysqlNames, IntSize.name], fun _ => rfl⟩
    | small => exact ⟨.smallint, by simp [mysqlNames, IntSize.name], fun _ => rfl⟩
    | medium | int => exact ⟨.int, by simp [mysqlNames, IntSize.name], fun _ => rfl⟩
    | big => exact ⟨.bigint, by simp [mysqlNames, IntSize.name], fun _ => rfl⟩
  refine mysql_signed sign hentry ?_ (hkind []) fun n => ?_
  · cases size <;> simp [signedNames, IntSize.name]
  · rw [← hkind [n]]
    exact sourceColumnToDorisType_one (mysqlNames_named _ hentry) (sign_closed sign) n

theorem mysql_floating {type : DorisType} (hentry : (name, kind) ∈ mysqlNames) (hsigned : name ∈ signedNames)
    (hkind : ∀ params, branchType params kind = type) (digits : Option (ℕ × ℕ)) (sign : Sign) :
    sourceColumnToDorisType (withParams name (digits.map pairText) sign.suffix) =
      if digits = none ∧ sign ≠ .signed then .string else type := by
  refine mysql_signed sign hentry hsigned (hkind []) fun digits => ?_
  rw [← hkind (if (0 : ℤ) ≤ digits.2 then [digits.1, (digits.2 : ℤ).toNat] else [digits.1])]
  exact sourceColumnToDorisType_two (mysqlNames_named _ hentry) (sign_closed sign) digits.1 digits.2

/-- The sign of a decimal is not read. -/
theorem mysql_decimal (p : ℕ+) (s : ℕ) (sign : Sign) :
    sourceColumnToDorisType (MysqlType.decimal p s sign).text =
      numberType (if 0 ≤ (s : ℤ) then [(p : ℕ), (s : ℤ).toNat] else [(p : ℕ)]) := by
  have hentry : ("decimal", Branch.number) ∈ mysqlNames := by simp [mysqlNames]
  exact sourceColumnToDorisType_two (mysqlNames_named _ hentry) (sign_closed sign) p s

theorem mysql_sized (hentry : (name, kind) ∈ mysqlNames) (n : ℕ) :
    sourceColumnToDorisType (written name (intText n) "") = branchType [n] kind :=
  sourceColumnToDorisType_one (mysqlNames_named _ hentry) (by decide) n

/-- A type with one parameter, which may be left out. -/
theorem mysql_withParams {type : DorisType} (hentry : (name, kind) ∈ mysqlNames)
    (hkind : ∀ params, branchType params kind = type) (precision : Option ℕ) :
    sourceColumnToDorisType (withParams name (precision.map fun n : ℕ => intText n) "") = type := by
  cases precision with
  | none =>
      rw [← hkind []]
      exact (congrArg (fun text => sourceColumnToDorisType (String.toList text)) (String.append_empty)).trans
        (sourceColumnToDorisType_plain (mysqlNames_named _ hentry))
  | some n => exact (mysql_sized hentry n).trans (hkind [n])

theorem mysql_string (hentry : (name, Branch.string) ∈ mysqlNames) (body : List Char) :
    sourceColumnToDorisType (written name body "") = .string := by
  unfold sourceColumnToDorisType
  simp only
  rw [typeBase_written (mysqlNames_named _ hentry) (by decide)]
  rfl

end Texts

/-! ### Which types are kept -/

theorem integer_range (size : IntSize) (sign : Sign) (width : Option ℕ) (value : Value) :
    (MysqlType.integer size width sign).Has value ↔
      ∃ q, Integer (if sign = .signed then -2 ^ (size.bits - 1) else 0)
        (if sign = .signed then 2 ^ (size.bits - 1) - 1 else 2 ^ size.bits - 1) q ∧ value = .number q := by
  cases value with
  | number q =>
      show size.range sign q ↔ _
      unfold IntSize.range
      split_ifs <;> simp
  | _ => exact iff_of_false id fun ⟨_, _, h⟩ => nomatch h

/-- An unsigned type behind a width is taken for the signed one. -/
theorem mysql_integer_keeps (size : IntSize) (width : Option ℕ) (sign : Sign) :
    (sourceColumnToDorisType (MysqlType.integer size width sign).text).Keeps
      (MysqlType.integer size width sign).Has ↔ (MysqlType.integer size width sign).Kept := by
  rw [mysql_integer]
  by_cases hstring : width = none ∧ sign ≠ .signed
  · rw [if_pos hstring]
    exact iff_of_true (keeps_string _) (.inl hstring.1)
  · rw [if_neg hstring]
    have hkept : (MysqlType.integer size width sign).Kept ↔ sign = .signed ∨ size = .medium := by
      unfold MysqlType.Kept
      tauto
    rw [hkept]
    have hrange := integer_range size sign width
    by_cases hsign : sign = .signed
    · simp only [if_pos hsign] at hrange
      refine iff_of_true ?_ (.inl hsign)
      cases size <;> exact (keeps_integers hrange (fun _ => Iff.rfl) (by decide)).mpr (by decide)
    · simp only [if_neg hsign] at hrange
      rw [or_iff_right hsign]
      cases size <;> exact (keeps_integers hrange (fun _ => Iff.rfl) (by decide)).trans (by decide)

theorem bit_keeps (n : ℕ) : DorisType.boolean.Keeps (MysqlType.bit n).Has ↔ n ≤ 1 := by
  have hhas : ∀ value, (MysqlType.bit n).Has value ↔ ∃ q, Integer 0 (2 ^ n - 1) q ∧ value = .number q := by
    intro value
    cases value <;> simp [MysqlType.Has]
  have hpos : (1 : ℤ) ≤ 2 ^ n := one_le_pow₀ (by norm_num)
  rw [@keeps_integers _ _ _ 0 1 .boolean hhas (fun _ => Iff.rfl) (by omega)]
  constructor
  · rintro ⟨-, hle⟩
    by_contra hn
    have hfour : (2 : ℤ) ^ 2 ≤ 2 ^ n := pow_le_pow_right₀ (by norm_num) (by omega)
    omega
  · intro hn
    have htwo : (2 : ℤ) ^ n ≤ 2 ^ 1 := pow_le_pow_right₀ (by norm_num) hn
    omega

theorem keeps_characters {has : Value → Prop} {n bytes limit : ℕ} {type : DorisType}
    (hhas : ∀ value, has value ↔ ∃ length ≤ bytes * n, value = .text length)
    (hholds : ∀ length, type.Holds (.text length) ↔ length ≤ max 1 (min limit (n * 2))) (hlimit : 1 ≤ limit) :
    type.Keeps has ↔ CharactersKept limit n bytes := by
  rw [keeps_texts hhas hholds, CharactersKept]
  rcases Nat.eq_zero_or_pos n with rfl | hn
  · simp
  · have hle : bytes * n ≤ 2 * n ↔ bytes ≤ 2 := Nat.mul_le_mul_right_iff hn
    omega

theorem mysql_keeps (type : MysqlType) : (sourceColumnToDorisType type.text).Keeps type.Has ↔ type.Kept := by
  cases type with
  | integer size width sign => exact mysql_integer_keeps size width sign
  | decimal p s sign =>
      have hdecimals : Decimals (MysqlType.decimal p s sign).Has p s := by
        refine ⟨?_, fun h hq => ⟨h, fun _ => hq⟩⟩
        intro value h
        cases value with
        | number q => exact ⟨q, rfl, h.1⟩
        | _ => exact h.elim
      rw [mysql_decimal]
      exact numberType_keeps hdecimals p.pos
  | float digits sign =>
      have hentry : ("float", Branch.float) ∈ mysqlNames := by simp [mysqlNames]
      rw [MysqlType.text, mysql_floating hentry (by decide) fun _ => rfl]
      refine iff_of_true ?_ trivial
      split_ifs
      · exact keeps_string _
      · refine keeps_same fun value h => ?_
        cases value with
        | number q => exact ⟨q, rfl, h.1⟩
        | _ => exact h.elim
  | double digits sign =>
      have hentry : ("double", Branch.double) ∈ mysqlNames := by simp [mysqlNames]
      rw [MysqlType.text, mysql_floating hentry (by decide) fun _ => rfl]
      refine iff_of_true ?_ trivial
      split_ifs
      · exact keeps_string _
      · refine keeps_same fun value h => ?_
        cases value with
        | number q => exact ⟨q, rfl, h.1⟩
        | _ => exact h.elim
  | bit n =>
      have hentry : ("bit", Branch.boolean) ∈ mysqlNames := by simp [mysqlNames]
      have htype : sourceColumnToDorisType (MysqlType.bit n).text = .boolean := mysql_sized hentry n
      rw [htype]
      exact bit_keeps n
  | char n bytes =>
      have hentry : ("char", Branch.char) ∈ mysqlNames := by simp [mysqlNames]
      have htype : sourceColumnToDorisType (MysqlType.char n bytes).text = branchType [n] .char :=
        mysql_sized hentry n
      rw [htype]
      refine keeps_characters (fun value => ?_) (fun _ => Iff.rfl) (by decide)
      cases value <;> simp [MysqlType.Has]
  | varchar n bytes =>
      have hentry : ("varchar", Branch.varchar) ∈ mysqlNames := by simp [mysqlNames]
      have htype : sourceColumnToDorisType (MysqlType.varchar n bytes).text = branchType [n] .varchar :=
        mysql_sized hentry n
      rw [htype]
      refine keeps_characters (fun value => ?_) (fun _ => Iff.rfl) (by decide)
      cases value <;> simp [MysqlType.Has]
  | binary n =>
      have hentry : ("binary", Branch.string) ∈ mysqlNames := by simp [mysqlNames]
      rw [MysqlType.text, mysql_string hentry]
      exact iff_of_true (keeps_string _) trivial
  | varbinary n =>
      have hentry : ("varbinary", Branch.string) ∈ mysqlNames := by simp [mysqlNames]
      rw [MysqlType.text, mysql_string hentry]
      exact iff_of_true (keeps_string _) trivial
  | plain type =>
      rw [MysqlType.text, sourceColumnToDorisType_plain (mysqlPlain_named type)]
      exact iff_of_true (keeps_string _) trivial
  | enum items =>
      have hentry : ("enum", Branch.string) ∈ mysqlNames := by simp [mysqlNames]
      rw [MysqlType.text, mysql_string hentry]
      exact iff_of_true (keeps_string _) trivial
  | set items =>
      have hentry : ("set", Branch.string) ∈ mysqlNames := by simp [mysqlNames]
      rw [MysqlType.text, mysql_string hentry]
      exact iff_of_true (keeps_string _) trivial
  | date =>
      have hentry : ("date", Branch.date) ∈ mysqlNames := by simp [mysqlNames]
      have htype : sourceColumnToDorisType MysqlType.date.text = .date :=
        sourceColumnToDorisType_plain (mysqlNames_named _ hentry)
      rw [htype]
      refine iff_of_true (fun value h => ?_) trivial
      cases value with
      | moment timeOfDay zone => exact h
      | _ => exact h.elim
  | datetime precision =>
      have hentry : ("datetime", Branch.datetime) ∈ mysqlNames := by simp [mysqlNames]
      rw [MysqlType.text, mysql_withParams hentry fun _ => rfl]
      refine (@keeps_moments _ (precision.getD 0) False fun value => ?_).trans (and_iff_left id)
      cases value <;> simp [MysqlType.Has, and_comm]
  | timestamp precision =>
      have hentry : ("timestamp", Branch.datetime) ∈ mysqlNames := by simp [mysqlNames]
      rw [MysqlType.text, mysql_withParams hentry fun _ => rfl]
      refine (@keeps_moments _ (precision.getD 0) False fun value => ?_).trans (and_iff_left id)
      cases value <;> simp [MysqlType.Has, and_comm]
  | time precision =>
      have hentry : ("time", Branch.string) ∈ mysqlNames := by simp [mysqlNames]
      rw [MysqlType.text, mysql_withParams hentry fun _ => rfl]
      exact iff_of_true (keeps_string _) trivial
  | year width =>
      have hentry : ("year", Branch.string) ∈ mysqlNames := by simp [mysqlNames]
      rw [MysqlType.text, mysql_withParams hentry fun _ => rfl]
      exact iff_of_true (keeps_string _) trivial

/-! ### Both databases -/

inductive SourceType
  | oracle (type : OracleType)
  | mysql (type : MysqlType)

/-- The text from which the Doris type is chosen. -/
def SourceType.text : SourceType → List Char
  | oracle type => oracleTypeText type.row
  | mysql type => type.text

def SourceType.Has : SourceType → Value → Prop
  | oracle type => type.Has
  | mysql type => type.Has

def SourceType.Kept : SourceType → Prop
  | oracle type => type.Kept
  | mysql type => type.Kept

/-- The Doris type holds every value of the source type exactly when the source type is one that is kept. -/
theorem sourceColumnToDorisType_keeps_iff (type : SourceType) :
    (∀ value, type.Has value → (sourceColumnToDorisType type.text).Holds value) ↔ type.Kept := by
  cases type with
  | oracle type => exact oracle_keeps type
  | mysql type => exact mysql_keeps type

/-- `int(10) unsigned` becomes `INT`, which does not hold `2 ^ 32 - 1`. -/
theorem unsigned_narrowed :
    ¬∀ type : SourceType, ∀ value, type.Has value → (sourceColumnToDorisType type.text).Holds value := by
  intro hall
  have htype : sourceColumnToDorisType (SourceType.mysql (.integer .int (some 10) .unsigned)).text = .int := by
    decide +kernel
  have hhas : (SourceType.mysql (.integer .int (some 10) .unsigned)).Has (.number (4294967295 : ℤ)) :=
    integer_intCast.mpr (by decide)
  have hholds := hall (.mysql (.integer .int (some 10) .unsigned)) (.number (4294967295 : ℤ)) hhas
  rw [htype] at hholds
  have hint : Integer (-2 ^ 31) (2 ^ 31 - 1) (4294967295 : ℤ) := hholds
  exact absurd (integer_intCast.mp hint).2 (by decide)

end DataSync
