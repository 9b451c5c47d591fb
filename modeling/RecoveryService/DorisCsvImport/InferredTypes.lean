import RecoveryService.Lib.NumberFormats
import RecoveryService.Lib.Text

/-! # The types of the columns of a file

`_infer_type` and `_create_table` of `services/doris_csv_import.py`.  A type is chosen by the look of the values,
their size is not; the key is the first column that is not a long `VARCHAR`, wherever it stands. -/

namespace RecoveryService.DorisCsvImport

open Text NumberFormats

abbrev Value := List Char

/-- The types `_infer_type` returns; `normalize_doris_csv_column_type` leaves them as they are. -/
inductive ColumnType where
  | varchar (length : ℕ)
  | boolean
  | bigint
  | decimal (precision scale : ℕ)
  | date
  | datetime

def nullValues : List String := ["", "null", "none", "nil", "nan", "n/a", "\\n"]

def boolValues : List String := ["true", "false", "yes", "no", "0", "1"]

def dateFormats : List String := ["%Y-%m-%d", "%Y/%m/%d"]

def datetimeFormats : List String := ["%Y-%m-%d %H:%M:%S", "%Y/%m/%d %H:%M:%S", "%Y-%m-%dT%H:%M:%S"]

/-- `str.lower`, the decimal digits of Unicode outside ASCII, and whether `strptime` reads a value. -/
structure Python where
  lower : Value → Value
  otherDigit : Char → Bool
  strptime : Value → String → Bool

section

variable (py : Python)

/-- The characters of `\d`. -/
def isDigit (c : Char) : Bool := c.isDigit || (0x7F < c.toNat && py.otherDigit c)

def isNull (value : Value) : Bool := String.ofList (py.lower (stripChars isSpace value)) ∈ nullValues

def isBool (value : Value) : Bool := String.ofList (py.lower (stripChars isSpace value)) ∈ boolValues

/-- A number without its sign. -/
def unsigned : Value → Value
  | '+' :: rest => rest
  | '-' :: rest => rest
  | value => value

/-- The digits before the point. -/
def whole (value : Value) : Value := (unsigned value).takeWhile (· ≠ '.')

/-- The digits behind the point. -/
def fraction (value : Value) : Value := ((unsigned value).dropWhile (· ≠ '.')).drop 1

/-- `_INT_RE`. -/
def isInt (value : Value) : Bool := unsigned value ≠ [] ∧ (unsigned value).all (isDigit py)

/-- `_DECIMAL_RE`. -/
def isPointed (value : Value) : Bool :=
  '.' ∈ unsigned value ∧ (whole value).all (isDigit py) ∧ (fraction value).all (isDigit py) ∧
    ¬(whole value = [] ∧ fraction value = [])

/-- `Decimal` takes what the patterns take. -/
def isDecimal (value : Value) : Bool := isPointed py value || isInt py value

def decimalScale (value : Value) : ℕ := (fraction value).length

def matchesDatetime (formats : List String) (value : Value) : Bool :=
  formats.any (py.strptime (stripChars isSpace value))

/-- The values that are looked at. -/
def nonEmpty (values : List Value) : List Value := (values.filter (! isNull py ·)).map (stripChars isSpace)

def inferredScale (values : List Value) : ℕ := min ((values.map decimalScale).foldr max 0) 18

def inferType (values : List Value) : ColumnType :=
  let values := nonEmpty py values
  if values = [] then .varchar 65533
  else if values.all (isBool py) then .boolean
  else if values.all (isInt py) then .bigint
  else if values.all (isDecimal py) then .decimal 38 (inferredScale values)
  else if values.all (matchesDatetime py dateFormats) then .date
  else if values.all (matchesDatetime py datetimeFormats) then .datetime
  else .varchar 65533

end

/-! ### The table -/

structure InferredColumn where
  name : Value
  type : ColumnType

/-- `_varchar_type_length(type) or 0`. -/
def varcharLength : ColumnType → ℕ
  | .varchar length => length
  | _ => 0

/-- `_is_doris_key_type`. -/
def isDorisKeyType : ColumnType → Bool
  | .varchar _ | .decimal _ _ | .boolean | .bigint | .date | .datetime => true

def chooseKeyColumn (columns : List InferredColumn) : Option Value :=
  ((columns.find? fun c => isDorisKeyType c.type && varcharLength c.type ≤ 255).or
    (columns.find? fun c => isDorisKeyType c.type)).map InferredColumn.name

/-- The columns and the key of a `CREATE TABLE`. -/
structure Table where
  columns : List InferredColumn
  key : Value

/-- The statement of `_create_table`, if it does not raise. -/
def createTableDdl (columns : List InferredColumn) : Option Table :=
  let columns := columns.filter (stripChars isSpace ·.name ≠ [])
  (chooseKeyColumn columns).map fun key =>
    { columns := columns.map fun c =>
        if c.name = key ∧ 255 < varcharLength c.type then { c with type := .varchar 255 } else c
      key := key }

/-! ### What Doris takes -/

/-- The number of its digits, with its sign. -/
def numeral (value : Value) : ℤ :=
  let n := ofDigits (whole value ++ fraction value)
  if value.head? = some '-' then -n else n

/-- A number is written in ASCII. -/
def isAscii (value : Value) : Prop := ∀ c ∈ unsigned value, c.isDigit = true ∨ c = '.'

/-- A value is one of the type, as it is; `accepts` are the truth values and the dates that Doris takes. -/
def Literal (accepts : ColumnType → Value → Prop) (value : Value) : ColumnType → Prop
  | .varchar length => (String.ofList value).utf8ByteSize ≤ length
  | .bigint => isAscii value ∧ Integer (-2 ^ 63) (2 ^ 63 - 1) (numeral value / 10 ^ decimalScale value)
  | .decimal precision scale =>
      isAscii value ∧ Decimal precision scale (numeral value / 10 ^ decimalScale value)
  | type => accepts type value

/-- The key is the first column, and the others keep their types. -/
def Keyed (columns : List InferredColumn) (table : Table) : Prop :=
  ∃ first rest, columns.filter (stripChars isSpace ·.name ≠ []) = first :: rest ∧
    table.key = first.name ∧ table.columns.tail = rest

/-- The values are ones of the types of their columns, and a table is made of these types. -/
def WellTyped (py : Python) (accepts : ColumnType → Value → Prop) (columns : List (Value × List Value)) : Prop :=
  (∀ c ∈ columns, ∀ value ∈ nonEmpty py c.2, Literal accepts value (inferType py c.2)) ∧
    ∀ table, createTableDdl (columns.map fun c => ⟨c.1, inferType py c.2⟩) = some table →
      Keyed (columns.map fun c => ⟨c.1, inferType py c.2⟩) table

/-! ### When the values fit -/

/-- The whole part leaves room for the scale, and only zeros are behind it. -/
def FitsScale (scale : ℕ) (value : Value) : Prop :=
  isAscii value ∧ ofDigits (whole value) < 10 ^ (38 - scale) ∧ ∀ c ∈ (fraction value).drop scale, c = '0'

/-- By the look of the values that are looked at: truth values and dates are ones that Doris takes, integers are
of the range, decimals leave room for the longest fraction, and texts are not too long. -/
def Fits (py : Python) (accepts : ColumnType → Value → Prop) (values : List Value) : Prop :=
  let values := nonEmpty py values
  if values.all (isBool py) then ∀ value ∈ values, accepts .boolean value
  else if values.all (isInt py) then
    ∀ value ∈ values, isAscii value ∧ -2 ^ 63 ≤ numeral value ∧ numeral value ≤ 2 ^ 63 - 1
  else if values.all (isDecimal py) then ∀ value ∈ values, FitsScale (inferredScale values) value
  else if values.all (matchesDatetime py dateFormats) then ∀ value ∈ values, accepts .date value
  else if values.all (matchesDatetime py datetimeFormats) then ∀ value ∈ values, accepts .datetime value
  else ∀ value ∈ values, (String.ofList value).utf8ByteSize ≤ 65533

/-- The first short column has the name of the first one, and no other long column has it. -/
def FitsKey (columns : List InferredColumn) : Prop :=
  ∀ first rest, columns.filter (stripChars isSpace ·.name ≠ []) = first :: rest →
    (∀ c ∈ (first :: rest).find? (varcharLength ·.type ≤ 255), c.name = first.name) ∧
      ∀ c ∈ rest, 255 < varcharLength c.type → c.name ≠ first.name

variable {py : Python} {accepts : ColumnType → Value → Prop} {value : Value} {values : List Value}

/-! ### Numbers -/

theorem not_isDigit_point {ds : Value} (h : ∀ c ∈ ds, isDigit py c = true) : '.' ∉ ds :=
  fun hmem => Bool.false_ne_true (h _ hmem)

theorem fraction_subset (value : Value) : ∀ c ∈ fraction value, c ∈ unsigned value :=
  fun _ hc => (List.dropWhile_suffix _).subset (List.mem_of_mem_drop hc)

theorem fraction_of_isInt (h : isInt py value = true) : fraction value = [] := by
  have hdigits := List.all_eq_true.mp (of_decide_eq_true h).2
  have hnil : (unsigned value).dropWhile (· ≠ '.') = [] := List.dropWhile_eq_nil_iff.mpr fun c hc =>
    decide_eq_true fun heq => not_isDigit_point hdigits (heq ▸ hc)
  rw [fraction, hnil]
  rfl

theorem areDigits_fraction (h : isDecimal py value = true) (hascii : isAscii value) :
    AreDigits (fraction value) := by
  have hpoint : '.' ∉ fraction value := by
    rcases Bool.or_eq_true_iff.mp h with hpointed | hint
    · exact not_isDigit_point (List.all_eq_true.mp (of_decide_eq_true hpointed).2.2.1)
    · rw [fraction_of_isInt hint]
      exact List.not_mem_nil
  exact fun c hc => (hascii c (fraction_subset value c hc)).resolve_right fun heq => hpoint (heq ▸ hc)

theorem numeral_natAbs (value : Value) : (numeral value).natAbs = ofDigits (whole value ++ fraction value) := by
  unfold numeral
  split_ifs
  · exact (Int.natAbs_neg _).trans (Int.natAbs_natCast _)
  · exact Int.natAbs_natCast _

theorem literal_bigint_iff (h : isInt py value = true) : Literal accepts value .bigint ↔
    isAscii value ∧ -2 ^ 63 ≤ numeral value ∧ numeral value ≤ 2 ^ 63 - 1 := by
  unfold Literal decimalScale
  rw [fraction_of_isInt h, List.length_nil, pow_zero, div_one, integer_intCast]

theorem literal_decimal_iff (h : isDecimal py value = true) {scale : ℕ} (hscale : scale ≤ 38) :
    Literal accepts value (.decimal 38 scale) ↔ FitsScale scale value := by
  unfold Literal FitsScale
  exact and_congr_right fun hascii => decimal_digits_iff hscale (areDigits_fraction h hascii) (numeral_natAbs value)

theorem literals_iff (py : Python) (accepts : ColumnType → Value → Prop) (values : List Value) :
    (∀ value ∈ nonEmpty py values, Literal accepts value (inferType py values)) ↔ Fits py accepts values := by
  unfold inferType Fits
  generalize nonEmpty py values = values
  have hall {p : Value → Bool} (h : values.all p = true) {value : Value} (hv : value ∈ values) : p value = true :=
    List.all_eq_true.mp h value hv
  by_cases hnil : values = []
  · subst hnil
    exact iff_of_true (fun _ h => absurd h List.not_mem_nil) fun _ h => absurd h List.not_mem_nil
  dsimp only
  rw [if_neg hnil]
  split_ifs with hbool hint hdecimal hdate hdatetime
  · rfl
  · exact forall₂_congr fun value hv => literal_bigint_iff (hall hint hv)
  · have hscale : inferredScale values ≤ 38 := (min_le_right _ _).trans (by decide)
    exact forall₂_congr fun value hv => literal_decimal_iff (hall hdecimal hv) hscale
  · rfl
  · rfl
  · rfl

/-! ### The key -/

theorem keyed_iff (columns : List InferredColumn) :
    (∀ table, createTableDdl columns = some table → Keyed columns table) ↔ FitsKey columns := by
  unfold createTableDdl Keyed FitsKey
  generalize columns.filter (stripChars isSpace ·.name ≠ []) = columns
  cases columns with
  | nil => exact iff_of_true (fun _ h => nomatch h) fun _ _ h => nomatch h
  | cons first rest =>
      have hshort : (first :: rest).find? (fun c => isDorisKeyType c.type && varcharLength c.type ≤ 255) =
          (first :: rest).find? (varcharLength ·.type ≤ 255) := by
        congr 1
        funext c
        cases c.type <;> rfl
      have hany : (first :: rest).find? (fun c => isDorisKeyType c.type) = some first := by
        rw [List.find?_cons_of_pos]
        cases first.type <;> rfl
      -- the column the key is named after
      generalize hkey : ((first :: rest).find? (varcharLength ·.type ≤ 255)).getD first = key
      have hchoose : chooseKeyColumn (first :: rest) = some key.name := by
        rw [chooseKeyColumn, hshort, hany, ← hkey]
        cases (first :: rest).find? (varcharLength ·.type ≤ 255) <;> rfl
      have hname : (∀ c ∈ (first :: rest).find? (varcharLength ·.type ≤ 255), c.name = first.name) ↔
          key.name = first.name := by
        rw [← hkey]
        cases (first :: rest).find? (varcharLength ·.type ≤ 255) with
        | none => exact iff_of_true (fun _ h => nomatch h) rfl
        | some c => exact ⟨fun h => h c rfl, fun h _ hc => Option.some.inj hc ▸ h⟩
      dsimp only
      rw [hchoose]
      constructor
      · rintro h _ _ ⟨rfl, rfl⟩
        obtain ⟨_, _, ⟨rfl, rfl⟩, hfirst, htail⟩ := h _ rfl
        refine ⟨hname.mpr hfirst, fun c hc hlong heq => ?_⟩
        have hkept := List.map_eq_map_iff.mp (htail.trans (List.map_id rest).symm) c hc
        rw [if_pos ⟨heq.trans hfirst.symm, hlong⟩] at hkept
        have htype : 255 = varcharLength c.type := congrArg (fun c : InferredColumn => varcharLength c.type) hkept
        exact absurd hlong (htype ▸ lt_irrefl _)
      · rintro h table ⟨rfl⟩
        obtain ⟨hfirst, hlong⟩ := h first rest rfl
        rw [hname] at hfirst
        refine ⟨first, rest, rfl, hfirst, (List.map_congr_left fun c hc => ?_).trans (List.map_id rest)⟩
        exact if_neg fun hchanged => hlong c hc hchanged.2 (hchanged.1.trans hfirst)

/-- The types are sound exactly where the values fit them and the first column is fit for the key. -/
theorem wellTyped_iff (py : Python) (accepts : ColumnType → Value → Prop) (columns : List (Value × List Value)) :
    WellTyped py accepts columns ↔ (∀ c ∈ columns, Fits py accepts c.2) ∧
      FitsKey (columns.map fun c => ⟨c.1, inferType py c.2⟩) :=
  and_congr (forall₂_congr fun c _ => literals_iff py accepts c.2) (keyed_iff _)

/-- A number of 20 digits is taken for a `BIGINT`. -/
theorem bigint_overflows : ¬∀ (py : Python) (accepts : ColumnType → Value → Prop)
    (columns : List (Value × List Value)), WellTyped py accepts columns := by
  intro h
  have hfits := (literals_iff _ _ _).mp
    ((h ⟨id, fun _ => false, fun _ _ => false⟩ (fun _ _ => True) [(['a'], ["10000000000000000000".toList])]).1
      _ List.mem_cons_self)
  unfold Fits at hfits
  rw [if_neg (by decide +kernel), if_pos (by decide +kernel)] at hfits
  have hle := (hfits "10000000000000000000".toList (by decide +kernel)).2.2
  exact absurd hle (by decide +kernel)

end RecoveryService.DorisCsvImport
