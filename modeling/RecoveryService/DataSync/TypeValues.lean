import RecoveryService.DataSync.DorisTypes
import RecoveryService.Lib.NumberFormats

/-! # Values of columns

The values that a column of a Doris type can hold.  Of a text only its length in UTF-8 is kept, of a point in
time the time of the day.  A type keeps a source when it holds all its values; the lemmas say when that is so
for decimals, integers, texts and points in time. -/

namespace DataSync

open NumberFormats

/-! ### Values -/

inductive Value
  | number (q : ℚ)
  | text (bytes : ℕ)
  /-- The nanoseconds of the day, and the time zone that is stored. -/
  | moment (timeOfDay : ℕ) (zone : Option ℤ)
  /-- A value of another kind. -/
  | other

def binary32 : ℚ → Prop := Binary 24 (-149) 104

def binary64 : ℚ → Prop := Binary 53 (-1074) 971

/-- One second. -/
def second : ℕ := 10 ^ 9

/-- A column of the type can hold the value; a `STRING` holds the text of every value. -/
def DorisType.Holds : DorisType → Value → Prop
  | char length, .text bytes => bytes ≤ length
  | varchar length, .text bytes => bytes ≤ length
  | string, _ => True
  | tinyint, .number q => Integer (-2 ^ 7) (2 ^ 7 - 1) q
  | smallint, .number q => Integer (-2 ^ 15) (2 ^ 15 - 1) q
  | int, .number q => Integer (-2 ^ 31) (2 ^ 31 - 1) q
  | bigint, .number q => Integer (-2 ^ 63) (2 ^ 63 - 1) q
  | largeint, .number q => Integer (-2 ^ 127) (2 ^ 127 - 1) q
  | decimal precision scale, .number q => Decimal precision scale q
  | float, .number q => binary32 q
  | double, .number q => binary64 q
  | boolean, .number q => Integer 0 1 q
  | date, .moment timeOfDay zone => timeOfDay = 0 ∧ zone = none
  | datetime, .moment timeOfDay zone => timeOfDay % second = 0 ∧ zone = none
  | _, _ => False

/-- The type can hold every value that the source has. -/
def DorisType.Keeps (type : DorisType) (has : Value → Prop) : Prop := ∀ value, has value → type.Holds value

theorem keeps_string (has : Value → Prop) : DorisType.string.Keeps has := by
  intro value _
  cases value <;> trivial

variable {has : Value → Prop}

/-- A source with one kind of values. -/
theorem keeps_iff {α : Type} {make : α → Value} (honly : ∀ value, has value → ∃ a, value = make a)
    (type : DorisType) : type.Keeps has ↔ ∀ a, has (make a) → type.Holds (make a) := by
  constructor
  · intro hall a
    exact hall (make a)
  · intro hall value hvalue
    obtain ⟨a, rfl⟩ := honly value hvalue
    exact hall a hvalue

/-- The digits of the integer type that is chosen for `p` digits. -/
def integerDigits (p : ℕ) : ℕ := if p ≤ 9 then 9 else if p ≤ 18 then 18 else 38

/-- With `s` digits behind the point the decimal type is taken, and it has no more than 38 digits, none of them
outside the precision.  Without them an integer type is taken for the precision alone, so the zeros of a
negative scale must find a place in it. -/
def NumberKept (p : ℕ) (s : ℤ) : Prop :=
  p ≤ dorisMaxDecimalPrecision ∧ if s ≤ 0 then p - s ≤ integerDigits p else s ≤ p

/-! ### Numbers -/

section Numbers

variable {has : Value → Prop} {p : ℕ} {s : ℤ}

/-- The values are decimals, and among them are those that are not negative. -/
structure Decimals (has : Value → Prop) (p : ℕ) (s : ℤ) : Prop where
  decimal {value : Value} (h : has value) : ∃ q, value = .number q ∧ Decimal p s q
  all {q : ℚ} (h : Decimal p s q) (hq : 0 ≤ q) : has (.number q)

theorem step_nonneg (s : ℤ) : (0 : ℚ) ≤ 10 ^ (-s) := zpow_nonneg (by norm_num) _

theorem top_nonneg (p : ℕ) (s : ℤ) : 0 ≤ top p s := by
  have hpos : (1 : ℤ) ≤ 10 ^ p := one_le_pow₀ (by norm_num)
  exact mul_nonneg (by exact_mod_cast Int.sub_nonneg_of_le hpos) (step_nonneg s)

/-- An integer type with `c` whole digits, against decimals with `p` digits and zeros behind them. -/
theorem integer_keeps {c m : ℕ} {lo hi : ℤ} (h : Decimals has p s) (hs : s ≤ 0) (hp : p ≤ c)
    (hm : c + 1 - p ≤ m) (hlo : lo ≤ -(10 ^ c - 1)) (hhi : 10 ^ c - 1 ≤ hi) (hlt : hi < 10 ^ (c + 1) - 10 ^ m) :
    (∀ q, has (.number q) → Integer lo hi q) ↔ p - s ≤ c := by
  obtain ⟨k, rfl⟩ : ∃ k : ℕ, s = -k := ⟨(-s).toNat, by omega⟩
  constructor
  · intro hall
    by_contra hgt
    exact integer_top hp (by omega) hm hlt (hall _ (h.all (decimal_top p _) (top_nonneg p _)))
  · intro hle q hq
    obtain ⟨q', heq, hdecimal⟩ := h.decimal hq
    cases heq
    exact (hdecimal.mono (by omega) (by omega)).integer hlo hhi

/-- A decimal type keeps decimals with digits behind the point when it has their scale and their digits. -/
theorem decimal_keeps {p' s' : ℕ} (h : Decimals has p s) (hp : 1 ≤ p) :
    (∀ q, has (.number q) → Decimal p' s' q) ↔ s ≤ s' ∧ p + (s' - s).toNat ≤ p' := by
  constructor
  · intro hall
    have hs := scale_le_of_step (hall _ (h.all (decimal_step hp s) (step_nonneg s)))
    exact ⟨hs, digits_le_of_top hs hp (hall _ (h.all (decimal_top p s) (top_nonneg p s)))⟩
  · rintro ⟨hs, hdigits⟩ q hq
    obtain ⟨q', heq, hdecimal⟩ := h.decimal hq
    cases heq
    exact hdecimal.mono hs hdigits

/-- The types of numbers, for a precision and a scale as they are read. -/
theorem numberType_keeps (h : Decimals has p s) (hp : 1 ≤ p) :
    (numberType (if 0 ≤ s then [p, s.toNat] else [p])).Keeps has ↔ NumberKept p s := by
  have hprecision : (if 0 ≤ s then [p, s.toNat] else [p]).headD dorisMaxDecimalPrecision = p := by
    split_ifs <;> rfl
  have hscale : (if 0 ≤ s then [p, s.toNat] else [p]).getD 1 0 = s.toNat := by
    split_ifs with hs
    · rfl
    · exact (Int.toNat_of_nonpos (by omega)).symm
  rw [keeps_iff fun value hvalue => (h.decimal hvalue).imp fun q hq => hq.1]
  unfold numberType NumberKept integerDigits dorisMaxDecimalPrecision at *
  simp only
  rw [hprecision, hscale]
  by_cases hs : s ≤ 0
  · rw [if_pos hs]
    have hzero : s.toNat ≤ 0 := by omega
    by_cases h9 : p ≤ 9
    · rw [if_pos ⟨hzero, h9⟩, if_pos h9, and_iff_right (by omega)]
      exact @integer_keeps _ _ _ 9 9 _ _ h hs h9 (by omega) (by norm_num) (by norm_num) (by norm_num)
    · rw [if_neg (by omega), if_neg h9]
      by_cases h18 : p ≤ 18
      · rw [if_pos ⟨hzero, h18⟩, if_pos h18, and_iff_right (by omega)]
        exact @integer_keeps _ _ _ 18 9 _ _ h hs h18 (by omega) (by norm_num) (by norm_num) (by norm_num)
      · rw [if_neg (by omega), if_neg h18]
        by_cases h38 : p ≤ 38
        · rw [if_pos ⟨hzero, h38⟩, and_iff_right h38]
          exact @integer_keeps _ _ _ 38 20 _ _ h hs h38 (by omega) (by norm_num) (by norm_num) (by norm_num)
        · rw [if_neg (by omega)]
          refine (decimal_keeps h hp).trans ⟨?_, ?_⟩
          · rintro ⟨-, hdigits⟩
            omega
          · rintro ⟨hle, -⟩
            exact absurd hle h38
  · rw [if_neg hs, if_neg (by omega), if_neg (by omega), if_neg (by omega)]
    refine (decimal_keeps h hp).trans ⟨?_, ?_⟩
    · rintro ⟨hle, hdigits⟩
      omega
    · rintro ⟨hle, hdigits⟩
      omega

end Numbers

/-! ### Texts and points in time -/

theorem keeps_texts {n m : ℕ} {type : DorisType} (hhas : ∀ value, has value ↔ ∃ bytes ≤ n, value = .text bytes)
    (hholds : ∀ bytes, type.Holds (.text bytes) ↔ bytes ≤ m) : type.Keeps has ↔ n ≤ m := by
  rw [keeps_iff fun value hvalue => ((hhas value).mp hvalue).imp fun _ h => h.2]
  simp only [hholds]
  constructor
  · intro hall
    exact hall n ((hhas _).mpr ⟨n, le_rfl, rfl⟩)
  · intro hle bytes hbytes
    obtain ⟨bytes', hle', heq⟩ := (hhas _).mp hbytes
    cases heq
    exact hle'.trans hle

theorem keeps_integers {lo hi lo' hi' : ℤ} {type : DorisType}
    (hhas : ∀ value, has value ↔ ∃ q, Integer lo hi q ∧ value = .number q)
    (hholds : ∀ q, type.Holds (.number q) ↔ Integer lo' hi' q) (hle : lo ≤ hi) :
    type.Keeps has ↔ lo' ≤ lo ∧ hi ≤ hi' := by
  rw [keeps_iff fun value hvalue => ((hhas value).mp hvalue).imp fun _ h => h.2]
  simp only [hholds]
  constructor
  · intro hall
    have hlow := hall lo ((hhas _).mpr ⟨lo, integer_intCast.mpr ⟨le_rfl, hle⟩, rfl⟩)
    have hhigh := hall hi ((hhas _).mpr ⟨hi, integer_intCast.mpr ⟨hle, le_rfl⟩, rfl⟩)
    exact ⟨(integer_intCast.mp hlow).1, (integer_intCast.mp hhigh).2⟩
  · rintro ⟨hlow, hhigh⟩ q hq
    obtain ⟨q', hq', heq⟩ := (hhas _).mp hq
    cases heq
    exact hq'.mono hlow hhigh

/-- Points in time with `precision` digits of the second, of which a `DATETIME` has none, and without a zone. -/
theorem keeps_moments {precision : ℕ} {zoned : Prop}
    (hhas : ∀ value, has value ↔ ∃ timeOfDay zone, value = .moment timeOfDay zone ∧
      timeOfDay % 10 ^ (9 - precision) = 0 ∧ (zone.isSome ↔ zoned)) :
    DorisType.datetime.Keeps has ↔ precision = 0 ∧ ¬zoned := by
  constructor
  · intro hall
    refine ⟨?_, ?_⟩
    · by_contra hprecision
      have hlt : 10 ^ (9 - precision) < second := Nat.pow_lt_pow_right (by decide) (by omega)
      have hpos : 0 < 10 ^ (9 - precision) := Nat.pow_pos (by decide)
      obtain ⟨zone, hzone⟩ : ∃ zone : Option ℤ, zone.isSome ↔ zoned := by
        by_cases hzoned : zoned
        · exact ⟨some 0, iff_of_true rfl hzoned⟩
        · exact ⟨none, iff_of_false Bool.false_ne_true hzoned⟩
      have h := (hall _ ((hhas _).mpr ⟨10 ^ (9 - precision), zone, rfl, Nat.mod_self _, hzone⟩)).1
      rw [Nat.mod_eq_of_lt hlt] at h
      omega
    · intro hzoned
      have h := (hall _ ((hhas _).mpr ⟨0, some 0, rfl, Nat.zero_mod _, iff_of_true rfl hzoned⟩)).2
      cases h
  · rintro ⟨rfl, hzoned⟩ value hvalue
    obtain ⟨timeOfDay, zone, rfl, htime, hzone⟩ := (hhas _).mp hvalue
    refine ⟨htime, ?_⟩
    cases zone with
    | none => rfl
    | some zone => exact absurd (hzone.mp rfl) hzoned

end DataSync
