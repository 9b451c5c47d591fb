import Mathlib

/-! # The proleptic Gregorian calendar

Days have ordinals: the first of January of the year 1 is day 1.  Months are numbered from it as
well, from 0 on: month `k` is the month `k % 12 + 1` of the year `k / 12 + 1`.  Month `k` are the
days behind `monthStart k` up to `monthStart (k + 1)`, and every day lies in exactly one month
(`monthIndex_eq_iff`). -/

namespace Calendar

def isLeap (year : ℕ) : Bool := year % 4 = 0 ∧ (year % 100 ≠ 0 ∨ year % 400 = 0)

def daysInMonth (year month : ℕ) : ℕ :=
  if month = 2 then (if isLeap year then 29 else 28)
  else if month = 4 ∨ month = 6 ∨ month = 9 ∨ month = 11 then 30
  else 31

/-- The days of the years before `year`. -/
def daysBeforeYear (year : ℕ) : ℕ :=
  (year - 1) * 365 + (year - 1) / 4 - (year - 1) / 100 + (year - 1) / 400

/-- The days of the months of `year` before `month`. -/
def daysBeforeMonth (year : ℕ) : ℕ → ℕ
  | 0 => 0
  | 1 => 0
  | month + 2 => daysBeforeMonth year (month + 1) + daysInMonth year (month + 1)

/-- The ordinal of a date. -/
def toOrdinal (year month day : ℕ) : ℕ := daysBeforeYear year + daysBeforeMonth year month + day

/-- The days before the month `k`. -/
def monthStart (k : ℕ) : ℕ := toOrdinal (k / 12 + 1) (k % 12 + 1) 0

/-- The days of the month `k`. -/
def monthLength (k : ℕ) : ℕ := daysInMonth (k / 12 + 1) (k % 12 + 1)

/-- The number of years before the one of the day `n`. -/
def yearIndex (n : ℕ) : ℕ := Nat.findGreatest (fun y => daysBeforeYear (y + 1) < n) (n / 365)

/-- The number of the month of the day `n`. -/
def monthIndex (n : ℕ) : ℕ :=
  12 * yearIndex n + Nat.findGreatest (fun m => monthStart (12 * yearIndex n + m) < n) 11

def year (n : ℕ) : ℕ := monthIndex n / 12 + 1

def month (n : ℕ) : ℕ := monthIndex n % 12 + 1

/-- The day of the month. -/
def day (n : ℕ) : ℕ := n - monthStart (monthIndex n)

/-- Monday is 0. -/
def weekday (n : ℕ) : ℕ := (n + 6) % 7

/-! ### Months follow each other -/

theorem daysInMonth_pos (year month : ℕ) : 0 < daysInMonth year month := by
  unfold daysInMonth
  split_ifs <;> omega

theorem isLeap_iff {year : ℕ} :
    isLeap year = true ↔ 4 ∣ year ∧ (¬ 100 ∣ year ∨ 400 ∣ year) := by
  unfold isLeap
  rw [decide_eq_true_eq, Nat.dvd_iff_mod_eq_zero, Nat.dvd_iff_mod_eq_zero, Nat.dvd_iff_mod_eq_zero]

/-- A year has 365 days, a leap year one more. -/
theorem daysBeforeYear_succ (y : ℕ) :
    daysBeforeYear (y + 2) = daysBeforeYear (y + 1) + if isLeap (y + 1) then 366 else 365 := by
  have h100 : 100 ∣ y + 1 → 4 ∣ y + 1 := (by decide : 4 ∣ 100).trans
  have h400 : 400 ∣ y + 1 → 100 ∣ y + 1 := (by decide : 100 ∣ 400).trans
  have hle : y / 100 ≤ y / 4 := Nat.div_le_div_left (by decide) (by decide)
  have hsucc : ∀ b, (y + 1) / b = y / b + if b ∣ y + 1 then 1 else 0 := fun _ => Nat.succ_div
  show (y + 1) * 365 + (y + 1) / 4 - (y + 1) / 100 + (y + 1) / 400 =
    y * 365 + y / 4 - y / 100 + y / 400 + _
  rw [hsucc 4, hsucc 100, hsucc 400]
  simp only [isLeap_iff]
  generalize y / 4 = a at *
  generalize y / 100 = b at *
  generalize y / 400 = c at *
  by_cases h₁ : 100 ∣ y + 1
  · by_cases h₂ : 400 ∣ y + 1
    · rw [if_pos (h100 h₁), if_pos h₁, if_pos h₂, if_pos ⟨h100 h₁, Or.inr h₂⟩]
      omega
    · rw [if_pos (h100 h₁), if_pos h₁, if_neg h₂, if_neg (by tauto)]
      omega
  · have h₂ : ¬ 400 ∣ y + 1 := fun h => h₁ (h400 h)
    rw [if_neg h₁, if_neg h₂]
    by_cases h₃ : 4 ∣ y + 1
    · rw [if_pos h₃, if_pos ⟨h₃, Or.inl h₁⟩]
      omega
    · rw [if_neg h₃, if_neg (by tauto)]
      omega

/-- The months of a year make up the year. -/
theorem daysBeforeMonth_year (year : ℕ) :
    daysBeforeMonth year 12 + daysInMonth year 12 = if isLeap year then 366 else 365 := by
  have hfebruary : daysInMonth year 2 = if isLeap year then 29 else 28 := rfl
  show 0 + 31 + daysInMonth year 2 + 31 + 30 + 31 + 30 + 31 + 31 + 30 + 31 + 30 + 31 = _
  rw [hfebruary]
  cases isLeap year <;> rfl

theorem monthStart_succ (k : ℕ) : monthStart (k + 1) = monthStart k + monthLength k := by
  unfold monthStart monthLength toOrdinal
  by_cases hlast : k % 12 = 11
  · have hyear : (k + 1) / 12 = k / 12 + 1 := by omega
    have hmonth : (k + 1) % 12 = 0 := by omega
    rw [hyear, hmonth, hlast, daysBeforeYear_succ, ← daysBeforeMonth_year]
    show daysBeforeYear (k / 12 + 1) +
        (daysBeforeMonth (k / 12 + 1) 12 + daysInMonth (k / 12 + 1) 12) + 0 + 0 =
      daysBeforeYear (k / 12 + 1) + daysBeforeMonth (k / 12 + 1) 12 + 0 + daysInMonth (k / 12 + 1) 12
    omega
  · have hyear : (k + 1) / 12 = k / 12 := by omega
    have hmonth : (k + 1) % 12 = k % 12 + 1 := by omega
    rw [hyear, hmonth, daysBeforeMonth]
    omega

theorem monthLength_pos (k : ℕ) : 0 < monthLength k := daysInMonth_pos _ _

theorem monthStart_strictMono : StrictMono monthStart := by
  refine strictMono_nat_of_lt_succ fun k => ?_
  rw [monthStart_succ]
  have := monthLength_pos k
  omega

/-- Years are not shorter than 365 days. -/
theorem le_monthStart (y : ℕ) : 365 * y ≤ monthStart (12 * y) := by
  unfold monthStart toOrdinal daysBeforeYear
  have hyear : 12 * y / 12 = y := by omega
  rw [hyear]
  omega

/-! ### The month of a day -/

theorem monthStart_year (y : ℕ) : monthStart (12 * y) = daysBeforeYear (y + 1) := by
  unfold monthStart toOrdinal
  have hyear : 12 * y / 12 = y := by omega
  have hmonth : 12 * y % 12 = 0 := by omega
  rw [hyear, hmonth]
  rfl

theorem yearIndex_spec {n : ℕ} (hn : 1 ≤ n) :
    monthStart (12 * yearIndex n) < n ∧ n ≤ monthStart (12 * (yearIndex n + 1)) := by
  have hzero : daysBeforeYear (0 + 1) < n := hn
  have hspec := Nat.findGreatest_spec (P := fun y => daysBeforeYear (y + 1) < n)
    (Nat.zero_le (n / 365)) hzero
  refine ⟨by rw [monthStart_year]; exact hspec, ?_⟩
  by_contra hlt
  rw [not_le] at hlt
  by_cases hbound : yearIndex n + 1 ≤ n / 365
  · apply Nat.findGreatest_is_greatest (Nat.lt_succ_self (yearIndex n)) hbound
    rw [← monthStart_year]
    exact hlt
  · have hlong := le_monthStart (yearIndex n + 1)
    omega

/-- The month of a day is the one whose days it is among. -/
theorem monthIndex_spec {n : ℕ} (hn : 1 ≤ n) :
    monthStart (monthIndex n) < n ∧ n ≤ monthStart (monthIndex n + 1) := by
  obtain ⟨hfirst, hyear⟩ := yearIndex_spec hn
  have hle : Nat.findGreatest (fun m => monthStart (12 * yearIndex n + m) < n) 11 ≤ 11 :=
    Nat.findGreatest_le 11
  refine ⟨Nat.findGreatest_spec (P := fun m => monthStart (12 * yearIndex n + m) < n)
    (Nat.zero_le 11) hfirst, ?_⟩
  by_contra hlt
  rw [not_le] at hlt
  obtain hmonth | hmonth := Nat.lt_or_eq_of_le hle
  · exact Nat.findGreatest_is_greatest (P := fun m => monthStart (12 * yearIndex n + m) < n)
      (Nat.lt_succ_self _) hmonth hlt
  · have hlast : monthIndex n + 1 = 12 * (yearIndex n + 1) := by
      unfold monthIndex
      omega
    rw [hlast] at hlt
    omega

theorem monthIndex_eq_iff {n k : ℕ} (hn : 1 ≤ n) :
    monthIndex n = k ↔ monthStart k < n ∧ n ≤ monthStart (k + 1) := by
  obtain ⟨hlow, hhigh⟩ := monthIndex_spec hn
  constructor
  · rintro rfl
    exact ⟨hlow, hhigh⟩
  · rintro ⟨hlow', hhigh'⟩
    have h₁ : monthIndex n < k + 1 := monthStart_strictMono.lt_iff_lt.mp (hlow.trans_le hhigh')
    have h₂ : k < monthIndex n + 1 := monthStart_strictMono.lt_iff_lt.mp (hlow'.trans_le hhigh)
    omega

/-- Later days lie in later months, or in the same one. -/
theorem monthIndex_mono {m n : ℕ} (hm : 1 ≤ m) (h : m ≤ n) : monthIndex m ≤ monthIndex n := by
  have hlow := (monthIndex_spec hm).1
  have hhigh := (monthIndex_spec (hm.trans h)).2
  have := monthStart_strictMono.lt_iff_lt.mp (hlow.trans_le (h.trans hhigh))
  omega

theorem day_spec {n : ℕ} (hn : 1 ≤ n) :
    1 ≤ day n ∧ day n ≤ daysInMonth (year n) (month n) ∧ n = monthStart (monthIndex n) + day n := by
  obtain ⟨hlow, hhigh⟩ := monthIndex_spec hn
  rw [monthStart_succ] at hhigh
  unfold day
  refine ⟨by omega, ?_, by omega⟩
  show n - monthStart (monthIndex n) ≤ monthLength (monthIndex n)
  omega

/-! ### Dates and ordinals -/

/-- The number of a month of a year. -/
def indexOf (year month : ℕ) : ℕ := 12 * (year - 1) + (month - 1)

theorem indexOf_fields {year month : ℕ} (hy : 1 ≤ year) (hm : 1 ≤ month) (hm' : month ≤ 12) :
    indexOf year month / 12 + 1 = year ∧ indexOf year month % 12 + 1 = month := by
  unfold indexOf
  omega

theorem indexOf_monthIndex (n : ℕ) : indexOf (year n) (month n) = monthIndex n := by
  unfold indexOf year month
  omega

theorem toOrdinal_eq {year month : ℕ} (hy : 1 ≤ year) (hm : 1 ≤ month) (hm' : month ≤ 12)
    (day : ℕ) : toOrdinal year month day = monthStart (indexOf year month) + day := by
  obtain ⟨hyear, hmonth⟩ := indexOf_fields hy hm hm'
  unfold monthStart
  rw [hyear, hmonth]
  rfl

theorem daysInMonth_eq {year month : ℕ} (hy : 1 ≤ year) (hm : 1 ≤ month) (hm' : month ≤ 12) :
    daysInMonth year month = monthLength (indexOf year month) := by
  obtain ⟨hyear, hmonth⟩ := indexOf_fields hy hm hm'
  unfold monthLength
  rw [hyear, hmonth]

/-- The ordinal of the day `d` of the month `k`. -/
theorem toOrdinal_eq_monthStart (k d : ℕ) :
    toOrdinal (k / 12 + 1) (k % 12 + 1) d = monthStart k + d := rfl

/-- The day `d` of the month `k` lies in that month. -/
theorem monthIndex_monthStart_add {k d : ℕ} (hd : 1 ≤ d) (hd' : d ≤ monthLength k) :
    monthIndex (monthStart k + d) = k := by
  rw [monthIndex_eq_iff (by omega), monthStart_succ]
  omega

theorem day_monthStart_add {k d : ℕ} (hd : 1 ≤ d) (hd' : d ≤ monthLength k) :
    day (monthStart k + d) = d := by
  unfold day
  rw [monthIndex_monthStart_add hd hd']
  omega

example : (year 738945, month 738945, day 738945) = (2024, 2, 29) := by decide +kernel

end Calendar
