import RecoveryService.Lib.Calendar
import RecoveryService.Lib.Checks

/-! # Naive datetimes

A datetime is the ordinal of its day and the microseconds since midnight; the calendar ends with
the year 9999.  Datetimes are ordered by the microseconds they stand for. -/

namespace Datetimes

open Calendar Checks

/-- The microseconds of a minute. -/
def minuteMicros : ℕ := 60000000

/-- The microseconds of a day. -/
def dayMicros : ℕ := 86400000000

/-- The ordinal of the last day, the end of the year 9999. -/
def maxOrdinal : ℕ := 3652059

@[ext] structure Datetime where
  ordinal : ℕ
  micros : ℕ
  ordinal_pos : 1 ≤ ordinal
  ordinal_le : ordinal ≤ maxOrdinal
  micros_lt : micros < dayMicros
deriving DecidableEq

namespace Datetime

/-- The microseconds up to a datetime. -/
def instant (t : Datetime) : ℕ := dayMicros * t.ordinal + t.micros

theorem instant_injective : Function.Injective instant := by
  intro s t h
  have hs := s.micros_lt
  have ht := t.micros_lt
  unfold instant dayMicros at *
  ext <;> omega

instance : LinearOrder Datetime := LinearOrder.lift' instant instant_injective

variable {s t : Datetime}

theorem lt_iff : s < t ↔ s.instant < t.instant := Iff.rfl

theorem le_iff : s ≤ t ↔ s.instant ≤ t.instant := Iff.rfl

theorem lt_iff_fields : s < t ↔ s.ordinal < t.ordinal ∨ s.ordinal = t.ordinal ∧ s.micros < t.micros := by
  have hs := s.micros_lt
  have ht := t.micros_lt
  rw [lt_iff]
  unfold instant dayMicros at *
  omega

theorem ordinal_le_of_le (h : s ≤ t) : s.ordinal ≤ t.ordinal := by
  by_contra hlt
  exact absurd h (not_le.mpr (lt_iff_fields.mpr (Or.inl (by omega))))

/-- The microseconds since midnight at a time of day. -/
def timeMicros (hour : Fin 24) (minute : Fin 60) : ℕ := minuteMicros * (60 * hour + minute)

/-- `t.replace(hour=hour, minute=minute, second=0, microsecond=0)`. -/
def replaceTime (t : Datetime) (hour : Fin 24) (minute : Fin 60) : Datetime where
  ordinal := t.ordinal
  micros := timeMicros hour minute
  ordinal_pos := t.ordinal_pos
  ordinal_le := t.ordinal_le
  micros_lt := by
    have hhour := hour.isLt
    have hminute := minute.isLt
    unfold timeMicros minuteMicros dayMicros
    omega

def year (t : Datetime) : ℕ := Calendar.year t.ordinal

def month (t : Datetime) : ℕ := Calendar.month t.ordinal

def day (t : Datetime) : ℕ := Calendar.day t.ordinal

/-- `t.weekday()`; Monday is 0. -/
def weekday (t : Datetime) : ℕ := Calendar.weekday t.ordinal

/-- `t + timedelta(days=days)`. -/
def addDays (t : Datetime) (days : ℕ) : Except String Datetime :=
  if h : t.ordinal + days ≤ maxOrdinal then
    .ok { t with ordinal := t.ordinal + days, ordinal_pos := by have := t.ordinal_pos; omega, ordinal_le := h }
  else .error "date value out of range"

/-- `t + timedelta(minutes=minutes)`. -/
def addMinutes (t : Datetime) (minutes : ℕ) : Except String Datetime :=
  let sum := t.instant + minuteMicros * minutes
  if h : sum / dayMicros ≤ maxOrdinal then
    .ok {
      ordinal := sum / dayMicros
      micros := sum % dayMicros
      ordinal_pos := by
        have := t.ordinal_pos
        unfold sum instant dayMicros
        omega
      ordinal_le := h
      micros_lt := Nat.mod_lt _ (by decide) }
  else .error "date value out of range"

/-- The last month ends with the last day. -/
theorem monthStart_last : monthStart 119988 = maxOrdinal := by decide +kernel

/-- `t.replace(year=year, month=month, day=day)`. -/
def replaceDate (t : Datetime) (year month day : ℕ) : Except String Datetime :=
  if hy : year < 1 ∨ 9999 < year then .error s!"year {year} is out of range"
  else if hm : month < 1 ∨ 12 < month then .error "month must be in 1..12"
  else if hd : day < 1 ∨ daysInMonth year month < day then .error "day is out of range for month"
  else .ok {
    ordinal := toOrdinal year month day
    micros := t.micros
    ordinal_pos := by
      unfold toOrdinal
      omega
    ordinal_le := by
      rw [toOrdinal_eq (by omega) (by omega) (by omega), ← monthStart_last]
      rw [daysInMonth_eq (by omega) (by omega) (by omega)] at hd
      have hlast : monthStart (indexOf year month + 1) ≤ monthStart 119988 := by
        apply monthStart_strictMono.monotone
        unfold indexOf
        omega
      rw [monthStart_succ] at hlast
      omega
    micros_lt := t.micros_lt }

/-! ### What the operations return -/

theorem addDays_spec (t : Datetime) (days : ℕ) :
    (∃ s, t.addDays days = .ok s ∧ s.ordinal = t.ordinal + days ∧ s.micros = t.micros) ∨
      (∃ text, t.addDays days = .error text) ∧ maxOrdinal < t.ordinal + days := by
  unfold addDays
  split_ifs with h
  · exact Or.inl ⟨_, rfl, rfl, rfl⟩
  · exact Or.inr ⟨⟨_, rfl⟩, by omega⟩

theorem addMinutes_spec (t : Datetime) (minutes : ℕ) :
    (∃ s, t.addMinutes minutes = .ok s ∧ s.instant = t.instant + minuteMicros * minutes) ∨
      (∃ text, t.addMinutes minutes = .error text) ∧
        dayMicros * (maxOrdinal + 1) ≤ t.instant + minuteMicros * minutes := by
  unfold addMinutes
  by_cases h : (t.instant + minuteMicros * minutes) / dayMicros ≤ maxOrdinal
  · refine Or.inl ⟨_, dif_pos h, ?_⟩
    exact Nat.div_add_mod _ _
  · refine Or.inr ⟨⟨_, dif_neg h⟩, ?_⟩
    rw [Nat.mul_comm]
    exact (Nat.le_div_iff_mul_le (by decide)).mp (by omega)

/-- No datetime stands for a moment behind the calendar. -/
theorem instant_lt (t : Datetime) : t.instant < dayMicros * (maxOrdinal + 1) := by
  have hday := t.ordinal_le
  have htime := t.micros_lt
  unfold instant dayMicros at *
  omega

/-- The same day of another month, which the calendar has or not. -/
theorem replaceDate_spec (t : Datetime) {k day : ℕ} (hd : 1 ≤ day) (hd' : day ≤ monthLength k) :
    (k < 119988 ∧ ∃ s, t.replaceDate (k / 12 + 1) (k % 12 + 1) day = .ok s ∧
        s.ordinal = monthStart k + day ∧ s.micros = t.micros) ∨
      119988 ≤ k ∧ ∃ text, t.replaceDate (k / 12 + 1) (k % 12 + 1) day = .error text := by
  have hlength : daysInMonth (k / 12 + 1) (k % 12 + 1) = monthLength k := rfl
  have hmonth := Nat.mod_lt k (by decide : 0 < 12)
  unfold replaceDate
  split_ifs with hy hm hday
  · exact Or.inr ⟨by omega, _, rfl⟩
  · exact absurd hm (by omega)
  · exact absurd hday (by omega)
  · exact Or.inl ⟨by omega, _, rfl, toOrdinal_eq_monthStart k day, rfl⟩

/-- The first day on which the time of day `micros` lies behind `t`. -/
def firstDay (t : Datetime) (micros : ℕ) : ℕ :=
  if t.micros < micros then t.ordinal else t.ordinal + 1

theorem lt_iff_firstDay : s < t ↔ s.firstDay t.micros ≤ t.ordinal := by
  rw [lt_iff_fields]
  unfold firstDay
  split_ifs <;> omega

end Datetime

end Datetimes
