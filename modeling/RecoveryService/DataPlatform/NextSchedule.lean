import RecoveryService.DataPlatform.Version
import RecoveryService.Lib.Datetimes
import RecoveryService.Lib.Numerals

/-! # The next slot of a schedule

`_next_schedule_time`: the slot that follows a moment.  A daily, weekly or monthly schedule is
due at a time of day on the days it accepts, an interval schedule a number of minutes after the
last slot.  The slot returned is the first one behind the moment (`nextScheduleTime_finds`); the
call raises where the run time is no time, and where the calendar ends before the next slot.

The decimal digits of the character set are a parameter, as `int` reads them. -/

namespace RecoveryService.DataPlatform

open Calendar Datetimes Numerals

variable (decimal : Char → Option ℕ)

/-! ### The rule -/

/-- `int(value or default)`. -/
def intOr (value : Option ℤ) (default : ℤ) : ℤ :=
  match value with
  | none => default
  | some n => if n = 0 then default else n

/-- `max(0, min(bound, value))`. -/
def clampTo (bound : ℕ) (value : ℤ) : Fin (bound + 1) :=
  ⟨(max 0 (min (bound : ℤ) value)).toNat, by omega⟩

def intOf (cs : List Char) : Except String ℤ :=
  match readInt decimal cs with
  | some n => .ok n
  | none => .error ("invalid literal for int() with base 10: " ++ String.ofList cs)

/-- `_parse_time`. -/
def parseTime (value : String) : Except String (Fin 24 × Fin 60) := do
  let cs := (Text.orElse value "02:00").toList
  let hour ← match cs.takeWhile (· ≠ ':') with
    | [] => .ok 2
    | part => intOf decimal part
  let minute ← match cs.dropWhile (· ≠ ':') with
    | [] => .ok 0
    | _ :: part => intOf decimal part
  return (clampTo 23 hour, clampTo 59 minute)

namespace ScheduleRule

variable (rule : ScheduleRule)

/-- `max(1, int(version.interval_minutes or 60))`. -/
def interval : ℕ := (max 1 (intOr rule.intervalMinutes 60)).toNat

/-- `max(1, min(7, int(version.day_of_week or 1))) - 1`. -/
def targetWeekday : ℕ := (max 1 (min 7 (intOr rule.dayOfWeek 1)) - 1).toNat

/-- `max(1, min(31, int(version.day_of_month or 1)))`. -/
def targetDay : ℕ := (max 1 (min 31 (intOr rule.dayOfMonth 1))).toNat

end ScheduleRule

/-- `while True:`, from `year` and `month` on.  The loop cannot make more turns than the calendar
has months left, which are given as `turns`. -/
def monthlyFrom (day : ℕ) (after : Datetime) :
    (turns : ℕ) → (candidate : Datetime) → (year month : ℕ) → Except String Datetime
  | 0, _, year, _ => .error s!"year {year} is out of range"
  | turns + 1, candidate, year, month => do
      let candidate ← candidate.replaceDate year month (min day (daysInMonth year month))
      if after < candidate then .ok candidate
      else if 12 < month + 1 then monthlyFrom day after turns candidate (year + 1) 1
      else monthlyFrom day after turns candidate year (month + 1)

/-- `_next_schedule_time`. -/
def nextScheduleTime (rule : ScheduleRule) (after : Datetime) : Except String Datetime := do
  let (hour, minute) ← parseTime decimal (Text.orElse rule.runTime "02:00")
  let candidate := after.replaceTime hour minute
  match rule.scheduleType with
  | .interval => after.addMinutes rule.interval
  | .daily => if candidate ≤ after then candidate.addDays 1 else .ok candidate
  | .weekly =>
      let days := (((rule.targetWeekday : ℤ) - candidate.weekday) % 7).toNat
      let candidate ← candidate.addDays days
      if candidate ≤ after then candidate.addDays 7 else .ok candidate
  | .monthly =>
      let turns := 12 * 10000 - indexOf candidate.year candidate.month
      monthlyFrom rule.targetDay after turns candidate candidate.year candidate.month

/-! ### Slots -/

/-- The day `n` is one of the days of the rule; a day of the month that a month does not have is
its last one. -/
def ScheduleRule.OnDay (rule : ScheduleRule) (n : ℕ) : Prop :=
  match rule.scheduleType with
  | .weekly => weekday n = rule.targetWeekday
  | .monthly => day n = min rule.targetDay (monthLength (monthIndex n))
  | _ => True

/-- `t` is a slot of the rule, when the last slot was `after`. -/
def ScheduleRule.Slot (rule : ScheduleRule) (time : Fin 24 × Fin 60) (after t : Datetime) : Prop :=
  match rule.scheduleType with
  | .interval => after.instant + minuteMicros * rule.interval ≤ t.instant
  | _ => rule.OnDay t.ordinal ∧ t.micros = Datetime.timeMicros time.1 time.2

/-- The slots behind `after`. -/
def ScheduleRule.later (rule : ScheduleRule) (time : Fin 24 × Fin 60) (after : Datetime) : Set Datetime :=
  {t | after < t ∧ rule.Slot time after t}

/-- What is returned is the least element of `S`; where something is raised there is none. -/
def Finds (S : Set Datetime) : Except String Datetime → Prop
  | .ok t => IsLeast S t
  | .error _ => S = ∅

theorem Finds.iff {S : Set Datetime} {r : Except String Datetime} (h : Finds S r) :
    (∃ t, r = .ok t ∧ IsLeast S t) ↔ S.Nonempty := by
  cases r with
  | ok t => exact ⟨fun _ => ⟨t, h.1⟩, fun _ => ⟨t, rfl, h⟩⟩
  | error text =>
      rw [h]
      constructor
      · rintro ⟨t, ht, -⟩
        cases ht
      · exact fun hempty => absurd hempty Set.not_nonempty_empty

/-- The first slot behind `after` is the one on the first accepted day from the day on on which
the time of day lies behind `after`. -/
theorem finds_of_day {after : Datetime} {micros : ℕ} {D : ℕ → Prop} {r : Except String Datetime}
    (hok : ∀ s, r = .ok s → s.micros = micros ∧ D s.ordinal ∧ after.firstDay micros ≤ s.ordinal ∧
      ∀ n, 1 ≤ n → D n → after.firstDay micros ≤ n → s.ordinal ≤ n)
    (herror : ∀ text, r = .error text →
      ∀ n, 1 ≤ n → D n → after.firstDay micros ≤ n → maxOrdinal < n) :
    Finds {t | after < t ∧ D t.ordinal ∧ t.micros = micros} r := by
  cases r with
  | ok s =>
      obtain ⟨hmicros, hD, hfirst, hleast⟩ := hok s rfl
      refine ⟨⟨?_, hD, hmicros⟩, ?_⟩
      · rw [Datetime.lt_iff_firstDay, hmicros]
        exact hfirst
      · rintro t ⟨hafter, hday, htime⟩
        rw [Datetime.lt_iff_firstDay, htime] at hafter
        have hle := hleast t.ordinal t.ordinal_pos hday hafter
        refine not_lt.mp fun hlt => ?_
        rw [Datetime.lt_iff_fields] at hlt
        omega
  | error text =>
      refine Set.eq_empty_of_forall_notMem ?_
      rintro t ⟨hafter, hday, htime⟩
      rw [Datetime.lt_iff_firstDay, htime] at hafter
      have hend := herror text rfl t.ordinal t.ordinal_pos hday hafter
      have := t.ordinal_le
      omega

/-- The candidate lies behind `after` exactly when its day is not before the first one. -/
theorem le_iff_lt_firstDay {after candidate : Datetime} :
    candidate ≤ after ↔ candidate.ordinal < after.firstDay candidate.micros := by
  rw [← not_lt, Datetime.lt_iff_firstDay]
  omega

/-! ### Each kind of schedule -/

section kinds

variable {after candidate : Datetime} {D : ℕ → Prop} {step : ℕ}

theorem firstDay_le {t : Datetime} {micros : ℕ} : t.firstDay micros ≤ t.ordinal + 1 := by
  unfold Datetime.firstDay
  split_ifs <;> omega

theorem le_firstDay {t : Datetime} {micros : ℕ} : t.ordinal ≤ t.firstDay micros := by
  unfold Datetime.firstDay
  split_ifs <;> omega

/-- The candidate is on the first accepted day that is not before the one of `after`, and the next
accepted day is `step` days behind it. -/
theorem finds_of_candidate (hday : D candidate.ordinal) (hafter : after.ordinal ≤ candidate.ordinal)
    (hleast : ∀ n, D n → after.ordinal ≤ n → candidate.ordinal ≤ n) (hpos : 1 ≤ step)
    (hnext : D (candidate.ordinal + step))
    (hstep : ∀ n, D n → candidate.ordinal < n → candidate.ordinal + step ≤ n) :
    Finds {t | after < t ∧ D t.ordinal ∧ t.micros = candidate.micros}
      (if candidate ≤ after then candidate.addDays step else .ok candidate) := by
  have hlow : after.ordinal ≤ after.firstDay candidate.micros := le_firstDay
  have hhigh : after.firstDay candidate.micros ≤ after.ordinal + 1 := firstDay_le
  by_cases hle : candidate ≤ after
  · rw [if_pos hle]
    rw [le_iff_lt_firstDay] at hle
    apply finds_of_day
    · intro s hs
      obtain ⟨s', hs', hordinal, hmicros⟩ | ⟨⟨text, herror⟩, -⟩ := candidate.addDays_spec step
      · rw [hs] at hs'
        cases hs'
        rw [hordinal]
        exact ⟨hmicros, hnext, by omega, fun n _ hn hfirst => hstep n hn (by omega)⟩
      · rw [hs] at herror
        cases herror
    · intro text hs n _ hn hfirst
      obtain ⟨s', hs', -⟩ | ⟨-, hend⟩ := candidate.addDays_spec step
      · rw [hs] at hs'
        cases hs'
      · have := hstep n hn (by omega)
        omega
  · rw [if_neg hle]
    rw [le_iff_lt_firstDay] at hle
    apply finds_of_day
    · intro s hs
      cases hs
      exact ⟨rfl, hday, by omega, fun n _ hn hfirst => hleast n hn (by omega)⟩
    · intro text hs
      cases hs

theorem daily_finds {hour : Fin 24} {minute : Fin 60} :
    Finds {t | after < t ∧ True ∧ t.micros = Datetime.timeMicros hour minute}
      (if after.replaceTime hour minute ≤ after then (after.replaceTime hour minute).addDays 1
        else .ok (after.replaceTime hour minute)) :=
  finds_of_candidate (D := fun _ => True) trivial (le_refl _) (fun _ _ h => h) (le_refl 1) trivial
    (fun _ _ h => h)

/-- The days from `n` to the next one that falls on `target`. -/
theorem weekday_add {target n : ℕ} (ht : target < 7) : let days := (((target : ℤ) - weekday n) % 7).toNat
    weekday (n + days) = target ∧ ∀ m, weekday m = target → n ≤ m → n + days ≤ m := by
  unfold weekday
  refine ⟨by omega, fun m hm hle => by omega⟩

theorem weekly_finds {target : ℕ} (ht : target < 7) (hsame : candidate.ordinal = after.ordinal) :
    Finds {t | after < t ∧ weekday t.ordinal = target ∧ t.micros = candidate.micros}
      (do
        let candidate ← candidate.addDays (((target : ℤ) - candidate.weekday) % 7).toNat
        if candidate ≤ after then candidate.addDays 7 else .ok candidate) := by
  obtain ⟨hday, hleast⟩ := weekday_add (n := candidate.ordinal) ht
  obtain ⟨s, hs, hordinal, hmicros⟩ | ⟨⟨text, htext⟩, hend⟩ :=
    candidate.addDays_spec (((target : ℤ) - candidate.weekday) % 7).toNat
  · rw [hs, ← hmicros]
    have hfalls : weekday s.ordinal = target := by
      rw [hordinal]
      exact hday
    refine finds_of_candidate (D := fun n => weekday n = target) hfalls (by omega)
      (fun n hn hle => ?_) (by decide : 1 ≤ 7) ?_ ?_
    · rw [hordinal]
      exact hleast n hn (by omega)
    · unfold weekday at hfalls ⊢
      omega
    · intro n hn hlt
      unfold weekday at hfalls hn
      omega
  · rw [htext]
    refine Set.eq_empty_of_forall_notMem ?_
    rintro t ⟨hafter, hn, -⟩
    have hle := Datetime.ordinal_le_of_le hafter.le
    have := hleast t.ordinal hn (by omega)
    have := t.ordinal_le
    unfold Datetime.weekday at hend
    omega

/-- The day that a monthly rule accepts in the month `k`. -/
theorem onDay_monthly_iff {day n : ℕ} (hn : 1 ≤ n) : Calendar.day n = min day (monthLength (monthIndex n)) ↔
      n = monthStart (monthIndex n) + min day (monthLength (monthIndex n)) := by
  have h := (day_spec hn).2.2
  omega

/-- From the month `k` on, before which no accepted day lies behind `after`, the loop finds the
first slot. -/
theorem monthly_finds {day : ℕ} (hd : 1 ≤ day) (turns k : ℕ) (hturns : 119988 < k + turns)
    (hbefore : ∀ n, 1 ≤ n → Calendar.day n = min day (monthLength (monthIndex n)) →
      after.firstDay candidate.micros ≤ n → k ≤ monthIndex n) :
    Finds {t | after < t ∧ Calendar.day t.ordinal = min day (monthLength (monthIndex t.ordinal)) ∧
        t.micros = candidate.micros}
      (monthlyFrom day after turns candidate (k / 12 + 1) (k % 12 + 1)) := by
  induction turns generalizing candidate k with
  | zero =>
      -- behind the last month there is no day
      refine Set.eq_empty_of_forall_notMem ?_
      rintro t ⟨hafter, hday, htime⟩
      rw [Datetime.lt_iff_firstDay, htime] at hafter
      have hk := hbefore t.ordinal t.ordinal_pos hday hafter
      have hlow := (monthIndex_spec t.ordinal_pos).1
      have hlast : monthStart 119988 ≤ monthStart (monthIndex t.ordinal) :=
        monthStart_strictMono.monotone (by omega)
      rw [Datetime.monthStart_last] at hlast
      have := t.ordinal_le
      omega
  | succ turns ih =>
      have hpos := monthLength_pos k
      have hlength : daysInMonth (k / 12 + 1) (k % 12 + 1) = monthLength k := rfl
      unfold monthlyFrom
      rw [hlength]
      have hle : min day (monthLength k) ≤ monthLength k := min_le_right _ _
      obtain ⟨hk, s, hs, hordinal, hmicros⟩ | ⟨hk, text, htext⟩ :=
        candidate.replaceDate_spec (by omega) hle
      · rw [hs, ← hmicros]
        rw [← hmicros] at hbefore
        have hindex : monthIndex s.ordinal = k := by
          rw [hordinal]
          exact monthIndex_monthStart_add (by omega) (by omega)
        have hsday : Calendar.day s.ordinal = min day (monthLength k) := by
          rw [hordinal]
          exact day_monthStart_add (by omega) (by omega)
        -- in the month `k` there is one accepted day
        have hone : ∀ n, 1 ≤ n → Calendar.day n = min day (monthLength (monthIndex n)) →
            monthIndex n = k → n = s.ordinal := by
          intro n hn hday hsame
          rw [onDay_monthly_iff hn, hsame] at hday
          omega
        show Finds _ (if after < s then _ else _)
        by_cases hlt : after < s
        · rw [if_pos hlt]
          rw [Datetime.lt_iff_firstDay] at hlt
          apply finds_of_day
            (D := fun n => Calendar.day n = min day (monthLength (monthIndex n)))
          · intro s' hs'
            cases hs'
            refine ⟨rfl, ?_, hlt, fun n hn hday hfirst => ?_⟩
            · rw [hindex]
              exact hsday
            · have hle := hbefore n hn hday hfirst
              by_contra hless
              have hmono := monthIndex_mono hn (not_le.mp hless).le
              have := hone n hn hday (by omega)
              omega
          · intro text htext
            cases htext
        · rw [if_neg hlt]
          have hnext : ∀ n, 1 ≤ n → Calendar.day n = min day (monthLength (monthIndex n)) →
              after.firstDay s.micros ≤ n → k + 1 ≤ monthIndex n := by
            intro n hn hday hfirst
            have hle := hbefore n hn hday hfirst
            rw [Datetime.lt_iff_firstDay] at hlt
            by_contra hless
            have := hone n hn hday (by omega)
            omega
          have hmonth := ih (k + 1) (by omega) hnext
          by_cases hlast : 12 < k % 12 + 1 + 1
          · rw [if_pos hlast]
            have hyear : (k + 1) / 12 = k / 12 + 1 := by omega
            have hfirst : (k + 1) % 12 = 0 := by omega
            rw [hyear, hfirst] at hmonth
            exact hmonth
          · rw [if_neg hlast]
            have hyear : (k + 1) / 12 = k / 12 := by omega
            have hmod : (k + 1) % 12 = k % 12 + 1 := by omega
            rw [hyear, hmod] at hmonth
            exact hmonth
      · rw [htext]
        refine Set.eq_empty_of_forall_notMem ?_
        rintro t ⟨hafter, hday, htime⟩
        rw [Datetime.lt_iff_firstDay, htime] at hafter
        have hk' := hbefore t.ordinal t.ordinal_pos hday hafter
        have hlow := (monthIndex_spec t.ordinal_pos).1
        have hlast : monthStart 119988 ≤ monthStart (monthIndex t.ordinal) :=
          monthStart_strictMono.monotone (by omega)
        rw [Datetime.monthStart_last] at hlast
        have := t.ordinal_le
        omega

theorem interval_finds {minutes : ℕ} (hpos : 1 ≤ minutes) :
    Finds {t | after < t ∧ after.instant + minuteMicros * minutes ≤ t.instant}
      (after.addMinutes minutes) := by
  have hlong : 1 ≤ minuteMicros * minutes := Nat.mul_pos (by decide) hpos
  obtain ⟨s, hs, hinstant⟩ | ⟨⟨text, htext⟩, hend⟩ := after.addMinutes_spec minutes
  · rw [hs]
    refine ⟨⟨?_, hinstant.ge⟩, fun t ht => ?_⟩
    · rw [Datetime.lt_iff]
      omega
    · rw [Datetime.le_iff, hinstant]
      exact ht.2
  · rw [htext]
    refine Set.eq_empty_of_forall_notMem ?_
    rintro t ⟨-, ht⟩
    have := t.instant_lt
    omega

end kinds

/-! ### The next slot -/

variable {decimal} {rule : ScheduleRule} {after : Datetime}

/-- Where the run time is a time, the call returns the first slot behind `after`, and raises where
there is none. -/
theorem nextScheduleTime_finds {time : Fin 24 × Fin 60}
    (htime : parseTime decimal (Text.orElse rule.runTime "02:00") = .ok time) :
    Finds (rule.later time after) (nextScheduleTime decimal rule after) := by
  unfold nextScheduleTime
  rw [htime]
  unfold ScheduleRule.later ScheduleRule.Slot ScheduleRule.OnDay
  cases htype : rule.scheduleType with
  | interval =>
      refine interval_finds ?_
      unfold ScheduleRule.interval
      omega
  | daily => exact daily_finds
  | weekly =>
      refine weekly_finds ?_ rfl
      unfold ScheduleRule.targetWeekday
      omega
  | monthly =>
      have hday : 1 ≤ rule.targetDay := by
        unfold ScheduleRule.targetDay
        omega
      refine monthly_finds hday _ (monthIndex after.ordinal) ?_ (fun n hn _ hfirst => ?_)
      · have hindex := indexOf_monthIndex after.ordinal
        show 119988 < _ + (12 * 10000 - indexOf (year after.ordinal) (month after.ordinal))
        omega
      · exact monthIndex_mono after.ordinal_pos (le_firstDay.trans hfirst)

/-- The call returns the first slot behind `after`. -/
def FirstSlot (decimal : Char → Option ℕ) (rule : ScheduleRule) (after : Datetime) : Prop :=
  ∃ time, parseTime decimal (Text.orElse rule.runTime "02:00") = .ok time ∧
    ∃ t, nextScheduleTime decimal rule after = .ok t ∧ IsLeast (rule.later time after) t

/-- Half past two on the thirty-first of January 2024. -/
def lateJanuary : Datetime := ⟨738916, 52200000000, by decide, by decide, by decide⟩

/-- The thirty-first of a month that has none is its last day, and the month behind it has the
thirty-first again. -/
example : (((nextScheduleTime asciiDecimal
      { scheduleType := .monthly, runTime := ":30", dayOfMonth := some 31 } lateJanuary).bind
        (nextScheduleTime asciiDecimal { scheduleType := .monthly, dayOfMonth := some 31 })).toOption.map
          (fun t => (t.year, t.month, t.day))) = some (2024, 3, 31) := by decide +kernel

end RecoveryService.DataPlatform
