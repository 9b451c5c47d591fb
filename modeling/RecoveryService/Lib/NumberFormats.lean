import Mathlib.Algebra.Order.Field.Power
import Mathlib.Algebra.Order.Round
import Mathlib.Data.Rat.Floor
import Mathlib.Tactic

/-! # Formats of numbers

Integers of a range, decimals with a number of digits and a scale, and binary numbers with a bounded
exponent, as sets of rationals.  One format holds another when it has the other's smallest step and its
largest value (`Decimal.mono`, `scale_le_of_step`, `digits_le_of_top`).  A number that is written in digits is a
decimal of a format when its digits fit (`decimal_digits_iff`). -/

namespace NumberFormats

/-- The integers from `lo` to `hi`. -/
def Integer (lo hi : ℤ) (q : ℚ) : Prop := ∃ n : ℤ, lo ≤ n ∧ n ≤ hi ∧ q = n

/-- `p` digits, `s` of them behind the point; with a negative scale the last digits are zeros. -/
def Decimal (p : ℕ) (s : ℤ) (q : ℚ) : Prop := ∃ n : ℤ, |n| < 10 ^ p ∧ q = n * 10 ^ (-s)

/-- `bits` binary digits with an exponent from `lo` to `hi`. -/
def Binary (bits : ℕ) (lo hi : ℤ) (q : ℚ) : Prop :=
  ∃ m e : ℤ, |m| < 2 ^ bits ∧ lo ≤ e ∧ e ≤ hi ∧ q = m * 2 ^ e

theorem ten_zpow_split {s s' : ℤ} (h : s ≤ s') : (10 : ℚ) ^ (-s) = 10 ^ (s' - s).toNat * 10 ^ (-s') := by
  rw [← zpow_natCast, ← zpow_add₀ (by norm_num)]
  congr 1
  omega

variable {lo hi : ℤ}

theorem integer_intCast {n : ℤ} : Integer lo hi n ↔ lo ≤ n ∧ n ≤ hi := by
  constructor
  · rintro ⟨m, hlo, hhi, heq⟩
    obtain rfl : n = m := by exact_mod_cast heq
    exact ⟨hlo, hhi⟩
  · rintro ⟨hlo, hhi⟩
    exact ⟨n, hlo, hhi, rfl⟩

theorem Integer.mono {lo' hi' : ℤ} (hlo : lo' ≤ lo) (hhi : hi ≤ hi') {q : ℚ} (h : Integer lo hi q) :
    Integer lo' hi' q := by
  obtain ⟨n, hn, hn', rfl⟩ := h
  exact ⟨n, hlo.trans hn, hn'.trans hhi, rfl⟩

variable {p : ℕ}

/-- More digits on both sides of the point. -/
theorem Decimal.mono {p' : ℕ} {s s' : ℤ} (hs : s ≤ s') (hp : p + (s' - s).toNat ≤ p') {q : ℚ}
    (h : Decimal p s q) : Decimal p' s' q := by
  obtain ⟨n, hn, rfl⟩ := h
  refine ⟨n * 10 ^ (s' - s).toNat, ?_, ?_⟩
  · rw [abs_mul, abs_of_pos (pow_pos (by norm_num) _ : (0 : ℤ) < 10 ^ (s' - s).toNat)]
    calc |n| * 10 ^ (s' - s).toNat < 10 ^ p * 10 ^ (s' - s).toNat :=
          mul_lt_mul_of_pos_right hn (pow_pos (by norm_num) _)
      _ = 10 ^ (p + (s' - s).toNat) := (pow_add _ _ _).symm
      _ ≤ 10 ^ p' := pow_le_pow_right₀ (by norm_num) hp
  · rw [ten_zpow_split hs]
    push_cast
    ring

/-- Without a scale a decimal is an integer. -/
theorem Decimal.integer (hlo : lo ≤ -(10 ^ p - 1)) (hhi : 10 ^ p - 1 ≤ hi) {q : ℚ} (h : Decimal p 0 q) :
    Integer lo hi q := by
  obtain ⟨n, hn, rfl⟩ := h
  have habs := abs_lt.mp hn
  exact ⟨n, by omega, by omega, by rw [neg_zero, zpow_zero, mul_one]⟩

/-- A format with the step `10 ^ (-s)` has `s` digits behind the point. -/
theorem scale_le_of_step {p' : ℕ} {s s' : ℤ} (h : Decimal p' s' (10 ^ (-s))) : s ≤ s' := by
  obtain ⟨n, -, heq⟩ := h
  by_contra hlt
  have hn : (n : ℚ) = 10 ^ (s' - s) := by
    have hsplit : (10 : ℚ) ^ (-s) = 10 ^ (s' - s) * 10 ^ (-s') := by
      rw [← zpow_add₀ (by norm_num)]
      congr 1
      omega
    rw [hsplit] at heq
    exact (mul_right_cancel₀ (zpow_ne_zero _ (by norm_num)) heq).symm
  have hpos : (0 : ℚ) < n := hn ▸ zpow_pos (by norm_num) _
  have hone : (n : ℚ) < 1 := hn ▸ zpow_lt_one_of_neg₀ (by norm_num) (by omega)
  have hpos' : 0 < n := by exact_mod_cast hpos
  have hone' : n < 1 := by exact_mod_cast hone
  omega

theorem integer_step {s : ℤ} (h : Integer lo hi (10 ^ (-s))) : s ≤ 0 := by
  obtain ⟨n, -, -, heq⟩ := h
  refine @scale_le_of_step n.natAbs s 0 ⟨n, ?_, by rw [heq, neg_zero, zpow_zero, mul_one]⟩
  rw [← Int.natCast_natAbs]
  exact_mod_cast Nat.lt_pow_self (by norm_num)

/-- The largest value of a decimal. -/
def top (p : ℕ) (s : ℤ) : ℚ := (10 ^ p - 1 : ℤ) * 10 ^ (-s)

theorem decimal_top (p : ℕ) (s : ℤ) : Decimal p s (top p s) := by
  refine ⟨10 ^ p - 1, ?_, rfl⟩
  have hpos : (1 : ℤ) ≤ 10 ^ p := one_le_pow₀ (by norm_num)
  rw [abs_of_nonneg (by omega)]
  omega

theorem decimal_step (hp : 1 ≤ p) (s : ℤ) : Decimal p s (10 ^ (-s)) := by
  refine ⟨1, ?_, by rw [Int.cast_one, one_mul]⟩
  rw [abs_one]
  exact one_lt_pow₀ (by norm_num) (by omega)

/-- A decimal that has the largest value of another one has its digits before the point. -/
theorem digits_le_of_top {p' : ℕ} {s s' : ℤ} (hs : s ≤ s') (hp : 1 ≤ p) (h : Decimal p' s' (top p s)) :
    p + (s' - s).toNat ≤ p' := by
  obtain ⟨n, hn, heq⟩ := h
  have hvalue : n = (10 ^ p - 1) * 10 ^ (s' - s).toNat := by
    rw [top, ten_zpow_split hs, ← mul_assoc] at heq
    have hcast := (mul_right_cancel₀ (zpow_ne_zero _ (by norm_num)) heq).symm
    exact_mod_cast hcast
  by_contra hlt
  obtain ⟨r, rfl⟩ : ∃ r, p = r + 1 := ⟨p - 1, by omega⟩
  have hsmall : (10 : ℤ) ^ r ≤ 10 ^ (r + 1) - 1 := by
    have hone : (1 : ℤ) ≤ 10 ^ r := one_le_pow₀ (by norm_num)
    rw [pow_succ]
    omega
  have hbig : (10 : ℤ) ^ p' ≤ n := by
    calc (10 : ℤ) ^ p' ≤ 10 ^ (r + (s' - s).toNat) := pow_le_pow_right₀ (by norm_num) (by omega)
      _ = 10 ^ r * 10 ^ (s' - s).toNat := pow_add _ _ _
      _ ≤ (10 ^ (r + 1) - 1) * 10 ^ (s' - s).toNat :=
          mul_le_mul_of_nonneg_right hsmall (pow_nonneg (by norm_num) _)
      _ = n := hvalue.symm
  exact absurd (lt_of_le_of_lt (le_abs_self n) hn) (not_lt.mpr hbig)

/-- The largest value of a decimal with zeros at its end, against an integer. -/
theorem integer_top {k c m : ℕ} (hp : p ≤ c) (hc : c < p + k) (hm : c + 1 - p ≤ m)
    (hhi : hi < 10 ^ (c + 1) - 10 ^ m) : ¬Integer lo hi (top p (-k)) := by
  rintro ⟨n, -, hle, heq⟩
  have hvalue : n = (10 ^ p - 1) * 10 ^ k := by
    rw [top, neg_neg, zpow_natCast] at heq
    exact_mod_cast heq.symm
  have hone : (0 : ℤ) ≤ 10 ^ p - 1 := by
    have hpos : (1 : ℤ) ≤ 10 ^ p := one_le_pow₀ (by norm_num)
    omega
  have hbig : (10 : ℤ) ^ (c + 1) - 10 ^ m ≤ n := by
    calc (10 : ℤ) ^ (c + 1) - 10 ^ m ≤ 10 ^ (c + 1) - 10 ^ (c + 1 - p) :=
          sub_le_sub_left (pow_le_pow_right₀ (by norm_num) hm) _
      _ = (10 ^ p - 1) * 10 ^ (c + 1 - p) := by
          rw [sub_mul, one_mul, ← pow_add]
          congr 2
          omega
      _ ≤ (10 ^ p - 1) * 10 ^ k :=
          mul_le_mul_of_nonneg_left (pow_le_pow_right₀ (by norm_num) (by omega)) hone
      _ = n := hvalue.symm
  omega

/-- A binary number is smaller than its format allows. -/
theorem Binary.lt {bits : ℕ} {q : ℚ} (h : Binary bits lo hi q) : q < 2 ^ bits * 2 ^ hi := by
  obtain ⟨m, e, hm, -, he, rfl⟩ := h
  have hcast : (m : ℚ) < 2 ^ bits := by exact_mod_cast lt_of_le_of_lt (le_abs_self m) hm
  calc (m : ℚ) * 2 ^ e < 2 ^ bits * 2 ^ e := mul_lt_mul_of_pos_right hcast (zpow_pos (by norm_num) _)
    _ ≤ 2 ^ bits * 2 ^ hi :=
        mul_le_mul_of_nonneg_left (zpow_le_zpow_right₀ (by norm_num) he) (pow_nonneg (by norm_num) _)

/-! ### Numbers written in digits -/

/-- The number that decimal digits stand for. -/
abbrev ofDigits (ds : List Char) : ℕ := Nat.ofDigitChars 10 ds 0

/-- The characters are digits of ASCII. -/
abbrev AreDigits (ds : List Char) : Prop := ∀ c ∈ ds, c.isDigit = true

theorem ofDigits_append (as bs : List Char) :
    ofDigits (as ++ bs) = 10 ^ bs.length * ofDigits as + ofDigits bs := by
  unfold ofDigits
  rw [Nat.ofDigitChars_append, Nat.ofDigitChars_eq_ofDigitChars_zero]

theorem ofDigits_cons (c : Char) (cs : List Char) :
    ofDigits (c :: cs) = 10 ^ cs.length * (c.toNat - '0'.toNat) + ofDigits cs := by
  unfold ofDigits
  rw [Nat.ofDigitChars_cons, Nat.ofDigitChars_eq_ofDigitChars_zero, Nat.mul_zero, Nat.zero_add]

theorem digit_le {c : Char} (h : c.isDigit = true) : c.toNat - '0'.toNat ≤ 9 := by
  obtain ⟨-, hle⟩ := Char.isDigit_iff_toNat.mp h
  exact Nat.sub_le_sub_right hle _

theorem digit_eq_zero_iff {c : Char} (h : c.isDigit = true) : c.toNat - '0'.toNat = 0 ↔ c = '0' := by
  obtain ⟨hle, -⟩ := Char.isDigit_iff_toNat.mp h
  have hzero : '0'.toNat = 48 := rfl
  constructor
  · intro heq
    exact Char.toNat_inj.mp (by omega)
  · rintro rfl
    rfl

theorem ofDigits_lt {ds : List Char} (h : AreDigits ds) : ofDigits ds < 10 ^ ds.length := by
  induction ds with
  | nil => exact Nat.one_pos
  | cons c cs ih =>
      obtain ⟨hc, hcs⟩ := List.forall_mem_cons.mp h
      have hlt := ih hcs
      have hle := Nat.mul_le_mul_left (10 ^ cs.length) (digit_le hc)
      rw [ofDigits_cons, List.length_cons, Nat.pow_succ]
      omega

theorem ofDigits_eq_zero_iff {ds : List Char} (h : AreDigits ds) : ofDigits ds = 0 ↔ ∀ c ∈ ds, c = '0' := by
  induction ds with
  | nil => exact ⟨fun _ _ hc => absurd hc List.not_mem_nil, fun _ => rfl⟩
  | cons c cs ih =>
      obtain ⟨hc, hcs⟩ := List.forall_mem_cons.mp h
      have hpow : 10 ^ cs.length ≠ 0 := (Nat.pow_pos (by decide)).ne'
      rw [ofDigits_cons, Nat.add_eq_zero_iff, Nat.mul_eq_zero, or_iff_right hpow, digit_eq_zero_iff hc, ih hcs,
        List.forall_mem_cons]

theorem decimal_div_iff {s k : ℕ} {z : ℤ} :
    Decimal p s (z / 10 ^ k) ↔ ∃ n : ℕ, n < 10 ^ p ∧ z.natAbs * 10 ^ s = n * 10 ^ k := by
  have hcross (n : ℤ) : (z / 10 ^ k : ℚ) = n * 10 ^ (-(s : ℤ)) ↔ z * 10 ^ s = n * 10 ^ k := by
    rw [zpow_neg, zpow_natCast, ← div_eq_mul_inv, div_eq_div_iff (by positivity) (by positivity)]
    exact_mod_cast Iff.rfl
  constructor
  · rintro ⟨n, hn, heq⟩
    have hnat := congrArg Int.natAbs ((hcross n).mp heq)
    rw [Int.natAbs_mul, Int.natAbs_mul, Int.natAbs_pow, Int.natAbs_pow] at hnat
    exact ⟨n.natAbs, by zify; exact hn, hnat⟩
  · rintro ⟨n, hn, heq⟩
    have hcast : (n : ℤ) < 10 ^ p := by exact_mod_cast hn
    rcases Int.natAbs_eq z with hz | hz
    · refine ⟨n, by rwa [Nat.abs_cast], (hcross n).mpr ?_⟩
      rw [hz]
      exact_mod_cast heq
    · refine ⟨-n, by rwa [abs_neg, Nat.abs_cast], (hcross (-n)).mpr ?_⟩
      rw [hz, neg_mul, neg_mul]
      exact_mod_cast congrArg (fun m : ℕ => -(m : ℤ)) heq

/-- The last digits of a fraction can go exactly where they are zeros. -/
theorem dvd_fraction_iff {s : ℕ} {ds : List Char} (h : AreDigits ds) :
    10 ^ ds.length ∣ ofDigits ds * 10 ^ s ↔ ∀ c ∈ ds.drop s, c = '0' := by
  have hdrop : AreDigits (ds.drop s) := fun c hc => h c (List.mem_of_mem_drop hc)
  rw [← ofDigits_eq_zero_iff hdrop]
  rcases Nat.le_total ds.length s with hle | hle
  · rw [List.drop_eq_nil_of_le hle]
    exact iff_of_true (Dvd.dvd.mul_left (pow_dvd_pow 10 hle) _) rfl
  · have hsplit : ofDigits ds = 10 ^ (ds.length - s) * ofDigits (ds.take s) + ofDigits (ds.drop s) := by
      rw [← List.length_drop, ← ofDigits_append, List.take_append_drop]
    have hlt := ofDigits_lt hdrop
    have hpow : 10 ^ ds.length = 10 ^ (ds.length - s) * 10 ^ s := by rw [← pow_add, Nat.sub_add_cancel hle]
    rw [List.length_drop] at hlt
    rw [hpow, Nat.mul_dvd_mul_iff_right (Nat.pow_pos (by decide)), hsplit, Nat.dvd_add_right (Nat.dvd_mul_right _ _)]
    exact ⟨fun hdvd => Nat.eq_zero_of_dvd_of_lt hdvd hlt, fun hzero => hzero ▸ Nat.dvd_zero _⟩

/-- A number in digits is a decimal of a scale when nothing but zeros stands behind it, and enough room is left
before the point. -/
theorem decimal_digits_iff {s : ℕ} (hs : s ≤ p) {as bs : List Char} (hbs : AreDigits bs) {z : ℤ}
    (hz : z.natAbs = ofDigits (as ++ bs)) :
    Decimal p s (z / 10 ^ bs.length) ↔ ofDigits as < 10 ^ (p - s) ∧ ∀ c ∈ bs.drop s, c = '0' := by
  have hlt := ofDigits_lt hbs
  have hpow : 10 ^ p = 10 ^ (p - s) * 10 ^ s := by rw [← pow_add, Nat.sub_add_cancel hs]
  have hpos : 0 < 10 ^ bs.length := Nat.pow_pos (by decide)
  rw [decimal_div_iff, hz, ofDigits_append, ← dvd_fraction_iff hbs]
  -- the part of the value behind the point, in units of the scale
  have hroom {m : ℕ} (hm : ofDigits bs * 10 ^ s = 10 ^ bs.length * m) :
      ofDigits as * 10 ^ s + m < 10 ^ p ↔ ofDigits as < 10 ^ (p - s) := by
    have hlt : m < 10 ^ s := by
      refine Nat.lt_of_mul_lt_mul_left (a := 10 ^ bs.length) ?_
      rw [← hm]
      exact Nat.mul_lt_mul_of_pos_right hlt (Nat.pow_pos (by decide))
    rw [hpow]
    constructor
    · intro h
      exact Nat.lt_of_mul_lt_mul_right (Nat.lt_of_le_of_lt (Nat.le_add_right _ m) h)
    · intro h
      have hle := Nat.mul_le_mul_right (10 ^ s) (Nat.succ_le_of_lt h)
      rw [Nat.succ_mul] at hle
      omega
  constructor
  · rintro ⟨n, hn, heq⟩
    rw [Nat.add_mul, Nat.mul_assoc, Nat.mul_comm n] at heq
    have hdvd : 10 ^ bs.length ∣ ofDigits bs * 10 ^ s :=
      (Nat.dvd_add_right (Nat.dvd_mul_right _ _)).mp (heq ▸ Nat.dvd_mul_right _ _)
    obtain ⟨m, hm⟩ := hdvd
    rw [hm, ← Nat.mul_add] at heq
    rw [← Nat.eq_of_mul_eq_mul_left hpos heq] at hn
    exact ⟨(hroom hm).mp hn, Dvd.intro m hm.symm⟩
  · rintro ⟨hlt, m, hm⟩
    refine ⟨_, (hroom hm).mpr hlt, ?_⟩
    rw [Nat.add_mul, hm, Nat.mul_assoc, ← Nat.mul_add, Nat.mul_comm]

end NumberFormats
