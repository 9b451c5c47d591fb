import Mathlib

/-! # Breadth-first layers of a relation

`Steps R n a b` is a path of `n` steps, `Within R n a b` one of at most `n`, and `AtDistance R n a b` says
that the shortest one has `n`.  A layer comes from the one before it (`atDistance_succ`), which is how a
breadth-first search finds it; from the first empty layer on all of them are empty. -/

namespace Layers

variable {α : Type*} {R : α → α → Prop} {a b c : α} {k n : ℕ}

/-- A path of `n` steps. -/
def Steps (R : α → α → Prop) : ℕ → α → α → Prop
  | 0, a, b => b = a
  | n + 1, a, b => ∃ c, Steps R n a c ∧ R c b

def Within (R : α → α → Prop) (n : ℕ) (a b : α) : Prop := ∃ k ≤ n, Steps R k a b

def AtDistance (R : α → α → Prop) (n : ℕ) (a b : α) : Prop :=
  Steps R n a b ∧ ∀ k < n, ¬ Steps R k a b

theorem within_zero : Within R 0 a b ↔ b = a := by
  constructor
  · rintro ⟨k, hk, hsteps⟩
    rw [Nat.le_zero.mp hk] at hsteps
    exact hsteps
  · intro h
    exact ⟨0, le_rfl, h⟩

theorem atDistance_zero : AtDistance R 0 a b ↔ b = a :=
  ⟨fun h => h.1, fun h => ⟨h, fun _ hk => absurd hk (Nat.not_lt_zero _)⟩⟩

theorem AtDistance.within (h : AtDistance R n a b) : Within R n a b := ⟨n, le_rfl, h.1⟩

theorem AtDistance.unique (h : AtDistance R n a b) (h' : AtDistance R k a b) : n = k := by
  rcases Nat.lt_trichotomy n k with hlt | heq | hgt
  · exact absurd h.1 (h'.2 n hlt)
  · exact heq
  · exact absurd h'.1 (h.2 k hgt)

/-- What is new in a layer is a step away from the layer before it. -/
theorem atDistance_succ : AtDistance R (n + 1) a b ↔ ¬ Within R n a b ∧ ∃ c, AtDistance R n a c ∧ R c b := by
  constructor
  · rintro ⟨⟨c, hc, hstep⟩, hleast⟩
    refine ⟨?_, c, ⟨hc, ?_⟩, hstep⟩
    · rintro ⟨k, hk, hsteps⟩
      exact hleast k (Nat.lt_succ_of_le hk) hsteps
    · intro k hk hsteps
      exact hleast (k + 1) (Nat.succ_lt_succ hk) ⟨c, hsteps, hstep⟩
  · rintro ⟨hnot, c, hc, hstep⟩
    exact ⟨⟨c, hc.1, hstep⟩, fun k hk hsteps => hnot ⟨k, Nat.le_of_lt_succ hk, hsteps⟩⟩

theorem within_succ : Within R (n + 1) a b ↔ Within R n a b ∨ AtDistance R (n + 1) a b := by
  constructor
  · rintro ⟨k, hk, hsteps⟩
    by_cases hwithin : Within R n a b
    · exact Or.inl hwithin
    · have hkn : k = n + 1 := by
        rcases Nat.lt_or_ge k (n + 1) with hlt | hge
        · exact absurd ⟨k, Nat.le_of_lt_succ hlt, hsteps⟩ hwithin
        · exact Nat.le_antisymm hk hge
      rw [hkn] at hsteps
      exact Or.inr ⟨hsteps, fun j hj hj' => hwithin ⟨j, Nat.le_of_lt_succ hj, hj'⟩⟩
  · rintro (⟨k, hk, hsteps⟩ | h)
    · exact ⟨k, Nat.le_succ_of_le hk, hsteps⟩
    · exact h.within

/-! ### The way back -/

theorem steps_succ' : Steps R (n + 1) a b ↔ ∃ c, R a c ∧ Steps R n c b := by
  induction n generalizing b with
  | zero =>
      constructor
      · rintro ⟨c, rfl, h⟩
        exact ⟨b, h, rfl⟩
      · rintro ⟨c, h, rfl⟩
        exact ⟨a, rfl, h⟩
  | succ n ih =>
      constructor
      · rintro ⟨d, hd, h⟩
        obtain ⟨c, hc, hsteps⟩ := ih.mp hd
        exact ⟨c, hc, d, hsteps, h⟩
      · rintro ⟨c, hc, d, hsteps, h⟩
        exact ⟨d, ih.mpr ⟨c, hc, hsteps⟩, h⟩

/-- A path is one of the converse in the other direction. -/
theorem steps_flip : Steps (flip R) n b a ↔ Steps R n a b := by
  induction n generalizing b with
  | zero => exact eq_comm
  | succ n ih =>
      rw [steps_succ']
      exact exists_congr fun c => and_comm.trans (and_congr_left' ih)

theorem within_flip : Within (flip R) n b a ↔ Within R n a b :=
  exists_congr fun _ => and_congr_right' steps_flip

end Layers
