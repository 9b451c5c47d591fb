import Mathlib

/-! # Admission under limits

Items are admitted to a list as long as rules allow it: every class of items has a bound on the number of
its members in the list, and two items in conflict are not in the list together.  A list that fits stays
one when items leave it, and when an item is added that the rules admit; an item that is refused stays
refused while the list grows. -/

namespace Admission

variable {ι κ : Type*}

structure Rules (ι κ : Type*) where
  bound : κ → ℕ
  member : κ → ι → Bool
  conflict : ι → ι → Bool
  symm : ∀ a b, conflict a b = conflict b a

namespace Rules

variable (r : Rules ι κ)

structure Fits (l : List ι) : Prop where
  bounded : ∀ k, l.countP (r.member k) ≤ r.bound k
  apart : ∀ a ∈ l, ∀ b ∈ l, a ≠ b → r.conflict a b = false

/-- There is room for an item in each of its classes, and it is in conflict with nothing. -/
structure Admits (l : List ι) (a : ι) : Prop where
  room : ∀ k, r.member k a = true → l.countP (r.member k) < r.bound k
  apart : ∀ b ∈ l, r.conflict a b = false

variable {r} {l l' : List ι} {a : ι}

theorem fits_nil : r.Fits [] := ⟨fun _ => Nat.zero_le _, nofun⟩

theorem countP_le_of_subset (hnodup : l'.Nodup) (hsub : l' ⊆ l) (p : ι → Bool) :
    l'.countP p ≤ l.countP p := (List.subperm_of_subset hnodup hsub).countP_le p

theorem Fits.subset (h : r.Fits l) (hnodup : l'.Nodup) (hsub : l' ⊆ l) : r.Fits l' where
  bounded k := (countP_le_of_subset hnodup hsub _).trans (h.bounded k)
  apart a ha b hb := h.apart a (hsub ha) b (hsub hb)

theorem Fits.cons (h : r.Fits l) (ha : r.Admits l a) : r.Fits (a :: l) := by
  refine ⟨fun k => ?_, fun b hb c hc hne => ?_⟩
  · rw [List.countP_cons]
    have hbound := h.bounded k
    split
    · next hmember =>
        have hroom := ha.room k hmember
        omega
    · omega
  · rcases List.mem_cons.mp hb with hb | hb
    · rcases List.mem_cons.mp hc with hc | hc
      · exact absurd (hb.trans hc.symm) hne
      · rw [hb]
        exact ha.apart c hc
    · rcases List.mem_cons.mp hc with hc | hc
      · rw [hc, r.symm]
        exact ha.apart b hb
      · exact h.apart b hb c hc hne

theorem Admits.sublist (h : r.Admits l a) (hsub : l'.Sublist l) : r.Admits l' a where
  room k hk := (hsub.countP_le).trans_lt (h.room k hk)
  apart b hb := h.apart b (hsub.subset hb)

/-- The order of the list is of no account. -/
theorem Fits.perm (h : r.Fits l) (hperm : l'.Perm l) : r.Fits l' where
  bounded k := (hperm.countP_eq _).le.trans (h.bounded k)
  apart a ha b hb := h.apart a (hperm.subset ha) b (hperm.subset hb)

end Rules

end Admission
