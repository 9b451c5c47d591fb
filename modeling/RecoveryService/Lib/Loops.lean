import Mathlib

/-! # Loops that rewrite rows

A loop goes through the rows of a table, changes the state and rewrites the row it is at.  Each
rewritten row was made in some state on the way; what it says of the state then has to survive
the turns of the rows behind it.  `loop_forall₂` makes this induction once. -/

namespace Loops

/-- Membership in a list of pairs is decided with it. -/
instance lawfulBEq : LawfulBEq (String × String) := inferInstance

variable {σ α β : Type*}

/-- `for row in rows:` with the body `f`. -/
def loop (f : σ → α → σ × β) : σ → List α → σ × List β
  | s, [] => (s, [])
  | s, a :: as => ((loop f (f s a).1 as).1, (f s a).2 :: (loop f (f s a).1 as).2)

variable {f : σ → α → σ × β} {s : σ} {l : List α}

/-- What every turn keeps holds behind the loop. -/
theorem loop_invariant {I : σ → Prop} (hI : I s) (hstep : ∀ m, ∀ a ∈ l, I m → I (f m a).1) :
    I (loop f s l).1 := by
  induction l generalizing s with
  | nil => exact hI
  | cons a l ih =>
      have htail : ∀ m, ∀ a ∈ l, I m → I (f m a).1 :=
        fun m a ha => hstep m a (List.mem_cons_of_mem _ ha)
      exact ih (hstep s a List.mem_cons_self hI) htail

/-- An invariant that knows which rows are done. -/
theorem loop_progress {I : List α → σ → Prop} (hI : I [] s)
    (hstep : ∀ m done a rest, l = done ++ a :: rest → I done m → I (done ++ [a]) (f m a).1) :
    I l (loop f s l).1 := by
  have hgeneral : ∀ done rest m, l = done ++ rest → I done m → I l (loop f m rest).1 := by
    intro done rest
    induction rest generalizing done with
    | nil =>
        intro m hl hm
        rw [hl, List.append_nil]
        exact hm
    | cons a rest ih =>
        intro m hl hm
        apply ih (done ++ [a])
        · rw [hl, List.append_assoc, List.singleton_append]
        · exact hstep m done a rest hl hm
  exact hgeneral [] l s rfl hI

variable {R : α → β → Prop}

/-- What the rewritten rows are, whatever the states on the way. -/
theorem loop_results (h : ∀ m, ∀ a ∈ l, R a (f m a).2) : List.Forall₂ R l (loop f s l).2 := by
  induction l generalizing s with
  | nil => exact List.Forall₂.nil
  | cons a l ih =>
      exact List.Forall₂.cons (h s a List.mem_cons_self) (ih fun m a ha => h m a (List.mem_cons_of_mem _ ha))

/-- `Q a b m`: what the row `b` made of the row `a` says of the state `m`.  Where it holds when the
row is made and every turn keeps it, it holds of all rows behind the loop. -/
theorem loop_forall₂ {I : σ → Prop} {Q : α → β → σ → Prop} (hI : I s) (hstep : ∀ m, ∀ a ∈ l, I m → I (f m a).1)
    (hmake : ∀ m, ∀ a ∈ l, I m → Q a (f m a).2 (f m a).1)
    (hkeep : ∀ m a b, ∀ a' ∈ l, I m → Q a b m → Q a b (f m a').1) :
    List.Forall₂ (fun a b => Q a b (loop f s l).1) l (loop f s l).2 := by
  induction l generalizing s with
  | nil => exact List.Forall₂.nil
  | cons a l ih =>
      have hI₁ : I (f s a).1 := hstep s a List.mem_cons_self hI
      have hstep' : ∀ m, ∀ a ∈ l, I m → I (f m a).1 :=
        fun m a ha => hstep m a (List.mem_cons_of_mem _ ha)
      have hkeep' : ∀ m a b, ∀ a' ∈ l, I m → Q a b m → Q a b (f m a').1 :=
        fun m a b a' ha' => hkeep m a b a' (List.mem_cons_of_mem _ ha')
      refine List.Forall₂.cons ?_ ?_
      · -- the first row survives the turns of the others
        have hboth := loop_invariant (I := fun m => I m ∧ Q a (f s a).2 m)
          ⟨hI₁, hmake s a List.mem_cons_self hI⟩
          (fun m a' ha' h => ⟨hstep' m a' ha' h.1, hkeep' m a _ a' ha' h.1 h.2⟩)
        exact hboth.2
      · exact ih hI₁ hstep' (fun m a ha => hmake m a (List.mem_cons_of_mem _ ha)) hkeep'

theorem exists_of_forall₂ {l : List α} {r : List β} (h : List.Forall₂ R l r) :
    (∀ a ∈ l, ∃ b ∈ r, R a b) ∧ ∀ b ∈ r, ∃ a ∈ l, R a b := by
  induction h with
  | nil => simp
  | cons hab _ ih =>
      rw [List.forall_mem_cons, List.forall_mem_cons]
      obtain ⟨hto, hfrom⟩ := ih
      refine ⟨⟨⟨_, List.mem_cons_self, hab⟩, fun a ha => ?_⟩,
        ⟨_, List.mem_cons_self, hab⟩, fun b hb => ?_⟩
      · obtain ⟨b, hb, hR⟩ := hto a ha
        exact ⟨b, List.mem_cons_of_mem _ hb, hR⟩
      · obtain ⟨a, ha, hR⟩ := hfrom b hb
        exact ⟨a, List.mem_cons_of_mem _ ha, hR⟩

theorem forall₂_trans {R : α → α → Prop} (htrans : ∀ a b c, R a b → R b c → R a c)
    {l₁ l₂ l₃ : List α} (h₁ : List.Forall₂ R l₁ l₂) (h₂ : List.Forall₂ R l₂ l₃) : List.Forall₂ R l₁ l₃ := by
  induction h₁ generalizing l₃ with
  | nil =>
      cases h₂
      exact List.Forall₂.nil
  | cons hab _ ih =>
      cases h₂ with
      | cons hbc h₂ => exact List.Forall₂.cons (htrans _ _ _ hab hbc) (ih h₂)

/-- A search in two lists that go together. -/
theorem find?_forall₂ {p : α → Bool} {q : β → Bool} {r : List β} (h : List.Forall₂ R l r)
    (hpq : ∀ a b, R a b → p a = q b) : (l.find? p = none ∧ r.find? q = none) ∨
      ∃ a b, l.find? p = some a ∧ r.find? q = some b ∧ R a b := by
  induction h with
  | nil => exact Or.inl ⟨rfl, rfl⟩
  | @cons a b l r hab _ ih =>
      have hsame := hpq a b hab
      cases hp : p a with
      | true =>
          rw [hp] at hsame
          exact Or.inr ⟨a, b, List.find?_cons_of_pos hp, List.find?_cons_of_pos hsame.symm, hab⟩
      | false =>
          rw [hp] at hsame
          rw [List.find?_cons_of_neg (by rw [hp]; decide),
            List.find?_cons_of_neg (by rw [← hsame]; decide)]
          exact ih

/-- Behind some number a sequence without repetition is out of a list. -/
theorem exists_forall_notMem {g : ℕ → α} (hg : g.Injective) (values : List α) :
    ∃ b, ∀ k, g (b + k) ∉ values := by
  induction values with
  | nil => exact ⟨0, fun _ => List.not_mem_nil⟩
  | cons value values ih =>
      obtain ⟨b, hb⟩ := ih
      by_cases hvalue : ∃ n, g n = value
      · obtain ⟨n, rfl⟩ := hvalue
        refine ⟨b + n + 1, fun k hmem => ?_⟩
        obtain he | hmem := List.mem_cons.mp hmem
        · have hn := hg he
          omega
        · apply hb (n + 1 + k)
          have hsum : b + (n + 1 + k) = b + n + 1 + k := by omega
          rwa [hsum]
      · refine ⟨b, fun k hmem => ?_⟩
        obtain he | hmem := List.mem_cons.mp hmem
        · exact hvalue ⟨_, he⟩
        · exact hb k hmem

end Loops
