import Mathlib

/-! # Calls in a row

A loop that calls a function for one item after the other ends with the first call that raises;
the items behind it are not called.  So every item is called exactly when no call but the last
one raises (`callEach_covers_iff`). -/

namespace Calls

variable {α ε : Type}

/-- The items called, and what was raised. -/
structure Trace (α ε : Type) where
  called : List α
  raised : Option ε

/-- `for item in items: f(item)`; `f item` is what the call raises. -/
def callEach (f : α → Option ε) : List α → Trace α ε
  | [] => ⟨[], none⟩
  | item :: items =>
      match f item with
      | some e => ⟨[item], some e⟩
      | none => ⟨item :: (callEach f items).called, (callEach f items).raised⟩

theorem callEach_called_sublist (f : α → Option ε) (items : List α) :
    List.Sublist (callEach f items).called items := by
  induction items with
  | nil => exact List.Sublist.refl _
  | cons item items ih =>
      unfold callEach
      cases f item with
      | some e => exact (List.nil_sublist items).cons_cons item
      | none => exact ih.cons_cons item

theorem callEach_covers_iff (f : α → Option ε) {items : List α} (hnd : items.Nodup) :
    (∀ item ∈ items, item ∈ (callEach f items).called) ↔ ∀ item ∈ items.dropLast, f item = none := by
  induction items with
  | nil => simp
  | cons item items ih =>
      obtain ⟨hnew, hnd⟩ := List.nodup_cons.mp hnd
      have hih := ih hnd
      cases hitems : items with
      | nil =>
          cases hf : f item <;> simp [callEach, hf]
      | cons next rest =>
          rw [← hitems]
          have hdrop : (item :: items).dropLast = item :: items.dropLast := by
            rw [hitems]
            rfl
          rw [hdrop, List.forall_mem_cons, List.forall_mem_cons]
          cases hf : f item with
          | some e =>
              -- the call that raises is not the last one
              have hnext : next ∈ items := by
                rw [hitems]
                exact List.mem_cons_self
              have hne : next ≠ item := fun he => hnew (he ▸ hnext)
              constructor
              · intro hcovers
                have := hcovers.2 next hnext
                simp [callEach, hf, hne] at this
              · intro hquiet
                cases hquiet.1
          | none =>
              have hcalled : (callEach f (item :: items)).called =
                  item :: (callEach f items).called := by
                simp [callEach, hf]
              rw [hcalled, ← hih]
              constructor
              · intro hcovers
                refine ⟨rfl, fun i hi => ?_⟩
                have hne : i ≠ item := fun he => hnew (he ▸ hi)
                exact (List.mem_cons.mp (hcovers.2 i hi)).resolve_left hne
              · intro hquiet
                exact ⟨List.mem_cons_self, fun i hi => List.mem_cons_of_mem _ (hquiet.2 i hi)⟩

end Calls
