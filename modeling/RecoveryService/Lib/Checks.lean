import RecoveryService.Lib.Loops

/-! # Programs that raise

A function that may raise returns `Except String`, the string being the text of the exception.
`raiseIf` is the statement `if bad: raise ValueError(text)`; the lemmas read off which checks
an accepted input has passed, one bind at a time. -/

namespace Checks

variable {α β : Type}

/-- `if bad: raise ValueError(text)`. -/
def raiseIf (bad : Prop) [Decidable bad] (text : String) : Except String Unit :=
  if bad then .error text else .ok ()

@[simp] theorem raiseIf_eq_ok {bad : Prop} [Decidable bad] {text : String} {u : Unit} :
    raiseIf bad text = .ok u ↔ ¬ bad := by
  unfold raiseIf
  split_ifs with h <;> simp [h]

/-- A program that returns has returned from its first part. -/
theorem bind_eq_ok {ε : Type} {x : Except ε α} {f : α → Except ε β} {b : β} :
    (x >>= f) = .ok b ↔ ∃ a, x = .ok a ∧ f a = .ok b := by
  cases x with
  | error e | ok a => simp [bind, Except.bind]

theorem map_eq_ok {ε : Type} {x : Except ε α} {f : α → β} {b : β} :
    x.map f = .ok b ↔ ∃ a, x = .ok a ∧ f a = b := by
  cases x <;> simp [Except.map]

theorem toOption_eq_some {ε : Type} {x : Except ε α} {a : α} : x.toOption = some a ↔ x = .ok a := by
  cases x <;> simp [Except.toOption]

variable {l : List α}
variable {r : List β}

/-- Where all steps return, their results go with the elements of the list. -/
theorem mapM_forall₂ {ε : Type} {f : α → Except ε β} (h : l.mapM f = .ok r) :
    List.Forall₂ (fun a b => f a = .ok b) l r := by
  induction l generalizing r with
  | nil =>
      cases h
      exact List.Forall₂.nil
  | cons a l ih =>
      rw [List.mapM_cons] at h
      obtain ⟨b, hb, h⟩ := bind_eq_ok.mp h
      obtain ⟨bs, hbs, h⟩ := bind_eq_ok.mp h
      cases h
      exact List.Forall₂.cons hb (ih hbs)

theorem mapM_eq_ok {ε : Type} {f : α → Except ε β} (h : l.mapM f = .ok r) :
    (∀ a ∈ l, ∃ b ∈ r, f a = .ok b) ∧ ∀ b ∈ r, ∃ a ∈ l, f a = .ok b :=
  Loops.exists_of_forall₂ (mapM_forall₂ h)

theorem length_of_mapM {ε : Type} {f : α → Except ε β} (h : l.mapM f = .ok r) : r.length = l.length :=
  (mapM_forall₂ h).length_eq.symm

/-- Where every step that returns has returned `g`, so has the list. -/
theorem map_of_mapM {ε : Type} {f : α → Except ε β} {g : α → β} (hf : ∀ a b, f a = .ok b → b = g a)
    (h : l.mapM f = .ok r) : r = l.map g := by
  induction l generalizing r with
  | nil =>
      cases h
      rfl
  | cons a l ih =>
      rw [List.mapM_cons] at h
      obtain ⟨b, hb, h⟩ := bind_eq_ok.mp h
      obtain ⟨bs, hbs, h⟩ := bind_eq_ok.mp h
      cases h
      rw [List.map_cons, hf a b hb, ih hbs]

/-- A list of steps returns when all of them do. -/
theorem mapM_returns {ε : Type} {f : α → Except ε β} (h : ∀ a ∈ l, ∃ b, f a = .ok b) :
    ∃ r, l.mapM f = .ok r := by
  induction l with
  | nil => exact ⟨[], rfl⟩
  | cons a l ih =>
      obtain ⟨⟨b, hb⟩, hl⟩ := List.forall_mem_cons.mp h
      obtain ⟨bs, hbs⟩ := ih hl
      refine ⟨b :: bs, ?_⟩
      rw [List.mapM_cons, hb, hbs]
      rfl

/-- A list of steps raises what one of them raises. -/
theorem mapM_eq_error {f : α → Except String β} {e : String} (h : l.mapM f = .error e) : ∃ a ∈ l, f a = .error e := by
  induction l with
  | nil => cases h
  | cons a l ih =>
      rw [List.mapM_cons] at h
      cases hb : f a with
      | error text =>
          rw [hb] at h
          cases h
          exact ⟨a, List.mem_cons_self, hb⟩
      | ok b =>
          rw [hb] at h
          cases hbs : l.mapM f with
          | error text =>
              rw [hbs] at h
              cases h
              obtain ⟨x, hx, he⟩ := ih hbs
              exact ⟨x, List.mem_cons_of_mem _ hx, he⟩
          | ok bs =>
              rw [hbs] at h
              cases h

/-- What is not `none` among the results. -/
theorem filterMap_of_mapM {f : α → Except String (Option β)} {r : List (Option β)} (h : l.mapM f = .ok r) :
    l.filterMap (fun a => (f a).toOption.join) = r.filterMap id := by
  induction l generalizing r with
  | nil =>
      cases h
      rfl
  | cons a l ih =>
      rw [List.mapM_cons] at h
      obtain ⟨o, ho, h⟩ := bind_eq_ok.mp h
      obtain ⟨os, hos, h⟩ := bind_eq_ok.mp h
      cases h
      have hhead : (f a).toOption.join = o := by
        rw [ho]
        rfl
      rw [List.filterMap_cons, List.filterMap_cons, hhead, ih hos]
      rfl

theorem forM_eq_ok {f : α → Except String Unit} (h : l.forM f = .ok ()) : ∀ a ∈ l, f a = .ok () := by
  induction l with
  | nil => exact fun _ ha => by cases ha
  | cons a l ih =>
      change (f a >>= fun _ => l.forM f) = .ok () at h
      obtain ⟨_, ha, h⟩ := bind_eq_ok.mp h
      exact List.forall_mem_cons.mpr ⟨ha, ih h⟩

end Checks
