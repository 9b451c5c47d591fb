import Mathlib

/-! # Programs over a state that may raise

A program reads and writes a state and returns a value or raises an exception; what it wrote
before the exception stays.  `Spec P x Q E` says: from a state with `P` the program `x` returns
with `Q` or raises with `E`.  What was written before an exception is not undone, so an
invariant has to hold at every exit (`Keeps`). -/

/-- A program with the states `σ`, the exceptions `ε` and the result `α`. -/
def Program (σ ε α : Type) : Type := σ → Except ε α × σ

namespace Program

variable {σ ε α β : Type}

instance : Monad (Program σ ε) where
  pure a := fun s => (.ok a, s)
  bind x f := fun s =>
    match x s with
    | (.ok a, s') => f a s'
    | (.error e, s') => (.error e, s')

/-- `raise`. -/
def raise (e : ε) : Program σ ε α := fun s => (.error e, s)

/-- Read the state. -/
def state : Program σ ε σ := fun s => (.ok s, s)

/-- Change the state. -/
def update (f : σ → σ) : Program σ ε Unit := fun s => (.ok (), f s)

/-- A computation without effects that may raise. -/
def lift (x : Except ε α) : Program σ ε α := fun s => (x, s)

/-- `if c: x`. -/
def onlyIf (c : Prop) [Decidable c] (x : Program σ ε Unit) : Program σ ε Unit :=
  if c then x else pure ()

/-- `try: x` with `except`: the exceptions `handler` takes are handled, the others go on. -/
def attempt (x : Program σ ε α) (handler : ε → Option (Program σ ε α)) : Program σ ε α := fun s =>
  match x s with
  | (.ok a, s') => (.ok a, s')
  | (.error e, s') => (handler e).elim (.error e, s') (fun h => h s')

/-- `try: x` with `finally: f`: an exception of `f` replaces what `x` has come to. -/
def withFinally (x : Program σ ε α) (f : Program σ ε Unit) : Program σ ε α := fun s =>
  match x s with
  | (r, s') =>
    match f s' with
    | (.ok _, s'') => (r, s'')
    | (.error e, s'') => (.error e, s'')

/-- From `P` the program returns with `Q` or raises with `E`. -/
structure Spec (P : σ → Prop) (x : Program σ ε α) (Q : α → σ → Prop) (E : ε → σ → Prop) : Prop where
  ends : ∀ s, P s → match x s with
    | (.ok a, s') => Q a s'
    | (.error e, s') => E e s'

/-- The program keeps `I`, whether it returns or raises. -/
def Keeps (I : σ → Prop) (x : Program σ ε α) : Prop := Spec I x (fun _ => I) (fun _ => I)

variable {P P' : σ → Prop} {Q Q' : α → σ → Prop} {E E' : ε → σ → Prop} {I : σ → Prop}
  {x : Program σ ε α}

/-- A computation that returns has returned from its first part. -/
theorem returns_bind {y : Except ε α} {f : α → Except ε β} {b : β} (h : (y >>= f) = .ok b) :
    ∃ a, y = .ok a ∧ f a = .ok b := by
  cases y with
  | error e => cases h
  | ok a => exact ⟨a, rfl, h⟩

/-! ### Rules -/

theorem spec_pure {a : α} (h : ∀ s, P s → Q a s) : Spec P (pure a : Program σ ε α) Q E := ⟨h⟩

theorem spec_raise {e : ε} (h : ∀ s, P s → E e s) : Spec P (raise e : Program σ ε α) Q E := ⟨h⟩

theorem spec_update {f : σ → σ} {Q : Unit → σ → Prop} (h : ∀ s, P s → Q () (f s)) :
    Spec P (update f : Program σ ε Unit) Q E := ⟨h⟩

theorem spec_state {Q : σ → σ → Prop} (h : ∀ s, P s → Q s s) : Spec P (state : Program σ ε σ) Q E := ⟨h⟩

theorem spec_bind {R : β → σ → Prop} {f : α → Program σ ε β} (hx : Spec P x Q E)
    (hf : ∀ a, Spec (Q a) (f a) R E) : Spec P (x >>= f) R E := by
  constructor
  intro s hs
  have h := hx.ends s hs
  change match (match x s with
    | (.ok a, s') => f a s'
    | (.error e, s') => (.error e, s')) with
    | (.ok a, s') => R a s'
    | (.error e, s') => E e s'
  cases hr : x s with
  | mk r s' =>
      rw [hr] at h
      cases r with
      | error e => exact h
      | ok a => exact (hf a).ends s' h

theorem spec_attempt {handler : ε → Option (Program σ ε α)} (hx : Spec P x Q E)
    (hh : ∀ e, ∀ h ∈ handler e, Spec (E e) h Q E')
    (hn : ∀ e, handler e = none → ∀ s, E e s → E' e s) : Spec P (attempt x handler) Q E' := by
  constructor
  intro s hs
  have h := hx.ends s hs
  unfold attempt
  cases hr : x s with
  | mk r s' =>
      rw [hr] at h
      cases r with
      | ok a => exact h
      | error e =>
          simp only
          cases hd : handler e with
          | none => exact hn e hd s' h
          | some g => exact (hh e g hd).ends s' h

theorem spec_withFinally {f : Program σ ε Unit} (hx : Spec P x Q E)
    (hok : ∀ a, Spec (Q a) f (fun _ => Q' a) E') (herror : ∀ e, Spec (E e) f (fun _ => E' e) E') :
    Spec P (withFinally x f) Q' E' := by
  constructor
  intro s hs
  have h := hx.ends s hs
  unfold withFinally
  cases hr : x s with
  | mk r s' =>
      rw [hr] at h
      cases r with
      | ok a =>
          have hf := (hok a).ends s' h
          cases hc : f s' with
          | mk c s'' => cases c <;> (rw [hc] at hf; simp only [hc]; exact hf)
      | error e =>
          have hf := (herror e).ends s' h
          cases hc : f s' with
          | mk c s'' => cases c <;> (rw [hc] at hf; simp only [hc]; exact hf)

theorem Spec.mono (h : Spec P x Q E) (hP : ∀ s, P' s → P s) (hQ : ∀ a s, Q a s → Q' a s)
    (hE : ∀ e s, E e s → E' e s) : Spec P' x Q' E' := by
  constructor
  intro s hs
  have hx := h.ends s (hP s hs)
  cases hr : x s with
  | mk r s' =>
      rw [hr] at hx
      cases r with
      | ok a => exact hQ a s' hx
      | error e => exact hE e s' hx

/-- A program that does not raise returns. -/
theorem Spec.returns {s : σ} (h : Spec P x Q (fun _ _ => False)) (hs : P s) :
    ∃ a, (x s).1 = .ok a ∧ Q a (x s).2 := by
  have hx := h.ends s hs
  cases hr : x s with
  | mk r s' =>
      rw [hr] at hx
      cases r with
      | ok a => exact ⟨a, rfl, hx⟩
      | error e => exact hx.elim

theorem spec_or (h : Spec P x Q E) (h' : Spec P' x Q E) : Spec (fun s => P s ∨ P' s) x Q E :=
  ⟨fun s hs => hs.elim (h.ends s) (h'.ends s)⟩

theorem spec_exists {γ : Type} {R : γ → σ → Prop} (h : ∀ c, Spec (R c) x Q E) :
    Spec (fun s => ∃ c, R c s) x Q E := ⟨fun s hs => hs.elim fun c hc => (h c).ends s hc⟩

theorem spec_and {p : Prop} (h : p → Spec P x Q E) : Spec (fun s => P s ∧ p) x Q E :=
  ⟨fun s hs => (h hs.2).ends s hs.1⟩

theorem spec_forM {γ : Type} {l : List γ} {f : γ → Program σ ε Unit}
    (h : ∀ c ∈ l, Spec P (f c) (fun _ => P) E) : Spec P (l.forM f) (fun _ => P) E := by
  induction l with
  | nil => exact spec_pure fun _ hs => hs
  | cons c l ih =>
      rw [List.forall_mem_cons] at h
      exact spec_bind h.1 fun _ => ih h.2

/-- A loop that reaches `D` with one of its elements: the others keep `P` before and `D` behind it. -/
theorem spec_forM_mem {γ : Type} {l : List γ} {f : γ → Program σ ε Unit} {c : γ} {D : σ → Prop} (hc : c ∈ l)
    (hP : ∀ d ∈ l, Spec P (f d) (fun _ => P) E) (hreach : Spec P (f c) (fun _ => D) E)
    (hD : ∀ d ∈ l, Spec D (f d) (fun _ => D) E) : Spec P (l.forM f) (fun _ => D) E := by
  induction l with
  | nil => cases hc
  | cons d l ih =>
      rw [List.forall_mem_cons] at hP hD
      rcases List.mem_cons.mp hc with rfl | hc
      · exact spec_bind hreach fun _ => spec_forM hD.2
      · exact spec_bind hP.1 fun _ => ih hc hP.2 hD.2

/-! ### Invariants -/

theorem keeps_pure (a : α) : Keeps I (pure a : Program σ ε α) := ⟨fun _ hs => hs⟩

theorem keeps_raise (e : ε) : Keeps I (raise e : Program σ ε α) := ⟨fun _ hs => hs⟩

theorem keeps_state : Keeps I (state : Program σ ε σ) := ⟨fun _ hs => hs⟩

theorem keeps_lift (r : Except ε α) : Keeps I (lift r : Program σ ε α) := by
  constructor
  intro s hs
  cases r <;> exact hs

theorem keeps_update {f : σ → σ} (h : ∀ s, I s → I (f s)) : Keeps I (update f : Program σ ε Unit) := ⟨h⟩

theorem keeps_bind {f : α → Program σ ε β} (hx : Keeps I x) (hf : ∀ a, Keeps I (f a)) :
    Keeps I (x >>= f) := spec_bind hx hf

theorem keeps_forM {γ : Type} {l : List γ} {f : γ → Program σ ε Unit}
    (h : ∀ c ∈ l, Keeps I (f c)) : Keeps I (l.forM f) := spec_forM h

theorem keeps_ite {c : Prop} [Decidable c] {y : Program σ ε α} (hx : Keeps I x) (hy : Keeps I y) :
    Keeps I (if c then x else y) := by
  split
  · exact hx
  · exact hy

theorem keeps_onlyIf {c : Prop} [Decidable c] {x : Program σ ε Unit} (hx : Keeps I x) :
    Keeps I (onlyIf c x) := keeps_ite hx (keeps_pure ())

end Program
