import Mathlib

/-! # Runs of a transition system

A system is a step function `step : σ → α → Option σ`: an action is either not enabled in a
state (`none`) or leads to the next state.  `Run step ok s as s'` says that the actions `as`,
performed one after the other from `s`, lead to `s'`, and that every action met the side
condition `ok` in the state it was performed in; a run without a side condition takes
`ok := Free`.  `perform` computes the same run.

The induction over runs is made here once (`Run.invariant`): what every step preserves holds
in the last state of every run, hence, since a prefix of a run is a run, in every state
reached. -/

namespace Runs

variable {σ α : Type*}

/-- The side condition every action meets. -/
def Free : σ → α → Prop := fun _ _ => True

instance (s : σ) (a : α) : Decidable (Free s a) := .isTrue trivial

/-- `Run step ok s as s'`: the actions `as` lead from `s` to `s'`, each meeting `ok`. -/
inductive Run (step : σ → α → Option σ) (ok : σ → α → Prop) : σ → List α → σ → Prop
  | refl (s : σ) : Run step ok s [] s
  | step {s s₁ s₂ : σ} {a : α} {as : List α} :
      ok s a → step s a = some s₁ → Run step ok s₁ as s₂ → Run step ok s (a :: as) s₂

variable {step : σ → α → Option σ} {ok : σ → α → Prop}
variable {s s' : σ} {as : List α}

/-- What holds at the start and is kept by every step holds at the end. -/
theorem Run.invariant {I : σ → Prop} (h : Run step ok s as s') (hI : I s)
    (hstep : ∀ s a s', ok s a → step s a = some s' → I s → I s') : I s' := by
  induction h with
  | refl => exact hI
  | step hok hs _ ih => exact ih (hstep _ _ _ hok hs hI)

/-- The actions of a run may be known to meet another condition. -/
theorem Run.mono_of_mem (h : Run step ok s as s') (hle : ∀ s, ∀ a ∈ as, ok s a → ok' s a) : Run step ok' s as s' := by
  induction h with
  | refl => exact Run.refl _
  | step hok hs _ ih =>
      exact Run.step (hle _ _ List.mem_cons_self hok) hs
        (ih fun s a ha => hle s a (List.mem_cons_of_mem _ ha))

theorem Run.mono (h : Run step ok s as s') (hle : ∀ s a, ok s a → ok' s a) : Run step ok' s as s' :=
  h.mono_of_mem fun s a _ => hle s a

/-- A run can be cut at any point. -/
theorem Run.split {bs : List α} (h : Run step ok s (as ++ bs) s') :
    ∃ m, Run step ok s as m ∧ Run step ok m bs s' := by
  induction as generalizing s with
  | nil => exact ⟨s, Run.refl s, h⟩
  | cons a as ih =>
      cases h with
      | step hok hs hr =>
          obtain ⟨m, h₁, h₂⟩ := ih hr
          exact ⟨m, Run.step hok hs h₁, h₂⟩

theorem Run.trans {m : σ} {bs : List α} (h : Run step ok s as m) (h' : Run step ok m bs s') :
    Run step ok s (as ++ bs) s' := by
  induction h with
  | refl => exact h'
  | step hok hs _ ih => exact Run.step hok hs (ih h')

/-- `P` holds in every state of the run that performs `as` from `s`. -/
def Throughout (step : σ → α → Option σ) (P : σ → Prop) (s : σ) (as : List α) : Prop :=
  ∀ bs s', bs <+: as → Run step Free s bs s' → P s'

/-- Where a step keeps `P` exactly when it meets `ok`, `P` holds throughout a run exactly when
every step of the run meets `ok`. -/
theorem Run.throughout_iff {I P : σ → Prop} (h : Run step Free s as s') (hI : I s) (hP : P s)
    (hstep : ∀ s a s', I s → P s → step s a = some s' → I s' ∧ (P s' ↔ ok s a)) :
    Throughout step P s as ↔ Run step ok s as s' := by
  induction h with
  | refl s =>
      refine ⟨fun _ => Run.refl s, fun _ bs s' hbs hrun => ?_⟩
      rw [List.prefix_nil.mp hbs] at hrun
      cases hrun
      exact hP
  | @step s s₁ s₂ a as _ hs _ ih =>
      obtain ⟨hI₁, hiff⟩ := hstep s a s₁ hI hP hs
      have hfirst : Run step Free s [a] s₁ := Run.step trivial hs (Run.refl s₁)
      constructor
      · intro hall
        have hP₁ : P s₁ := hall [a] s₁ (List.prefix_iff_eq_append.mpr rfl) hfirst
        refine Run.step (hiff.mp hP₁) hs ((ih hI₁ hP₁).mp fun bs t hbs hrun => ?_)
        exact hall (a :: bs) t (List.cons_prefix_cons.mpr ⟨rfl, hbs⟩) (Run.step trivial hs hrun)
      · intro hrun bs t hbs hprefix
        cases hrun with
        | step hok hs' hrest =>
            rw [hs, Option.some.injEq] at hs'
            subst hs'
            have hP₁ : P s₁ := hiff.mpr hok
            cases hprefix with
            | refl => exact hP
            | step _ hb hprefix =>
                obtain ⟨rfl, htail⟩ := List.cons_prefix_cons.mp hbs
                rw [hs, Option.some.injEq] at hb
                subst hb
                exact (ih hI₁ hP₁).mpr hrest _ t htail hprefix

/-- Where a step keeps `P` exactly when it meets `ok` and nothing restores `P`, `P` holds at the end of
a run exactly when every step of the run meets `ok`. -/
theorem Run.ends_iff {I P : σ → Prop} (h : Run step ok s as s') (hI : I s)
    (hstep : ∀ s a s', ok s a → step s a = some s' → I s →
      I s' ∧ (P s' ↔ P s ∧ ok' s a)) : P s' ↔ P s ∧ Run step ok' s as s' := by
  induction h with
  | refl s => exact ⟨fun hP => ⟨hP, Run.refl s⟩, fun hP => hP.1⟩
  | step hok hs _ ih =>
      obtain ⟨hI₁, hiff⟩ := hstep _ _ _ hok hs hI
      rw [ih hI₁, hiff, and_assoc, and_congr_right_iff]
      intro _
      constructor
      · rintro ⟨hok', hrest⟩
        exact Run.step hok' hs hrest
      · intro hrun
        cases hrun with
        | step hok' hs' hrest =>
            rw [hs, Option.some.injEq] at hs'
            subst hs'
            exact ⟨hok', hrest⟩

/-- Compute a run; `none` when an action is not enabled or does not meet `ok`. -/
def perform (step : σ → α → Option σ) (ok : σ → α → Prop) [∀ s a, Decidable (ok s a)] :
    σ → List α → Option σ
  | s, [] => some s
  | s, a :: as => if ok s a then (step s a).bind (fun s' => perform step ok s' as) else none

theorem perform_iff [∀ s a, Decidable (ok s a)] : perform step ok s as = some s' ↔ Run step ok s as s' := by
  constructor
  · intro h
    induction as generalizing s with
    | nil =>
        simp only [perform, Option.some.injEq] at h
        rw [h]
        exact Run.refl s'
    | cons a as ih =>
        rw [perform] at h
        split_ifs at h with hok
        obtain ⟨m, hm, h'⟩ := Option.bind_eq_some_iff.mp h
        exact Run.step hok hm (ih h')
  · intro h
    induction h with
    | refl => rfl
    | step hok hs _ ih => rw [perform, if_pos hok, hs, Option.bind_some, ih]

/-- A computed run ends in a state with a property that was tested there. -/
theorem exists_run [∀ s a, Decidable (ok s a)] {p : σ → Prop} [DecidablePred p]
    (h : (perform step ok s as).any (fun s' => decide (p s')) = true) : ∃ s', Run step ok s as s' ∧ p s' := by
  cases hs : perform step ok s as with
  | none =>
      rw [hs] at h
      cases h
  | some s' =>
      rw [hs, Option.any_some, decide_eq_true_eq] at h
      exact ⟨s', perform_iff.mp hs, h⟩

/-- A run ends in the state that is computed. -/
theorem Run.ends {p : σ → Prop} [DecidablePred p] (h : Run step ok s as s')
    (hp : (perform step Free s as).any (fun s' => decide (p s')) = true) : p s' := by
  rw [perform_iff.mpr (h.mono fun _ _ _ => trivial : Run step Free s as s'), Option.any_some,
    decide_eq_true_eq] at hp
  exact hp

/-- The same for two states of a run. -/
theorem exists_run_run [∀ s a, Decidable (ok s a)] {bs : List α} {p : σ → σ → Prop} [∀ m s', Decidable (p m s')]
    (h : (perform step ok s as).any (fun m =>
      (perform step ok m bs).any (fun s' => decide (p m s'))) = true) :
    ∃ m s', Run step ok s as m ∧ Run step ok m bs s' ∧ p m s' := by
  cases hm : perform step ok s as with
  | none =>
      rw [hm] at h
      cases h
  | some m =>
      rw [hm, Option.any_some] at h
      obtain ⟨s', hrun, hp⟩ := exists_run h
      exact ⟨m, s', perform_iff.mp hm, hrun, hp⟩

end Runs
