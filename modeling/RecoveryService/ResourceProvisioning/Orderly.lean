import RecoveryService.ResourceProvisioning.Batch

/-! # Orderly runs of a provisioning batch

A row that a worker leaves running is taken up by nobody, and the counters overlook the rows that are pending
or running; two executions that have both read a row as pending perform its steps twice.  `Orderly` leaves
these steps out.  Then a batch that has succeeded is complete, and each row that has not succeeded is retried
or still attended to.  That a row succeeds behind its logs only holds in every run. -/

namespace RecoveryService.ResourceProvisioning

open Runs

variable {n : ℕ}

/-! ### What is promised -/

/-- The execution lists the row or has it still to claim. -/
def System.Awaits (s : System n) (w : ℕ) (r : Fin n) : Prop :=
  s.executions w = .begun ∨ (s.threads w r).waits = true

/-- A message or an execution is left for the row. -/
def Attended (s : System n) (r : Fin n) : Prop :=
  0 < s.messages ∨ ∃ w, s.Awaits w r ∨ (s.threads w r).holds = true

/-- `prepare_retry` goes through, and behind it the row is pending. -/
def Retryable (s : System n) (r : Fin n) : Prop :=
  retryRows s.rows ≠ [] ∧ (r ∈ retryRows s.rows ∨ s.rows r = .pending)

/-- A row succeeds behind all of its steps. -/
def RowsLogged (s : System n) : Prop := ∀ r, s.rows r = .succeeded → ∀ step, s.Logged r step

structure Consistent (s : System n) : Prop where
  batch : s.batch = .succeeded → ∀ r, s.rows r = .succeeded
  retried : ∀ r, s.rows r ≠ .succeeded → Retryable s r ∨ Attended s r
  rows : RowsLogged s
  performed : ∀ p ∈ s.performed, p.step.isExternal = true → p.again = false

/-! ### The condition -/

def SomeFailed (rows : Fin n → RowState) : Prop := ∃ r, (rows r).isFailed = true

/-- A row is claimed or given up while it is still pending, and put back while it is still failed.  The
counters are taken while no row is pending or running, or while one has failed.  An execution dies while it
holds no row and every pending row is left to somebody. -/
def Orderly (s : System n) : Action n → Prop
  | .claimRow _ r | .crash _ r => s.rows r = .pending
  | .countRows _ => SomeFailed s.rows ∨ ∀ r, s.rows r ≠ .pending ∧ s.rows r ≠ .running
  | .die w requeued => (∀ r, (s.threads w r).holds = false) ∧ ∀ r, s.rows r = .pending →
      SomeFailed s.rows ∨ requeued = true ∨ 0 < s.messages ∨ ∃ v, v ≠ w ∧ s.Awaits v r
  | .commitRetry c => ∀ retry, s.retries c = some retry → ∀ r ∈ retry.retryRows, (s.rows r).isFailed = true
  | _ => True

/-! ### The logs -/

/-- Every step that is not to go is logged. -/
def Behind (logged : Step → Prop) (rest : List Step) : Prop :=
  rest <:+ steps ∧ ∀ step, step ∉ rest → logged step

def PlaceLogged (logged : Step → Prop) : ThreadPlace → Prop
  | .checking rest => Behind logged rest
  | .performing step rest | .logging step rest _ => Behind logged (step :: rest)
  | .away | .listed | .seen | .failing | .ended => True

structure Logs (s : System n) : Prop where
  places : ∀ w r, PlaceLogged (s.Logged r) (s.threads w r)
  rows : RowsLogged s

theorem initial_logs : Logs ({} : System n) := ⟨fun _ _ => trivial, nofun⟩

theorem behind_steps (logged : Step → Prop) : Behind logged steps :=
  ⟨List.suffix_refl _, fun step h => absurd (by cases step <;> decide) h⟩

variable {place : ThreadPlace}

theorem PlaceLogged.mono {logged logged' : Step → Prop} (h : PlaceLogged logged place)
    (hle : ∀ step, logged step → logged' step) : PlaceLogged logged' place := by
  cases place with
  | checking rest | performing first rest | logging first rest state =>
      exact ⟨h.1, fun step hstep => hle step (h.2 step hstep)⟩
  | away | listed | seen | failing | ended => trivial

variable {s s' : System n} {w : ℕ} {r : Fin n}

/-- The threads of an execution go on. -/
theorem Logs.update (h : Logs s) {places : Fin n → ThreadPlace}
    (hplaces : ∀ q, PlaceLogged (s.Logged q) (places q)) (v : ℕ) (q : Fin n) :
    PlaceLogged (s.Logged q) (Function.update s.threads w places v q) := by
  by_cases hv : v = w
  · rw [hv, Function.update_self]
    exact hplaces q
  · rw [Function.update_of_ne hv]
    exact h.places v q

variable {state : RowState}

/-- A thread goes on, and its row with it. -/
theorem Logs.goto (h : Logs s) (hplace : PlaceLogged (s.Logged r) place)
    (hstate : state = .succeeded → ∀ step, s.Logged r step) : Logs ((s.setRow r state).goto w r place) := by
  refine ⟨h.update fun q => ?_, fun q hq => ?_⟩
  · by_cases hqr : q = r
    · rw [hqr, Function.update_self]
      exact hplace
    · rw [Function.update_of_ne hqr]
      exact h.places w q
  · simp only [System.goto, System.setRow] at hq
    by_cases hqr : q = r
    · subst hqr
      rw [Function.update_self] at hq
      exact hstate hq
    · rw [Function.update_of_ne hqr] at hq
      exact h.rows q hq

theorem setRow_self (s : System n) (r : Fin n) : s.setRow r (s.rows r) = s := by
  unfold System.setRow
  rw [Function.update_eq_self]

theorem Logs.goto' (h : Logs s) (hplace : PlaceLogged (s.Logged r) place) : Logs (s.goto w r place) := by
  have hgoto : Logs ((s.setRow r (s.rows r)).goto w r place) := h.goto hplace fun hstate => h.rows r hstate
  rwa [setRow_self] at hgoto

theorem logged_append {logs : Fin n → Step → List LogState} {first : Step} {state : LogState} {q : Fin n}
    {step : Step} (h : ∃ x ∈ logs q step, x.isDone = true) :
    ∃ x ∈ Function.update logs r (Function.update (logs r) first (logs r first ++ [state])) q step,
      x.isDone = true := by
  obtain ⟨x, hx, hdone⟩ := h
  refine ⟨x, ?_, hdone⟩
  rw [Function.update_apply]
  split
  · next hq =>
      subst hq
      rw [Function.update_apply]
      split
      · next hstep =>
          subst hstep
          exact List.mem_append_left _ hx
      · exact hx
  · exact hx

/-- No step loses a log that is done, and the rows succeed behind theirs. -/
theorem Logs.step (h : Logs s) (a : Action n) (hs : step s a = some s') : Logs s' := by
  cases a with
  | redeliver =>
      cases hs
      exact ⟨h.places, h.rows⟩
  | begin w =>
      simp only [ResourceProvisioning.step, begin] at hs
      split at hs
      · cases hs
        exact ⟨h.places, h.rows⟩
      · cases hs
  | listRows w =>
      simp only [ResourceProvisioning.step, listRows] at hs
      split at hs
      · cases hs
        refine ⟨h.update fun q => ?_, h.rows⟩
        split <;> trivial
      · cases hs
  | countRows w =>
      simp only [ResourceProvisioning.step, countRows] at hs
      split at hs
      · cases hs
        exact ⟨h.places, h.rows⟩
      · cases hs
  | finish w =>
      simp only [ResourceProvisioning.step, finish] at hs
      split at hs
      · cases hs
        exact ⟨h.places, h.rows⟩
      · cases hs
  | die w requeued =>
      simp only [ResourceProvisioning.step, die] at hs
      split at hs
      · cases hs
        exact ⟨h.update fun _ => trivial, h.rows⟩
      · cases hs
  | readRow w r =>
      simp only [ResourceProvisioning.step, readRow] at hs
      split at hs
      · cases hs
        refine h.goto' ?_
        split <;> trivial
      · cases hs
  | claimRow w r =>
      simp only [ResourceProvisioning.step, claimRow] at hs
      split at hs
      · cases hs
        exact h.goto (behind_steps _) nofun
      · cases hs
  | crash w r =>
      simp only [ResourceProvisioning.step, crash] at hs
      split at hs
      · cases hs
        exact h.goto trivial nofun
      · cases hs
  | checkStep w r =>
      simp only [ResourceProvisioning.step, checkStep] at hs
      split at hs
      · next hplace =>
          cases hs
          have hbehind := h.places w r
          rw [hplace] at hbehind
          exact h.goto trivial fun _ step => hbehind.2 step List.not_mem_nil
      · next first rest hplace =>
          have hbehind := h.places w r
          rw [hplace] at hbehind
          split at hs
          · next hlogged =>
              cases hs
              refine h.goto' ⟨(List.suffix_cons first rest).trans hbehind.1, fun step hstep => ?_⟩
              by_cases hfirst : step = first
              · rw [hfirst]
                exact hlogged
              · exact hbehind.2 step (List.not_mem_cons_of_ne_of_not_mem hfirst hstep)
          · cases hs
            exact h.goto' hbehind
      · cases hs
  | performStep w r state =>
      simp only [ResourceProvisioning.step, performStep] at hs
      split at hs
      · next first rest hplace =>
          cases hs
          have hbehind := h.places w r
          rw [hplace] at hbehind
          have hgoto : Logs (s.goto w r (.logging first rest state)) := h.goto' hbehind
          exact ⟨hgoto.places, hgoto.rows⟩
      · cases hs
  | logStep w r =>
      simp only [ResourceProvisioning.step, logStep] at hs
      split at hs
      · next first rest state hplace =>
          cases hs
          have hbehind := h.places w r
          rw [hplace] at hbehind
          refine ⟨fun v q => ?_, fun q hq step => logged_append (h.rows q hq step)⟩
          simp only [System.goto, Function.update_apply s.threads]
          have hothers : PlaceLogged (s.Logged q) (s.threads v q) := h.places v q
          by_cases hv : v = w
          · subst hv
            rw [if_pos rfl]
            by_cases hqr : q = r
            · subst hqr
              rw [Function.update_self]
              split
              · trivial
              · next hstate =>
                  refine ⟨(List.suffix_cons first rest).trans hbehind.1, fun step hstep => ?_⟩
                  by_cases hfirst : step = first
                  · subst hfirst
                    refine ⟨state, ?_, ?_⟩
                    · simp only [Function.update_self]
                      exact List.mem_append_right _ (List.mem_singleton_self state)
                    · cases state with
                      | succeeded | skipped => rfl
                      | failed => exact absurd rfl hstate
                  · exact logged_append (hbehind.2 step (List.not_mem_cons_of_ne_of_not_mem hfirst hstep))
            · rw [Function.update_of_ne hqr]
              exact hothers.mono fun step hstep => logged_append hstep
          · rw [if_neg hv]
            exact hothers.mono fun step hstep => logged_append hstep
      · cases hs
  | raise w r =>
      simp only [ResourceProvisioning.step, raise] at hs
      split at hs
      · cases hs
        exact h.goto' trivial
      · cases hs
  | markRowFailed w r =>
      simp only [ResourceProvisioning.step, markRowFailed] at hs
      split at hs
      · cases hs
        exact h.goto trivial nofun
      · cases hs
  | readRetry c =>
      simp only [ResourceProvisioning.step, readRetry] at hs
      split at hs
      · cases hs
        exact ⟨h.places, h.rows⟩
      · cases hs
  | commitRetry c =>
      simp only [ResourceProvisioning.step, commitRetry] at hs
      split at hs
      · cases hs
        refine ⟨h.places, fun q hq => ?_⟩
        simp only at hq
        split at hq
        · cases hq
        · exact h.rows q hq
      · cases hs

/-! ### The invariant -/

structure Inv (s : System n) : Prop where
  fresh : ∀ w, s.executions w = .idle ∨ s.executions w = .begun → ∀ r, s.threads w r = .away
  running : ∀ r, s.rows r = .running ↔ ∃ w, (s.threads w r).holds = true
  single : ∀ w v r, (s.threads w r).holds = true → (s.threads v r).holds = true → w = v
  awaited : ∀ r, s.rows r = .pending → SomeFailed s.rows ∨ 0 < s.messages ∨ ∃ w, s.Awaits w r
  performing : ∀ w r first rest, s.threads w r = .performing first rest → ¬ s.Logged r first
  performed : ∀ p ∈ s.performed, p.again = false
  batch : s.batch = .succeeded → ∀ r, s.rows r = .succeeded
  counted : ∀ w seen, s.executions w = .counting seen .succeeded → ∀ r, s.rows r = .succeeded

theorem initial_inv : Inv ({} : System n) where
  fresh _ _ _ := rfl
  running _ := ⟨nofun, fun ⟨_, h⟩ => Bool.noConfusion h⟩
  single _ _ _ h := Bool.noConfusion h
  awaited _ _ := .inr (.inl Nat.one_pos)
  performing := nofun
  performed := nofun
  batch := nofun
  counted := nofun

theorem goto_threads (s : System n) (w v : ℕ) (r q : Fin n) (place : ThreadPlace) :
    (s.goto w r place).threads v q = if v = w ∧ q = r then place else s.threads v q := by
  simp only [System.goto]
  by_cases hv : v = w
  · subst hv
    rw [Function.update_self, Function.update_apply]
    simp only [true_and]
  · rw [Function.update_of_ne hv, if_neg fun h => hv h.1]

/-- A thread goes on with what it holds, and its row stays. -/
theorem Inv.goto (h : Inv s) (haway : s.threads w r ≠ .away) (hholds : place.holds = (s.threads w r).holds)
    (hwaits : (s.threads w r).waits = true → s.rows r = .pending → place.waits = true)
    (hperforming : ∀ first rest, place = .performing first rest → ¬ s.Logged r first) :
    Inv (s.goto w r place) := by
  have hsame : ∀ v q, ((s.goto w r place).threads v q).holds = (s.threads v q).holds := by
    intro v q
    rw [goto_threads]
    split
    · next hvq => rw [hholds, hvq.1, hvq.2]
    · rfl
  refine { performed := h.performed, batch := h.batch, counted := h.counted
           fresh := fun v hv q => ?_, running := fun q => ?_, single := fun v u q hv hu => ?_
           awaited := fun q hq => ?_, performing := fun v q first rest hv => ?_ }
  · rw [goto_threads, if_neg]
    · exact h.fresh v hv q
    · rintro ⟨rfl, rfl⟩
      exact haway (h.fresh v hv q)
  · rw [exists_congr fun v => by rw [hsame v q]]
    exact h.running q
  · rw [hsame] at hv hu
    exact h.single v u q hv hu
  · refine (h.awaited q hq).imp_right fun hleft => hleft.imp_right ?_
    rintro ⟨v, hbegun | hv⟩
    · exact ⟨v, .inl hbegun⟩
    · refine ⟨v, .inr ?_⟩
      rw [goto_threads]
      split
      · next hvq =>
          obtain ⟨rfl, rfl⟩ := hvq
          exact hwaits hv hq
      · exact hv
  · rw [goto_threads] at hv
    split at hv
    · next hvq =>
        rw [hvq.2]
        exact hperforming first rest hv
    · exact h.performing v q first rest hv

/-- A thread claims its row, or gives it up. -/
theorem Inv.settle (h : Inv s) (haway : s.threads w r ≠ .away)
    (hrow : s.rows r = .pending ∨ s.rows r = .running) (hstate : state ≠ .pending)
    (hrunning : state = .running ↔ place.holds = true) (hothers : ∀ v, v ≠ w → (s.threads v r).holds = false)
    (hperforming : ∀ first rest, place ≠ .performing first rest) : Inv ((s.setRow r state).goto w r place) := by
  have hnot : ¬ ∀ q, s.rows q = .succeeded := fun hall => by
    rw [hall r] at hrow
    rcases hrow with hrow | hrow <;> cases hrow
  have hplace : ∀ v q, q ≠ r → ((s.setRow r state).goto w r place).threads v q = s.threads v q :=
    fun v q hq => (goto_threads (s.setRow r state) w v r q place).trans (if_neg fun hvq => hq hvq.2)
  have hmine : ((s.setRow r state).goto w r place).threads w r = place :=
    (goto_threads (s.setRow r state) w w r r place).trans (if_pos ⟨rfl, rfl⟩)
  have hnobody : ∀ v, v ≠ w → (((s.setRow r state).goto w r place).threads v r).holds = false := by
    intro v hv
    rw [goto_threads, if_neg fun hvr => hv hvr.1]
    exact hothers v hv
  have hrows : ∀ q, q ≠ r → ((s.setRow r state).goto w r place).rows q = s.rows q :=
    fun q hq => Function.update_of_ne hq _ _
  have hmyrow : ((s.setRow r state).goto w r place).rows r = state := Function.update_self _ _ _
  refine { performed := h.performed
           batch := fun hb => absurd (h.batch hb) hnot
           counted := fun v seen hv => absurd (h.counted v seen hv) hnot
           fresh := fun v hv q => ?_, running := fun q => ?_, single := fun v u q hv hu => ?_
           awaited := fun q hq => ?_, performing := fun v q first rest hv => ?_ }
  · rw [goto_threads, if_neg]
    · exact h.fresh v hv q
    · rintro ⟨rfl, rfl⟩
      exact haway (h.fresh v hv q)
  · by_cases hqr : q = r
    · subst hqr
      rw [hmyrow, hrunning]
      refine ⟨fun hholds => ⟨w, by rwa [hmine]⟩, ?_⟩
      rintro ⟨v, hv⟩
      by_cases hvw : v = w
      · rwa [hvw, hmine] at hv
      · rw [hnobody v hvw] at hv
        cases hv
    · rw [hrows q hqr, exists_congr fun v => by rw [hplace v q hqr]]
      exact h.running q
  · by_cases hqr : q = r
    · subst hqr
      by_cases hvw : v = w <;> by_cases huw : u = w
      · rw [hvw, huw]
      · rw [hnobody u huw] at hu
        cases hu
      · rw [hnobody v hvw] at hv
        cases hv
      · rw [hnobody v hvw] at hv
        cases hv
    · rw [hplace _ q hqr] at hv hu
      exact h.single v u q hv hu
  · by_cases hqr : q = r
    · rw [hqr, hmyrow] at hq
      exact absurd hq hstate
    · rw [hrows q hqr] at hq
      rcases h.awaited q hq with ⟨p, hp⟩ | hmessage | ⟨v, hv⟩
      · refine .inl ⟨p, ?_⟩
        rw [hrows p]
        · exact hp
        · rintro rfl
          rcases hrow with hrow | hrow <;> rw [hrow] at hp <;> cases hp
      · exact .inr (.inl hmessage)
      · refine .inr (.inr ⟨v, hv.imp_right fun hwaits => ?_⟩)
        rw [hplace v q hqr]
        exact hwaits
  · by_cases hqr : q = r
    · subst hqr
      by_cases hvw : v = w
      · rw [hvw, hmine] at hv
        exact absurd hv (hperforming first rest)
      · rw [goto_threads, if_neg fun hvr => hvw hvr.1] at hv
        exact h.performing v q first rest hv
    · rw [hplace v q hqr] at hv
      exact h.performing v q first rest hv

/-- Nobody holds a row that is pending. -/
theorem Inv.free (h : Inv s) (hrow : s.rows r = .pending) (v : ℕ) : (s.threads v r).holds = false := by
  cases hv : (s.threads v r).holds with
  | false => rfl
  | true =>
      have hrunning := (h.running r).mpr ⟨v, hv⟩
      rw [hrow] at hrunning
      cases hrunning

/-- Nobody but its holder holds a row. -/
theorem Inv.alone (h : Inv s) (hw : (s.threads w r).holds = true) (v : ℕ) (hv : v ≠ w) :
    (s.threads v r).holds = false := by
  cases hholds : (s.threads v r).holds with
  | false => rfl
  | true => exact absurd (h.single v w r hholds hw) hv

variable {rows : Fin n → RowState}

theorem mem_retryRows : r ∈ retryRows rows ↔ (rows r).isFailed = true := by
  unfold retryRows
  rw [List.mem_filter]
  exact and_iff_right (List.mem_finRange r)

theorem someFailed_iff : SomeFailed rows ↔ retryRows rows ≠ [] := by
  refine ⟨fun ⟨r, hr⟩ => List.ne_nil_of_mem (mem_retryRows.mpr hr), fun h => ?_⟩
  obtain ⟨r, hr⟩ := List.exists_mem_of_ne_nil _ h
  exact ⟨r, mem_retryRows.mp hr⟩

/-- The counters say success where no row has failed. -/
theorem countedState_succeeded (h : countedState rows = .succeeded) : ¬ SomeFailed rows := by
  simp only [countedState] at h
  split at h
  · next hcount =>
      rintro ⟨r, hr⟩
      exact List.countP_eq_zero.mp hcount r (List.mem_finRange r) hr
  · split at h <;> cases h

/-! ### The steps -/

theorem Inv.begin (h : Inv s) (hs : begin s w = some s') : Inv s' := by
  simp only [ResourceProvisioning.begin] at hs
  split at hs
  · next hidle =>
      cases hs
      refine { running := h.running, single := h.single, performing := h.performing
               performed := h.performed, batch := nofun
               fresh := fun v hv r => ?_
               awaited := fun r hr => .inr (.inr ⟨w, .inl (Function.update_self _ _ _)⟩)
               counted := fun v seen hv => ?_ }
      · by_cases hvw : v = w
        · exact h.fresh v (.inl (hvw ▸ hidle.1)) r
        · refine h.fresh v ?_ r
          simp only [System.enter, Function.update_of_ne hvw] at hv
          exact hv
      · by_cases hvw : v = w
        · simp only [System.enter, hvw, Function.update_self] at hv
          cases hv
        · simp only [System.enter, Function.update_of_ne hvw] at hv
          exact h.counted v seen hv
  · cases hs

theorem Inv.listRows (h : Inv s) (hs : listRows s w = some s') : Inv s' := by
  simp only [ResourceProvisioning.listRows] at hs
  split at hs
  · next hbegun =>
      cases hs
      have haway := h.fresh w (.inr hbegun)
      have hlisted : ∀ r, (if s.rows r = .pending then ThreadPlace.listed else .away).holds = false := by
        intro r
        split <;> rfl
      have hsame : ∀ v r, ((Function.update s.threads w fun r =>
          if s.rows r = .pending then ThreadPlace.listed else .away) v r).holds = (s.threads v r).holds := by
        intro v r
        by_cases hv : v = w
        · rw [hv, Function.update_self, hlisted r, haway r]
          rfl
        · rw [Function.update_of_ne hv]
      refine { performed := h.performed, batch := h.batch
               fresh := fun v hv r => ?_, running := fun r => ?_, single := fun v u r hv hu => ?_
               awaited := fun r hr => .inr (.inr ⟨w, .inr ?_⟩)
               performing := fun v r first rest hv => ?_, counted := fun v seen hv => ?_ }
      · by_cases hvw : v = w
        · simp only [System.enter, hvw, Function.update_self] at hv
          rcases hv with hv | hv <;> cases hv
        · simp only [System.enter, Function.update_of_ne hvw] at hv ⊢
          exact h.fresh v hv r
      · simp only [hsame]
        exact h.running r
      · simp only [hsame] at hv hu
        exact h.single v u r hv hu
      · have hpending : s.rows r = .pending := hr
        simp only [Function.update_self]
        rw [if_pos hpending]
        rfl
      · by_cases hvw : v = w
        · simp only [hvw, Function.update_self] at hv
          split at hv <;> cases hv
        · simp only [Function.update_of_ne hvw] at hv
          exact h.performing v r first rest hv
      · by_cases hvw : v = w
        · simp only [System.enter, hvw, Function.update_self] at hv
          cases hv
        · simp only [System.enter, Function.update_of_ne hvw] at hv
          exact h.counted v seen hv
  · cases hs

/-- An execution without a row in hand goes to a place behind its listing. -/
theorem Inv.enter (h : Inv s) {place : ExecutionPlace} {batch : BatchState} (hbegun : s.executions w ≠ .begun)
    (hplace : place ≠ .idle ∧ place ≠ .begun)
    (hcounted : ∀ seen, place = .counting seen .succeeded → ∀ r, s.rows r = .succeeded)
    (hbatch : batch = .succeeded → ∀ r, s.rows r = .succeeded) :
    Inv { s.enter w place with batch := batch } := by
  refine { running := h.running, single := h.single, performing := h.performing
           performed := h.performed, batch := hbatch
           fresh := fun v hv r => ?_, awaited := fun r hr => ?_, counted := fun v seen hv => ?_ }
  · by_cases hvw : v = w
    · simp only [System.enter, hvw, Function.update_self] at hv
      rcases hv with hv | hv
      · exact absurd hv hplace.1
      · exact absurd hv hplace.2
    · simp only [System.enter, Function.update_of_ne hvw] at hv
      exact h.fresh v hv r
  · refine (h.awaited r hr).imp_right fun hleft => hleft.imp_right ?_
    rintro ⟨v, hv | hwaits⟩
    · refine ⟨v, .inl ?_⟩
      have hvw : v ≠ w := fun he => hbegun (he ▸ hv)
      simp only [System.enter, Function.update_of_ne hvw]
      exact hv
    · exact ⟨v, .inr hwaits⟩
  · by_cases hvw : v = w
    · simp only [System.enter, hvw, Function.update_self] at hv
      exact hcounted seen hv
    · simp only [System.enter, Function.update_of_ne hvw] at hv
      exact h.counted v seen hv

theorem Inv.countRows (h : Inv s) (hok : Orderly s (.countRows w)) (hs : countRows s w = some s') : Inv s' := by
  simp only [ResourceProvisioning.countRows] at hs
  split at hs
  · next hprocessing =>
      cases hs
      refine h.enter ?_ ⟨nofun, nofun⟩ (fun seen hplace r => ?_) h.batch
      · rw [hprocessing.1]
        exact nofun
      · -- no row has failed, so the condition leaves only the rows that have succeeded
        simp only [ExecutionPlace.counting.injEq] at hplace
        have hnone := countedState_succeeded hplace.2
        rcases hok with hfailed | hsettled
        · exact absurd hfailed hnone
        · have hrow := hsettled r
          cases hstate : s.rows r with
          | succeeded => rfl
          | pending => exact absurd hstate hrow.1
          | running => exact absurd hstate hrow.2
          | failed | conflict => exact absurd ⟨r, by rw [hstate]; rfl⟩ hnone
  · cases hs

theorem Inv.finish (h : Inv s) (hs : finish s w = some s') : Inv s' := by
  simp only [ResourceProvisioning.finish] at hs
  split at hs
  · next seen result hcounting =>
      cases hs
      refine h.enter ?_ ⟨nofun, nofun⟩ nofun fun hbatch => ?_
      · rw [hcounting]
        exact nofun
      · simp only [System.commitBatch] at hbatch
        split at hbatch
        · exact h.batch hbatch
        · rw [hbatch] at hcounting
          exact h.counted w seen hcounting
  · cases hs

theorem Inv.die (h : Inv s) {requeued : Bool} (hok : Orderly s (.die w requeued))
    (hs : die s w requeued = some s') : Inv s' := by
  simp only [ResourceProvisioning.die] at hs
  split at hs
  · cases hs
    obtain ⟨hfree, hleft⟩ := hok
    have hsame : ∀ v r, ((Function.update s.threads w fun _ => ThreadPlace.away) v r).holds =
        (s.threads v r).holds := by
      intro v r
      by_cases hv : v = w
      · rw [hv, Function.update_self, hfree r]
        rfl
      · rw [Function.update_of_ne hv]
    refine { performed := h.performed, batch := h.batch
             fresh := fun v hv r => ?_, running := fun r => ?_, single := fun v u r hv hu => ?_
             awaited := fun r hr => ?_, performing := fun v r first rest hv => ?_
             counted := fun v seen hv => ?_ }
    · by_cases hvw : v = w
      · simp only [hvw, Function.update_self]
      · simp only [System.enter, Function.update_of_ne hvw] at hv ⊢
        exact h.fresh v hv r
    · simp only [hsame]
      exact h.running r
    · simp only [hsame] at hv hu
      exact h.single v u r hv hu
    · rcases hleft r hr with hfailed | hrequeued | hmessage | ⟨v, hvw, hv⟩
      · exact .inl hfailed
      · refine .inr (.inl ?_)
        rw [if_pos hrequeued]
        exact Nat.succ_pos _
      · refine .inr (.inl ?_)
        split
        · exact Nat.succ_pos _
        · exact hmessage
      · refine .inr (.inr ⟨v, ?_⟩)
        unfold System.Awaits at hv ⊢
        simp only [System.enter, Function.update_of_ne hvw]
        exact hv
    · by_cases hvw : v = w
      · simp only [hvw, Function.update_self] at hv
        cases hv
      · simp only [Function.update_of_ne hvw] at hv
        exact h.performing v r first rest hv
    · by_cases hvw : v = w
      · simp only [System.enter, hvw, Function.update_self] at hv
        cases hv
      · simp only [System.enter, Function.update_of_ne hvw] at hv
        exact h.counted v seen hv
  · cases hs

theorem Inv.readRow (h : Inv s) (hs : readRow s w r = some s') : Inv s' := by
  simp only [ResourceProvisioning.readRow] at hs
  split at hs
  · next hlisted =>
      cases hs
      refine h.goto ?_ ?_ (fun _ hpending => ?_) fun first rest hplace => ?_
      · rw [hlisted]
        exact nofun
      · rw [hlisted]
        split <;> rfl
      · rw [if_pos hpending]
        rfl
      · split at hplace <;> cases hplace
  · cases hs

theorem Inv.claimRow (h : Inv s) (hok : Orderly s (.claimRow w r)) (hs : claimRow s w r = some s')
    : Inv s' := by
  simp only [ResourceProvisioning.claimRow] at hs
  split at hs
  · next hseen =>
      cases hs
      refine h.settle ?_ (.inl hok) nofun ⟨fun _ => rfl, fun _ => rfl⟩ (fun v _ => h.free hok v) nofun
      rw [hseen]
      exact nofun
  · cases hs

theorem Inv.crash (h : Inv s) (hok : Orderly s (.crash w r)) (hs : crash s w r = some s') : Inv s' := by
  simp only [ResourceProvisioning.crash] at hs
  split at hs
  · next hwaits =>
      cases hs
      refine h.settle ?_ (.inl hok) nofun ⟨nofun, nofun⟩ (fun v _ => h.free hok v) nofun
      rintro haway
      rw [haway] at hwaits
      cases hwaits
  · cases hs

/-- A thread ends with the row that it holds. -/
theorem Inv.release (h : Inv s) (hholds : (s.threads w r).holds = true)
    (hstate : state ≠ .pending ∧ state ≠ .running) : Inv ((s.setRow r state).goto w r .ended) := by
  refine h.settle ?_ (.inr ((h.running r).mpr ⟨w, hholds⟩)) hstate.1
    ⟨fun hrunning => absurd hrunning hstate.2, nofun⟩ (h.alone hholds) nofun
  intro haway
  rw [haway] at hholds
  cases hholds

/-- A thread goes on with the row that it holds. -/
theorem Inv.keep (h : Inv s) (hholds : (s.threads w r).holds = true) (hplace : place.holds = true)
    (hperforming : ∀ first rest, place = .performing first rest → ¬ s.Logged r first) :
    Inv (s.goto w r place) := by
  refine h.goto ?_ (hplace.trans hholds.symm) (fun hwaits _ => ?_) hperforming
  · intro haway
    rw [haway] at hholds
    cases hholds
  · cases hthread : s.threads w r <;> rw [hthread] at hholds hwaits <;>
      first | exact Bool.noConfusion hholds | exact Bool.noConfusion hwaits

theorem Inv.checkStep (h : Inv s) (hs : checkStep s w r = some s') : Inv s' := by
  simp only [ResourceProvisioning.checkStep] at hs
  split at hs
  · next hplace =>
      cases hs
      exact h.release (by rw [hplace]; rfl) ⟨nofun, nofun⟩
  · next first rest hplace =>
      have hholds : (s.threads w r).holds = true := by rw [hplace]; rfl
      split at hs
      · cases hs
        exact h.keep hholds rfl nofun
      · next hnot =>
          cases hs
          refine h.keep hholds rfl fun other others hother => ?_
          simp only [ThreadPlace.performing.injEq] at hother
          rw [← hother.1]
          exact hnot
  · cases hs

theorem Inv.performStep (h : Inv s) {state : LogState} (hs : performStep s w r state = some s') : Inv s' := by
  simp only [ResourceProvisioning.performStep] at hs
  split at hs
  · next first rest hplace =>
      cases hs
      have hgoto : Inv (s.goto w r (.logging first rest state)) :=
        h.keep (by rw [hplace]; rfl) rfl nofun
      refine { fresh := hgoto.fresh, running := hgoto.running, single := hgoto.single
               awaited := hgoto.awaited, performing := hgoto.performing, batch := hgoto.batch
               counted := hgoto.counted, performed := fun p hp => ?_ }
      rcases List.mem_append.mp hp with hp | hp
      · exact h.performed p hp
      · rw [List.mem_singleton.mp hp]
        exact decide_eq_false (h.performing w r first rest hplace)
  · cases hs

theorem Inv.logStep (h : Inv s) (hs : logStep s w r = some s') : Inv s' := by
  simp only [ResourceProvisioning.logStep] at hs
  split at hs
  · next first rest state hplace =>
      cases hs
      have hholds : (s.threads w r).holds = true := by rw [hplace]; rfl
      have hnext : ∀ other others,
          (if state = .failed then ThreadPlace.failing else .checking rest) ≠ .performing other others := by
        intro other others
        split <;> exact nofun
      have hgoto : Inv (s.goto w r (if state = .failed then .failing else .checking rest)) := by
        refine h.keep hholds ?_ fun other others hother => absurd hother (hnext other others)
        split <;> rfl
      refine { fresh := hgoto.fresh, running := hgoto.running, single := hgoto.single
               awaited := hgoto.awaited, batch := hgoto.batch, counted := hgoto.counted
               performed := hgoto.performed, performing := fun v q other others hv => ?_ }
      rintro ⟨x, hx, hdone⟩
      -- only the holder of a row logs its steps
      by_cases hqr : q = r
      · subst hqr
        have hvw : v ≠ w := by
          rintro rfl
          rw [goto_threads, if_pos ⟨rfl, rfl⟩] at hv
          exact hnext other others hv
        have hnobody := h.alone hholds v hvw
        rw [goto_threads, if_neg fun h => hvw h.1] at hv
        rw [hv] at hnobody
        cases hnobody
      · refine hgoto.performing v q other others hv ⟨x, ?_, hdone⟩
        simp only [Function.update_of_ne hqr] at hx
        exact hx
  · cases hs

theorem Inv.commitRetry (h : Inv s) {c : ℕ} (hok : Orderly s (.commitRetry c))
    (hs : commitRetry s c = some s') : Inv s' := by
  simp only [ResourceProvisioning.commitRetry] at hs
  split at hs
  · next seen rows hretry =>
      cases hs
      have hfailed := hok ⟨seen, rows⟩ hretry
      have hsame : (∀ q, s.rows q = .succeeded) →
          ∀ q, (if q ∈ rows then RowState.pending else s.rows q) = .succeeded := by
        intro hall q
        split
        · next hq =>
            have hrow := hfailed q hq
            rw [hall q] at hrow
            cases hrow
        · exact hall q
      refine { fresh := h.fresh, single := h.single, performing := h.performing, performed := h.performed
               running := fun q => ?_, awaited := fun q _ => .inr (.inl (Nat.succ_pos _))
               batch := fun hbatch => ?_, counted := fun v seen hv => hsame (h.counted v seen hv) }
      · have hrow : (if q ∈ rows then RowState.pending else s.rows q) = .running ↔ s.rows q = .running := by
          split
          · next hq =>
              refine iff_of_false nofun fun hrunning => ?_
              have hrow := hfailed q hq
              rw [hrunning] at hrow
              cases hrow
          · exact Iff.rfl
        exact hrow.trans (h.running q)
      · simp only [System.commitBatch] at hbatch
        split at hbatch
        · exact hsame (h.batch hbatch)
        · cases hbatch
  · cases hs

/-- Every orderly step keeps the invariant. -/
theorem Inv.step (h : Inv s) (a : Action n) (hok : Orderly s a) (hs : step s a = some s') : Inv s' := by
  cases a with
  | redeliver =>
      cases hs
      exact { h with awaited := fun q _ => .inr (.inl (Nat.succ_pos _)) }
  | begin w => exact h.begin hs
  | listRows w => exact h.listRows hs
  | countRows w => exact h.countRows hok hs
  | finish w => exact h.finish hs
  | die w requeued => exact h.die hok hs
  | readRow w r => exact h.readRow hs
  | claimRow w r => exact h.claimRow hok hs
  | crash w r => exact h.crash hok hs
  | checkStep w r => exact h.checkStep hs
  | performStep w r state => exact h.performStep hs
  | logStep w r => exact h.logStep hs
  | raise w r =>
      simp only [ResourceProvisioning.step, ResourceProvisioning.raise] at hs
      split at hs
      · next hholds =>
          cases hs
          exact h.keep hholds rfl nofun
      · cases hs
  | markRowFailed w r =>
      simp only [ResourceProvisioning.step, ResourceProvisioning.markRowFailed] at hs
      split at hs
      · next hfailing =>
          cases hs
          exact h.release (by rw [hfailing]; rfl) ⟨nofun, nofun⟩
      · cases hs
  | readRetry c =>
      simp only [ResourceProvisioning.step, ResourceProvisioning.readRetry] at hs
      split at hs
      · cases hs
        exact { h with }
      · cases hs
  | commitRetry c => exact h.commitRetry hok hs

/-! ### The runs -/

/-- What is pending is listed again or attended to, what is running has its thread, and what has failed is put
back. -/
theorem Inv.consistent (h : Inv s) (hlogs : Logs s) : Consistent s where
  batch := h.batch
  rows := hlogs.rows
  performed p hp _ := h.performed p hp
  retried r hr := by
    cases hrow : s.rows r with
    | succeeded => exact absurd hrow hr
    | pending =>
        rcases h.awaited r hrow with hfailed | hmessage | ⟨w, hw⟩
        · exact .inl ⟨someFailed_iff.mp hfailed, .inr hrow⟩
        · exact .inr (.inl hmessage)
        · exact .inr (.inr ⟨w, .inl hw⟩)
    | running =>
        obtain ⟨w, hw⟩ := (h.running r).mp hrow
        exact .inr (.inr ⟨w, .inr hw⟩)
    | failed | conflict =>
        have hmem : r ∈ retryRows s.rows := mem_retryRows.mpr (by rw [hrow]; rfl)
        exact .inl ⟨List.ne_nil_of_mem hmem, .inl hmem⟩

/-- Every run keeps the logs of the rows that have succeeded, and an orderly one keeps the batch consistent. -/
theorem consistent_run {as : List (Action n)} (hrun : Run step Free {} as s) :
    RowsLogged s ∧ (Run step Orderly {} as s → Consistent s) := by
  have hlogs : Logs s := hrun.invariant initial_logs fun _ a _ _ hs h => h.step a hs
  refine ⟨hlogs.rows, fun horderly => ?_⟩
  have hinv : Inv s := horderly.invariant initial_inv fun _ a _ hok hs h => h.step a hok hs
  exact hinv.consistent hlogs

/-- A row fails, and is put back by a retry. -/
def retriedRun : List (Action 1) :=
  [.begin 0, .listRows 0, .readRow 0 0, .claimRow 0 0, .checkStep 0 0, .performStep 0 0 .failed, .logStep 0 0,
    .markRowFailed 0 0, .countRows 0, .finish 0, .readRetry 0, .commitRetry 0]

theorem consistent_run_retried : ∃ s, Run step Free ({} : System 1) retriedRun s ∧
    Run step Orderly ({} : System 1) retriedRun s ∧ s.rows 0 = .pending ∧ s.messages = 1 ∧ Consistent s := by
  have hrun : Run step Orderly ({} : System 1) retriedRun _ :=
    .step trivial rfl (.step trivial rfl (.step trivial rfl (.step rfl rfl (.step trivial rfl (.step trivial rfl
      (.step trivial rfl (.step trivial rfl (.step (.inl ⟨0, rfl⟩) rfl (.step trivial rfl (.step trivial rfl
      (.step (fun retry hretry r hr => by cases hretry; cases hr with | head => rfl | tail _ h => cases h) rfl
        (.refl _))))))))))))
  have hfree : Run step Free ({} : System 1) retriedRun _ := hrun.mono fun _ _ _ => trivial
  exact ⟨_, hfree, hrun, rfl, rfl, (consistent_run hfree).2 hrun⟩

/-- The worker dies with the row in its hands, and the message comes again. -/
def dyingRun : List (Action 1) :=
  [.begin 0, .listRows 0, .readRow 0 0, .claimRow 0 0, .die 0 true, .begin 1, .listRows 1, .countRows 1,
    .finish 1]

theorem succeeded_without_row : ∃ s, Run step Free ({} : System 1) dyingRun s ∧ s.batch = .succeeded ∧
    s.rows 0 = .running ∧ ¬ Consistent s := by
  refine ⟨_, perform_iff.mp rfl, rfl, rfl, fun h => ?_⟩
  have hrow := h.batch rfl 0
  cases hrow

end RecoveryService.ResourceProvisioning
