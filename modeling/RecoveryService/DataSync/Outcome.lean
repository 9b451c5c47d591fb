import RecoveryService.DataSync.Steady

/-! # What the execution of a table returns

A table that returns has succeeded or failed, and its mapping carries the result and keeps its id and
its tables.  `Outcome` and `TableRun` hold these facts; `tableRun` is the execution of a table. -/

namespace DataSync

open Program

/-- A result of `execute_mapping`. -/
def Executed (result : Dict) : Prop :=
  result.get "status" = .str "succeeded" ∨ result.get "status" = .str "failed"

/-- The result of a table and the mapping it leaves. -/
structure Outcome where
  mapping : Dict
  result : Dict
  executed : Executed result
  carries : mapping.get "last_result" = .obj result

section

variable (py : Python) (dorisType : Json → String) (env : Env) (engine : Engine) (config : Dict)
  (nowText : String)

theorem spec_true {α : Type} (x : Table α) : Spec (fun _ => True) x (fun _ _ => True) (fun _ _ => True) := by
  constructor
  intro w _
  cases x w with
  | mk r w' => cases r <;> trivial

/-- The result is executed and lies in the mapping. -/
def Reported (result : Dict) (w : World) : Prop :=
  Executed result ∧ w.mapping.get "last_result" = .obj result

theorem ask_reported {α : Type} (answer : ℕ → Except Raised α) (result : Dict) :
    Spec (Reported result) (ask answer) (fun _ => Reported result) (fun _ _ => True) := by
  constructor
  intro w hw
  unfold ask
  cases answer w.clock with
  | ok v => exact hw
  | error exc => trivial

theorem setLastResult_reported {result : Dict} (h : Executed result) :
    Spec (fun _ => True) (setKey "last_result" (.obj result)) (fun _ => Reported result)
      (fun _ _ => True) :=
  spec_update fun _ _ => ⟨h, Dict.get_set_self _ _⟩

theorem attemptTable_reported (attempt : ℕ) :
    Spec (fun _ => True) (attemptTable py dorisType env engine config nowText attempt) Reported
      (fun _ _ => True) := by
  unfold attemptTable
  apply spec_bind (spec_true _)
  intro result
  apply spec_bind (spec_true _)
  intro _
  apply spec_bind
  · apply setLastResult_reported
    left
    rw [Dict.get_set_ne _ _ (by decide), Dict.get_set_ne _ _ (by decide), Dict.get_set_self]
  intro _
  apply spec_bind (ask_reported _ _)
  exact fun _ => spec_pure fun _ hw => hw

/-- An attempt that returns a result has reported it. -/
def EndReported (ended : AttemptEnd) (w : World) : Prop :=
  ∀ result, ended = .returned result → Reported result w

theorem handleFailure_reported (attempt maxAttempts : ℕ) (failureType : String) (exc : Raised) :
    Spec (fun _ => True) (handleFailure py env attempt maxAttempts failureType exc) EndReported
      (fun _ _ => True) := by
  have hfailed : ∀ e ft stop, Spec (fun _ => True)
      (pure (.failed e ft stop) : Table AttemptEnd) EndReported (fun _ _ => True) :=
    fun _ _ _ => spec_pure fun _ _ => nofun
  unfold handleFailure
  split
  · exact hfailed _ _ _
  · apply spec_bind (spec_true _)
    intro w
    unfold recoverAndDecide
    apply spec_bind (spec_true _)
    intro _
    apply spec_bind (spec_true _)
    intro answer
    apply spec_bind (spec_true _)
    intro _
    split
    · exact hfailed _ _ _
    split
    · exact hfailed _ _ _
    split
    · apply spec_bind (spec_true _)
      exact fun _ => spec_pure fun _ _ => nofun
    · exact hfailed _ _ _

theorem tryOnce_reported (attempt maxAttempts : ℕ) (failureType : String) : Spec (fun _ => True)
      (tryOnce py dorisType env engine config nowText attempt maxAttempts failureType)
      EndReported (fun _ _ => True) := by
  unfold tryOnce
  apply spec_bind (spec_true _)
  intro _
  apply spec_bind (spec_true _)
  intro ready
  obtain ⟨generation, unavailable⟩ := ready
  simp only
  split
  · exact spec_pure fun _ _ => nofun
  apply spec_bind (spec_true _)
  intro _
  apply spec_attempt (E := fun _ _ => True)
  · apply spec_bind (attemptTable_reported py dorisType env engine config nowText attempt)
    intro result
    apply spec_pure
    rintro w hw _ ⟨⟩
    exact hw
  · intro exc handler hhandler
    split at hhandler
    · cases hhandler
    · cases hhandler
      exact handleFailure_reported py env attempt maxAttempts failureType exc
  · exact fun _ _ _ hw => hw

theorem attemptLoop_reported (maxAttempts remaining attempt : ℕ) (failureType : String) : Spec (fun _ => True)
      (attemptLoop py dorisType env engine config nowText maxAttempts remaining attempt failureType)
      EndReported (fun _ _ => True) := by
  induction remaining generalizing attempt failureType with
  | zero => exact spec_raise fun _ _ => trivial
  | succ remaining ih =>
      unfold attemptLoop
      apply spec_bind (tryOnce_reported py dorisType env engine config nowText attempt maxAttempts
        failureType)
      intro ended
      cases ended with
      | again => exact (ih _ _).mono (fun _ _ => trivial) (fun _ _ h => h) (fun _ _ h => h)
      | returned result | failed exc failureType stopRemaining => exact spec_pure fun _ hw => hw

theorem reportFailure_reported (exc : Raised) (failureType : String) (stopRemaining : Bool) :
    Spec (fun _ => True) (reportFailure py env engine config exc failureType stopRemaining) Reported
      (fun _ _ => True) := by
  unfold reportFailure
  apply spec_bind (spec_true _)
  intro w
  apply spec_bind (spec_true _)
  intro _
  apply spec_bind (spec_true _)
  intro syncMethod
  apply spec_bind
  · apply setLastResult_reported
    right
    rfl
  intro _
  apply spec_bind (ask_reported _ _)
  exact fun _ => spec_pure fun _ hw => hw

theorem executeMapping_reported :
    Spec (fun _ => True) (executeMapping py dorisType env engine config nowText) Reported
      (fun _ _ => True) := by
  unfold executeMapping
  apply spec_bind (spec_true _)
  intro _
  apply spec_bind (spec_true _)
  intro _
  apply spec_bind (spec_true _)
  intro maxAttempts
  apply spec_bind (attemptLoop_reported py dorisType env engine config nowText _ _ _ _)
  intro ended
  cases ended with
  | again => exact spec_raise fun _ _ => trivial
  | returned result => exact spec_pure fun _ hw => hw result rfl
  | failed exc failureType stopRemaining =>
      exact (reportFailure_reported py env engine config exc failureType stopRemaining).mono
        (fun _ _ => trivial) (fun _ _ h => h) (fun _ _ h => h)

/-! ### What stays of the mapping -/

theorem get_set_written {k key : String} (d : Dict) (v : Json)
    (h : key ∉ "_runtime_write_started" :: tableKeys) (hk : k ∈ "_runtime_write_started" :: tableKeys) :
    (d.set k v).get key = d.get key := by
  apply Dict.get_set_ne
  rintro rfl
  exact h hk

/-- A key no table writes. -/
theorem kept_steady {key : String} {value : Json} (h : key ∉ "_runtime_write_started" :: tableKeys) :
    Steady (fun w => w.mapping.get key = value) (fun _ w => w.mapping.get key = value)
      (fun _ _ w => w.mapping.get key = value) where
  tick h := h
  set hk hw := (get_set_written _ _ h (List.mem_cons_of_mem _ hk)).trans hw
  mark hw := (get_set_written _ _ h List.mem_cons_self).trans hw
  send h := h
  weaken h := h
  freshTick h := h
  freshSet hk hw := (get_set_written _ _ h hk).trans hw
  fresh h := h
  unmarked h _ := h
  attempt h := h
  again h := h

/-- The outcome of the table with the given mapping: what no table writes is as before. -/
structure TableRun (mapping : Dict) where
  outcome : Outcome
  kept : ∀ key ∉ "_runtime_write_started" :: tableKeys, outcome.mapping.get key = mapping.get key

/-- `execute_mapping` on one mapping. -/
def tableRun (mapping : Dict) : Except Raised (TableRun mapping) :=
  match h : executeMapping py dorisType env engine config nowText { mapping := mapping } with
  | (.error exc, _) => .error exc
  | (.ok result, w) =>
      have hreported : Reported result w := by
        have hends := (executeMapping_reported py dorisType env engine config nowText).ends
          { mapping := mapping } trivial
        rw [h] at hends
        exact hends
      have hkept : ∀ key ∉ "_runtime_write_started" :: tableKeys,
          w.mapping.get key = mapping.get key := by
        intro key hkey
        have hkeeps : Steady (fun w => w.mapping.get key = mapping.get key)
            (fun _ w => w.mapping.get key = mapping.get key)
            (fun _ _ w => w.mapping.get key = mapping.get key) := kept_steady hkey
        have hends := (executeMapping_steady hkeeps py dorisType env engine config nowText).ends
          { mapping := mapping } rfl
        rw [h] at hends
        obtain ⟨_, -, hkept⟩ := hends
        exact hkept
      .ok { outcome := { mapping := w.mapping, result := result, executed := hreported.1,
                         carries := hreported.2 }
            kept := hkept }

end

end DataSync
