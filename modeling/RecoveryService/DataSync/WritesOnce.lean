import RecoveryService.DataSync.Steady

/-! # At most one attempt writes

Requests to the target are sent by an attempt that has marked them, and a mark shows in the mapping.
An attempt that is tried again has no mark, so the requests of a table come from its last attempt. -/

namespace DataSync

open Program

/-- Nothing was marked or sent so far. -/
structure Untouched (w : World) : Prop where
  marks : w.marks = []
  writes : w.writes = []

/-- The attempt `a` has begun; nothing was marked or sent so far. -/
def Fresh (a : ℕ) (w : World) : Prop := Untouched w ∧ w.attempts = a

/-- During the attempt `a`: only `a` has marks, every request has the mark of its attempt, and a
mark shows in the mapping. -/
structure Attempt (a : ℕ) (marked : Prop) (w : World) : Prop where
  current : w.attempts = a
  marks : ∀ m ∈ w.marks, m = a
  requested : ∀ x ∈ w.writes, x.1 ∈ w.marks
  shows : w.marks ≠ [] → w.writeStarted
  noted : marked → a ∈ w.marks

variable {a : ℕ} {marked : Prop} {w : World}

theorem Attempt.untouched (h : Attempt a marked w) (hw : ¬ w.writeStarted) : Untouched w := by
  have hmarks : w.marks = [] := by
    by_contra hne
    exact hw (h.shows hne)
  refine ⟨hmarks, ?_⟩
  apply List.eq_nil_iff_forall_not_mem.mpr
  intro x hx
  have hmem := h.requested x hx
  rw [hmarks] at hmem
  cases hmem

theorem Fresh.attempt (h : Fresh a w) : Attempt a False w where
  current := h.2
  marks := by simp [h.1.marks]
  requested := by simp [h.1.writes]
  shows := fun hne => absurd h.1.marks hne
  noted := False.elim

/-- The mark is set, in the mapping and in the record. -/
theorem Attempt.mark (h : Attempt a marked w) : Attempt a True { w with
    mapping := w.mapping.set "_runtime_write_started" (.bool true), marks := w.attempts :: w.marks } where
  current := h.current
  marks := fun m hm => by
    obtain rfl | hm := List.mem_cons.mp hm
    · exact h.current
    · exact h.marks m hm
  requested := fun x hx => List.mem_cons_of_mem _ (h.requested x hx)
  shows := fun _ => Dict.get_set_self _ _
  noted := fun _ => by
    rw [← h.current]
    exact List.mem_cons_self

theorem Attempt.send {request : Write} (h : Attempt a True w) :
    Attempt a True { w with writes := (w.attempts, request) :: w.writes } where
  current := h.current
  marks := h.marks
  requested := fun x hx => by
    obtain rfl | hx := List.mem_cons.mp hx
    · have hm := h.noted trivial
      rw [← h.current] at hm
      exact hm
    · exact h.requested x hx
  shows := h.shows
  noted := h.noted

theorem Attempt.set {key : String} {value : Json} (hkey : key ∈ tableKeys)
    (h : Attempt a marked w) : Attempt a marked { w with mapping := w.mapping.set key value } where
  current := h.current
  marks := h.marks
  requested := h.requested
  shows := fun hne => by
    have hflag : key ≠ "_runtime_write_started" := by
      rintro rfl
      exact absurd hkey (by decide)
    unfold World.writeStarted
    rw [Dict.get_set_ne _ _ hflag]
    exact h.shows hne
  noted := h.noted

theorem attempt_steady : Steady Untouched Fresh Attempt where
  tick h := ⟨h.current, h.marks, h.requested, h.shows, h.noted⟩
  set hkey h := h.set hkey
  mark h := h.mark
  send h := h.send
  weaken h := ⟨h.current, h.marks, h.requested, h.shows, fun _ => h.noted trivial⟩
  freshTick h := ⟨⟨h.1.marks, h.1.writes⟩, h.2⟩
  freshSet _ h := ⟨⟨h.1.marks, h.1.writes⟩, h.2⟩
  fresh h := h.attempt
  unmarked h hw := ⟨h.untouched hw, h.current⟩
  attempt h := ⟨⟨h.marks, h.writes⟩, rfl⟩
  again h := h.1

section

variable (py : Python) (dorisType : Json → String) (env : Env) (engine : Engine) (config : Dict)
  (nowText : String)

/-- All requests a table sends to the target come from one attempt, which marked them before and
is the last attempt; and there are at most `max(1, min(5, connection_retry_attempts))` attempts. -/
theorem executeMapping_writes_once (mapping : Dict) :
    let w := (executeMapping py dorisType env engine config nowText { mapping := mapping }).2
    (∀ x ∈ w.writes, ∀ y ∈ w.writes, x.1 = y.1) ∧ (∀ x ∈ w.writes, x.1 ∈ w.marks) ∧
      (∀ m ∈ w.marks, m = w.attempts) ∧
      ∀ n, py.int (given (config.get "connection_retry_attempts") 3) = .ok n →
        (w.attempts : ℤ) ≤ max 1 (min 5 n) := by
  have hfresh : Fresh 0 { mapping := mapping } := ⟨⟨rfl, rfl⟩, rfl⟩
  have hends := (executeMapping_steady attempt_steady py dorisType env engine config nowText).ends
    _ hfresh
  have hlast : ∃ a ≤ allowedAttempts py config, Attempt a False
      (executeMapping py dorisType env engine config nowText { mapping := mapping }).2 := by
    revert hends
    cases executeMapping py dorisType env engine config nowText { mapping := mapping } with
    | mk r w =>
        cases r with
        | ok v | error exc => exact id
  obtain ⟨a, hcount, hlast⟩ := hlast
  refine ⟨?_, hlast.requested, ?_, ?_⟩
  · intro x hx y hy
    rw [hlast.marks _ (hlast.requested x hx), hlast.marks _ (hlast.requested y hy)]
  · intro m hm
    rw [hlast.marks m hm, hlast.current]
  · intro n hn
    have hcurrent := hlast.current
    rw [allowedAttempts_eq py config hn] at hcount
    omega

end

/-- An environment in which every call succeeds but the connection with number `lost`. -/
def Env.losing (lost : ℕ) (exc : Raised) : Env where
  emit := fun _ => .ok ()
  waitReady := fun _ => .ok (0, false)
  recover := fun _ => .ok ([], true)
  connect := fun n => if n = lost then .error exc else .ok ()
  close := fun _ => .ok ()
  listTables := fun _ => .ok [.obj [("name", .str "CUSTOMER")]]
  listColumns := fun _ => .ok []
  switchCatalog := fun _ => .ok ()
  execute := fun _ => .ok 0
  query := fun _ => .ok { batches := [] }
  rowsToCsv := fun _ => .ok 0
  streamLoad := fun _ => .ok []

/-- A connection lost before the first request: the second attempt writes. -/
theorem executeMapping_writes_once_retried :
    let config : Dict := [("source_catalog", .str "internal"), ("source_schema", .str "ODS"),
      ("target_database", .str "DWD"), ("connection_retry_attempts", .num 3)]
    let mapping : Dict := [("id", .str "m1"), ("source_table", .str "CUSTOMER"),
      ("source_columns", .arr [.obj [("name", .str "ID")]])]
    let w := (executeMapping Python.scalars (fun _ => "STRING")
      (Env.losing 2 { info := { kind := .connection } }) .doris config "now"
      { mapping := mapping }).2
    w.attempts = 2 ∧ w.writes.map Prod.fst = [2] ∧ (w.attempts : ℤ) ≤ max 1 (min 5 3) := by
  intro config mapping w
  refine ⟨by decide +kernel, by decide +kernel, ?_⟩
  exact (executeMapping_writes_once Python.scalars (fun _ => "STRING")
    (Env.losing 2 { info := { kind := .connection } }) .doris config "now" mapping).2.2.2 3 rfl

/-- A task that allows no attempt at all makes one. -/
theorem executeMapping_attempts_zero : let config : Dict := [("connection_retry_attempts", .num 0)]
    let w := (executeMapping Python.scalars (fun _ => "STRING")
      (Env.losing 2 { info := { kind := .other, name := "RuntimeError" } }) .doris config "now"
      { mapping := [("id", .str "m1"), ("source_table", .str "CUSTOMER")] }).2
    Python.scalars.int (given (config.get "connection_retry_attempts") 3) = .ok 0 ∧
      w.attempts = 1 := by
  decide +kernel

end DataSync
