import RecoveryService.DataAutomation.Dispatch

/-! # Several dispatchers

A claim is a compare-and-swap, the writes that follow it are not: a dispatcher that comes back late
overwrites what others have made of the row.  `Orderly` is what a step may find: no late write on a
row that is finished or held by another dispatcher, and no target that ends between the
reconciliation of a dispatcher and its send.  Runs of orderly steps keep the three promises of the
dispatcher (`dispatching_safe`), and each of them is broken by a run that is not
(`dispatching_unsafe`). -/

namespace RecoveryService.DataAutomation

open Runs

namespace Phase

/-- The claim of a dispatcher. -/
def claim? : Phase → Option Claim
  | .claimed claim _ | .sent claim _ _ | .raised claim _ _ => some claim
  | .idle | .reconciled .. | .listed _ => none

/-- The rows a dispatcher may still send. -/
def Queues (phase : Phase) (r : DispatchRow) : Prop :=
  match phase with
  | .idle => False
  | .reconciled now _ => Dispatching.Due r now
  | .listed ids | .sent _ _ ids | .raised _ _ ids => r.id ∈ ids
  | .claimed claim ids => r.id = claim.rowId ∨ r.id ∈ ids

instance (phase : Phase) (r : DispatchRow) : Decidable (phase.Queues r) := by
  unfold Queues
  split <;> infer_instance

end Phase

namespace Dispatching

/-- `d` has claimed the row, the claim is in the stale window and the row still in `dispatching`. -/
def Holds (w : Dispatching) (d id : ℕ) : Prop :=
  ∃ claim ∈ (w.phase d).claim?, claim.rowId = id ∧ w.now ≤ claim.claimedAt + staleAfter ∧
    ∃ r ∈ w.rows, r.id = id ∧ r.status = .dispatching

instance (w : Dispatching) (d id : ℕ) : Decidable (w.Holds d id) := by
  unfold Holds
  infer_instance

/-- Every row is held by one dispatcher at most. -/
def Exclusive (w : Dispatching) : Prop := ∀ d d' id, w.Holds d id → w.Holds d' id → d = d'

/-- The terminal rows of `w` have the same status in `w'`. -/
def KeepsTerminal (w w' : Dispatching) : Prop :=
  ∀ r ∈ w.rows, r.status.isTerminal = true → ∃ r' ∈ w'.rows, r'.id = r.id ∧ r'.status = r.status

instance (w w' : Dispatching) : Decidable (w.KeepsTerminal w') := by
  unfold KeepsTerminal
  infer_instance

/-- Another dispatcher has claimed the row, and its claim is in the stale window at the time `t`. -/
def HeldElsewhere (w : Dispatching) (d id t : ℕ) : Prop :=
  ∃ d' ≠ d, ∃ claim ∈ (w.phase d').claim?, claim.rowId = id ∧ t ≤ claim.claimedAt + staleAfter

/-- A target ends when no dispatcher may still send its row; a claimed row is written when it is not
terminal, or its target still in the state it was reconciled to, and made pending when no other
dispatcher holds it at the time it is due again. -/
def Orderly (w : Dispatching) (action : Action) : Prop :=
  match action with
  | .progress targetType targetId state =>
      targetType ≠ .sm4Job →
        (∃ status ∈ targetDispatchState targetType (some state), status.isTerminal = true) →
          ∀ d, ∀ r ∈ w.rows, r.targetType = targetType → r.targetId = targetId →
            ¬ (w.phase d).Queues r
  | .finish d =>
      ∀ claim ∈ (w.phase d).claim?, ∀ r ∈ w.rows, r.id = claim.rowId →
        if r.targetType = .sm4Job then
          (r.status.isTerminal = true → w.targetState r = some r.status) ∧
            (w.targetState r = none → ¬ w.HeldElsewhere d claim.rowId (w.now + 30))
        else r.status.isTerminal = false
  | .recover d =>
      ∀ claim ∈ (w.phase d).claim?, ∀ r ∈ w.rows, r.id = claim.rowId →
        r.status.isTerminal = false ∧
          ¬ w.HeldElsewhere d claim.rowId (w.now + delaySeconds r.attempts)
  | _ => True

/-! ### The invariant -/

/-- The claim is one of the row; in the stale window it is the last one, and a row that is pending
is due after that. -/
def ClaimOf (now : ℕ) (claim : Claim) (r : DispatchRow) : Prop :=
  claim.attempt ≤ r.attempts ∧ (now ≤ claim.claimedAt + staleAfter →
    r.attempts = claim.attempt ∧ r.lastAttemptAt = some claim.claimedAt ∧
      (r.status = .pending → ∃ t ∈ r.nextAttemptAt, claim.claimedAt + staleAfter < t))

structure Inv (w : Dispatching) : Prop where
  nodup : (w.rows.map DispatchRow.id).Nodup
  claimed : ∀ d, ∀ claim ∈ (w.phase d).claim?, ∃ r ∈ w.rows, r.id = claim.rowId ∧
    ClaimOf w.now claim r
  alone : ∀ d d', ∀ claim ∈ (w.phase d).claim?, ∀ claim' ∈ (w.phase d').claim?,
    claim.rowId = claim'.rowId → claim.attempt = claim'.attempt → d = d'
  queued : ∀ d, ∀ r ∈ w.rows, (w.phase d).Queues r → r.targetType ≠ .sm4Job → ¬ w.TargetTerminal r
  clock : ∀ d now limit, w.phase d = .reconciled now limit → now ≤ w.now
  unsent : w.sentTerminal = []

variable {w w' : Dispatching}
variable {r : DispatchRow}

theorem Inv.eq_of_id (h : Inv w) {r' : DispatchRow} (hr : r ∈ w.rows) (hr' : r' ∈ w.rows) (hid : r.id = r'.id) : r = r' :=
  List.inj_on_of_nodup_map h.nodup hr hr' hid

theorem row_eq_some {id : ℕ} (h : w.row id = some r) : r ∈ w.rows ∧ r.id = id :=
  ⟨List.mem_of_find?_eq_some h, by simpa using List.find?_some h⟩

variable {d : ℕ} {claim : Claim}

theorem Inv.claimOf (h : Inv w) (hc : claim ∈ (w.phase d).claim?) (hr : r ∈ w.rows) (hid : r.id = claim.rowId) :
    ClaimOf w.now claim r := by
  obtain ⟨r', hr', hid', hof⟩ := h.claimed d claim hc
  rw [h.eq_of_id hr hr' (hid.trans hid'.symm)]
  exact hof

theorem Inv.exclusive (h : Inv w) : w.Exclusive := by
  rintro d d' id ⟨c, hc, hid, hfresh, r, hr, hrid, -⟩ ⟨c', hc', hid', hfresh', -⟩
  have hof := (h.claimOf hc hr (hrid.trans hid.symm)).2 hfresh
  have hof' := (h.claimOf hc' hr (hrid.trans hid'.symm)).2 hfresh'
  exact h.alone d d' c hc c' hc' (hid.trans hid'.symm) (hof.1.symm.trans hof'.1)

/-! ### One dispatcher, and the rows -/

@[simp] theorem setPhase_rows (d : ℕ) (p : Phase) : (w.setPhase d p).rows = w.rows := rfl

@[simp] theorem setPhase_self (d : ℕ) (p : Phase) : (w.setPhase d p).phase d = p :=
  Function.update_self ..

theorem setPhase_of_ne {d' : ℕ} (h : d' ≠ d) (p : Phase) : (w.setPhase d p).phase d' = w.phase d' :=
  Function.update_of_ne h ..

/-- A dispatcher goes on and takes no new row. -/
theorem Inv.setPhase (h : Inv w) (d : ℕ) (p : Phase) (hclaim : ∀ c ∈ p.claim?, c ∈ (w.phase d).claim?)
    (hqueued : ∀ r ∈ w.rows, p.Queues r → r.targetType ≠ .sm4Job → ¬ w.TargetTerminal r)
    (hclock : ∀ now limit, p = .reconciled now limit → now ≤ w.now) : Inv (w.setPhase d p) := by
  have hsub : ∀ d', ∀ c ∈ ((w.setPhase d p).phase d').claim?, c ∈ (w.phase d').claim? := by
    intro d' c hc
    by_cases hd : d' = d
    · rw [hd, setPhase_self] at hc
      rw [hd]
      exact hclaim c hc
    · rwa [setPhase_of_ne hd] at hc
  refine ⟨h.nodup, fun d' c hc => h.claimed d' c (hsub d' c hc), ?_, ?_, ?_, h.unsent⟩
  · intro d₁ d₂ c hc c' hc'
    exact h.alone d₁ d₂ c (hsub d₁ c hc) c' (hsub d₂ c' hc')
  · intro d' r hr hq
    by_cases hd : d' = d
    · rw [hd, setPhase_self] at hq
      exact hqueued r hr hq
    · rw [setPhase_of_ne hd] at hq
      exact h.queued d' r hr hq
  · intro d' now limit hp
    by_cases hd : d' = d
    · rw [hd, setPhase_self] at hp
      exact hclock now limit hp
    · rw [setPhase_of_ne hd] at hp
      exact h.clock d' now limit hp

/-- What a write on the rows leaves alone. -/
structure Rewrites (f : DispatchRow → DispatchRow) : Prop where
  id : ∀ r, (f r).id = r.id
  attempts : ∀ r, (f r).attempts = r.attempts
  lastAttemptAt : ∀ r, (f r).lastAttemptAt = r.lastAttemptAt
  targetType : ∀ r, (f r).targetType = r.targetType
  targetId : ∀ r, (f r).targetId = r.targetId

variable {f : DispatchRow → DispatchRow}

theorem mapRows_ids (hf : ∀ r, (f r).id = r.id) :
    (w.mapRows f).rows.map DispatchRow.id = w.rows.map DispatchRow.id := by
  show (w.rows.map f).map DispatchRow.id = _
  rw [List.map_map]
  exact List.map_congr_left fun r _ => hf r

theorem Phase.queues_of_rewrites {p : Phase} (hf : Rewrites f) (hq : p.Queues (f r)) :
    p.Queues r ∨ ∃ now limit, p = .reconciled now limit ∧ Due (f r) now := by
  cases p with
  | reconciled now limit => exact .inr ⟨now, limit, rfl, hq⟩
  | idle => exact .inl hq
  | listed ids | sent c t ids | raised c t ids | claimed c ids =>
      left
      simpa [Phase.Queues, hf.id] using hq

/-- A write that keeps the claims, and makes no row due that must not be sent. -/
theorem Inv.mapRows (h : Inv w) (hf : Rewrites f)
    (hclaim : ∀ d, ∀ c ∈ (w.phase d).claim?, ∀ r ∈ w.rows, r.id = c.rowId →
      w.now ≤ c.claimedAt + staleAfter → ClaimOf w.now c r → (f r).status = .pending →
        ∃ t ∈ (f r).nextAttemptAt, c.claimedAt + staleAfter < t)
    (hdue : ∀ now ≤ w.now, ∀ r ∈ w.rows, Due (f r) now → r.targetType ≠ .sm4Job →
      w.TargetTerminal r → Due r now) : Inv (w.mapRows f) := by
  refine ⟨?_, ?_, h.alone, ?_, h.clock, h.unsent⟩
  · rw [mapRows_ids hf.id]
    exact h.nodup
  · intro d c hc
    obtain ⟨r, hr, hid, hof⟩ := h.claimed d c hc
    refine ⟨f r, List.mem_map_of_mem hr, (hf.id r).trans hid, ?_, ?_⟩
    · rw [hf.attempts]
      exact hof.1
    · intro hfresh
      rw [hf.attempts, hf.lastAttemptAt]
      exact ⟨(hof.2 hfresh).1, (hof.2 hfresh).2.1, hclaim d c hc r hr hid hfresh hof⟩
  · intro d r' hr' hq htype hterminal
    obtain ⟨r, hr, rfl⟩ := List.mem_map.mp hr'
    rw [hf.targetType] at htype
    have hterminal' : w.TargetTerminal r := by
      unfold TargetTerminal targetState at hterminal ⊢
      rwa [hf.targetType, hf.targetId] at hterminal
    obtain hq | ⟨now, limit, hp, hd⟩ := Phase.queues_of_rewrites hf hq
    · exact h.queued d r hr hq htype hterminal'
    · refine h.queued d r hr ?_ htype hterminal'
      have hp' : w.phase d = .reconciled now limit := hp
      rw [hp']
      exact hdue now (h.clock d now limit hp') r hr hd htype hterminal'

/-- A write on one row. -/
theorem Rewrites.onRow (hf : Rewrites f) (id : ℕ) : Rewrites (fun r => if r.id = id then f r else r) := by
  constructor <;> intro r <;> split_ifs <;>
    simp [hf.id, hf.attempts, hf.lastAttemptAt, hf.targetType, hf.targetId]

variable {ids : List ℕ}

/-- The write that ends a claim: a row it makes pending is due later, when no other dispatcher
holds it. -/
theorem Inv.writeRow (h : Inv w) (hf : Rewrites f) (hids : ∀ r ∈ w.rows, r.id ∈ ids → (w.phase d).Queues r)
    (hpending : ∀ r ∈ w.rows, r.id = claim.rowId → (f r).status = .pending →
      ∃ t, (f r).nextAttemptAt = some t ∧ w.now < t ∧ ¬ w.HeldElsewhere d claim.rowId t) :
    Inv (w.writeRow d claim ids f) := by
  have hlisted : Inv (w.setPhase d (.listed ids)) := by
    refine h.setPhase d (.listed ids) (fun c hc => by cases hc) ?_ (fun _ _ hp => by cases hp)
    exact fun r hr hq => h.queued d r hr (hids r hr hq)
  show Inv ((w.setPhase d (.listed ids)).mapRows _)
  refine hlisted.mapRows (hf.onRow claim.rowId) ?_ ?_
  · intro d' c hc r hr hid hfresh hof hstatus
    split_ifs at hstatus ⊢ with hrow
    · obtain ⟨t, ht, -, hheld⟩ := hpending r hr hrow hstatus
      refine ⟨t, ht, ?_⟩
      by_cases hd : d' = d
      · rw [hd, setPhase_self] at hc
        cases hc
      · rw [setPhase_of_ne hd] at hc
        by_contra hlate
        exact hheld ⟨d', hd, c, hc, hid.symm.trans hrow, by omega⟩
    · exact (hof.2 hfresh).2.2 hstatus
  · intro now hnow r hr hdue _ _
    split_ifs at hdue with hrow
    · obtain ⟨t, ht, hlt, -⟩ := hpending r hr hrow hdue.1
      have hle := hdue.2 t ht
      have hnow' : now ≤ w.now := hnow
      omega
    · exact hdue

/-! ### The transactions -/

theorem targetDispatchState_ne_pending (targetType : TargetType) (state : Option String) :
    targetDispatchState targetType state ≠ some .pending := by
  cases state with
  | none => cases targetType <;> simp [targetDispatchState]
  | some state =>
      cases targetType <;> unfold targetDispatchState <;> dsimp only <;> split_ifs <;> simp

theorem rewrites_resetRow (w : Dispatching) : Rewrites w.resetRow := by
  constructor <;> intro r <;> unfold resetRow <;> split_ifs <;> rfl

theorem rewrites_reconcileRow (w : Dispatching) : Rewrites w.reconcileRow := by
  constructor <;> intro r <;> unfold reconcileRow <;> split_ifs <;> try rfl
  all_goals cases w.targetState r <;> rfl

theorem rewrites_sentRow (w : Dispatching) (id : Option String) : Rewrites (w.sentRow id) := by
  constructor <;> intro r <;> unfold sentRow <;> split_ifs <;> try rfl
  all_goals cases w.targetState r <;> rfl

theorem rewrites_raisedRow (w : Dispatching) (text : String) : Rewrites (w.raisedRow text) := by
  constructor <;> intro r <;> rfl

theorem Rewrites.comp {g : DispatchRow → DispatchRow} (hf : Rewrites f) (hg : Rewrites g) :
    Rewrites (f ∘ g) := by
  constructor <;> intro r <;> unfold Function.comp
  · rw [hf.id, hg.id]
  · rw [hf.attempts, hg.attempts]
  · rw [hf.lastAttemptAt, hg.lastAttemptAt]
  · rw [hf.targetType, hg.targetType]
  · rw [hf.targetId, hg.targetId]

theorem reconcileRow_of_terminal (h : r.status.isTerminal = true) : w.reconcileRow r = r := by
  unfold reconcileRow
  rw [if_pos h]

theorem reconcileRow_of_pending (h : (w.reconcileRow r).status = .pending) : w.reconcileRow r = r := by
  by_cases hterminal : r.status.isTerminal = true
  · exact reconcileRow_of_terminal hterminal
  · unfold reconcileRow at h ⊢
    rw [if_neg hterminal] at h ⊢
    cases hs : w.targetState r with
    | none => rfl
    | some status =>
        rw [hs] at h
        have hstatus : status = .pending := h
        rw [hstatus] at hs
        exact absurd hs (targetDispatchState_ne_pending _ _)

/-- A row whose target has ended is not pending after a reconciliation. -/
theorem not_due_reconcileRow (h : w.TargetTerminal r) (now : ℕ) : ¬ Due (w.reconcileRow r) now := by
  intro hdue
  have heq := reconcileRow_of_pending hdue.1
  rw [heq] at hdue
  obtain ⟨status, hs, hterminal⟩ := h
  have hs' : w.targetState r = some status := hs
  have hstatus : (w.reconcileRow r).status = status := by
    unfold reconcileRow
    rw [if_neg (by simp [hdue.1, DispatchStatus.isTerminal]), hs']
  rw [heq, hdue.1] at hstatus
  rw [← hstatus] at hterminal
  cases hterminal

theorem resetRow_eq_or (w : Dispatching) (r : DispatchRow) :
    w.resetRow r = r ∨ r.status = .dispatching ∧ ∃ t ∈ r.lastAttemptAt, t + staleAfter < w.now := by
  unfold resetRow
  split_ifs with h
  · exact .inr h
  · exact .inl rfl

theorem Inv.reconcile (h : Inv w) : Inv w.reconcile := by
  refine h.mapRows (rewrites_reconcileRow w) ?_ ?_
  · intro d c _ r _ _ hfresh hof hstatus
    have heq := reconcileRow_of_pending hstatus
    rw [heq] at hstatus ⊢
    exact (hof.2 hfresh).2.2 hstatus
  · intro now _ r _ hdue _ hterminal
    exact absurd hdue (not_due_reconcileRow hterminal now)

theorem resetStale_reconcile (w : Dispatching) :
    w.resetStale.reconcile = w.mapRows (w.reconcileRow ∘ w.resetRow) := by
  show { w with rows := (w.rows.map w.resetRow).map w.reconcileRow } = _
  rw [List.map_map]
  rfl

/-- The first transaction of a dispatcher. -/
theorem Inv.start (h : Inv w) : Inv w.resetStale.reconcile := by
  rw [resetStale_reconcile]
  refine h.mapRows ((rewrites_reconcileRow w).comp (rewrites_resetRow w)) ?_ ?_
  · intro d c _ r _ _ hfresh hof hstatus
    unfold Function.comp at hstatus ⊢
    have heq := reconcileRow_of_pending hstatus
    rw [heq] at hstatus ⊢
    obtain hreset | ⟨-, t, ht, hstale⟩ := resetRow_eq_or w r
    · rw [hreset] at hstatus ⊢
      exact (hof.2 hfresh).2.2 hstatus
    · rw [(hof.2 hfresh).2.1] at ht
      cases ht
      omega
  · intro now _ r _ hdue _ hterminal
    refine absurd hdue (not_due_reconcileRow ?_ now)
    unfold TargetTerminal targetState at hterminal ⊢
    rwa [(rewrites_resetRow w).targetType, (rewrites_resetRow w).targetId]

/-- The claims of a row that is due are out of the stale window. -/
theorem Inv.stale_of_due (h : Inv w) (hr : r ∈ w.rows) (hdue : Due r w.now) (hc : claim ∈ (w.phase d).claim?)
    (hid : r.id = claim.rowId) : claim.attempt ≤ r.attempts ∧ ¬ w.now ≤ claim.claimedAt + staleAfter := by
  have hof := h.claimOf hc hr hid
  refine ⟨hof.1, fun hfresh => ?_⟩
  obtain ⟨t, ht, hlt⟩ := (hof.2 hfresh).2.2 hdue.1
  have hle := hdue.2 t ht
  omega

/-- `claimedRow` on the row `id`. -/
theorem claimedRow_id (w : Dispatching) (id : ℕ) (r : DispatchRow) :
    (if r.id = id then w.claimedRow r else r).id = r.id := by
  split_ifs <;> rfl

/-- A claimed row is not due. -/
theorem Phase.queues_of_claimedRow {p : Phase} {id : ℕ}
    (hq : p.Queues (if r.id = id then w.claimedRow r else r)) : p.Queues r := by
  cases p with
  | idle => exact hq
  | reconciled now limit =>
      unfold Phase.Queues at hq ⊢
      split_ifs at hq with hrow
      · cases hq.1
      · exact hq
  | listed ids | sent c t ids | raised c t ids | claimed c ids =>
      unfold Phase.Queues at hq ⊢
      rwa [claimedRow_id] at hq

/-- A claim is younger than all other claims of its row, and none of them is in the stale window. -/
theorem Inv.claimRow (h : Inv w) {id : ℕ} (hphase : w.phase d = .listed (id :: ids)) :
    Inv (w.claimRow d id ids) := by
  have hlisted : Inv (w.setPhase d (.listed ids)) := by
    refine h.setPhase d (.listed ids) (fun c hc => by cases hc) ?_ (fun _ _ hp => by cases hp)
    intro r hr hq
    refine h.queued d r hr ?_
    rw [hphase]
    exact List.mem_cons_of_mem id hq
  unfold Dispatching.claimRow
  cases hrow : w.row id with
  | none => exact hlisted
  | some r =>
      obtain ⟨hr, hid⟩ := row_eq_some hrow
      dsimp only
      split_ifs with hdue
      swap
      · exact hlisted
      have hother : ∀ d' ≠ d, ∀ c ∈ (((w.onRow id w.claimedRow).setPhase d
          (.claimed ⟨id, r.attempts + 1, w.now⟩ ids)).phase d').claim?, c ∈ (w.phase d').claim? := by
        intro d' hd c hc
        rwa [setPhase_of_ne hd] at hc
      have holder : ∀ d' ≠ d, ∀ c ∈ (((w.onRow id w.claimedRow).setPhase d
          (.claimed ⟨id, r.attempts + 1, w.now⟩ ids)).phase d').claim?, c.rowId = id →
            c.attempt ≤ r.attempts := by
        intro d' hd c hc hcid
        exact (h.stale_of_due hr hdue (hother d' hd c hc) (hid.trans hcid.symm)).1
      refine ⟨?_, ?_, ?_, ?_, ?_, h.unsent⟩
      · show ((w.mapRows _).rows.map DispatchRow.id).Nodup
        rw [mapRows_ids (w.claimedRow_id id)]
        exact h.nodup
      · intro d' c hc
        by_cases hd : d' = d
        · rw [hd, setPhase_self] at hc
          cases hc
          refine ⟨_, List.mem_map_of_mem hr, (w.claimedRow_id id r).trans hid, ?_⟩
          rw [if_pos hid]
          exact ⟨le_rfl, fun _ => ⟨rfl, rfl, fun hstatus => by cases hstatus⟩⟩
        · have hc' := hother d' hd c hc
          obtain ⟨r', hr', hid', hof⟩ := h.claimed d' c hc'
          refine ⟨_, List.mem_map_of_mem hr', (w.claimedRow_id id r').trans hid', ?_⟩
          split_ifs with hrow'
          · have hsame : r' = r := h.eq_of_id hr' hr (hrow'.trans hid.symm)
            rw [hsame] at hid' ⊢
            obtain ⟨hle, hstale⟩ := h.stale_of_due hr hdue hc' hid'
            exact ⟨Nat.le_succ_of_le hle, fun hfresh => absurd hfresh hstale⟩
          · exact hof
      · intro d₁ d₂ c hc c' hc' hrows hattempts
        by_cases hd₁ : d₁ = d <;> by_cases hd₂ : d₂ = d
        · rw [hd₁, hd₂]
        · have hle := holder d₂ hd₂ c' hc'
          rw [hd₁, setPhase_self] at hc
          cases hc
          have heq : r.attempts + 1 = c'.attempt := hattempts
          have := hle hrows.symm
          omega
        · have hle := holder d₁ hd₁ c hc
          rw [hd₂, setPhase_self] at hc'
          cases hc'
          have heq : c.attempt = r.attempts + 1 := hattempts
          have := hle hrows
          omega
        · exact h.alone d₁ d₂ c (hother d₁ hd₁ c hc) c' (hother d₂ hd₂ c' hc') hrows hattempts
      · intro d' r' hr' hq htype hterminal
        obtain ⟨r₀, hr₀, rfl⟩ := List.mem_map.mp hr'
        have hq₀ := Phase.queues_of_claimedRow hq
        have htype₀ : r₀.targetType ≠ .sm4Job := by
          split_ifs at htype with hrow' <;> exact htype
        have hterminal₀ : w.TargetTerminal r₀ := by
          split_ifs at hterminal with hrow' <;> exact hterminal
        refine h.queued d' r₀ hr₀ ?_ htype₀ hterminal₀
        by_cases hd : d' = d
        · rw [hd, setPhase_self] at hq₀
          rw [hd, hphase]
          exact List.mem_cons.mpr hq₀
        · rwa [setPhase_of_ne hd] at hq₀
      · intro d' now limit hp
        by_cases hd : d' = d
        · rw [hd, setPhase_self] at hp
          cases hp
        · rw [setPhase_of_ne hd] at hp
          exact h.clock d' now limit hp

/-- Nothing that is sent has a target that has ended. -/
theorem Inv.sendRow (h : Inv w) (outcome : SendOutcome) (hphase : w.phase d = .claimed claim ids) :
    Inv (w.sendRow d claim ids outcome) := by
  have hqueues : ∀ r : DispatchRow, r.id ∈ ids → (w.phase d).Queues r := by
    intro r hr
    rw [hphase]
    exact .inr hr
  unfold Dispatching.sendRow
  cases hrow : w.row claim.rowId with
  | none =>
      refine h.setPhase d (.listed ids) (fun c hc => by cases hc) ?_ (fun _ _ hp => by cases hp)
      exact fun r hr hq => h.queued d r hr (hqueues r hq)
  | some r =>
      obtain ⟨hr, hid⟩ := row_eq_some hrow
      have hunsent : ¬ (r.targetType ≠ .sm4Job ∧ outcome.reachesBroker = true ∧
          w.TargetTerminal r) := by
        rintro ⟨htype, -, hterminal⟩
        refine h.queued d r hr ?_ htype hterminal
        rw [hphase]
        exact .inl hid
      dsimp only
      rw [if_neg hunsent]
      cases outcome with
      | delivered | raisedBefore text | raisedAfter text =>
          refine h.setPhase d _ ?_ ?_ (fun _ _ hp => by cases hp)
          · intro c hc
            rw [hphase]
            exact hc
          · exact fun r hr hq => h.queued d r hr (hqueues r hq)

theorem Inv.register (h : Inv w) {row : DispatchRow} {state : String}
    (hfree : w.row row.id = none) (hstate : targetDispatchState row.targetType (some state) = none) :
    Inv { w with
      rows := w.rows ++ [row]
      target := fun targetType id =>
        if targetType = row.targetType ∧ id = row.targetId then some state
        else w.target targetType id } := by
  have hnew : ∀ r ∈ w.rows, r.id ≠ row.id := by
    intro r hr
    simpa using List.find?_eq_none.mp hfree r hr
  refine ⟨?_, ?_, h.alone, ?_, h.clock, h.unsent⟩
  · show ((w.rows ++ [row]).map DispatchRow.id).Nodup
    rw [List.map_append, List.nodup_append]
    refine ⟨h.nodup, List.nodup_singleton _, ?_⟩
    intro id hid id' hid'
    obtain ⟨r, hr, rfl⟩ := List.mem_map.mp hid
    rw [List.map_singleton, List.mem_singleton] at hid'
    rw [hid']
    exact hnew r hr
  · intro d c hc
    obtain ⟨r, hr, hid, hof⟩ := h.claimed d c hc
    exact ⟨r, List.mem_append_left _ hr, hid, hof⟩
  · intro d r hr hq htype hterminal
    unfold TargetTerminal targetState at hterminal
    dsimp only at hterminal
    split_ifs at hterminal with hsame
    · obtain ⟨status, hs, -⟩ := hterminal
      rw [hsame.1, hstate] at hs
      cases hs
    · obtain hr | hr := List.mem_append.mp hr
      · exact h.queued d r hr hq htype hterminal
      · rw [List.mem_singleton.mp hr] at hsame
        exact hsame ⟨rfl, rfl⟩

theorem Inv.progress (h : Inv w) {targetType : TargetType} {targetId : ℕ} {state : String}
    (hok : w.Orderly (.progress targetType targetId state)) : Inv { w with
      target := fun targetType' id =>
        if targetType' = targetType ∧ id = targetId then some state else w.target targetType' id } := by
  refine ⟨h.nodup, h.claimed, h.alone, ?_, h.clock, h.unsent⟩
  intro d r hr hq htype hterminal
  unfold TargetTerminal targetState at hterminal
  dsimp only at hterminal
  split_ifs at hterminal with hsame
  · rw [hsame.1] at hterminal htype
    exact hok htype hterminal d r hr hsame.1 hsame.2 hq
  · exact h.queued d r hr hq htype hterminal

theorem Inv.wait (h : Inv w) (seconds : ℕ) : Inv { w with now := w.now + seconds } := by
  refine ⟨h.nodup, ?_, h.alone, h.queued, ?_, h.unsent⟩
  · intro d c hc
    obtain ⟨r, hr, hid, hof⟩ := h.claimed d c hc
    refine ⟨r, hr, hid, hof.1, fun hfresh => hof.2 ?_⟩
    have hfresh' : w.now + seconds ≤ c.claimedAt + staleAfter := hfresh
    omega
  · intro d now limit hp
    have hle := h.clock d now limit hp
    show now ≤ w.now + seconds
    omega

/-- What a dispatcher lists is due. -/
theorem mem_dueIds {now limit id : ℕ} (h : id ∈ w.dueIds now limit) : ∃ r ∈ w.rows, r.id = id ∧ Due r now := by
  obtain ⟨r, hr, rfl⟩ := List.mem_map.mp (List.mem_of_mem_take h)
  rw [List.mem_filter, decide_eq_true_eq] at hr
  exact ⟨r, hr.1, rfl, hr.2⟩

theorem delaySeconds_pos (attempts : ℕ) : 0 < delaySeconds attempts := by
  unfold delaySeconds
  have hpow : 0 < 2 ^ min ((if attempts = 0 then 1 else attempts) - 1) 6 := Nat.two_pow_pos _
  omega

/-- An orderly step keeps the invariant. -/
theorem Inv.step (h : Inv w) {action : Action} (hok : w.Orderly action)
    (hs : w.step action = some w') : Inv w' := by
  cases action with
  | wait seconds =>
      cases hs
      exact h.wait seconds
  | register row state =>
      unfold Dispatching.step at hs
      dsimp only at hs
      split_ifs at hs with hguard
      cases hs
      rw [not_or, not_or, not_or, not_not, not_not, not_not, Option.not_isSome_iff_eq_none] at hguard
      exact h.register hguard.1 hguard.2.2.1
  | progress targetType targetId state =>
      cases hs
      exact h.progress hok
  | reconcile =>
      cases hs
      exact h.reconcile
  | start d limit =>
      unfold Dispatching.step at hs
      dsimp only at hs
      cases hp : w.phase d <;> rw [hp] at hs <;> cases hs
      refine h.start.setPhase d _ (fun c hc => by cases hc) ?_ ?_
      · intro r hr hq _ hterminal
        obtain ⟨r₀, -, rfl⟩ := List.mem_map.mp hr
        refine not_due_reconcileRow ?_ _ hq
        unfold TargetTerminal targetState at hterminal ⊢
        rwa [(rewrites_reconcileRow _).targetType, (rewrites_reconcileRow _).targetId] at hterminal
      · intro now limit' hp'
        cases hp'
        exact le_rfl
  | list d =>
      unfold Dispatching.step at hs
      dsimp only at hs
      cases hp : w.phase d <;> rw [hp] at hs <;> cases hs
      refine h.setPhase d _ (fun c hc => by cases hc) ?_ (fun _ _ hp' => by cases hp')
      intro r hr hq
      obtain ⟨r', hr', hid, hdue⟩ := mem_dueIds hq
      refine h.queued d r hr ?_
      rw [hp, h.eq_of_id hr hr' hid.symm]
      exact hdue
  | claim d =>
      unfold Dispatching.step at hs
      dsimp only at hs
      cases hp : w.phase d with
      | listed ids =>
          rw [hp] at hs
          cases ids with
          | nil => cases hs
          | cons id ids =>
              cases hs
              exact h.claimRow hp
      | idle | reconciled _ _ | claimed _ _ | sent _ _ _ | raised _ _ _ =>
          rw [hp] at hs
          cases hs
  | send d outcome =>
      unfold Dispatching.step at hs
      dsimp only at hs
      cases hp : w.phase d <;> rw [hp] at hs <;> cases hs
      exact h.sendRow outcome hp
  | finish d =>
      unfold Dispatching.step at hs
      dsimp only at hs
      cases hp : w.phase d <;> rw [hp] at hs <;> cases hs
      rename_i claim celeryTaskId ids
      refine h.writeRow (rewrites_sentRow w celeryTaskId) (fun r _ hid => by rw [hp]; exact hid) ?_
      intro r hr hid hstatus
      have hr' := hok claim (by rw [hp]; rfl) r hr hid
      unfold sentRow at hstatus ⊢
      split_ifs at hr' hstatus ⊢ with htype
      · cases hstate : w.targetState r with
        | some status =>
            rw [hstate] at hstatus
            have hpending : status = .pending := hstatus
            rw [hpending] at hstate
            exact absurd hstate (targetDispatchState_ne_pending _ _)
        | none => exact ⟨w.now + 30, rfl, by omega, hr'.2 hstate⟩
  | finishRaises d text =>
      unfold Dispatching.step at hs
      dsimp only at hs
      cases hp : w.phase d <;> rw [hp] at hs <;> cases hs
      refine h.setPhase d _ (fun c hc => by rw [hp]; exact hc) ?_ (fun _ _ hp' => by cases hp')
      intro r hr hq
      refine h.queued d r hr ?_
      rw [hp]
      exact hq
  | recover d =>
      unfold Dispatching.step at hs
      dsimp only at hs
      cases hp : w.phase d <;> rw [hp] at hs <;> cases hs
      rename_i claim text ids
      refine h.writeRow (rewrites_raisedRow w text) (fun r _ hid => by rw [hp]; exact hid) ?_
      intro r hr hid _
      obtain ⟨-, hheld⟩ := hok claim (by rw [hp]; rfl) r hr hid
      have hpos := delaySeconds_pos r.attempts
      exact ⟨w.now + delaySeconds r.attempts, rfl, by omega, hheld⟩
  | stop d =>
      cases hs
      exact h.setPhase d .idle (fun c hc => by cases hc) (fun r _ hq => by cases hq)
        (fun _ _ hp => by cases hp)

/-! ### Terminal rows -/

theorem keepsTerminal_of_subset (h : w.rows ⊆ w'.rows) : w.KeepsTerminal w' :=
  fun r hr _ => ⟨r, h hr, rfl, rfl⟩

theorem keepsTerminal_mapRows (hf : Rewrites f)
    (hstatus : ∀ r ∈ w.rows, r.status.isTerminal = true → (f r).status = r.status) :
    w.KeepsTerminal (w.mapRows f) :=
  fun r hr hterminal => ⟨f r, List.mem_map_of_mem hr, hf.id r, hstatus r hr hterminal⟩

theorem KeepsTerminal.trans {w'' : Dispatching} (h : w.KeepsTerminal w') (h' : w'.KeepsTerminal w'') :
    w.KeepsTerminal w'' := by
  intro r hr hterminal
  obtain ⟨r', hr', hid, hstatus⟩ := h r hr hterminal
  obtain ⟨r'', hr'', hid', hstatus'⟩ := h' r' hr' (by rwa [hstatus])
  exact ⟨r'', hr'', hid'.trans hid, hstatus'.trans hstatus⟩

theorem resetRow_of_terminal (h : r.status.isTerminal = true) : w.resetRow r = r := by
  obtain hreset | ⟨hdispatching, -⟩ := resetRow_eq_or w r
  · exact hreset
  · rw [hdispatching] at h
    cases h

theorem keepsTerminal_writeRow (hf : Rewrites f)
    (hstatus : ∀ r ∈ w.rows, r.id = claim.rowId → r.status.isTerminal = true →
      (f r).status = r.status) : w.KeepsTerminal (w.writeRow d claim ids f) := by
  refine keepsTerminal_mapRows (hf.onRow claim.rowId) ?_
  intro r hr hterminal
  split_ifs with hrow
  · exact hstatus r hr hrow hterminal
  · rfl

theorem keepsTerminal_claimRow (d id : ℕ) (ids : List ℕ) (h : Inv w) :
    w.KeepsTerminal (w.claimRow d id ids) := by
  unfold Dispatching.claimRow
  cases hrow : w.row id with
  | none => exact keepsTerminal_of_subset (List.Subset.refl _)
  | some r =>
      obtain ⟨hr, hid⟩ := row_eq_some hrow
      dsimp only
      split_ifs with hdue
      · intro r' hr' hterminal
        have hne : r'.id ≠ id := by
          intro hid'
          rw [h.eq_of_id hr' hr (hid'.trans hid.symm), hdue.1] at hterminal
          cases hterminal
        refine ⟨r', List.mem_map.mpr ⟨r', hr', ?_⟩, rfl, rfl⟩
        rw [if_neg hne]
      · exact keepsTerminal_of_subset (List.Subset.refl _)

/-- An orderly step leaves the terminal rows as they are. -/
theorem Inv.keepsTerminal (h : Inv w) {action : Action} (hok : w.Orderly action)
    (hs : w.step action = some w') : w.KeepsTerminal w' := by
  have hself : ∀ d p, w.KeepsTerminal (w.setPhase d p) :=
    fun d p => keepsTerminal_of_subset (List.Subset.refl _)
  cases action with
  | wait seconds | progress targetType targetId state =>
      cases hs
      exact keepsTerminal_of_subset (List.Subset.refl _)
  | register row state =>
      unfold Dispatching.step at hs
      dsimp only at hs
      split_ifs at hs
      cases hs
      exact keepsTerminal_of_subset (List.subset_append_left _ _)
  | reconcile =>
      cases hs
      refine keepsTerminal_mapRows (rewrites_reconcileRow w) ?_
      intro r _ hterminal
      rw [reconcileRow_of_terminal hterminal]
  | start d limit =>
      unfold Dispatching.step at hs
      dsimp only at hs
      cases hp : w.phase d <;> rw [hp] at hs <;> cases hs
      rw [resetStale_reconcile]
      refine keepsTerminal_mapRows ((rewrites_reconcileRow w).comp (rewrites_resetRow w)) ?_
      intro r _ hterminal
      unfold Function.comp
      rw [resetRow_of_terminal hterminal, reconcileRow_of_terminal hterminal]
  | claim d =>
      unfold Dispatching.step at hs
      dsimp only at hs
      split at hs <;> cases hs
      exact keepsTerminal_claimRow d _ _ h
  | send d outcome =>
      unfold Dispatching.step at hs
      dsimp only at hs
      cases hp : w.phase d <;> rw [hp] at hs <;> cases hs
      unfold Dispatching.sendRow
      split <;> exact keepsTerminal_of_subset (List.Subset.refl _)
  | finish d =>
      unfold Dispatching.step at hs
      dsimp only at hs
      cases hp : w.phase d <;> rw [hp] at hs <;> cases hs
      rename_i claim celeryTaskId ids
      refine keepsTerminal_writeRow (rewrites_sentRow w celeryTaskId) ?_
      intro r hr hid hterminal
      have hr' := hok claim (by rw [hp]; rfl) r hr hid
      unfold sentRow
      split_ifs at hr' ⊢ with htype
      · rw [hr'.1 hterminal]
      · rw [hterminal] at hr'
        cases hr'
  | recover d =>
      unfold Dispatching.step at hs
      dsimp only at hs
      cases hp : w.phase d <;> rw [hp] at hs <;> cases hs
      rename_i claim text ids
      refine keepsTerminal_writeRow (rewrites_raisedRow w text) ?_
      intro r hr hid hterminal
      have hr' := (hok claim (by rw [hp]; rfl) r hr hid).1
      rw [hterminal] at hr'
      cases hr'
  | list d | finishRaises d text =>
      unfold Dispatching.step at hs
      dsimp only at hs
      cases hp : w.phase d <;> rw [hp] at hs <;> cases hs
      exact hself d _
  | stop d =>
      cases hs
      exact hself d _

/-! ### Runs -/

theorem inv_empty : Inv {} where
  nodup := List.nodup_nil
  claimed := fun _ _ hc => by cases hc
  alone := fun _ _ _ hc => by cases hc
  queued := fun _ _ hr => by cases hr
  clock := fun _ _ _ hp => by cases hp
  unsent := rfl

theorem Inv.run (h : Inv w) {actions : List Action} (hrun : Run Dispatching.step Orderly w actions w') :
    Inv w' ∧ w.KeepsTerminal w' := by
  refine Run.invariant (I := fun s => Inv s ∧ w.KeepsTerminal s) hrun
    ⟨h, keepsTerminal_of_subset (List.Subset.refl _)⟩ ?_
  intro s action s' hok hs hI
  exact ⟨hI.1.step hok hs, hI.2.trans (hI.1.keepsTerminal hok hs)⟩

/-- In a run of orderly steps every row is held by one dispatcher at most, no row whose target has
ended is sent, and the terminal rows stay as they are. -/
theorem dispatching_safe {actions later : List Action} (h : Run Dispatching.step Orderly {} actions w)
    (h' : Run Dispatching.step Orderly w later w') :
    w.Exclusive ∧ w.sentTerminal = [] ∧ w.KeepsTerminal w' := by
  have hinv := (inv_empty.run h).1
  exact ⟨hinv.exclusive, hinv.unsent, (hinv.run h').2⟩

/-- Of two rows one ends before a dispatcher starts, the other is sent. -/
theorem dispatching_safe_pair : ∃ w w' : Dispatching, w.Exclusive ∧ w.sentTerminal = [] ∧ w.KeepsTerminal w' ∧
      w'.rows.map DispatchRow.status = [.dispatched, .succeeded] := by
  have hrun : ∃ w', Run Dispatching.step Orderly {}
      ([.register { id := 0, targetType := .recoveryTask, targetId := 7 } "created",
        .register { id := 1, targetType := .workflowRun, targetId := 8 } "queued",
        .progress .workflowRun 8 "succeeded", .start 0 100, .list 0, .claim 0,
        .send 0 .delivered] ++ [.finish 0]) w' := by
    apply Exists.intro
    iterate 2 apply Run.step trivial rfl
    apply Run.step _ rfl
    · iterate 4 apply Run.step trivial rfl
      apply Run.step _ rfl
      · exact Run.refl _
      · intro claim hc r hr hid
        cases hc
        cases List.mem_pair.mp hr with
        | inl hfirst =>
            rw [hfirst]
            rfl
        | inr hsecond =>
            rw [hsecond] at hid
            cases hid
    · exact fun _ _ d r _ _ _ hq => hq
  obtain ⟨w', hrun⟩ := hrun
  obtain ⟨w, hfirst, hlast⟩ := hrun.split
  obtain ⟨hexclusive, hunsent, hkeeps⟩ := dispatching_safe hfirst hlast
  refine ⟨w, w', hexclusive, hunsent, hkeeps, ?_⟩
  exact Run.ends (p := fun w' => w'.rows.map DispatchRow.status = [.dispatched, .succeeded]) hrun
    (by decide +kernel)

/-- A row leaves `succeeded` when its send is written after its reconciliation; two dispatchers hold
a row when a third comes back late and makes it pending; a target ends after its row was listed. -/
theorem dispatching_unsafe : (∃ actions later w w', Run Dispatching.step Free {} actions w ∧
      Run Dispatching.step Free w later w' ∧ ¬ w.KeepsTerminal w') ∧
    (∃ actions w, Run Dispatching.step Free {} actions w ∧ ¬ w.Exclusive) ∧
    ∃ actions w, Run Dispatching.step Free {} actions w ∧ w.sentTerminal ≠ [] := by
  refine ⟨?_, ?_, ?_⟩
  · refine ⟨[.register { id := 0, targetType := .recoveryTask, targetId := 7 } "created", .start 0 100,
      .list 0, .claim 0, .send 0 .delivered, .progress .recoveryTask 7 "succeeded", .reconcile],
      [.finish 0], ?_⟩
    exact exists_run_run (by decide +kernel)
  · obtain ⟨w, hrun, hholds⟩ : ∃ w : Dispatching, Run Dispatching.step Free {}
        [.register { id := 0, targetType := .recoveryTask, targetId := 7 } "created", .start 0 100,
          .list 0, .claim 0, .wait 121, .start 1 100, .list 1, .claim 1,
          .send 0 (.raisedBefore "broker unavailable"), .recover 0, .wait 10, .start 2 100, .list 2,
          .claim 2] w ∧ w.Holds 1 0 ∧ w.Holds 2 0 := exists_run (by decide +kernel)
    refine ⟨_, w, hrun, fun hexclusive => ?_⟩
    have heq := hexclusive 1 2 0 hholds.1 hholds.2
    omega
  · refine ⟨[.register { id := 0, targetType := .recoveryTask, targetId := 7 } "created", .start 0 100,
      .list 0, .progress .recoveryTask 7 "cancelled", .claim 0, .send 0 .delivered], ?_⟩
    exact exists_run (by decide +kernel)

end Dispatching

end RecoveryService.DataAutomation
