import RecoveryService.BatchAuthorization.Expiry

/-! # A batch in force has its privileges

A batch is in force when it has succeeded, is not offlined and has not expired.  Its users keep
their privileges as long as every batch that shares a lease counts its reference; moving the
expiry of a batch changes nothing but the batch, so a batch whose privileges are gone is in force
again without them (`extend_offlined_missing`). -/

namespace RecoveryService.BatchAuthorization

open Checks Text Loops Runs

variable {lower : String → String} {engine : ℕ → Option String} {s m : Store} {batch : Batch}
  {table : GrantTable} {revokeRaises : PrivilegeKey → Bool}

/-- The batch has succeeded and not been offlined. -/
def Batch.Standing (batch : Batch) : Prop := batch.state = .succeeded ∧ batch.offlinedAt = none

/-- The batch has succeeded, is not offlined and expires in the future. -/
def Batch.InForce (batch : Batch) (now : ℕ) : Prop := batch.Standing ∧ now < batch.expiresAt

/-- Every user of the batch has its privilege. -/
def Batch.Present (batch : Batch) (granted : List Privilege) : Prop :=
  ∀ table ∈ batch.tables, ∀ user ∈ table.users, Holds granted (batch.keyOf table user)

instance (batch : Batch) (now : ℕ) : Decidable (batch.InForce now) :=
  inferInstanceAs (Decidable ((_ ∧ _) ∧ _))

instance (batch : Batch) (granted : List Privilege) : Decidable (batch.Present granted) :=
  inferInstanceAs (Decidable (∀ table ∈ batch.tables, _))

/-- No administrator grants or revokes. -/
def NoneOutside : Action → Prop
  | .grantOutside _ => False
  | .revokeOutside _ => False
  | _ => True

/-- The privileges an import finds are really held, and the batch whose expiry is moved is not
offlined, and has its privileges when it has expired. -/
def KeepsPrivileges (s : Store) : Action → Prop
  | .importGrants request => ∀ row ∈ request.rows, ∀ username ∈ request.users,
      (request.replies (request.key row username)).finds (request.key row username) = true →
        Holds s.granted (request.key row username)
  | .extend batchId _ => ∀ batch ∈ s.batches, batch.id = batchId →
      batch.state ≠ .expired ∧ batch.state ≠ .offlined ∧
        (batch.state = .succeeded → batch.expiresAt ≤ s.now → batch.Present s.granted)
  | _ => True

instance : (a : Action) → Decidable (NoneOutside a)
  | .importGrants _ => .isTrue trivial
  | .offline _ _ => .isTrue trivial
  | .extend _ _ => .isTrue trivial
  | .expire _ => .isTrue trivial
  | .grantOutside _ => .isFalse id
  | .revokeOutside _ => .isFalse id
  | .wait _ => .isTrue trivial

instance (s : Store) : (a : Action) → Decidable (KeepsPrivileges s a)
  | .importGrants request => inferInstanceAs (Decidable (∀ row ∈ request.rows, _))
  | .offline _ _ => .isTrue trivial
  | .extend _ _ => inferInstanceAs (Decidable (∀ batch ∈ s.batches, _))
  | .expire _ => .isTrue trivial
  | .grantOutside _ => .isTrue trivial
  | .revokeOutside _ => .isTrue trivial
  | .wait _ => .isTrue trivial

/-- All users of a standing batch hold references, and a batch in force has its privileges. -/
structure ForceInv (s : Store) : Prop where
  whole : ∀ batch ∈ s.batches, batch.Standing → ∀ table ∈ batch.tables,
    table.state = .succeeded ∧ ∀ user ∈ table.users, user.Live
  present : ∀ batch ∈ s.batches, batch.InForce s.now → batch.Present s.granted

variable {granted : List Privilege} {key : PrivilegeKey}

theorem Holds.mono {granted' : List Privilege} (h : Holds granted key) (hsub : ∀ p ∈ granted, p ∈ granted') :
    Holds granted' key := by
  obtain ⟨p, hp, hcovers⟩ := h
  exact ⟨p, hsub p hp, hcovers⟩

theorem holds_of_mem (h : key.privilege ∈ granted) : Holds granted key :=
  ⟨key.privilege, h, rfl, rfl, rfl, rfl⟩

/-- A REVOKE takes only its own privilege. -/
theorem holds_revoke {key' : PrivilegeKey} (h : Holds granted key) (hne : key ≠ key') :
    Holds (granted.filter (· ≠ key'.privilege)) key := by
  obtain ⟨p, hp, hconnection, hname, hcovers⟩ := h
  refine ⟨p, ?_, hconnection, hname, hcovers⟩
  rw [List.mem_filter, decide_eq_true_eq]
  refine ⟨hp, ?_⟩
  rintro rfl
  apply hne
  obtain ⟨hd, ht⟩ := hcovers
  cases key
  cases key'
  simp only [PrivilegeKey.privilege] at hconnection hname hd ht
  simp only [PrivilegeKey.mk.injEq]
  exact ⟨hconnection.symm, hname.symm, hd.symm, ht.symm⟩

/-! ### Imports -/

theorem grantTableUser_keeps (request : ImportRequest) (row : String × String) (m : Store) (username : String) :
    ∀ p ∈ m.granted, p ∈ (grantTableUser lower request row m username).1.granted := by
  unfold grantTableUser
  dsimp only
  have hcase := acquire_cases lower m request.batchId (request.key row username)
    (request.replies (request.key row username))
  generalize acquirePrivilegeLeaseForGrant _ _ _ _ _ = acquired at hcase
  cases hcase with
  | raised | present => exact fun _ hp => hp
  | granted => exact fun _ hp => List.mem_cons_of_mem _ hp

/-- A user whose privilege has been acquired holds it. -/
theorem grantTableUser_holds (request : ImportRequest) (row : String × String) (m : Store) (username : String)
    (hfinds : (request.replies (request.key row username)).finds (request.key row username) = true →
      Holds m.granted (request.key row username))
    (hacquired : (grantTableUser lower request row m username).2.Acquired) :
    Holds (grantTableUser lower request row m username).1.granted (request.key row username) := by
  unfold grantTableUser at hacquired ⊢
  dsimp only at hacquired ⊢
  have hcase := acquire_cases lower m request.batchId (request.key row username)
    (request.replies (request.key row username))
  generalize acquirePrivilegeLeaseForGrant _ _ _ _ _ = acquired at hcase hacquired
  cases hcase with
  | raised =>
      exfalso
      obtain h | h := hacquired <;> cases h
  | present rows hrows hfound =>
      apply hfinds
      unfold Reply.finds
      rw [hrows, Option.any_some]
      exact hfound
  | granted => exact holds_of_mem List.mem_cons_self

variable {request : ImportRequest}

theorem importTables_holds (lower : String → String) (s : Store)
    (hkeeps : KeepsPrivileges s (.importGrants request)) :
    (∀ p ∈ s.granted, p ∈ (importTables lower s request).granted) ∧
      ∀ table ∈ (loop (grantSourceTable lower request) s request.rows).2, ∀ user ∈ table.users,
        user.Acquired →
          (user.revokeState = .pending ∧ Holds (importTables lower s request).granted
            ⟨request.connectionId, user.dbUsername, table.sourceDatabase, table.sourceTable⟩) := by
  have hstep : ∀ m, ∀ row ∈ request.rows, ∀ username ∈ request.users,
      (∀ p ∈ s.granted, p ∈ m.granted) →
        ∀ p ∈ s.granted, p ∈ (grantTableUser lower request row m username).1.granted :=
    fun m row _ username _ hm p hp => grantTableUser_keeps request row m username p (hm p hp)
  have hloop := importLoop_invariant lower request (s := s)
    (I := fun m => ∀ p ∈ s.granted, p ∈ m.granted) (fun _ hp => hp)
    (fun m row hrow username huser _ hm => hstep m row hrow username huser hm)
  have htables := importLoop_tables lower request (s := s)
    (I := fun m => ∀ p ∈ s.granted, p ∈ m.granted)
    (Q := fun key user m => user.Acquired → Holds m.granted key) (fun _ hp => hp) hstep
    (fun m row hrow username huser hm hacquired =>
      grantTableUser_holds request row m username
        (fun hfinds => (hkeeps row hrow username huser hfinds).mono hm) hacquired)
    (fun m key user row _ username _ _ hq hacquired =>
      (hq hacquired).mono (grantTableUser_keeps request row m username))
  refine ⟨hloop, fun table htable user huser hacquired => ?_⟩
  obtain ⟨row, _, hd, ht, -, husers⟩ := (exists_of_forall₂ htables).2 table htable
  obtain ⟨username, _, hnew, hholds⟩ := (exists_of_forall₂ husers).2 user huser
  refine ⟨hnew.pending hacquired, ?_⟩
  rw [hnew.name, hd, ht]
  exact hholds hacquired

/-- In a batch that has succeeded every privilege has been acquired. -/
theorem newBatch_whole
    (h : (newBatch request (loop (grantSourceTable lower request) s request.rows).2).Standing) :
    ∀ table ∈ (loop (grantSourceTable lower request) s request.rows).2,
      table.state = .succeeded ∧ ∀ user ∈ table.users, user.Acquired := by
  have htables := importLoop_tables lower request (s := s) (I := fun _ => True)
    (Q := fun _ _ _ => True) trivial (fun _ _ _ _ _ _ => trivial) (fun _ _ _ _ _ _ => trivial)
    (fun _ _ _ _ _ _ _ _ _ => trivial)
  obtain ⟨hstate, -⟩ := h
  unfold newBatch batchStateOf at hstate
  dsimp only at hstate
  have hnone : (loop (grantSourceTable lower request) s request.rows).2.countP
      (·.state ≠ .succeeded) = 0 := by
    by_contra hne
    rw [if_neg hne] at hstate
    split_ifs at hstate
  intro table htable
  have hsucceeded : table.state = .succeeded := by
    have := List.countP_eq_zero.mp hnone table htable
    simpa using this
  refine ⟨hsucceeded, fun user huser => ?_⟩
  obtain ⟨_, -, -, -, htstate, -⟩ := (exists_of_forall₂ htables).2 table htable
  rw [hsucceeded] at htstate
  unfold tableStateOf at htstate
  have hfailed : table.users.countP (¬ ·.Acquired) = 0 := by
    by_contra hne
    rw [if_pos hne] at htstate
    split_ifs at htstate
  have := List.countP_eq_zero.mp hfailed user huser
  simpa using this

theorem ForceInv.importTables (h : ForceInv s) (hkeeps : KeepsPrivileges s (.importGrants request)) :
    ForceInv (importTables lower s request) := by
  obtain ⟨hmono, hholds⟩ := importTables_holds lower s hkeeps
  have hnow : (BatchAuthorization.importTables lower s request).now = s.now :=
    (importLoop_same lower request s).now
  refine ⟨?_, ?_⟩
  · intro b hb hstanding
    rw [importTables_batches, List.mem_append, List.mem_singleton] at hb
    obtain hb | rfl := hb
    · exact h.whole b hb hstanding
    · intro table htable
      obtain ⟨hstate, hall⟩ := newBatch_whole hstanding table htable
      refine ⟨hstate, fun user huser => ⟨hall user huser, ?_⟩⟩
      rw [(hholds table htable user huser (hall user huser)).1]
      exact RevokeState.noConfusion
  · intro b hb hforce
    rw [hnow] at hforce
    rw [importTables_batches, List.mem_append, List.mem_singleton] at hb
    obtain hb | rfl := hb
    · exact fun table htable user huser => (h.present b hb hforce table htable user huser).mono hmono
    · intro table htable user huser
      have hacquired := (newBatch_whole hforce.1 table htable).2 user huser
      exact (hholds table htable user huser hacquired).2

/-! ### Offline -/

/-- The turn of a user takes no privilege whose lease another batch refers to. -/
theorem offlineUser_holds {user : GrantUser}
    (hlinked : user.Live → user.leaseId = some (privilegeLeaseKey lower (batch.keyOf table user)))
    (hwf : WellFormed lower engine s) (hm : Underway s m)
    (href : Referenced s.now s.batches batch.id (privilegeLeaseKey lower key)) (h : Holds m.granted key) :
    Holds (offlineUser lower batch table revokeRaises m user).1.granted key := by
  have hcase := offlineUser_linked batch table revokeRaises m hlinked
  have hconnection := hm.home.getD lower (batch.keyOf table user) .active
  have hsound : ∀ b ∈ m.batches, b.Sound lower engine := by
    rw [hm.batches]
    exact hwf.sound
  generalize offlineUser lower batch table revokeRaises m user = result at hcase
  cases hcase with
  | idle | skipped | failed => exact h
  | revoked _ _ hnone =>
      refine holds_revoke h ?_
      rintro rfl
      rw [← hm.now, ← hm.batches] at href
      exact (activeReferences_iff hsound _ hconnection batch.id).mpr href hnone

theorem ForceInv.offlineTables (h : ForceInv s) (hwf : WellFormed lower engine s)
    (hb : batch ∈ s.batches) : ForceInv (offlineTables lower revokeRaises s batch) := by
  have hsound := hwf.sound batch hb
  obtain ⟨hm, hholds⟩ := offlineLoop_invariant revokeRaises
    (I := fun m => ∀ key, Referenced s.now s.batches batch.id (privilegeLeaseKey lower key) →
      Holds s.granted key → Holds m.granted key) hsound hwf.underway (fun _ _ h => h)
    (fun m table htable user huser hm hI key href hheld =>
      offlineUser_holds (hsound.linked table htable user huser) hwf hm href (hI key href hheld))
  -- the batch itself no longer stands
  have hfallen : ∀ tables : List (GrantTable × Bool), ¬ (batch.offline s.now tables).Standing := by
    rintro tables ⟨hstate, -⟩
    unfold Batch.offline at hstate
    dsimp only at hstate
    split_ifs at hstate
  have hold : ∀ b ∈ (BatchAuthorization.offlineTables lower revokeRaises s batch).batches,
      b.Standing → b ∈ s.batches ∧ b.id ≠ batch.id := by
    intro b hbmem hstanding
    obtain rfl | ⟨hbold, hne⟩ := mem_setBatch hbmem
    · exact absurd hstanding (hfallen _)
    · rw [hm.batches] at hbold
      exact ⟨hbold, hne⟩
  refine ⟨fun b hbmem hstanding => h.whole b (hold b hbmem hstanding).1 hstanding, ?_⟩
  intro b hbmem hforce table htable user huser
  obtain ⟨hbold, hne⟩ := hold b hbmem hforce.1
  rw [(offlineTables_others revokeRaises hwf hb).1] at hforce
  obtain ⟨htstate, hlive⟩ := h.whole b hbold hforce.1 table htable
  have hlink := (hwf.sound b hbold).linked table htable user huser (hlive user huser)
  refine hholds (b.keyOf table user) ?_ (h.present b hbold hforce table htable user huser)
  exact ⟨b, hbold, ⟨Or.inl hforce.1.1, hforce.2, hforce.1.2⟩, hne, table, htable,
    Or.inr (Or.inl htstate), user, huser, hlive user huser, hlink⟩

theorem ForceInv.extend (h : ForceInv s) (hb : batch ∈ s.batches) {batchId expiresAt : ℕ}
    (hid : batch.id = batchId) (hkeeps : KeepsPrivileges s (.extend batchId expiresAt)) :
    ForceInv (s.setBatch (batch.extended expiresAt)) := by
  obtain ⟨hexpired, hoffline, hpresent⟩ := hkeeps batch hb hid
  have hextended : batch.extended expiresAt = { batch with expiresAt := expiresAt } :=
    if_neg (not_or.mpr ⟨hexpired, hoffline⟩)
  rw [hextended]
  refine ⟨?_, ?_⟩
  · intro b hbmem hstanding
    obtain rfl | ⟨hbold, -⟩ := mem_setBatch hbmem
    · exact h.whole batch hb hstanding
    · exact h.whole b hbold hstanding
  · intro b hbmem hforce
    obtain rfl | ⟨hbold, -⟩ := mem_setBatch hbmem
    · by_cases hlater : s.now < batch.expiresAt
      · exact h.present batch hb ⟨hforce.1, hlater⟩
      · exact hpresent hforce.1.1 (not_lt.mp hlater)
    · exact h.present b hbold hforce

theorem ForceInv.initial (h : s.Initial) : ForceInv s := by
  refine ⟨?_, ?_⟩
  · rw [h.batches]
    exact fun _ hb => by cases hb
  · rw [h.batches]
    exact fun _ hb => by cases hb

theorem ForceInv.step (h : ForceInv s) (hwf : WellFormed lower engine s) {a : Action} {s' : Store}
    (hnone : NoneOutside a) (hkeeps : KeepsPrivileges s a) (hs : step lower engine s a = some s') :
    ForceInv s' := by
  cases a with
  | importGrants request =>
      obtain ⟨-, -, -, -, rfl⟩ := step_importGrants hs
      exact h.importTables hkeeps
  | offline batchId revokeRaises =>
      obtain ⟨batch, hmem, -, rfl⟩ := step_offline hs
      exact h.offlineTables hwf hmem
  | extend batchId expiresAt =>
      obtain ⟨batch, hmem, hid, -, rfl⟩ := step_extend hs
      exact h.extend hmem hid hkeeps
  | expire revokeRaises =>
      cases hs
      exact (offlineExpiredBatches_invariant (I := ForceInv) hwf h
        (fun m batch hb hm _ hI => hI.offlineTables hm hb)).2
  | grantOutside privilege | revokeOutside privilege => exact absurd hnone id
  | wait duration =>
      cases hs
      refine ⟨h.whole, fun b hb hforce => h.present b hb ⟨hforce.1, ?_⟩⟩
      have hlater : s.now + duration < b.expiresAt := hforce.2
      omega

/-- In every history without administrators whose operations keep privileges, the users of every
batch in force have their privileges. -/
theorem inForce_present {s₀ : Store} {as : List Action} (h₀ : s₀.Initial)
    (h : Run (step lower engine) (fun s a => NoneOutside a ∧ KeepsPrivileges s a) s₀ as s) :
    ∀ batch ∈ s.batches, batch.InForce s.now → batch.Present s.granted := by
  have hinv := h.invariant (I := fun s => WellFormed lower engine s ∧ ForceInv s)
    ⟨WellFormed.initial h₀, ForceInv.initial h₀⟩
    (fun s a s' hok hs hI => ⟨hI.1.step hs, hI.2.step hI.1 hok.1 hok.2 hs⟩)
  exact hinv.2.present

/-! ### Moving the expiry of an offlined batch -/

/-- The privileges of a batch have been revoked, and moving its expiry puts it in force again. -/
theorem extend_offlined_missing : ∃ s, Run (step lowerAscii oneDoris) (fun _ a => NoneOutside a) emptyStore
        [.importGrants (salesImport 1 ["ann"] ["orders"] bobRefused), .offline 1 noneRaises,
          .extend 1 10] s ∧
      ¬ ∀ batch ∈ s.batches, batch.InForce s.now → batch.Present s.granted :=
  exists_run (by decide +kernel)

/-- A batch that is extended in time keeps its privileges when it outlives the other one. -/
theorem extend_live_present :
    ∃ s, Run (step lowerAscii oneDoris) (fun s a => NoneOutside a ∧ KeepsPrivileges s a) emptyStore
        [.importGrants (salesImport 1 ["ann"] ["orders"] bobRefused), .extend 1 10,
          .importGrants (salesImport 2 ["ann"] ["items"] bobRefused), .wait 7,
          .expire noneRaises] s ∧
      (∃ batch ∈ s.batches, batch.InForce s.now) ∧
      ∀ batch ∈ s.batches, batch.InForce s.now → batch.Present s.granted := by
  obtain ⟨s, hrun, hforce⟩ : ∃ s, Run (step lowerAscii oneDoris)
      (fun s a => NoneOutside a ∧ KeepsPrivileges s a) emptyStore
      [.importGrants (salesImport 1 ["ann"] ["orders"] bobRefused), .extend 1 10,
        .importGrants (salesImport 2 ["ann"] ["items"] bobRefused), .wait 7,
        .expire noneRaises] s ∧ ∃ batch ∈ s.batches, batch.InForce s.now :=
    exists_run (by decide +kernel)
  exact ⟨s, hrun, hforce, inForce_present emptyStore_initial hrun⟩

end RecoveryService.BatchAuthorization
