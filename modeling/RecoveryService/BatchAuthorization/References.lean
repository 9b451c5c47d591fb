import RecoveryService.BatchAuthorization.Lease

/-! # What an operation does to leases and references

Acquiring a lease and taking one user offline are the two steps that every operation is made of;
each has one lemma with all its cases (`acquire_cases`, `offlineUser_cases`).  From them: every
live user of a batch is linked to the lease of its own privilege, in every state a history
reaches (`WellFormed.step`). -/

namespace RecoveryService.BatchAuthorization

open Checks Text Loops

variable {lower : String → String} {engine : ℕ → Option String}

/-! ### Acquiring -/

/-- The lease that an acquisition starts from. -/
def leaseBefore (lower : String → String) (s : Store) (key : PrivilegeKey) : Lease :=
  (s.leases (privilegeLeaseKey lower key)).getD (newLease key .initializing)

inductive AcquireCase (lower : String → String) (s : Store) (batchId : ℕ) (key : PrivilegeKey)
    (reply : Reply) : Store × Acquired → Prop
  | raised :
      AcquireCase lower s batchId key reply
        (s.setLease (privilegeLeaseKey lower key) { leaseBefore lower s key with state := .error },
          .raised)
  | present (rows : List (List String)) :
      reply.rows = some rows →
      grantRowsIncludeSourceSelect rows key.sourceDatabase key.sourceTable = true →
      AcquireCase lower s batchId key reply
        (s.setLease (privilegeLeaseKey lower key)
          ((leaseBefore lower s key).found (s.leases (privilegeLeaseKey lower key)).isNone), .present)
  | granted (rows : List (List String)) :
      reply.rows = some rows →
      grantRowsIncludeSourceSelect rows key.sourceDatabase key.sourceTable = false →
      reply.grantRaises = false →
      AcquireCase lower s batchId key reply
        ((s.grant key).setLease (privilegeLeaseKey lower key)
          ((leaseBefore lower s key).taken batchId s.now), .granted)

theorem acquire_cases (lower : String → String) (s : Store) (batchId : ℕ) (key : PrivilegeKey) (reply : Reply) :
    AcquireCase lower s batchId key reply
      (acquirePrivilegeLeaseForGrant lower s batchId key reply) := by
  unfold acquirePrivilegeLeaseForGrant
  cases hrows : reply.rows with
  | none => exact AcquireCase.raised
  | some rows =>
      dsimp only
      split_ifs with hfound hraises
      · exact AcquireCase.present rows hrows hfound
      · exact AcquireCase.raised
      · exact AcquireCase.granted rows hrows (by simpa using hfound) (by simpa using hraises)

@[simp] theorem setLease_leases (s : Store) (id : LeaseKey) (lease : Lease) :
    (s.setLease id lease).leases = Function.update s.leases id (some lease) := rfl

/-- The batches, the clock and the log of REVOKEs are what they were. -/
structure SameBatches (s m : Store) : Prop where
  batches : m.batches = s.batches
  now : m.now = s.now
  revokes : m.revokes = s.revokes

theorem SameBatches.refl (s : Store) : SameBatches s s := ⟨rfl, rfl, rfl⟩

variable {s : Store}

theorem SameBatches.trans {m n : Store} (h : SameBatches s m) (h' : SameBatches m n) : SameBatches s n :=
  ⟨h'.batches.trans h.batches, h'.now.trans h.now, h'.revokes.trans h.revokes⟩

theorem grantTableUser_same (request : ImportRequest) (row : String × String) (m : Store)
    (username : String) : SameBatches m (grantTableUser lower request row m username).1 := by
  unfold grantTableUser
  dsimp only
  have hcase := acquire_cases lower m request.batchId (request.key row username)
    (request.replies (request.key row username))
  generalize acquirePrivilegeLeaseForGrant _ _ _ _ _ = acquired at hcase
  cases hcase <;> exact ⟨rfl, rfl, rfl⟩

theorem grantSourceTable_same (request : ImportRequest) (m : Store) (row : String × String) :
    SameBatches m (grantSourceTable lower request m row).1 :=
  loop_invariant (I := SameBatches m) (SameBatches.refl m)
    (fun n username _ h => h.trans (grantTableUser_same request row n username))

theorem importLoop_same (lower : String → String) (request : ImportRequest) (s : Store) :
    SameBatches s (loop (grantSourceTable lower request) s request.rows).1 :=
  loop_invariant (I := SameBatches s) (SameBatches.refl s)
    (fun n row _ h => h.trans (grantSourceTable_same request n row))

variable {I : Store → Prop}

/-- An invariant of acquiring one lease is one of the import. -/
theorem importLoop_invariant (lower : String → String) (request : ImportRequest) (hI : I s)
    (hstep : ∀ m, ∀ row ∈ request.rows, ∀ username ∈ request.users, SameBatches s m → I m →
      I (grantTableUser lower request row m username).1) :
    I (loop (grantSourceTable lower request) s request.rows).1 := by
  have h := loop_invariant (f := grantSourceTable lower request)
    (I := fun m => SameBatches s m ∧ I m) (s := s) (l := request.rows)
    ⟨SameBatches.refl s, hI⟩ ?_
  · exact h.2
  · intro m row hrow hm
    have hinner := loop_invariant (f := grantTableUser lower request row)
      (I := fun n => SameBatches s n ∧ I n) (l := request.users) hm
      (fun n username hu hn =>
        ⟨hn.1.trans (grantTableUser_same request row n username),
          hstep n row hrow username hu hn.1 hn.2⟩)
    exact hinner

/-- Doris has the privilege, or grants it. -/
def Reply.acquires (reply : Reply) (key : PrivilegeKey) : Bool :=
  reply.rows.any (fun rows => grantRowsIncludeSourceSelect rows key.sourceDatabase key.sourceTable ||
    !reply.grantRaises)

theorem acquire_raised_iff (lower : String → String) (s : Store) (batchId : ℕ) (key : PrivilegeKey) (reply : Reply) :
    (acquirePrivilegeLeaseForGrant lower s batchId key reply).2 = .raised ↔
      reply.acquires key = false := by
  unfold acquirePrivilegeLeaseForGrant Reply.acquires
  cases reply.rows with
  | none => simp
  | some rows =>
      dsimp only
      split_ifs <;> simp [*]

/-- What an import has written about a user of a table. -/
structure NewUser (lower : String → String) (request : ImportRequest) (row : String × String)
    (username : String) (user : GrantUser) : Prop where
  name : user.dbUsername = username
  acquired : user.Acquired ↔
    (request.replies (request.key row username)).acquires (request.key row username) = true
  linked : user.Acquired → user.leaseId = some (privilegeLeaseKey lower (request.key row username))
  pending : user.Acquired → user.revokeState = .pending

theorem grantTableUser_new (lower : String → String) (request : ImportRequest)
    (row : String × String) (m : Store) (username : String) :
    NewUser lower request row username (grantTableUser lower request row m username).2 := by
  have hraised := acquire_raised_iff lower m request.batchId (request.key row username)
    (request.replies (request.key row username))
  unfold grantTableUser
  dsimp only
  generalize acquirePrivilegeLeaseForGrant _ _ _ _ _ = acquired at hraised
  obtain ⟨m', outcome⟩ := acquired
  cases outcome with
  | granted | present => exact ⟨rfl, by simpa [GrantUser.Acquired, newGrantUser] using hraised,
      fun _ => rfl, fun _ => rfl⟩
  | raised =>
      have hno : ¬ (newGrantUser m.now username (privilegeLeaseKey lower (request.key row username))
          ((m'.leases (privilegeLeaseKey lower (request.key row username))).any
            (·.ownershipState = .external)) .raised).Acquired := by
        simp [GrantUser.Acquired, newGrantUser]
      exact ⟨rfl, by simpa [GrantUser.Acquired, newGrantUser] using hraised,
        fun h => absurd h hno, fun h => absurd h hno⟩

/-- The tables of an import: `Q` is what the turn of a user establishes and every other turn
keeps. -/
theorem importLoop_tables (lower : String → String) (request : ImportRequest)
    {Q : PrivilegeKey → GrantUser → Store → Prop} (hI : I s)
    (hstep : ∀ m, ∀ row ∈ request.rows, ∀ username ∈ request.users, I m →
      I (grantTableUser lower request row m username).1)
    (hmake : ∀ m, ∀ row ∈ request.rows, ∀ username ∈ request.users, I m →
      Q (request.key row username) (grantTableUser lower request row m username).2
        (grantTableUser lower request row m username).1)
    (hkeep : ∀ m key user, ∀ row ∈ request.rows, ∀ username ∈ request.users, I m → Q key user m →
      Q key user (grantTableUser lower request row m username).1) :
    List.Forall₂
      (fun (row : String × String) table =>
        table.sourceDatabase = row.1 ∧ table.sourceTable = row.2 ∧
        table.state = tableStateOf (table.users.countP (·.Acquired))
          (table.users.countP (¬ ·.Acquired)) ∧
        List.Forall₂
          (fun username user => NewUser lower request row username user ∧
            Q (request.key row username) user
              (loop (grantSourceTable lower request) s request.rows).1)
          request.users table.users)
      request.rows (loop (grantSourceTable lower request) s request.rows).2 := by
  have hinner : ∀ m, ∀ row ∈ request.rows, I m → I (grantSourceTable lower request m row).1 :=
    fun m row hrow hm => loop_invariant hm (fun n username hu hn => hstep n row hrow username hu hn)
  refine loop_forall₂ (I := I)
    (Q := fun (row : String × String) table m =>
      table.sourceDatabase = row.1 ∧ table.sourceTable = row.2 ∧
      table.state = tableStateOf (table.users.countP (·.Acquired))
        (table.users.countP (¬ ·.Acquired)) ∧
      List.Forall₂
        (fun username user => NewUser lower request row username user ∧
          Q (request.key row username) user m) request.users table.users)
    hI hinner ?_ ?_
  · intro m row hrow hm
    refine ⟨rfl, rfl, rfl, ?_⟩
    exact loop_forall₂ (I := I)
      (Q := fun username user n => NewUser lower request row username user ∧
        Q (request.key row username) user n)
      hm (fun n username hu hn => hstep n row hrow username hu hn)
      (fun n username hu hn => ⟨grantTableUser_new lower request row n username,
        hmake n row hrow username hu hn⟩)
      (fun n username user username' hu' hn hq => ⟨hq.1,
        hkeep n _ user row hrow username' hu' hn hq.2⟩)
  · rintro m row table row' hrow' hm ⟨hd, ht, hstate, husers⟩
    refine ⟨hd, ht, hstate, husers.imp ?_⟩
    rintro username user ⟨hnew, hq⟩
    refine ⟨hnew, ?_⟩
    have hboth := loop_invariant (f := grantTableUser lower request row') (s := m)
      (l := request.users) (I := fun n => I n ∧ Q (request.key row username) user n)
      ⟨hm, hq⟩
      (fun n username' hu' hn => ⟨hstep n row' hrow' username' hu' hn.1,
        hkeep n _ user row' hrow' username' hu' hn.1 hn.2⟩)
    exact hboth.2

/-! ### Taking a user offline -/

/-- A batch other than the excluded one counts for the lease. -/
def Referenced (now : ℕ) (batches : List Batch) (excluded : ℕ) (id : LeaseKey) : Prop :=
  ∃ batch ∈ batches, batch.Active now ∧ batch.id ≠ excluded ∧ ∃ table ∈ batch.tables,
    table.Active ∧ ∃ user ∈ table.users, user.Live ∧ user.leaseId = some id

/-- What one user in the offline loop does, where `id` and `lease` are its lease. -/
inductive OfflineCase (batch : Batch) (table : GrantTable) (revokeRaises : PrivilegeKey → Bool)
    (s : Store) (user : GrantUser) (id : LeaseKey) (lease : Lease) :
    Store × GrantUser × Bool → Prop
  | idle : ¬ user.Live → OfflineCase batch table revokeRaises s user id lease (s, user, false)
  | skipped (user' : GrantUser) :
      user.Live →
      (activeReferences s id lease batch.id ≠ [] ∨ lease.state = .revoked ∨ ¬ lease.SystemOwned) →
      user'.dbUsername = user.dbUsername → user'.grantState = user.grantState →
      user'.leaseId = some id →
      OfflineCase batch table revokeRaises s user id lease (s.setLease id lease, user', false)
  | failed (user' : GrantUser) :
      user.Live → activeReferences s id lease batch.id = [] → lease.state ≠ .revoked →
      lease.SystemOwned → revokeRaises (batch.keyOf table user) = true →
      user'.dbUsername = user.dbUsername → user'.grantState = user.grantState →
      user'.leaseId = some id →
      OfflineCase batch table revokeRaises s user id lease
        (({ s with
            revokes := s.revokes ++ [⟨s.now, s.batches, batch.id, batch.keyOf table user, id, lease,
              s.lastGrant (batch.keyOf table user)⟩] } : Store).setLease id
            { lease with state := .error }, user', true)
  | revoked (user' : GrantUser) :
      user.Live → activeReferences s id lease batch.id = [] → lease.state ≠ .revoked →
      lease.SystemOwned → revokeRaises (batch.keyOf table user) = false →
      user'.dbUsername = user.dbUsername → user'.grantState = user.grantState → ¬ user'.Live →
      OfflineCase batch table revokeRaises s user id lease
        ((({ s with
            revokes := s.revokes ++ [⟨s.now, s.batches, batch.id, batch.keyOf table user, id, lease,
              s.lastGrant (batch.keyOf table user)⟩] } : Store).revoke
            (batch.keyOf table user)).setLease id
            { lease with state := .revoked, revokedAt := some s.now }, user', false)

theorem privilegeLeaseRevokePlan_revokes (lease : Lease) (count : ℕ) :
    (privilegeLeaseRevokePlan lease count).2.2 = true ↔
      count = 0 ∧ lease.state ≠ .revoked ∧ lease.SystemOwned := by
  unfold privilegeLeaseRevokePlan
  split_ifs with hcount hrevoked howned <;> simp <;> grind

theorem offlineUser_cases (lower : String → String) (batch : Batch) (table : GrantTable) (revokeRaises : PrivilegeKey → Bool)
    (s : Store) (user : GrantUser) : OfflineCase batch table revokeRaises s user
      (leaseForRevoke lower s (batch.keyOf table user) user).1
      (leaseForRevoke lower s (batch.keyOf table user) user).2
      (offlineUser lower batch table revokeRaises s user) := by
  unfold offlineUser
  by_cases hlive : user.Live
  · rw [if_neg (not_not.mpr hlive)]
    dsimp only
    have hplan := privilegeLeaseRevokePlan_revokes
      (leaseForRevoke lower s (batch.keyOf table user) user).2
      (activeReferences s (leaseForRevoke lower s (batch.keyOf table user) user).1
        (leaseForRevoke lower s (batch.keyOf table user) user).2 batch.id).length
    rw [List.length_eq_zero_iff] at hplan
    split_ifs with hskip hraises
    · refine OfflineCase.skipped _ hlive ?_ rfl rfl rfl
      have hno := fun h => Bool.false_ne_true (hskip.symm.trans (hplan.mpr h))
      grind
    · obtain ⟨hrefs, hstate, howned⟩ := hplan.mp (Bool.eq_true_of_not_eq_false hskip)
      exact OfflineCase.failed _ hlive hrefs hstate howned hraises rfl rfl rfl
    · obtain ⟨hrefs, hstate, howned⟩ := hplan.mp (Bool.eq_true_of_not_eq_false hskip)
      exact OfflineCase.revoked _ hlive hrefs hstate howned (Bool.eq_false_of_not_eq_true hraises)
        rfl rfl (fun h => h.2 rfl)
  · rw [if_pos hlive]
    exact OfflineCase.idle hlive

/-! ### Well-formed stores -/

/-- The live users of a batch are linked to the leases of their privileges. -/
structure Batch.Sound (lower : String → String) (engine : ℕ → Option String) (batch : Batch) : Prop where
  doris : engine batch.connectionId = some "doris"
  settled : batch.state ≠ .running
  tables : ∀ table ∈ batch.tables, table.state ≠ .running
  linked : ∀ table ∈ batch.tables, ∀ user ∈ table.users, user.Live →
    user.leaseId = some (privilegeLeaseKey lower (batch.keyOf table user))

/-- Every lease belongs to the connection in its key. -/
def Home (leases : LeaseKey → Option Lease) : Prop :=
  ∀ id lease, leases id = some lease → lease.connectionId = id.connectionId

structure WellFormed (lower : String → String) (engine : ℕ → Option String) (s : Store) : Prop where
  ids : (s.batches.map Batch.id).Nodup
  sound : ∀ batch ∈ s.batches, batch.Sound lower engine
  home : Home s.leases

theorem Home.setLease (h : Home s.leases) {id : LeaseKey} {lease : Lease}
    (hlease : lease.connectionId = id.connectionId) : Home (s.setLease id lease).leases := by
  intro id' lease' he
  rw [setLease_leases] at he
  by_cases hid : id' = id
  · rw [hid, Function.update_self] at he
    cases he
    rw [hid, hlease]
  · rw [Function.update_of_ne hid] at he
    exact h id' lease' he

theorem Home.getD {leases : LeaseKey → Option Lease} (h : Home leases)
    (lower : String → String) (key : PrivilegeKey) (state : LeaseState) :
    ((leases (privilegeLeaseKey lower key)).getD (newLease key state)).connectionId =
      (privilegeLeaseKey lower key).connectionId := by
  cases he : leases (privilegeLeaseKey lower key) with
  | none => rfl
  | some lease => exact h _ lease he

theorem Home.grantTableUser {m : Store} (h : Home m.leases) (request : ImportRequest)
    (row : String × String) (username : String) :
    Home (grantTableUser lower request row m username).1.leases := by
  unfold BatchAuthorization.grantTableUser
  dsimp only
  have hcase := acquire_cases lower m request.batchId (request.key row username)
    (request.replies (request.key row username))
  generalize acquirePrivilegeLeaseForGrant _ _ _ _ _ = acquired at hcase
  have hbefore := h.getD lower (request.key row username) .initializing
  cases hcase with
  | raised => exact h.setLease hbefore
  | present =>
      refine h.setLease (Eq.trans ?_ hbefore)
      unfold Lease.found leaseBefore
      split_ifs <;> rfl
  | granted => exact Home.setLease (s := m.grant _) h hbefore

variable {user : GrantUser}

/-- The lease of a linked user. -/
theorem leaseForRevoke_linked {key : PrivilegeKey} (h : user.leaseId = some (privilegeLeaseKey lower key)) :
    leaseForRevoke lower s key user = (privilegeLeaseKey lower key,
      (s.leases (privilegeLeaseKey lower key)).getD (newLease key .active)) := by
  unfold leaseForRevoke
  rw [h, Option.bind_some]
  cases hl : s.leases (privilegeLeaseKey lower key) with
  | none =>
      dsimp only [Option.map_none]
      rw [hl]
  | some lease => rfl

theorem offlineUser_linked (batch : Batch) (table : GrantTable) (revokeRaises : PrivilegeKey → Bool) (s : Store)
    (h : user.Live → user.leaseId = some (privilegeLeaseKey lower (batch.keyOf table user))) :
    OfflineCase batch table revokeRaises s user (privilegeLeaseKey lower (batch.keyOf table user))
      ((s.leases (privilegeLeaseKey lower (batch.keyOf table user))).getD
        (newLease (batch.keyOf table user) .active))
      (offlineUser lower batch table revokeRaises s user) := by
  by_cases hlive : user.Live
  · have hcase := offlineUser_cases lower batch table revokeRaises s user
    rw [leaseForRevoke_linked (h hlive)] at hcase
    exact hcase
  · unfold offlineUser
    rw [if_pos hlive]
    exact OfflineCase.idle hlive

/-- The query counts the references of the other batches. -/
theorem activeReferences_iff (hsound : ∀ batch ∈ s.batches, batch.Sound lower engine) (id : LeaseKey)
    {lease : Lease} (hlease : lease.connectionId = id.connectionId) (excluded : ℕ) :
    activeReferences s id lease excluded ≠ [] ↔ Referenced s.now s.batches excluded id := by
  have hne : activeReferences s id lease excluded ≠ [] ↔
      ∃ user, user ∈ activeReferences s id lease excluded :=
    ⟨List.exists_mem_of_ne_nil _, fun ⟨_, hmem⟩ => List.ne_nil_of_mem hmem⟩
  rw [hne]
  unfold activeReferences Referenced
  simp only [List.mem_flatMap, List.mem_filter, decide_eq_true_eq]
  constructor
  · rintro ⟨user, batch, ⟨hbatch, -, hactive, hid⟩, table, ⟨htable, htactive⟩, huser, hlive, href⟩
    refine ⟨batch, hbatch, hactive, hid, table, htable, htactive, user, huser, hlive, ?_⟩
    obtain href | ⟨hnone, -⟩ := href
    · exact href
    · -- a live user always has its lease
      rw [(hsound batch hbatch).linked table htable user huser hlive] at hnone
      cases hnone
  · rintro ⟨batch, hbatch, hactive, hid, table, htable, htactive, user, huser, hlive, href⟩
    have hlinked := (hsound batch hbatch).linked table htable user huser hlive
    rw [href, Option.some.injEq] at hlinked
    refine ⟨user, batch, ⟨hbatch, ?_, hactive, hid⟩, table, ⟨htable, htactive⟩, huser, hlive,
      Or.inl href⟩
    rw [hlease, hlinked]
    rfl

/-! ### The offline loop -/

/-- The offline loop has changed neither batches nor clock. -/
structure Underway (s m : Store) : Prop where
  batches : m.batches = s.batches
  now : m.now = s.now
  lastGrant : m.lastGrant = s.lastGrant
  home : Home m.leases

variable {batch : Batch} {table : GrantTable} {revokeRaises : PrivilegeKey → Bool} {s m : Store}

theorem Underway.offlineUser (h : Underway s m)
    (hlinked : user.Live → user.leaseId = some (privilegeLeaseKey lower (batch.keyOf table user))) :
    Underway s (offlineUser lower batch table revokeRaises m user).1 := by
  have hcase := offlineUser_linked batch table revokeRaises m hlinked
  have hlease := h.home.getD lower (batch.keyOf table user) .active
  generalize BatchAuthorization.offlineUser lower batch table revokeRaises m user = result at hcase
  cases hcase with
  | idle => exact h
  | skipped => exact ⟨h.batches, h.now, h.lastGrant, h.home.setLease hlease⟩
  | failed | revoked => exact ⟨h.batches, h.now, h.lastGrant, Home.setLease (s := _) h.home hlease⟩

/-- An invariant of taking one user offline is one of the whole loop. -/
theorem offlineLoop_invariant (revokeRaises : PrivilegeKey → Bool) (hsound : batch.Sound lower engine)
    (hs : Underway s s) (hI : I s)
    (hstep : ∀ m, ∀ table ∈ batch.tables, ∀ user ∈ table.users, Underway s m → I m →
      I (offlineUser lower batch table revokeRaises m user).1) :
    Underway s (loop (offlineTable lower batch revokeRaises) s batch.tables).1 ∧
      I (loop (offlineTable lower batch revokeRaises) s batch.tables).1 := by
  refine loop_invariant (I := fun m => Underway s m ∧ I m) ⟨hs, hI⟩ ?_
  intro m table htable hm
  unfold offlineTable
  split_ifs with hoff hidle
  · exact hm
  · exact hm
  · exact loop_invariant (I := fun n => Underway s n ∧ I n) hm
      (fun n user huser hn => ⟨hn.1.offlineUser (hsound.linked table htable user huser),
        hstep n table htable user huser hn.1 hn.2⟩)

/-- The tables whose users the offline loop goes through. -/
def GrantTable.Open (table : GrantTable) : Prop :=
  table.state = .succeeded ∨ table.state = .partially

/-- What taking a user offline establishes, and every other turn keeps, holds of all users of the
open tables behind the loop. -/
theorem offlineLoop_users (revokeRaises : PrivilegeKey → Bool) {Q : GrantTable → GrantUser → Store → Prop}
    (hsound : batch.Sound lower engine) (hs : Underway s s) (hI : I s)
    (hstep : ∀ m, ∀ table ∈ batch.tables, ∀ user ∈ table.users, Underway s m → I m →
      I (offlineUser lower batch table revokeRaises m user).1)
    (hmake : ∀ m, ∀ table ∈ batch.tables, ∀ user ∈ table.users, Underway s m → I m →
      Q table user (offlineUser lower batch table revokeRaises m user).1)
    (hkeep : ∀ m t u, ∀ table ∈ batch.tables, ∀ user ∈ table.users, Underway s m → I m → Q t u m →
      Q t u (offlineUser lower batch table revokeRaises m user).1) :
    ∀ table ∈ batch.tables, table.Open → ∀ user ∈ table.users,
      Q table user (loop (offlineTable lower batch revokeRaises) s batch.tables).1 := by
  -- the turn of a user keeps the base and `I`
  have hturn : ∀ table ∈ batch.tables, ∀ n, ∀ user ∈ table.users, Underway s n ∧ I n →
      Underway s (offlineUser lower batch table revokeRaises n user).1 ∧
        I (offlineUser lower batch table revokeRaises n user).1 :=
    fun table htable n user huser hn =>
      ⟨hn.1.offlineUser (hsound.linked table htable user huser),
        hstep n table htable user huser hn.1 hn.2⟩
  have htables := loop_forall₂ (f := offlineTable lower batch revokeRaises) (s := s)
    (l := batch.tables) (I := fun m => Underway s m ∧ I m)
    (Q := fun table (_ : GrantTable × Bool) m => table.Open → ∀ user ∈ table.users, Q table user m)
    ⟨hs, hI⟩ ?_ ?_ ?_
  · intro table htable hopen
    obtain ⟨_, -, hq⟩ := (exists_of_forall₂ htables).1 table htable
    exact hq hopen
  · intro m table htable hm
    unfold offlineTable
    split_ifs with hoff hidle
    · exact hm
    · exact hm
    · exact loop_invariant (I := fun n => Underway s n ∧ I n) hm (hturn table htable)
  · intro m table htable hm hopen user huser
    have hidle : ¬ (table.state ≠ .succeeded ∧ table.state ≠ .partially) := by
      unfold GrantTable.Open at hopen
      tauto
    have hoff : table.state ≠ .offlined := by
      unfold GrantTable.Open at hopen
      rintro h
      rw [h] at hopen
      simp at hopen
    unfold offlineTable
    rw [if_neg hoff, if_neg hidle]
    have husers := loop_forall₂ (f := offlineUser lower batch table revokeRaises) (s := m)
      (l := table.users) (I := fun n => Underway s n ∧ I n)
      (Q := fun u (_ : GrantUser × Bool) n => Q table u n) hm (hturn table htable)
      (fun n u hu hn => hmake n table htable u hu hn.1 hn.2)
      (fun n u _ u' hu' hn hq => hkeep n table u table htable u' hu' hn.1 hn.2 hq)
    obtain ⟨_, -, hq⟩ := (exists_of_forall₂ husers).1 user huser
    exact hq
  · intro m table _ table' htable' hm hq hopen user huser
    unfold offlineTable
    split_ifs with hoff hidle
    · exact hq hopen user huser
    · exact hq hopen user huser
    · have hboth := loop_invariant (f := offlineUser lower batch table' revokeRaises) (s := m)
        (l := table'.users) (I := fun n => (Underway s n ∧ I n) ∧ Q table user n)
        ⟨hm, hq hopen user huser⟩
        (fun n u hu hn => ⟨hturn table' htable' n u hu hn.1,
          hkeep n table user table' htable' u hu hn.1.1 hn.1.2 hn.2⟩)
      exact hboth.2

/-- What the loop has made of a user. -/
structure OfflinedUser (lower : String → String) (batch : Batch) (table : GrantTable)
    (revokeRaises : PrivilegeKey → Bool) (user : GrantUser) (result : GrantUser × Bool) : Prop where
  name : result.1.dbUsername = user.dbUsername
  grantState : result.1.grantState = user.grantState
  linked : result.1.Live →
    result.1.leaseId = some (privilegeLeaseKey lower (batch.keyOf table result.1))
  failed : result.2 = true → ∃ key, revokeRaises key = true

/-- What the loop has made of a table. -/
structure OfflinedTable (lower : String → String) (batch : Batch)
    (revokeRaises : PrivilegeKey → Bool) (table : GrantTable) (result : GrantTable × Bool) : Prop where
  database : result.1.sourceDatabase = table.sourceDatabase
  name : result.1.sourceTable = table.sourceTable
  settled : result.1.state ≠ .running
  users : List.Forall₂ (fun user user' => ∃ failed,
    OfflinedUser lower batch table revokeRaises user (user', failed)) table.users result.1.users
  failed : result.2 = true → ∃ key, revokeRaises key = true

theorem offlinedUser_idle
    (hlinked : user.Live → user.leaseId = some (privilegeLeaseKey lower (batch.keyOf table user))) :
    OfflinedUser lower batch table revokeRaises user (user, false) :=
  ⟨rfl, rfl, hlinked, fun h => by cases h⟩

theorem offlineUser_result
    (hlinked : user.Live → user.leaseId = some (privilegeLeaseKey lower (batch.keyOf table user))) :
    OfflinedUser lower batch table revokeRaises user
      (offlineUser lower batch table revokeRaises m user).2 := by
  have hcase := offlineUser_linked batch table revokeRaises m hlinked
  generalize offlineUser lower batch table revokeRaises m user = result at hcase
  have hkey : ∀ user' : GrantUser, user'.dbUsername = user.dbUsername →
      batch.keyOf table user' = batch.keyOf table user := by
    intro user' h
    unfold Batch.keyOf
    rw [h]
  cases hcase with
  | idle hidle => exact offlinedUser_idle hlinked
  | skipped user' _ _ hname hgrant hid =>
      refine ⟨hname, hgrant, fun _ => ?_, fun h => by cases h⟩
      rw [hkey user' hname]
      exact hid
  | failed user' _ _ _ _ hraises hname hgrant hid =>
      refine ⟨hname, hgrant, fun _ => ?_, fun _ => ⟨_, hraises⟩⟩
      rw [hkey user' hname]
      exact hid
  | revoked user' _ _ _ _ _ hname hgrant hdead =>
      exact ⟨hname, hgrant, fun h => absurd h hdead, fun h => by cases h⟩

theorem offlinedTable_idle (revokeRaises : PrivilegeKey → Bool) (htable : table.state ≠ .running)
    (hlinked : ∀ user ∈ table.users, user.Live →
      user.leaseId = some (privilegeLeaseKey lower (batch.keyOf table user))) :
    OfflinedTable lower batch revokeRaises table (table, false) := by
  refine ⟨rfl, rfl, htable, ?_, fun h => by cases h⟩
  rw [List.forall₂_same]
  exact fun user huser => ⟨false, offlinedUser_idle (hlinked user huser)⟩

theorem offlineLoop_tables (revokeRaises : PrivilegeKey → Bool) (hsound : batch.Sound lower engine)
    (hs : Underway s s) : List.Forall₂ (fun table result => OfflinedTable lower batch revokeRaises table result)
      batch.tables (loop (offlineTable lower batch revokeRaises) s batch.tables).2 := by
  refine loop_forall₂ (f := offlineTable lower batch revokeRaises) (s := s)
    (l := batch.tables) (I := fun m => Underway s m)
    (Q := fun table result _ => OfflinedTable lower batch revokeRaises table result)
    hs ?_ ?_ (fun _ _ _ _ _ _ hq => hq)
  · intro m table htable hm
    unfold offlineTable
    split_ifs with hoff hidle
    · exact hm
    · exact hm
    · exact loop_invariant hm (fun n user huser hn =>
        hn.offlineUser (hsound.linked table htable user huser))
  · intro m table htable hm
    have hidleTable := offlinedTable_idle revokeRaises (hsound.tables table htable)
      (hsound.linked table htable)
    unfold offlineTable
    split_ifs with hoff hidle
    · exact hidleTable
    · exact hidleTable
    · have husers := loop_forall₂ (f := offlineUser lower batch table revokeRaises) (s := m)
        (l := table.users) (I := fun _ => True)
        (Q := fun user result _ => OfflinedUser lower batch table revokeRaises user result)
        trivial (fun _ _ _ _ => trivial)
        (fun n user huser _ => offlineUser_result (hsound.linked table htable user huser))
        (fun _ _ _ _ _ _ hq => hq)
      refine ⟨rfl, rfl, ?_, ?_, ?_⟩
      · dsimp only
        split_ifs
        · exact hsound.tables table htable
        · exact fun h => by cases h
      · dsimp only
        rw [List.forall₂_map_right_iff]
        exact husers.imp fun _ result h => ⟨result.2, h⟩
      · intro hfailed
        obtain ⟨result, hmem, hresult⟩ := List.any_eq_true.mp hfailed
        obtain ⟨_, -, h⟩ := (exists_of_forall₂ husers).2 result hmem
        exact h.failed hresult

/-! ### Every operation keeps a store well formed -/

theorem WellFormed.underway (h : WellFormed lower engine s) : Underway s s :=
  ⟨rfl, rfl, rfl, h.home⟩

theorem setBatch_ids (s : Store) (batch : Batch) :
    (s.setBatch batch).batches.map Batch.id = s.batches.map Batch.id := by
  unfold Store.setBatch
  rw [List.map_map]
  apply List.map_congr_left
  intro b _
  by_cases h : b.id = batch.id
  · simp [h]
  · simp [h]

variable {batch : Batch}

theorem mem_setBatch {b : Batch} (h : b ∈ (s.setBatch batch).batches) :
    b = batch ∨ (b ∈ s.batches ∧ b.id ≠ batch.id) := by
  obtain ⟨b', hb', rfl⟩ := List.mem_map.mp h
  by_cases hid : b'.id = batch.id
  · exact Or.inl (if_pos hid)
  · rw [if_neg hid]
    exact Or.inr ⟨hb', hid⟩

theorem mem_setBatch_of_ne {b : Batch} (h : b ∈ s.batches) (hid : b.id ≠ batch.id) : b ∈ (s.setBatch batch).batches :=
  List.mem_map.mpr ⟨b, h, if_neg hid⟩

theorem mem_setBatch_self {b : Batch} (h : b ∈ s.batches) (hid : b.id = batch.id) : batch ∈ (s.setBatch batch).batches :=
  List.mem_map.mpr ⟨b, h, if_pos hid⟩

theorem WellFormed.setBatch (h : WellFormed lower engine s) (hsound : batch.Sound lower engine) :
    WellFormed lower engine (s.setBatch batch) := by
  refine ⟨?_, ?_, h.home⟩
  · rw [setBatch_ids]
    exact h.ids
  · intro b hb
    obtain rfl | ⟨hb, -⟩ := mem_setBatch hb
    · exact hsound
    · exact h.sound b hb

theorem WellFormed.of_underway (h : WellFormed lower engine s) (hm : Underway s m) :
    WellFormed lower engine m := by
  refine ⟨?_, ?_, hm.home⟩
  · rw [hm.batches]
    exact h.ids
  · rw [hm.batches]
    exact h.sound

theorem offline_sound (hsound : batch.Sound lower engine) (hs : Underway s s) :
    (batch.offline s.now (loop (offlineTable lower batch revokeRaises) s batch.tables).2).Sound
      lower engine := by
  have hall := (exists_of_forall₂ (offlineLoop_tables revokeRaises hsound hs)).2
  refine ⟨hsound.doris, ?_, ?_, ?_⟩
  · unfold Batch.offline
    dsimp only
    split_ifs <;> exact fun h => by cases h
  · intro table htable
    obtain ⟨result, hmem, rfl⟩ := List.mem_map.mp htable
    obtain ⟨_, -, hresult⟩ := hall result hmem
    exact hresult.settled
  · intro table htable user huser hlive
    obtain ⟨result, hmem, rfl⟩ := List.mem_map.mp htable
    obtain ⟨table, -, hresult⟩ := hall result hmem
    obtain ⟨_, -, _, huser'⟩ := (exists_of_forall₂ hresult.users).2 user huser
    rw [huser'.linked hlive]
    unfold Batch.keyOf
    rw [hresult.database, hresult.name]
    rfl

theorem WellFormed.offlineTables (h : WellFormed lower engine s) (hb : batch ∈ s.batches) :
    WellFormed lower engine (offlineTables lower revokeRaises s batch) := by
  have hsound := h.sound batch hb
  have hloop := (offlineLoop_invariant revokeRaises (I := fun _ => True) hsound
    h.underway trivial (fun _ _ _ _ _ _ _ => trivial)).1
  exact (h.of_underway hloop).setBatch (offline_sound hsound h.underway)

variable {request : ImportRequest}

/-- A file that the preview accepts names no table twice. -/
theorem rows_nodup_of_valid {seen rows : List (String × String)} (h : invalidCount request seen rows = 0) :
    rows.Nodup ∧ ∀ row ∈ rows, row ∉ seen := by
  induction rows generalizing seen with
  | nil => simp
  | cons row rows ih =>
      unfold invalidCount at h
      have hmessages : previewMessages request seen row = [] := by
        by_contra hne
        rw [if_neg hne] at h
        omega
      have hrest : invalidCount request (row :: seen) rows = 0 := by omega
      obtain ⟨hnodup, hseen⟩ := ih hrest
      unfold previewMessages at hmessages
      rw [List.append_eq_nil_iff] at hmessages
      have hnew : row ∉ seen := by
        intro hmem
        rw [if_pos hmem] at hmessages
        cases hmessages.2
      rw [List.nodup_cons, List.forall_mem_cons]
      exact ⟨⟨fun hmem => hseen row hmem List.mem_cons_self, hnodup⟩, hnew,
        fun r hr hmem => hseen r hr (List.mem_cons_of_mem _ hmem)⟩

variable {s' : Store}

theorem executeGrantImport_ok (h : executeGrantImport lower engine s request = .ok s') :
    s.now < request.expiresAt ∧ engine request.connectionId = some "doris" ∧
      request.rows.Nodup ∧ s' = importTables lower s request := by
  unfold executeGrantImport dorisProfile at h
  obtain ⟨_, hexpires, h⟩ := bind_eq_ok.mp h
  obtain ⟨_, hprofile, h⟩ := bind_eq_ok.mp h
  obtain ⟨_, _, hengine⟩ := bind_eq_ok.mp hprofile
  obtain ⟨_, _, h⟩ := bind_eq_ok.mp h
  obtain ⟨_, hvalid, h⟩ := bind_eq_ok.mp h
  cases h
  rw [raiseIf_eq_ok] at hexpires hengine hvalid
  exact ⟨not_le.mp hexpires, not_not.mp hengine, (rows_nodup_of_valid (not_not.mp hvalid)).1, rfl⟩

theorem tableStateOf_ne_running (success failed : ℕ) : tableStateOf success failed ≠ .running := by
  unfold tableStateOf
  split_ifs <;> exact fun h => by cases h

theorem newBatch_sound (lower : String → String) (hengine : engine request.connectionId = some "doris")
    (s : Store) : (newBatch request (loop (grantSourceTable lower request) s request.rows).2).Sound
      lower engine := by
  have htables := importLoop_tables lower request (s := s)
    (I := fun _ => True) (Q := fun _ _ _ => True) trivial (fun _ _ _ _ _ _ => trivial)
    (fun _ _ _ _ _ _ => trivial) (fun _ _ _ _ _ _ _ _ _ => trivial)
  have hall := (exists_of_forall₂ htables).2
  refine ⟨hengine, ?_, ?_, ?_⟩
  · unfold newBatch batchStateOf
    dsimp only
    split_ifs <;> exact fun h => by cases h
  · intro table htable
    obtain ⟨_, -, -, -, hstate, -⟩ := hall table htable
    rw [hstate]
    exact tableStateOf_ne_running _ _
  · intro table htable user huser hlive
    obtain ⟨row, -, hd, ht, -, husers⟩ := hall table htable
    obtain ⟨username, -, hnew, -⟩ := (exists_of_forall₂ husers).2 user huser
    rw [hnew.linked hlive.1, ← hnew.name]
    unfold ImportRequest.key Batch.keyOf newBatch
    rw [hd, ht]

theorem importTables_batches (lower : String → String) (s : Store) (request : ImportRequest) :
    (importTables lower s request).batches =
      s.batches ++ [newBatch request (loop (grantSourceTable lower request) s request.rows).2] := by
  have hsame := importLoop_same lower request s
  change (loop (grantSourceTable lower request) s request.rows).1.batches ++ _ = _
  rw [hsame.batches]

theorem WellFormed.importTables (h : WellFormed lower engine s)
    (hengine : engine request.connectionId = some "doris") (hfresh : request.batchId ∉ s.batches.map Batch.id) :
    WellFormed lower engine (importTables lower s request) := by
  have hhome := importLoop_invariant lower request (s := s)
    (I := fun m => Home m.leases) h.home
    (fun m row _ username _ _ hm => hm.grantTableUser request row username)
  have hnew := newBatch_sound lower hengine s
  refine ⟨?_, ?_, hhome⟩
  · rw [importTables_batches, List.map_append, List.nodup_append]
    refine ⟨h.ids, List.nodup_singleton _, ?_⟩
    rintro id hid _ hmem rfl
    rw [List.map_singleton, List.mem_singleton] at hmem
    rw [hmem] at hid
    exact hfresh hid
  · intro b hb
    rw [importTables_batches, List.mem_append, List.mem_singleton] at hb
    obtain hb | rfl := hb
    · exact h.sound b hb
    · exact hnew

theorem findBatch_eq_some {id : ℕ} (h : s.findBatch id = some batch) : batch ∈ s.batches ∧ batch.id = id := by
  unfold Store.findBatch at h
  exact ⟨List.mem_of_find?_eq_some h, by simpa using List.find?_some h⟩

variable {batchId : ℕ}

theorem offlineGrantBatch_ok (h : offlineGrantBatch lower engine s batchId revokeRaises = .ok s') :
    ∃ batch ∈ s.batches, batch.id = batchId ∧ s' = offlineTables lower revokeRaises s batch := by
  unfold offlineGrantBatch at h
  cases hb : s.findBatch batchId with
  | none =>
      rw [hb] at h
      cases h
  | some batch =>
      rw [hb] at h
      obtain ⟨_, _, h⟩ := bind_eq_ok.mp h
      cases h
      obtain ⟨hmem, hid⟩ := findBatch_eq_some hb
      exact ⟨batch, hmem, hid, rfl⟩

/-- The batch after its expiry has been moved. -/
def Batch.extended (batch : Batch) (expiresAt : ℕ) : Batch :=
  if batch.state = .expired ∨ batch.state = .offlined then
    { batch with expiresAt := expiresAt, state := .succeeded, offlinedAt := none }
  else { batch with expiresAt := expiresAt }

theorem extendGrantBatch_ok {expiresAt : ℕ} (h : extendGrantBatch s batchId expiresAt = .ok s') :
    ∃ batch ∈ s.batches, batch.id = batchId ∧ s.now < expiresAt ∧
      s' = s.setBatch (batch.extended expiresAt) := by
  unfold extendGrantBatch at h
  cases hb : s.findBatch batchId with
  | none =>
      rw [hb] at h
      cases h
  | some batch =>
      rw [hb] at h
      obtain ⟨_, hlater, h⟩ := bind_eq_ok.mp h
      cases h
      rw [raiseIf_eq_ok] at hlater
      obtain ⟨hmem, hid⟩ := findBatch_eq_some hb
      exact ⟨batch, hmem, hid, not_le.mp hlater, rfl⟩

theorem extended_fields (batch : Batch) (expiresAt : ℕ) : (batch.extended expiresAt).id = batch.id ∧
      (batch.extended expiresAt).connectionId = batch.connectionId ∧
      (batch.extended expiresAt).tables = batch.tables := by
  unfold Batch.extended
  split_ifs <;> exact ⟨rfl, rfl, rfl⟩

theorem Batch.Sound.extended (h : batch.Sound lower engine) (expiresAt : ℕ) :
    (batch.extended expiresAt).Sound lower engine := by
  unfold Batch.extended
  split_ifs
  · exact ⟨h.doris, BatchState.noConfusion, h.tables, h.linked⟩
  · exact ⟨h.doris, h.settled, h.tables, h.linked⟩

/-! ### The expiry pass -/

theorem mem_dueBatches (h : batch ∈ dueBatches s) : batch ∈ s.batches ∧ batch.Due s.now := by
  have hmem := List.mem_of_mem_take h
  rw [List.mem_insertionSort, List.mem_filter, decide_eq_true_eq] at hmem
  exact hmem

theorem dueBatches_nodup (h : (s.batches.map Batch.id).Nodup) : ((dueBatches s).map Batch.id).Nodup := by
  have hsorted := ((List.perm_insertionSort (fun a b : Batch => a.expiresAt ≤ b.expiresAt)
    (s.batches.filter (·.Due s.now))).map Batch.id).nodup_iff.mpr
      ((List.filter_sublist.map Batch.id).nodup h)
  exact ((List.take_sublist 20 _).map Batch.id).nodup hsorted

theorem dueBatches_eq_nil (h : dueBatches s = []) : ∀ batch ∈ s.batches, ¬ batch.Due s.now := by
  intro batch hmem hdue
  unfold dueBatches at h
  rw [List.take_eq_nil_iff] at h
  have hsorted : batch ∈ (s.batches.filter (·.Due s.now)).insertionSort
      (fun a b => a.expiresAt ≤ b.expiresAt) := by
    rw [List.mem_insertionSort, List.mem_filter, decide_eq_true_eq]
    exact ⟨hmem, hdue⟩
  obtain h | h := h
  · omega
  · rw [h] at hsorted
    cases hsorted

/-- The rows that taking a batch offline leaves alone. -/
theorem offlineTables_others (revokeRaises : PrivilegeKey → Bool) (hwf : WellFormed lower engine s) (hb : batch ∈ s.batches) :
    (offlineTables lower revokeRaises s batch).now = s.now ∧
      ∀ b ∈ s.batches, b.id ≠ batch.id →
        b ∈ (offlineTables lower revokeRaises s batch).batches := by
  have hloop := (offlineLoop_invariant revokeRaises (I := fun _ => True) (hwf.sound batch hb)
    hwf.underway trivial (fun _ _ _ _ _ _ _ => trivial)).1
  refine ⟨hloop.now, fun b hmem hid => ?_⟩
  unfold offlineTables
  refine mem_setBatch_of_ne ?_ hid
  rw [hloop.batches]
  exact hmem

/-- One batch of an expiry pass. -/
def expireBatch (lower : String → String) (engine : ℕ → Option String)
    (revokeRaises : PrivilegeKey → Bool) (s : Store) (batch : Batch) : Store :=
  if engine batch.connectionId = some "doris" then offlineTables lower revokeRaises s batch
  else s.setBatch { batch with state := .failed }

variable {due : List Batch}

/-- The batches of a pass are all still there when their turn comes. -/
theorem expireBatch_rest (revokeRaises : PrivilegeKey → Bool) (hwf : WellFormed lower engine s)
    (hdue : ∀ b ∈ batch :: due, b ∈ s.batches ∧ b.Due s.now) (hnodup : ((batch :: due).map Batch.id).Nodup) :
    expireBatch lower engine revokeRaises s batch = offlineTables lower revokeRaises s batch ∧
      WellFormed lower engine (offlineTables lower revokeRaises s batch) ∧
      ∀ b ∈ due, b ∈ (offlineTables lower revokeRaises s batch).batches ∧
        b.Due (offlineTables lower revokeRaises s batch).now := by
  obtain ⟨hmem, -⟩ := hdue batch List.mem_cons_self
  rw [List.map_cons, List.nodup_cons] at hnodup
  obtain ⟨hnow, hothers⟩ := offlineTables_others revokeRaises hwf hmem
  refine ⟨if_pos (hwf.sound batch hmem).doris, hwf.offlineTables hmem, fun b hb => ?_⟩
  obtain ⟨hbmem, hbdue⟩ := hdue b (List.mem_cons_of_mem _ hb)
  have hne : b.id ≠ batch.id := fun he => hnodup.1 (he ▸ List.mem_map_of_mem hb)
  rw [hnow]
  exact ⟨hothers b hbmem hne, hbdue⟩

/-- An invariant of taking one batch offline is one of all turns of a pass. -/
theorem expireTurns_invariant (hwf : WellFormed lower engine s) (hI : I s)
    (hdue : ∀ b ∈ due, b ∈ s.batches ∧ b.Due s.now) (hnodup : (due.map Batch.id).Nodup)
    (hstep : ∀ m, ∀ batch ∈ m.batches, WellFormed lower engine m → batch.Due m.now →
      I m → I (offlineTables lower revokeRaises m batch)) :
    WellFormed lower engine (due.foldl (expireBatch lower engine revokeRaises) s) ∧
      I (due.foldl (expireBatch lower engine revokeRaises) s) := by
  induction due generalizing s with
  | nil => exact ⟨hwf, hI⟩
  | cons batch due ih =>
      obtain ⟨hturn, hwf', hrest⟩ := expireBatch_rest revokeRaises hwf hdue hnodup
      obtain ⟨hmem, hexpired⟩ := hdue batch List.mem_cons_self
      rw [List.foldl_cons, hturn]
      exact ih hwf' (hstep s batch hmem hwf hexpired hI) hrest (List.nodup_cons.mp hnodup).2

/-- What taking a batch offline establishes, and every other turn keeps, holds of all batches of a
pass. -/
theorem expireTurns_covers (revokeRaises : PrivilegeKey → Bool) {Q : Batch → Store → Prop}
    (hwf : WellFormed lower engine s) (hdue : ∀ b ∈ due, b ∈ s.batches ∧ b.Due s.now)
    (hnodup : (due.map Batch.id).Nodup) (hmake : ∀ m, ∀ batch ∈ m.batches, WellFormed lower engine m →
      Q batch (offlineTables lower revokeRaises m batch))
    (hkeep : ∀ m b, ∀ batch ∈ m.batches, WellFormed lower engine m → Q b m →
      Q b (offlineTables lower revokeRaises m batch)) :
    ∀ b ∈ due, Q b (due.foldl (expireBatch lower engine revokeRaises) s) := by
  induction due generalizing s with
  | nil => exact fun _ hb => by cases hb
  | cons batch due ih =>
      obtain ⟨hturn, hwf', hrest⟩ := expireBatch_rest revokeRaises hwf hdue hnodup
      obtain ⟨hmem, -⟩ := hdue batch List.mem_cons_self
      have hnodup' := (List.nodup_cons.mp hnodup).2
      rw [List.foldl_cons, hturn, List.forall_mem_cons]
      refine ⟨?_, ih hwf' hrest hnodup'⟩
      exact (expireTurns_invariant (I := Q batch) hwf' (hmake s batch hmem hwf) hrest hnodup'
        (fun m b hb hm _ hq => hkeep m batch b hb hm hq)).2

/-- An invariant of taking one batch offline is one of an expiry pass. -/
theorem offlineExpiredBatches_invariant (hwf : WellFormed lower engine s) (hI : I s)
    (hstep : ∀ m, ∀ batch ∈ m.batches, WellFormed lower engine m → batch.Due m.now →
      I m → I (offlineTables lower revokeRaises m batch)) :
    WellFormed lower engine (offlineExpiredBatches lower engine revokeRaises s) ∧
      I (offlineExpiredBatches lower engine revokeRaises s) :=
  expireTurns_invariant hwf hI (fun _ h => mem_dueBatches h) (dueBatches_nodup hwf.ids) hstep

theorem WellFormed.initial (h : s.Initial) : WellFormed lower engine s := by
  refine ⟨?_, ?_, ?_⟩
  · rw [h.batches]
    exact List.nodup_nil
  · rw [h.batches]
    exact fun _ hb => by cases hb
  · intro id lease he
    rw [h.leases] at he
    cases he

theorem step_importGrants (h : step lower engine s (.importGrants request) = some s') :
    (request.batchId ∉ s.batches.map Batch.id ∧ request.users.Nodup) ∧
      s.now < request.expiresAt ∧ engine request.connectionId = some "doris" ∧
      request.rows.Nodup ∧ s' = importTables lower s request := by
  change (if request.batchId ∈ s.batches.map Batch.id ∨ ¬ request.users.Nodup then none
    else (executeGrantImport lower engine s request).toOption) = some s' at h
  split_ifs at h with hused
  obtain ⟨hfresh, hnodup⟩ := not_or.mp hused
  exact ⟨⟨hfresh, not_not.mp hnodup⟩, executeGrantImport_ok (toOption_eq_some.mp h)⟩

theorem step_offline (h : step lower engine s (.offline batchId revokeRaises) = some s') :
    ∃ batch ∈ s.batches, batch.id = batchId ∧ s' = offlineTables lower revokeRaises s batch :=
  offlineGrantBatch_ok (toOption_eq_some.mp h)

theorem step_extend {expiresAt : ℕ} (h : step lower engine s (.extend batchId expiresAt) = some s') :
    ∃ batch ∈ s.batches, batch.id = batchId ∧ s.now < expiresAt ∧
      s' = s.setBatch (batch.extended expiresAt) :=
  extendGrantBatch_ok (toOption_eq_some.mp h)

/-- Every history keeps a store well formed. -/
theorem WellFormed.step (h : WellFormed lower engine s) {a : Action} (hs : step lower engine s a = some s') :
    WellFormed lower engine s' := by
  cases a with
  | importGrants request =>
      obtain ⟨⟨hfresh, -⟩, -, hengine, -, rfl⟩ := step_importGrants hs
      exact h.importTables hengine hfresh
  | offline batchId revokeRaises =>
      obtain ⟨batch, hmem, -, rfl⟩ := step_offline hs
      exact h.offlineTables hmem
  | extend batchId expiresAt =>
      obtain ⟨batch, hmem, -, -, rfl⟩ := step_extend hs
      exact h.setBatch ((h.sound batch hmem).extended expiresAt)
  | expire revokeRaises =>
      cases hs
      exact (offlineExpiredBatches_invariant (I := fun _ => True) h trivial
        (fun _ _ _ _ _ _ => trivial)).1
  | grantOutside privilege | revokeOutside privilege | wait duration =>
      cases hs
      exact ⟨h.ids, h.sound, h.home⟩

end RecoveryService.BatchAuthorization
