import RecoveryService.BatchAuthorization.References

/-! # Expired privileges are revoked

A privilege that the service owns is held by a lease that is system-owned and active.  It is
awaited when some batch that the expiry query will still find refers to it (`Awaited`); taking a
batch offline either ends the lease or leaves it to another batch, so what is held stays awaited.
Only an import can break this: a table counts as failed as soon as one of its users fails, and a
batch all of whose tables failed is itself failed, which the expiry query skips, although GRANTs
of it may have succeeded (`Abandons`). -/

namespace RecoveryService.BatchAuthorization

open Checks Text Loops Runs

variable {lower : String → String} {engine : ℕ → Option String} {s m : Store} {batch : Batch}
  {table : GrantTable} {revokeRaises : PrivilegeKey → Bool}

/-- The lease is system-owned. -/
def Owned (leases : LeaseKey → Option Lease) (id : LeaseKey) : Prop :=
  ∃ lease ∈ leases id, lease.SystemOwned

/-- The lease is system-owned and active. -/
def Held (leases : LeaseKey → Option Lease) (id : LeaseKey) : Prop :=
  ∃ lease ∈ leases id, lease.SystemOwned ∧ lease.state = .active

/-- A batch that is offlined once it has expired refers to the lease. -/
def Awaited (batches : List Batch) (id : LeaseKey) : Prop :=
  ∃ batch ∈ batches, (batch.state = .succeeded ∨ batch.state = .partially) ∧
    batch.offlinedAt = none ∧ ∃ table ∈ batch.tables, table.Open ∧ ∃ user ∈ table.users,
      user.Live ∧ user.leaseId = some id

instance (leases : LeaseKey → Option Lease) (id : LeaseKey) : Decidable (Owned leases id) :=
  inferInstanceAs (Decidable (∃ lease ∈ leases id, _))

instance (leases : LeaseKey → Option Lease) (id : LeaseKey) : Decidable (Held leases id) :=
  inferInstanceAs (Decidable (∃ lease ∈ leases id, _))

instance (table : GrantTable) : Decidable table.Open := inferInstanceAs (Decidable (_ ∨ _))

instance (batches : List Batch) (id : LeaseKey) : Decidable (Awaited batches id) :=
  inferInstanceAs (Decidable (∃ batch ∈ batches, _))

/-- Doris does not show the privilege and grants it. -/
def Reply.grants (reply : Reply) (key : PrivilegeKey) : Bool :=
  reply.rows.any (fun rows => !grantRowsIncludeSourceSelect rows key.sourceDatabase key.sourceTable &&
    !reply.grantRaises)

/-- Doris shows the privilege. -/
def Reply.finds (reply : Reply) (key : PrivilegeKey) : Bool :=
  reply.rows.any (fun rows => grantRowsIncludeSourceSelect rows key.sourceDatabase key.sourceTable)

/-- Every table has a user whose privilege is not acquired, and some user is granted a privilege,
or shares one that the service owns, to which no batch awaiting its expiry refers. -/
def Abandons (lower : String → String) (s : Store) (request : ImportRequest) : Prop :=
  (∀ row ∈ request.rows, ∃ username ∈ request.users,
    (request.replies (request.key row username)).acquires (request.key row username) = false) ∧
  ∃ row ∈ request.rows, ∃ username ∈ request.users,
    ((request.replies (request.key row username)).grants (request.key row username) = true ∨
      ((request.replies (request.key row username)).finds (request.key row username) = true ∧
        Owned s.leases (privilegeLeaseKey lower (request.key row username)))) ∧
    ¬ Awaited s.batches (privilegeLeaseKey lower (request.key row username))

instance (s : Store) (request : ImportRequest) : Decidable (Abandons lower s request) :=
  inferInstanceAs (Decidable (_ ∧ ∃ row ∈ request.rows, _))

/-- No import abandons a privilege. -/
def NoneAbandoned (lower : String → String) (s : Store) : Action → Prop
  | .importGrants request => ¬ Abandons lower s request
  | _ => True

instance (s : Store) : (a : Action) → Decidable (NoneAbandoned lower s a)
  | .importGrants request => inferInstanceAs (Decidable (¬ Abandons lower s request))
  | .offline _ _ => .isTrue trivial
  | .extend _ _ => .isTrue trivial
  | .expire _ => .isTrue trivial
  | .grantOutside _ => .isTrue trivial
  | .revokeOutside _ => .isTrue trivial
  | .wait _ => .isTrue trivial

/-- What the service holds is awaited. -/
def HeldAwaited (s : Store) : Prop := ∀ id, Held s.leases id → Awaited s.batches id

theorem Awaited.mono {batches batches' : List Batch} {id : LeaseKey} (h : Awaited batches id)
    (hsub : ∀ b ∈ batches, b ∈ batches') : Awaited batches' id := by
  obtain ⟨b, hb, hrest⟩ := h
  exact ⟨b, hsub b hb, hrest⟩

/-! ### Leases after one step -/

variable {leases : LeaseKey → Option Lease}
variable {lease : Lease}

theorem owned_update {id id' : LeaseKey} : Owned (Function.update leases id' (some lease)) id ↔
      (id = id' ∧ lease.SystemOwned) ∨ (id ≠ id' ∧ Owned leases id) := by
  unfold Owned
  by_cases h : id = id'
  · rw [h, Function.update_self]
    simp
  · rw [Function.update_of_ne h]
    simp [h]

theorem held_update {id id' : LeaseKey} : Held (Function.update leases id' (some lease)) id ↔
      (id = id' ∧ lease.SystemOwned ∧ lease.state = .active) ∨ (id ≠ id' ∧ Held leases id) := by
  unfold Held
  by_cases h : id = id'
  · rw [h, Function.update_self]
    simp
  · rw [Function.update_of_ne h]
    simp [h]

theorem newLease_not_owned (key : PrivilegeKey) (state : LeaseState) : ¬ (newLease key state).SystemOwned := by
  rintro ⟨h, -⟩
  cases h

variable {key : PrivilegeKey}

/-- A lease that starts from the one there was is owned when that one is. -/
theorem owned_of_getD {id : LeaseKey} {state : LeaseState}
    (h : ((leases id).getD (newLease key state)).SystemOwned) : Owned leases id := by
  unfold Owned
  cases hl : leases id with
  | none =>
      rw [hl] at h
      exact absurd h (newLease_not_owned key state)
  | some lease =>
      rw [hl] at h
      exact ⟨lease, rfl, h⟩

theorem held_of_getD {id : LeaseKey} {state : LeaseState}
    (h : ((leases id).getD (newLease key state)).SystemOwned)
    (hactive : ((leases id).getD (newLease key state)).state = .active) : Held leases id := by
  unfold Held
  cases hl : leases id with
  | none =>
      rw [hl] at h
      exact absurd h (newLease_not_owned key state)
  | some lease =>
      rw [hl] at h hactive
      exact ⟨lease, rfl, h, hactive⟩

/-- Finding a privilege never makes the service its owner. -/
theorem owned_of_found {created : Bool} (h : (lease.found created).SystemOwned) : lease.SystemOwned := by
  unfold Lease.found at h
  split_ifs at h
  · exact h
  · cases h.1

/-! ### Imports -/

/-- What an import comes to own: the privileges granted in it, and those found that were owned. -/
theorem import_owned (s : Store) (request : ImportRequest) {R : LeaseKey → Prop}
    (hgrants : ∀ row ∈ request.rows, ∀ username ∈ request.users,
      (request.replies (request.key row username)).grants (request.key row username) = true →
        R (privilegeLeaseKey lower (request.key row username)))
    (hfinds : ∀ row ∈ request.rows, ∀ username ∈ request.users,
      (request.replies (request.key row username)).finds (request.key row username) = true →
        Owned s.leases (privilegeLeaseKey lower (request.key row username)) →
        R (privilegeLeaseKey lower (request.key row username))) :
    ∀ id, Held (importTables lower s request).leases id → Held s.leases id ∨ R id := by
  have hloop := importLoop_invariant lower request (s := s)
    (I := fun m => (∀ id, Owned m.leases id → Owned s.leases id ∨ R id) ∧
      ∀ id, Held m.leases id → Held s.leases id ∨ R id)
    ⟨fun _ h => Or.inl h, fun _ h => Or.inl h⟩ ?_
  · exact hloop.2
  · rintro m row hrow username huser - ⟨howned, hheld⟩
    have hfinds := hfinds row hrow username huser
    have hgrants := hgrants row hrow username huser
    unfold grantTableUser
    dsimp only
    have hcase := acquire_cases lower m request.batchId (request.key row username)
      (request.replies (request.key row username))
    generalize acquirePrivilegeLeaseForGrant _ _ _ _ _ = acquired at hcase
    generalize request.key row username = key at hcase hfinds hgrants
    cases hcase with
    | raised =>
        refine ⟨fun id h => ?_, fun id h => ?_⟩
        · obtain ⟨rfl, hsystem⟩ | ⟨-, h⟩ := owned_update.mp h
          · exact howned _ (owned_of_getD hsystem)
          · exact howned id h
        · obtain ⟨-, -, h⟩ | ⟨-, h⟩ := held_update.mp h
          · cases h
          · exact hheld id h
    | present rows hrows hfound =>
        have hR : Owned m.leases (privilegeLeaseKey lower key) →
            R (privilegeLeaseKey lower key) := by
          intro h
          obtain h | h := howned _ h
          · refine hfinds ?_ h
            unfold Reply.finds
            rw [hrows, Option.any_some]
            exact hfound
          · exact h
        refine ⟨fun id h => ?_, fun id h => ?_⟩
        · obtain ⟨rfl, hsystem⟩ | ⟨-, h⟩ := owned_update.mp h
          · exact Or.inr (hR (owned_of_getD (owned_of_found hsystem)))
          · exact howned id h
        · obtain ⟨rfl, hsystem, -⟩ | ⟨-, h⟩ := held_update.mp h
          · exact Or.inr (hR (owned_of_getD (owned_of_found hsystem)))
          · exact hheld id h
    | granted rows hrows hfound hraises =>
        have hR : R (privilegeLeaseKey lower key) := by
          apply hgrants
          unfold Reply.grants
          rw [hrows, Option.any_some, hfound, hraises]
          rfl
        refine ⟨fun id h => ?_, fun id h => ?_⟩
        · obtain ⟨rfl, -⟩ | ⟨-, h⟩ := owned_update.mp h
          · exact Or.inr hR
          · exact howned id h
        · obtain ⟨rfl, -⟩ | ⟨-, h⟩ := held_update.mp h
          · exact Or.inr hR
          · exact hheld id h

theorem open_of_acquired {users : List GrantUser} {user : GrantUser} (hmem : user ∈ users) (h : user.Acquired) :
    tableStateOf (users.countP (·.Acquired)) (users.countP (¬ ·.Acquired)) = .succeeded ∨
      tableStateOf (users.countP (·.Acquired)) (users.countP (¬ ·.Acquired)) = .partially := by
  have hpos : 0 < users.countP (·.Acquired) :=
    List.countP_pos_iff.mpr ⟨user, hmem, by simpa using h⟩
  unfold tableStateOf
  split_ifs with hfailed hsuccess
  · omega
  · exact Or.inr rfl
  · exact Or.inl rfl

variable {request : ImportRequest}

/-- A batch with a table that has no failing user is awaited by the expiry query. -/
theorem newBatch_awaits {row : String × String} {username : String}
    (hclean : ∃ row ∈ request.rows, ∀ username ∈ request.users,
      (request.replies (request.key row username)).acquires (request.key row username) = true)
    (hrow : row ∈ request.rows) (huser : username ∈ request.users)
    (hacquires : (request.replies (request.key row username)).acquires (request.key row username) =
      true) :
    Awaited (importTables lower s request).batches
      (privilegeLeaseKey lower (request.key row username)) := by
  have htables := importLoop_tables lower request (s := s) (I := fun _ => True)
    (Q := fun _ _ _ => True) trivial (fun _ _ _ _ _ _ => trivial) (fun _ _ _ _ _ _ => trivial)
    (fun _ _ _ _ _ _ _ _ _ => trivial)
  obtain ⟨hall, -⟩ := exists_of_forall₂ htables
  rw [importTables_batches]
  refine ⟨_, List.mem_append_right _ (List.mem_singleton_self _), ?_, rfl, ?_⟩
  · -- the clean table has succeeded
    obtain ⟨row', hrow', hclean⟩ := hclean
    obtain ⟨table, htable, -, -, hstate, husers⟩ := hall row' hrow'
    have hnone : table.users.countP (¬ ·.Acquired) = 0 := by
      rw [List.countP_eq_zero]
      intro user hmem
      obtain ⟨username', husername', hnew, -⟩ := (exists_of_forall₂ husers).2 user hmem
      simpa using hnew.acquired.mpr (hclean username' husername')
    have hsucceeded : table.state = .succeeded := by
      rw [hstate, hnone]
      rfl
    have hpos : 0 < (loop (grantSourceTable lower request) s request.rows).2.countP
        (·.state = .succeeded) :=
      List.countP_pos_iff.mpr ⟨table, htable, by simpa using hsucceeded⟩
    unfold newBatch batchStateOf
    dsimp only
    split_ifs with hfailed hsuccess
    · exact Or.inl rfl
    · omega
    · exact Or.inr rfl
  · obtain ⟨table, htable, -, -, hstate, husers⟩ := hall row hrow
    obtain ⟨user, hmem, hnew, -⟩ := (exists_of_forall₂ husers).1 username huser
    have hacquired := hnew.acquired.mpr hacquires
    refine ⟨table, htable, ?_, user, hmem, ⟨hacquired, ?_⟩, hnew.linked hacquired⟩
    · unfold GrantTable.Open
      rw [hstate]
      exact open_of_acquired hmem hacquired
    · rw [hnew.pending hacquired]
      exact RevokeState.noConfusion

theorem Reply.acquires_of_grants {reply : Reply} (h : reply.grants key = true) : reply.acquires key = true := by
  unfold Reply.grants at h
  unfold Reply.acquires
  cases hrows : reply.rows with
  | none => simp [hrows] at h
  | some rows =>
      simp only [hrows, Option.any_some, Bool.and_eq_true] at h
      simp [h.2]

theorem Reply.acquires_of_finds {reply : Reply} (h : reply.finds key = true) : reply.acquires key = true := by
  unfold Reply.finds at h
  unfold Reply.acquires
  cases hrows : reply.rows with
  | none => simp [hrows] at h
  | some rows =>
      simp only [hrows, Option.any_some] at h
      simp [h]

theorem HeldAwaited.importTables (h : HeldAwaited s) (hkeeps : ¬ Abandons lower s request) :
    HeldAwaited (importTables lower s request) := by
  have hsub : ∀ b ∈ s.batches, b ∈ (BatchAuthorization.importTables lower s request).batches := by
    intro b hb
    rw [importTables_batches]
    exact List.mem_append_left _ hb
  by_cases hclean : ∃ row ∈ request.rows, ∀ username ∈ request.users,
      (request.replies (request.key row username)).acquires (request.key row username) = true
  · intro id hid
    have howned := import_owned s request
      (R := Awaited (BatchAuthorization.importTables lower s request).batches)
      (fun row hrow username huser hg => newBatch_awaits hclean hrow huser (Reply.acquires_of_grants hg))
      (fun row hrow username huser hf _ => newBatch_awaits hclean hrow huser (Reply.acquires_of_finds hf))
    obtain hold | hnew := howned id hid
    · exact (h id hold).mono hsub
    · exact hnew
  · -- every table has a failing user, so what is acquired has to be awaited already
    push Not at hclean
    have hawaited : ∀ row ∈ request.rows, ∀ username ∈ request.users,
        (request.replies (request.key row username)).grants (request.key row username) = true ∨
          ((request.replies (request.key row username)).finds (request.key row username) = true ∧
            Owned s.leases (privilegeLeaseKey lower (request.key row username))) →
        Awaited s.batches (privilegeLeaseKey lower (request.key row username)) := by
      intro row hrow username huser hacquired
      by_contra hnot
      refine hkeeps ⟨fun row' hrow' => ?_, row, hrow, username, huser, hacquired, hnot⟩
      obtain ⟨username', husername', hfails⟩ := hclean row' hrow'
      exact ⟨username', husername', Bool.eq_false_of_not_eq_true hfails⟩
    intro id hid
    have howned := import_owned s request (R := Awaited s.batches)
      (fun row hrow username huser hg => hawaited row hrow username huser (Or.inl hg))
      (fun row hrow username huser hf ho => hawaited row hrow username huser (Or.inr ⟨hf, ho⟩))
    obtain hold | hnew := howned id hid
    · exact (h id hold).mono hsub
    · exact hnew.mono hsub

/-! ### Offline -/

/-- Behind the turn of a user its lease is not held, unless another batch refers to it. -/
theorem offlineUser_released {user : GrantUser}
    (hlinked : user.Live → user.leaseId = some (privilegeLeaseKey lower (batch.keyOf table user)))
    (hsound : ∀ b ∈ m.batches, b.Sound lower engine) (hhome : Home m.leases) :
    (∀ id, Held (offlineUser lower batch table revokeRaises m user).1.leases id → Held m.leases id) ∧
      (user.Live →
        Held (offlineUser lower batch table revokeRaises m user).1.leases
          (privilegeLeaseKey lower (batch.keyOf table user)) →
        Referenced m.now m.batches batch.id (privilegeLeaseKey lower (batch.keyOf table user))) := by
  have hcase := offlineUser_linked batch table revokeRaises m hlinked
  have hrefs := fun (lease : Lease) (hlease : lease.connectionId =
      (privilegeLeaseKey lower (batch.keyOf table user)).connectionId) =>
    activeReferences_iff hsound (privilegeLeaseKey lower (batch.keyOf table user)) hlease batch.id
  have hconnection := hhome.getD lower (batch.keyOf table user) .active
  generalize offlineUser lower batch table revokeRaises m user = result at hcase
  generalize batch.keyOf table user = key at hcase hrefs hconnection
  cases hcase with
  | idle hidle => exact ⟨fun _ h => h, fun h => absurd h hidle⟩
  | skipped _ _ hreason =>
      refine ⟨fun id h => ?_, fun _ h => ?_⟩
      · obtain ⟨rfl, hsystem, hactive⟩ | ⟨-, h⟩ := held_update.mp h
        · exact held_of_getD hsystem hactive
        · exact h
      · obtain ⟨-, hsystem, hactive⟩ | ⟨hne, -⟩ := held_update.mp h
        · obtain href | hrevoked | hforeign := hreason
          · exact (hrefs _ hconnection).mp href
          · rw [hrevoked] at hactive
            cases hactive
          · exact absurd hsystem hforeign
        · exact absurd rfl hne
  | failed | revoked =>
      refine ⟨fun id h => ?_, fun _ h => ?_⟩
      · obtain ⟨-, -, hactive⟩ | ⟨-, h⟩ := held_update.mp h
        · cases hactive
        · exact h
      · obtain ⟨-, -, hactive⟩ | ⟨hne, -⟩ := held_update.mp h
        · cases hactive
        · exact absurd rfl hne

theorem HeldAwaited.offlineTables (h : HeldAwaited s) (hwf : WellFormed lower engine s)
    (hb : batch ∈ s.batches) : HeldAwaited (offlineTables lower revokeRaises s batch) := by
  have hsound := hwf.sound batch hb
  have hstep : ∀ m, ∀ table ∈ batch.tables, ∀ user ∈ table.users, Underway s m →
      (∀ id, Held (offlineUser lower batch table revokeRaises m user).1.leases id →
        Held m.leases id) ∧
      (user.Live →
        Held (offlineUser lower batch table revokeRaises m user).1.leases
          (privilegeLeaseKey lower (batch.keyOf table user)) →
        Referenced m.now m.batches batch.id
          (privilegeLeaseKey lower (batch.keyOf table user))) := by
    intro m table htable user huser hm
    have hothers : ∀ b ∈ m.batches, b.Sound lower engine := by
      rw [hm.batches]
      exact hwf.sound
    exact offlineUser_released (hsound.linked table htable user huser) hothers hm.home
  have hloop := offlineLoop_invariant revokeRaises
    (I := fun m => ∀ id, Held m.leases id → Held s.leases id) hsound hwf.underway (fun _ h => h)
    (fun m table htable user huser hm hI id h =>
      hI id ((hstep m table htable user huser hm).1 id h))
  have husers := offlineLoop_users revokeRaises (I := fun _ => True)
    (Q := fun table user m => user.Live →
      Held m.leases (privilegeLeaseKey lower (batch.keyOf table user)) →
      Referenced s.now s.batches batch.id (privilegeLeaseKey lower (batch.keyOf table user)))
    hsound hwf.underway trivial (fun _ _ _ _ _ _ _ => trivial) ?_ ?_
  · intro id hid
    obtain ⟨b, hbmem, hstate, hoff, table, htable, hopen, user, huser, hlive, hlink⟩ :=
      h id (hloop.2 id hid)
    by_cases hsame : b.id = batch.id
    · -- the reference was in the batch itself: another batch has one
      obtain rfl : b = batch := List.inj_on_of_nodup_map hwf.ids hbmem hb hsame
      have hid' := hsound.linked table htable user huser hlive
      rw [hlink, Option.some.injEq] at hid'
      subst hid'
      obtain ⟨b', hb', ⟨hactive, -, hoff'⟩, hne, table', htable', htactive, user', huser', href⟩ :=
        husers table htable hopen user huser hlive hid
      have hsound' := hwf.sound b' hb'
      refine ⟨b', (offlineTables_others revokeRaises hwf hb).2 b' hb' hne, ?_, hoff', table',
        htable', ?_, user', huser', href⟩
      · obtain h | h | h := hactive
        · exact Or.inl h
        · exact Or.inr h
        · exact absurd h hsound'.settled
      · obtain h | h | h := htactive
        · exact absurd h (hsound'.tables table' htable')
        · exact Or.inl h
        · exact Or.inr h
    · exact ⟨b, (offlineTables_others revokeRaises hwf hb).2 b hbmem hsame, hstate, hoff, table,
        htable, hopen, user, huser, hlive, hlink⟩
  · intro m table htable user huser hm _ hlive hheld
    have href := (hstep m table htable user huser hm).2 hlive hheld
    rw [hm.now, hm.batches] at href
    exact href
  · intro m t u table htable user huser hm _ hq hlive hheld
    exact hq hlive ((hstep m table htable user huser hm).1 _ hheld)

theorem HeldAwaited.extend (h : HeldAwaited s) (hwf : WellFormed lower engine s)
    (hb : batch ∈ s.batches) (expiresAt : ℕ) : HeldAwaited (s.setBatch (batch.extended expiresAt)) := by
  obtain ⟨hid, -, htables⟩ := extended_fields batch expiresAt
  intro id hheld
  obtain ⟨b, hbmem, hstate, hoff, table, htable, hrest⟩ := h id hheld
  by_cases hsame : b.id = batch.id
  · obtain rfl : b = batch := List.inj_on_of_nodup_map hwf.ids hbmem hb hsame
    refine ⟨b.extended expiresAt, mem_setBatch_self hbmem hid.symm, ?_, ?_, table, ?_, hrest⟩
    · unfold Batch.extended
      split_ifs
      · exact Or.inl rfl
      · exact hstate
    · unfold Batch.extended
      split_ifs
      · rfl
      · exact hoff
    · rw [htables]
      exact htable
  · exact ⟨b, mem_setBatch_of_ne hbmem (hid ▸ hsame), hstate, hoff, table, htable, hrest⟩

theorem HeldAwaited.initial (h : s.Initial) : HeldAwaited s := by
  rintro id ⟨lease, hlease, -⟩
  rw [h.leases] at hlease
  cases hlease

/-- One operation that abandons nothing. -/
theorem HeldAwaited.step (h : HeldAwaited s) (hwf : WellFormed lower engine s) {a : Action}
    {s' : Store} (hok : NoneAbandoned lower s a) (hs : step lower engine s a = some s') : HeldAwaited s' := by
  cases a with
  | importGrants request =>
      obtain ⟨-, -, -, -, rfl⟩ := step_importGrants hs
      exact h.importTables hok
  | offline batchId revokeRaises =>
      obtain ⟨batch, hmem, -, rfl⟩ := step_offline hs
      exact h.offlineTables hwf hmem
  | extend batchId expiresAt =>
      obtain ⟨batch, hmem, -, -, rfl⟩ := step_extend hs
      exact h.extend hwf hmem expiresAt
  | expire revokeRaises =>
      cases hs
      exact (offlineExpiredBatches_invariant (I := HeldAwaited) hwf h
        (fun m batch hb hm _ hI => hI.offlineTables hm hb)).2
  | grantOutside privilege | revokeOutside privilege | wait duration =>
      cases hs
      exact h

/-! ### The fixpoint -/

/-- No REVOKE fails. -/
def noneRaises : PrivilegeKey → Bool := fun _ => false

theorem offlineTables_offlined (hwf : WellFormed lower engine s) (hb : batch ∈ s.batches) :
    ∀ b ∈ (offlineTables lower noneRaises s batch).batches,
      (b.id = batch.id → b.state = .offlined) ∧
      (b.id ≠ batch.id → b ∈ s.batches) := by
  have hsound := hwf.sound batch hb
  have hloop := (offlineLoop_invariant noneRaises (I := fun _ => True) hsound hwf.underway trivial
    (fun _ _ _ _ _ _ _ => trivial)).1
  have hnone : (loop (offlineTable lower batch noneRaises) s batch.tables).2.any Prod.snd = false := by
    rw [List.any_eq_false]
    intro result hmem hfailed
    obtain ⟨_, -, hresult⟩ := (exists_of_forall₂
      (offlineLoop_tables noneRaises hsound hwf.underway)).2 result hmem
    obtain ⟨_, hraises⟩ := hresult.failed hfailed
    cases hraises
  intro b hmem
  unfold offlineTables at hmem
  obtain rfl | ⟨hold, hne⟩ := mem_setBatch hmem
  · refine ⟨fun _ => ?_, fun h => absurd rfl h⟩
    unfold Batch.offline
    dsimp only
    rw [hnone]
    rfl
  · rw [hloop.batches] at hold
    exact ⟨fun h => absurd h hne, fun _ => hold⟩

/-- A pass that changes nothing has found no batch. -/
theorem dueBatches_of_fixpoint (hwf : WellFormed lower engine s)
    (hfix : offlineExpiredBatches lower engine noneRaises s = s) : dueBatches s = [] := by
  by_contra hne
  obtain ⟨batch, hmem⟩ := List.exists_mem_of_ne_nil _ hne
  obtain ⟨hb, -, hstate, -⟩ := mem_dueBatches hmem
  have hoffline := expireTurns_covers noneRaises
    (Q := fun (batch : Batch) m => ∀ b ∈ m.batches, b.id = batch.id → b.state = .offlined) hwf
    (fun _ h => mem_dueBatches h) (dueBatches_nodup hwf.ids) ?_ ?_ batch hmem batch ?_ rfl
  · rw [hoffline] at hstate
    simp at hstate
  · exact fun m batch hbm hm b hbmem hid => (offlineTables_offlined hm hbm b hbmem).1 hid
  · intro m b batch hbm hm hq b' hb' hid
    obtain ⟨hself, hother⟩ := offlineTables_offlined hm hbm b' hb'
    by_cases hsame : b'.id = batch.id
    · exact hself hsame
    · exact hq b' (hother hsame) hid
  · change batch ∈ (offlineExpiredBatches lower engine noneRaises s).batches
    rw [hfix]
    exact hb

theorem offlineExpiredBatches_of_none (h : dueBatches s = []) :
    offlineExpiredBatches lower engine revokeRaises s = s := by
  unfold offlineExpiredBatches
  rw [h]
  rfl

/-- The batch has a user in the state succeeded or skipped with the lease. -/
def Batch.RefersTo (batch : Batch) (id : LeaseKey) : Prop :=
  ∃ table ∈ batch.tables, ∃ user ∈ table.users, user.Acquired ∧ user.leaseId = some id

instance (batch : Batch) (id : LeaseKey) : Decidable (batch.RefersTo id) :=
  inferInstanceAs (Decidable (∃ table ∈ batch.tables, _))

/-- The privilege is granted, system-owned and active, and all batches referring to it have
expired. -/
def Stranded (lower : String → String) (s : Store) (key : PrivilegeKey) : Prop :=
  key.privilege ∈ s.granted ∧ Held s.leases (privilegeLeaseKey lower key) ∧
    ∀ batch ∈ s.batches, batch.RefersTo (privilegeLeaseKey lower key) → batch.expiresAt ≤ s.now

instance (s : Store) (key : PrivilegeKey) : Decidable (Stranded lower s key) :=
  inferInstanceAs (Decidable (_ ∧ _ ∧ ∀ batch ∈ s.batches, _))

/-- In every history whose imports abandon nothing, no privilege is stranded once an expiry pass in
which no REVOKE fails changes nothing. -/
theorem none_stranded {s₀ : Store} {as : List Action} (h₀ : s₀.Initial)
    (h : Run (step lower engine) (NoneAbandoned lower) s₀ as s)
    (hfix : offlineExpiredBatches lower engine noneRaises s = s) (key : PrivilegeKey) :
    ¬ Stranded lower s key := by
  rintro ⟨-, hheld, hexpired⟩
  have hinv := h.invariant (I := fun s => WellFormed lower engine s ∧ HeldAwaited s)
    ⟨WellFormed.initial h₀, HeldAwaited.initial h₀⟩
    (fun s a s' hok hs hI => ⟨hI.1.step hs, hI.2.step hI.1 hok hs⟩)
  obtain ⟨b, hb, hstate, hoff, table, htable, -, user, huser, hlive, hlink⟩ := hinv.2 _ hheld
  exact dueBatches_eq_nil (dueBatches_of_fixpoint hinv.1 hfix) b hb
    ⟨hexpired b hb ⟨table, htable, user, huser, hlive.1, hlink⟩, hstate, hoff⟩

/-! ### A grant that fails for one of two users -/

/-- Nothing imported, and no privilege granted. -/
def emptyStore : Store :=
  { now := 0, batches := [], leases := fun _ => none, granted := [], lastGrant := fun _ => none,
    revokes := [] }

theorem emptyStore_initial : emptyStore.Initial := ⟨rfl, fun _ => rfl, fun _ => rfl, rfl⟩

/-- The only connection is to Doris. -/
def oneDoris : ℕ → Option String := fun id => if id = 1 then some "doris" else none

/-- Ann and Bob get tables of the database `sales` until time 5. -/
def salesImport (batchId : ℕ) (users tables : List String) (replies : PrivilegeKey → Reply) : ImportRequest :=
  { batchId := batchId
    connectionId := 1
    departmentActive := true
    users := users
    departmentDatabases := ["sales_mart"]
    rows := tables.map (fun table => ("sales", table))
    expiresAt := 5
    databases := ["sales"]
    tableExists := fun _ _ => true
    replies := replies }

/-- Doris grants everything but the orders to Bob. -/
def bobRefused (key : PrivilegeKey) : Reply :=
  { rows := some [], grantRaises := key.username == "bob" && key.sourceTable == "orders" }

theorem refused_grant_stranded : ∃ s, Run (step lowerAscii oneDoris) Free emptyStore
        [.importGrants (salesImport 1 ["ann", "bob"] ["orders"] bobRefused), .wait 10,
          .expire noneRaises] s ∧
      offlineExpiredBatches lowerAscii oneDoris noneRaises s = s ∧
      Stranded lowerAscii s ⟨1, "ann", "sales", "orders"⟩ := by
  obtain ⟨s, hrun, hdue, hstranded⟩ : ∃ s, Run (step lowerAscii oneDoris) Free emptyStore
      [.importGrants (salesImport 1 ["ann", "bob"] ["orders"] bobRefused), .wait 10,
        .expire noneRaises] s ∧
      dueBatches s = [] ∧ Stranded lowerAscii s ⟨1, "ann", "sales", "orders"⟩ :=
    exists_run (by decide)
  exact ⟨s, hrun, offlineExpiredBatches_of_none hdue, hstranded⟩

/-- With a second table that is granted to both, the batch expires as it should. -/
theorem second_table_not_stranded : ∃ s, Run (step lowerAscii oneDoris) (NoneAbandoned lowerAscii) emptyStore
        [.importGrants (salesImport 1 ["ann", "bob"] ["orders", "items"] bobRefused), .wait 10,
          .expire noneRaises] s ∧
      ∀ key, ¬ Stranded lowerAscii s key := by
  obtain ⟨s, hrun, hdue⟩ : ∃ s, Run (step lowerAscii oneDoris) (NoneAbandoned lowerAscii) emptyStore
      [.importGrants (salesImport 1 ["ann", "bob"] ["orders", "items"] bobRefused), .wait 10,
        .expire noneRaises] s ∧ dueBatches s = [] :=
    exists_run (by decide)
  exact ⟨s, hrun, none_stranded emptyStore_initial hrun (offlineExpiredBatches_of_none hdue)⟩

end RecoveryService.BatchAuthorization
