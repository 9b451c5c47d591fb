import RecoveryService.BatchAuthorization.Expiry

/-! # What the service revokes was its own

A REVOKE is justified when the privilege was absent before the service granted it last, its lease
is system-owned and no other batch refers to it.  The lease of a privilege is found by the names
in lower case, so privileges of names that differ only in case share one lease, and what the
service has granted to one user makes it revoke what somebody else has granted to the other.
Where the recorded privileges have different leases (`Separate`), every REVOKE is justified. -/

namespace RecoveryService.BatchAuthorization

open Checks Text Loops Runs

variable {lower : String → String} {engine : ℕ → Option String} {s m : Store} {batch : Batch}
  {table : GrantTable} {revokeRaises : PrivilegeKey → Bool}

/-- The privilege was absent before the service granted it last, the lease is system-owned, and no
other batch that is active has a live user with it in a table not yet offlined. -/
def Revoke.Justified (revoke : Revoke) : Prop :=
  revoke.absentBefore = some true ∧ revoke.lease.SystemOwned ∧
    ¬ Referenced revoke.now revoke.batches revoke.batchId revoke.leaseId

instance (now : ℕ) (batches : List Batch) (excluded : ℕ) (id : LeaseKey) :
    Decidable (Referenced now batches excluded id) :=
  inferInstanceAs (Decidable (∃ batch ∈ batches, _))

instance (revoke : Revoke) : Decidable revoke.Justified := inferInstanceAs (Decidable (_ ∧ _ ∧ _))

/-- A batch has recorded the privilege as acquired. -/
def Recorded (batches : List Batch) (key : PrivilegeKey) : Prop :=
  ∃ batch ∈ batches, ∃ table ∈ batch.tables, ∃ user ∈ table.users,
    user.Acquired ∧ batch.keyOf table user = key

instance (batches : List Batch) (key : PrivilegeKey) : Decidable (Recorded batches key) :=
  inferInstanceAs (Decidable (∃ batch ∈ batches, _))

/-- SHOW GRANTS lists the privileges on tables that the user holds. -/
def ShowsHeld (s : Store) : Action → Prop
  | .importGrants request => ∀ row ∈ request.rows, ∀ username ∈ request.users,
      (request.key row username).privilege ∈ s.granted →
        ∀ rows ∈ (request.replies (request.key row username)).rows,
          ∃ values ∈ rows, Shows row.1 row.2 values
  | _ => True

/-- The privileges that an import acquires. -/
def ImportRequest.acquired (request : ImportRequest) : List PrivilegeKey :=
  (request.rows.flatMap fun row => request.users.map (request.key row)).filter
    fun key => (request.replies key).acquires key

/-- The privileges recorded in the batches. -/
def recordedKeys (batches : List Batch) : List PrivilegeKey :=
  batches.flatMap fun batch => batch.tables.flatMap fun table =>
    (table.users.filter (·.Acquired)).map (batch.keyOf table)

/-- The tables of an import have names that the privilege check can recognise, and no two of the
privileges recorded or acquired share a lease. -/
def Separate (lower : String → String) (s : Store) : Action → Prop
  | .importGrants request =>
      (∀ row ∈ request.rows, Recognisable row.1 ∧ Recognisable row.2) ∧
      ∀ key ∈ request.acquired, ∀ key' ∈ recordedKeys s.batches ++ request.acquired,
        privilegeLeaseKey lower key = privilegeLeaseKey lower key' → key = key'
  | _ => True

instance (s : Store) : (a : Action) → Decidable (ShowsHeld s a)
  | .importGrants request => inferInstanceAs (Decidable (∀ row ∈ request.rows, _))
  | .offline _ _ => .isTrue trivial
  | .extend _ _ => .isTrue trivial
  | .expire _ => .isTrue trivial
  | .grantOutside _ => .isTrue trivial
  | .revokeOutside _ => .isTrue trivial
  | .wait _ => .isTrue trivial

instance (s : Store) : (a : Action) → Decidable (Separate lower s a)
  | .importGrants request => inferInstanceAs (Decidable ((∀ row ∈ request.rows, _) ∧ _))
  | .offline _ _ => .isTrue trivial
  | .extend _ _ => .isTrue trivial
  | .expire _ => .isTrue trivial
  | .grantOutside _ => .isTrue trivial
  | .revokeOutside _ => .isTrue trivial
  | .wait _ => .isTrue trivial

variable {key : PrivilegeKey}

theorem mem_recordedKeys {batches : List Batch} : key ∈ recordedKeys batches ↔ Recorded batches key := by
  unfold recordedKeys Recorded
  simp only [List.mem_flatMap, List.mem_map, List.mem_filter, decide_eq_true_eq, and_assoc]

variable {request : ImportRequest}

theorem mem_acquired : key ∈ request.acquired ↔ ∃ row ∈ request.rows, ∃ username ∈ request.users,
      request.key row username = key ∧ (request.replies key).acquires key = true := by
  unfold ImportRequest.acquired
  simp only [List.mem_filter, List.mem_flatMap, List.mem_map]
  constructor
  · rintro ⟨⟨row, hrow, username, huser, rfl⟩, h⟩
    exact ⟨row, hrow, username, huser, rfl, h⟩
  · rintro ⟨row, hrow, username, huser, rfl, h⟩
    exact ⟨⟨row, hrow, username, huser, rfl⟩, h⟩

/-- Every lease that the service owns comes from a GRANT of a privilege that was absent. -/
structure OwnInv (lower : String → String) (s : Store) : Prop where
  owned : ∀ id, Owned s.leases id → ∃ key, privilegeLeaseKey lower key = id ∧
    s.lastGrant key = some true ∧ Recorded s.batches key
  separate : ∀ key key', Recorded s.batches key → Recorded s.batches key' →
    privilegeLeaseKey lower key = privilegeLeaseKey lower key' → key = key'
  justified : ∀ revoke ∈ s.revokes, revoke.Justified

/-! ### Imports -/

/-- The privileges of the rows and users still to come are granted only if they were before. -/
def NotYet (request : ImportRequest) (s : Store) (rows : List (String × String)) (m : Store) : Prop :=
  ∀ row ∈ request.rows, row ∉ rows → ∀ username,
    (request.key row username).privilege ∈ m.granted → (request.key row username).privilege ∈ s.granted

theorem key_privilege_inj {key' : PrivilegeKey} (h : key.privilege = key'.privilege) : key = key' := by
  unfold PrivilegeKey.privilege at h
  cases key
  cases key'
  simp only [Privilege.mk.injEq, Scope.table.injEq] at h
  simp only [PrivilegeKey.mk.injEq]
  tauto

/-- A turn grants at most the privilege of its own key. -/
theorem grantTableUser_granted (request : ImportRequest) (row : String × String) (m : Store) (username : String)
    (hne : key ≠ request.key row username)
    (h : key.privilege ∈ (grantTableUser lower request row m username).1.granted) :
    key.privilege ∈ m.granted := by
  unfold grantTableUser at h
  dsimp only at h
  have hcase := acquire_cases lower m request.batchId (request.key row username)
    (request.replies (request.key row username))
  generalize acquirePrivilegeLeaseForGrant _ _ _ _ _ = acquired at hcase h
  cases hcase with
  | raised | present => exact h
  | granted =>
      obtain he | h := List.mem_cons.mp h
      · exact absurd (key_privilege_inj he) hne
      · exact h

/-- What the service owns during an import comes from GRANTs of absent privileges. -/
def OwnedFrom (lower : String → String) (s : Store) (request : ImportRequest) (m : Store) : Prop :=
  ∀ id, Owned m.leases id → ∃ key, privilegeLeaseKey lower key = id ∧ m.lastGrant key = some true ∧
    (Recorded s.batches key ∨ key ∈ request.acquired)

theorem OwnedFrom.turn (h : OwnedFrom lower s request m) (hshows : ShowsHeld s (.importGrants request))
    (hsep : Separate lower s (.importGrants request)) {row : String × String} {username : String}
    (hrow : row ∈ request.rows) (huser : username ∈ request.users)
    (hfresh : (request.key row username).privilege ∈ m.granted →
      (request.key row username).privilege ∈ s.granted) :
    OwnedFrom lower s request (grantTableUser lower request row m username).1 := by
  have hreplies := hshows row hrow username huser
  obtain ⟨hdatabase, htable⟩ := hsep.1 row hrow
  have hacquired : (request.replies (request.key row username)).acquires
      (request.key row username) = true → request.key row username ∈ request.acquired :=
    fun hreply => mem_acquired.mpr ⟨row, hrow, username, huser, rfl, hreply⟩
  unfold grantTableUser
  dsimp only
  have hcase := acquire_cases lower m request.batchId (request.key row username)
    (request.replies (request.key row username))
  generalize acquirePrivilegeLeaseForGrant _ _ _ _ _ = acquired at hcase
  intro id hid
  cases hcase with
  | raised =>
      obtain ⟨rfl, hsystem⟩ | ⟨-, hid⟩ := owned_update.mp hid
      · exact h _ (owned_of_getD hsystem)
      · exact h id hid
  | present rows hrows hfound =>
      obtain ⟨rfl, hsystem⟩ | ⟨-, hid⟩ := owned_update.mp hid
      · exact h _ (owned_of_getD (owned_of_found hsystem))
      · exact h id hid
  | granted rows hrows hfound hraises =>
      -- the check has not found the privilege, so it was not there
      have habsent : (request.key row username).privilege ∉ m.granted := by
        intro hheld
        have hshown := hreplies (hfresh hheld) rows hrows
        have hfinds := grantRowsIncludeSourceSelect_of_shows hdatabase htable hshown
        exact Bool.false_ne_true (hfound.symm.trans hfinds)
      have hnew : (m.grant (request.key row username)).lastGrant (request.key row username) =
          some true := by
        unfold Store.grant
        simp [habsent]
      have hmem := hacquired (by
        unfold Reply.acquires
        rw [hrows, Option.any_some, hraises]
        simp)
      obtain ⟨rfl, -⟩ | ⟨-, hid⟩ := owned_update.mp hid
      · exact ⟨request.key row username, rfl, hnew, Or.inr hmem⟩
      · obtain ⟨key, rfl, hlast, hwhere⟩ := h id hid
        refine ⟨key, rfl, ?_, hwhere⟩
        by_cases hkey : key = request.key row username
        · rw [hkey]
          exact hnew
        · change Function.update m.lastGrant _ _ key = _
          rw [Function.update_of_ne hkey]
          exact hlast

theorem importTables_owned (h : OwnInv lower s) (hrows : request.rows.Nodup) (husers : request.users.Nodup)
    (hshows : ShowsHeld s (.importGrants request)) (hsep : Separate lower s (.importGrants request)) :
    OwnedFrom lower s request (importTables lower s request) := by
  have hstart : OwnedFrom lower s request s := by
    intro id hid
    obtain ⟨key, hkey, hlast, hrecorded⟩ := h.owned id hid
    exact ⟨key, hkey, hlast, Or.inl hrecorded⟩
  have hloop := loop_progress (f := grantSourceTable lower request) (s := s) (l := request.rows)
    (I := fun done m => OwnedFrom lower s request m ∧ NotYet request s done m)
    ⟨hstart, fun _ _ _ _ h => h⟩ ?_
  · exact hloop.1
  · rintro m done row rest hsplit ⟨hm, hnotYet⟩
    have hrow : row ∈ request.rows := by
      rw [hsplit]
      exact List.mem_append_right _ List.mem_cons_self
    have hnew : row ∉ done := by
      rw [hsplit] at hrows
      exact fun hmem => (List.disjoint_of_nodup_append hrows hmem) List.mem_cons_self
    -- inside the row: the users still to come
    have hinner := loop_progress (f := grantTableUser lower request row) (s := m) (l := request.users)
      (I := fun seen n => OwnedFrom lower s request n ∧ NotYet request s (done ++ [row]) n ∧
        ∀ username, username ∉ seen → (request.key row username).privilege ∈ n.granted →
          (request.key row username).privilege ∈ s.granted) ⟨hm, ?_, ?_⟩ ?_
    · exact ⟨hinner.1, hinner.2.1⟩
    · intro row' hrow' hlater username
      exact hnotYet row' hrow' (fun hmem => hlater (List.mem_append_left _ hmem)) username
    · exact fun username _ => hnotYet row hrow hnew username
    · rintro n seen username tail husplit ⟨hn, hlater, hhere⟩
      have huser : username ∈ request.users := by
        rw [husplit]
        exact List.mem_append_right _ List.mem_cons_self
      have hunseen : username ∉ seen := by
        rw [husplit] at husers
        exact fun hmem => (List.disjoint_of_nodup_append husers hmem) List.mem_cons_self
      refine ⟨hn.turn hshows hsep hrow huser (hhere username hunseen), ?_, ?_⟩
      · intro row' hrow' hnot username' hgranted
        refine hlater row' hrow' hnot username' (grantTableUser_granted request row n username ?_
          hgranted)
        intro he
        apply hnot
        unfold ImportRequest.key at he
        simp only [PrivilegeKey.mk.injEq] at he
        have : row' = row := Prod.ext he.2.2.1 he.2.2.2
        rw [this]
        exact List.mem_append_right _ (List.mem_singleton_self row)
      · intro username' hnot hgranted
        rw [List.mem_append, List.mem_singleton, not_or] at hnot
        refine hhere username' hnot.1 (grantTableUser_granted request row n username ?_ hgranted)
        intro he
        unfold ImportRequest.key at he
        simp only [PrivilegeKey.mk.injEq] at he
        exact hnot.2 he.2.1

theorem importTables_recorded : Recorded (importTables lower s request).batches key ↔
      Recorded s.batches key ∨ key ∈ request.acquired := by
  have htables := importLoop_tables lower request (s := s) (I := fun _ => True)
    (Q := fun _ _ _ => True) trivial (fun _ _ _ _ _ _ => trivial) (fun _ _ _ _ _ _ => trivial)
    (fun _ _ _ _ _ _ _ _ _ => trivial)
  obtain ⟨hto, hfrom⟩ := exists_of_forall₂ htables
  rw [importTables_batches, mem_acquired]
  have hkey : ∀ (row : String × String) (username : String) (table : GrantTable) (user : GrantUser),
      table.sourceDatabase = row.1 → table.sourceTable = row.2 → user.dbUsername = username →
      (newBatch request (loop (grantSourceTable lower request) s request.rows).2).keyOf table user =
        request.key row username := by
    intro row username table user hd ht hname
    unfold Batch.keyOf ImportRequest.key newBatch
    rw [hd, ht, hname]
  constructor
  · rintro ⟨b, hb, table, htable, user, huser, hacquired, he⟩
    rw [List.mem_append, List.mem_singleton] at hb
    obtain hb | rfl := hb
    · exact Or.inl ⟨b, hb, table, htable, user, huser, hacquired, he⟩
    · right
      obtain ⟨row, hrow, hd, ht, -, husers⟩ := hfrom table htable
      obtain ⟨username, husername, hnew, -⟩ := (exists_of_forall₂ husers).2 user huser
      rw [hkey row username table user hd ht hnew.name] at he
      rw [← he]
      exact ⟨row, hrow, username, husername, rfl, hnew.acquired.mp hacquired⟩
  · rintro (⟨b, hb, hrest⟩ | ⟨row, hrow, username, husername, rfl, hacquires⟩)
    · exact ⟨b, List.mem_append_left _ hb, hrest⟩
    · obtain ⟨table, htable, hd, ht, -, husers⟩ := hto row hrow
      obtain ⟨user, huser, hnew, -⟩ := (exists_of_forall₂ husers).1 username husername
      exact ⟨_, List.mem_append_right _ (List.mem_singleton_self _), table, htable, user, huser,
        hnew.acquired.mpr hacquires, hkey row username table user hd ht hnew.name⟩

theorem OwnInv.importTables (h : OwnInv lower s) (hrows : request.rows.Nodup) (husers : request.users.Nodup)
    (hshows : ShowsHeld s (.importGrants request)) (hsep : Separate lower s (.importGrants request)) :
    OwnInv lower (importTables lower s request) := by
  have howned := importTables_owned h hrows husers hshows hsep
  refine ⟨?_, ?_, ?_⟩
  · intro id hid
    obtain ⟨key, hkey, hlast, hwhere⟩ := howned id hid
    exact ⟨key, hkey, hlast, importTables_recorded.mpr hwhere⟩
  · intro key key' hkey hkey' he
    rw [importTables_recorded] at hkey hkey'
    have hmem : ∀ k, Recorded s.batches k ∨ k ∈ request.acquired →
        k ∈ recordedKeys s.batches ++ request.acquired := by
      intro k hk
      rw [List.mem_append, mem_recordedKeys]
      exact hk
    obtain hold | hnew := hkey
    · obtain hold' | hnew' := hkey'
      · exact h.separate key key' hold hold' he
      · exact (hsep.2 key' hnew' key (hmem key (Or.inl hold)) he.symm).symm
    · exact hsep.2 key hnew key' (hmem key' hkey') he
  · have hsame := importLoop_same lower request s
    change ∀ revoke ∈ (loop (grantSourceTable lower request) s request.rows).1.revokes, _
    rw [hsame.revokes]
    exact h.justified

/-! ### Offline -/

/-- The turn of a user makes nothing owned, and its REVOKE is justified. -/
theorem OwnInv.turn (h : OwnInv lower s) (hwf : WellFormed lower engine s) (hb : batch ∈ s.batches)
    (htable : table ∈ batch.tables) {user : GrantUser} (huser : user ∈ table.users) (hm : Underway s m)
    (hI : (∀ id, Owned m.leases id → Owned s.leases id) ∧ ∀ revoke ∈ m.revokes, revoke.Justified) :
    (∀ id, Owned (offlineUser lower batch table revokeRaises m user).1.leases id →
      Owned s.leases id) ∧
    ∀ revoke ∈ (offlineUser lower batch table revokeRaises m user).1.revokes, revoke.Justified := by
  obtain ⟨hleases, hlog⟩ := hI
  have hlinked := (hwf.sound batch hb).linked table htable user huser
  have hcase := offlineUser_linked batch table revokeRaises m hlinked
  have hsound : ∀ b ∈ m.batches, b.Sound lower engine := by
    rw [hm.batches]
    exact hwf.sound
  have hconnection := hm.home.getD lower (batch.keyOf table user) .active
  generalize offlineUser lower batch table revokeRaises m user = result at hcase
  -- the log entry of a REVOKE
  have hjustified : user.Live →
      activeReferences m (privilegeLeaseKey lower (batch.keyOf table user))
        ((m.leases (privilegeLeaseKey lower (batch.keyOf table user))).getD
          (newLease (batch.keyOf table user) .active)) batch.id = [] →
      ((m.leases (privilegeLeaseKey lower (batch.keyOf table user))).getD
        (newLease (batch.keyOf table user) .active)).SystemOwned →
      Revoke.Justified ⟨m.now, m.batches, batch.id, batch.keyOf table user,
        privilegeLeaseKey lower (batch.keyOf table user),
        (m.leases (privilegeLeaseKey lower (batch.keyOf table user))).getD
          (newLease (batch.keyOf table user) .active), m.lastGrant (batch.keyOf table user)⟩ := by
    intro hlive hnone hsystem
    refine ⟨?_, hsystem, fun href => ?_⟩
    · obtain ⟨key', hid, hlast, hkey'⟩ := h.owned _ (hleases _ (owned_of_getD hsystem))
      have hrecorded : Recorded s.batches (batch.keyOf table user) :=
        ⟨batch, hb, table, htable, user, huser, hlive.1, rfl⟩
      change m.lastGrant (batch.keyOf table user) = some true
      rw [hm.lastGrant, ← h.separate key' (batch.keyOf table user) hkey' hrecorded hid]
      exact hlast
    · exact (activeReferences_iff hsound _ hconnection batch.id).mpr href hnone
  cases hcase with
  | idle => exact ⟨hleases, hlog⟩
  | skipped =>
      refine ⟨fun id hid => ?_, hlog⟩
      obtain ⟨rfl, hsystem⟩ | ⟨-, hid⟩ := owned_update.mp hid
      · exact hleases _ (owned_of_getD hsystem)
      · exact hleases id hid
  | failed _ hlive hnone _ hsystem | revoked _ hlive hnone _ hsystem =>
      refine ⟨fun id hid => ?_, fun revoke hmem => ?_⟩
      · obtain ⟨rfl, hsystem'⟩ | ⟨-, hid⟩ := owned_update.mp hid
        · exact hleases _ (owned_of_getD hsystem)
        · exact hleases id hid
      · obtain hmem | hmem := List.mem_append.mp hmem
        · exact hlog revoke hmem
        · rw [List.mem_singleton.mp hmem]
          exact hjustified hlive hnone hsystem

/-- Offline changes no key and no grant state. -/
theorem offline_recorded (revokeRaises : PrivilegeKey → Bool) (hsound : batch.Sound lower engine)
    (hs : Underway s s) (key : PrivilegeKey) :
    Recorded [batch.offline s.now (loop (offlineTable lower batch revokeRaises) s batch.tables).2]
      key ↔ Recorded [batch] key := by
  obtain ⟨hto, hfrom⟩ := exists_of_forall₂ (offlineLoop_tables revokeRaises hsound hs)
  have hacquired : ∀ user user' : GrantUser, user'.grantState = user.grantState →
      (user'.Acquired ↔ user.Acquired) := by
    intro user user' h
    unfold GrantUser.Acquired
    rw [h]
  have hkey : ∀ (tables : List (GrantTable × Bool)) (t t' : GrantTable) (user user' : GrantUser),
      t'.sourceDatabase = t.sourceDatabase → t'.sourceTable = t.sourceTable →
      user'.dbUsername = user.dbUsername →
      (batch.offline s.now tables).keyOf t' user' = batch.keyOf t user := by
    intro tables t t' user user' hd ht hn
    unfold Batch.keyOf
    rw [hd, ht, hn]
    rfl
  unfold Recorded
  simp only [List.mem_singleton, exists_eq_left]
  constructor
  · rintro ⟨t', ht', user', huser', hacq, he⟩
    obtain ⟨result, hmem, rfl⟩ := List.mem_map.mp ht'
    obtain ⟨t, ht, hresult⟩ := hfrom result hmem
    obtain ⟨user, huser, _, hu⟩ := (exists_of_forall₂ hresult.users).2 user' huser'
    refine ⟨t, ht, user, huser, (hacquired _ _ hu.grantState).mp hacq, ?_⟩
    rw [← hkey _ t _ user user' hresult.database hresult.name hu.name]
    exact he
  · rintro ⟨t, ht, user, huser, hacq, he⟩
    obtain ⟨result, hmem, hresult⟩ := hto t ht
    obtain ⟨user', huser', _, hu⟩ := (exists_of_forall₂ hresult.users).1 user huser
    refine ⟨result.1, List.mem_map_of_mem hmem, user', huser', (hacquired _ _ hu.grantState).mpr hacq,
      ?_⟩
    rw [hkey _ t _ user user' hresult.database hresult.name hu.name]
    exact he

theorem recorded_iff (batches : List Batch) : Recorded batches key ↔ ∃ b ∈ batches, Recorded [b] key := by
  unfold Recorded
  simp only [List.mem_singleton, exists_eq_left]

/-- Replacing a batch by one with the same privileges. -/
theorem setBatch_recorded (hwf : WellFormed lower engine s) (hb : batch ∈ s.batches) {b' : Batch}
    (h : Recorded [b'] key ↔ Recorded [batch] key) (hid : b'.id = batch.id) :
    Recorded (s.setBatch b').batches key ↔ Recorded s.batches key := by
  rw [recorded_iff, recorded_iff s.batches]
  constructor
  · rintro ⟨b, hmem, hrec⟩
    obtain rfl | ⟨hold, -⟩ := mem_setBatch hmem
    · exact ⟨batch, hb, h.mp hrec⟩
    · exact ⟨b, hold, hrec⟩
  · rintro ⟨b, hmem, hrec⟩
    by_cases hsame : b.id = batch.id
    · obtain rfl : b = batch := List.inj_on_of_nodup_map hwf.ids hmem hb hsame
      exact ⟨b', mem_setBatch_self hmem hid.symm, h.mpr hrec⟩
    · exact ⟨b, mem_setBatch_of_ne hmem (hid ▸ hsame), hrec⟩

theorem OwnInv.offlineTables (h : OwnInv lower s) (hwf : WellFormed lower engine s)
    (hb : batch ∈ s.batches) : OwnInv lower (offlineTables lower revokeRaises s batch) := by
  have hsound := hwf.sound batch hb
  obtain ⟨hm, hleases, hlog⟩ := offlineLoop_invariant revokeRaises
    (I := fun m => (∀ id, Owned m.leases id → Owned s.leases id) ∧
      ∀ revoke ∈ m.revokes, revoke.Justified) hsound hwf.underway ⟨fun _ h => h, h.justified⟩
    (fun m table htable user huser hm hI => h.turn hwf hb htable huser hm hI)
  have hrecorded : ∀ key, Recorded (BatchAuthorization.offlineTables lower revokeRaises s
      batch).batches key ↔ Recorded s.batches key := by
    intro key
    have hset := setBatch_recorded (hwf.of_underway hm) (hm.batches ▸ hb)
      (offline_recorded revokeRaises hsound hwf.underway key) rfl
    rw [hm.batches] at hset
    exact hset
  refine ⟨?_, ?_, hlog⟩
  · intro id hid
    obtain ⟨key, hkey, hlast, hrec⟩ := h.owned id (hleases id hid)
    refine ⟨key, hkey, ?_, (hrecorded key).mpr hrec⟩
    change (loop (offlineTable lower batch revokeRaises) s batch.tables).1.lastGrant key = _
    rw [hm.lastGrant]
    exact hlast
  · intro key key' hkey hkey' he
    exact h.separate key key' ((hrecorded key).mp hkey) ((hrecorded key').mp hkey') he

theorem OwnInv.extend (h : OwnInv lower s) (hwf : WellFormed lower engine s) (hb : batch ∈ s.batches)
    (expiresAt : ℕ) : OwnInv lower (s.setBatch (batch.extended expiresAt)) := by
  obtain ⟨hid, hconnection, htables⟩ := extended_fields batch expiresAt
  have hrecorded : ∀ key, Recorded (s.setBatch (batch.extended expiresAt)).batches key ↔
      Recorded s.batches key := by
    intro key
    refine setBatch_recorded hwf hb ?_ hid
    unfold Recorded Batch.keyOf
    simp only [List.mem_singleton, exists_eq_left, hconnection, htables]
  refine ⟨?_, ?_, h.justified⟩
  · intro id' hid'
    obtain ⟨key, hkey, hlast, hrec⟩ := h.owned id' hid'
    exact ⟨key, hkey, hlast, (hrecorded key).mpr hrec⟩
  · intro key key' hkey hkey' he
    exact h.separate key key' ((hrecorded key).mp hkey) ((hrecorded key').mp hkey') he

theorem OwnInv.initial (h : s.Initial) : OwnInv lower s := by
  refine ⟨?_, ?_, ?_⟩
  · rintro id ⟨lease, hlease, -⟩
    rw [h.leases] at hlease
    cases hlease
  · rintro key key' ⟨b, hb, -⟩
    rw [h.batches] at hb
    cases hb
  · rw [h.revokes]
    exact fun _ hmem => by cases hmem

theorem OwnInv.step (h : OwnInv lower s) (hwf : WellFormed lower engine s) {a : Action} {s' : Store}
    (hshows : ShowsHeld s a) (hsep : Separate lower s a) (hs : step lower engine s a = some s') :
    OwnInv lower s' := by
  cases a with
  | importGrants request =>
      obtain ⟨⟨-, husers⟩, -, -, hrows, rfl⟩ := step_importGrants hs
      exact h.importTables hrows husers hshows hsep
  | offline batchId revokeRaises =>
      obtain ⟨batch, hmem, -, rfl⟩ := step_offline hs
      exact h.offlineTables hwf hmem
  | extend batchId expiresAt =>
      obtain ⟨batch, hmem, -, -, rfl⟩ := step_extend hs
      exact h.extend hwf hmem expiresAt
  | expire revokeRaises =>
      cases hs
      exact (offlineExpiredBatches_invariant (I := OwnInv lower) hwf h
        (fun m batch hb hm _ hI => hI.offlineTables hm hb)).2
  | grantOutside privilege | revokeOutside privilege | wait duration =>
      cases hs
      exact ⟨h.owned, h.separate, h.justified⟩

/-- In every history in which Doris lists what is held and the recorded privileges have leases of
their own, every REVOKE is justified. -/
theorem revokes_justified {s₀ : Store} {as : List Action} (h₀ : s₀.Initial)
    (h : Run (step lower engine) (fun s a => ShowsHeld s a ∧ Separate lower s a) s₀ as s) :
    ∀ revoke ∈ s.revokes, revoke.Justified := by
  have hinv := h.invariant (I := fun s => WellFormed lower engine s ∧ OwnInv lower s)
    ⟨WellFormed.initial h₀, OwnInv.initial h₀⟩
    (fun s a s' hok hs hI => ⟨hI.1.step hs, hI.2.step hI.1 hok.1 hok.2 hs⟩)
  exact hinv.2.justified

/-! ### Two users whose names differ in case -/

/-- Doris shows no privilege and grants what it is asked for. -/
def nothingShown : PrivilegeKey → Reply := fun _ => { rows := some [], grantRaises := false }

/-- Doris shows the orders. -/
def ordersShown : PrivilegeKey → Reply :=
  fun _ => { rows := some [["internal.sales.orders: Select_priv"]], grantRaises := false }

/-- The service grants the orders to `Bob`, an administrator grants them to `bob`, and a batch for
`bob` shares the lease: when both batches are offline, it revokes what it has not granted. -/
theorem shared_lease_unjustified : ∃ s, Run (step lowerAscii oneDoris) ShowsHeld emptyStore
        [.importGrants (salesImport 1 ["Bob"] ["orders"] nothingShown),
          .grantOutside (PrivilegeKey.privilege ⟨1, "bob", "sales", "orders"⟩),
          .importGrants (salesImport 2 ["bob"] ["orders"] ordersShown),
          .offline 1 noneRaises, .offline 2 noneRaises] s ∧
      ¬ ∀ revoke ∈ s.revokes, revoke.Justified :=
  exists_run (by decide +kernel)

/-- Two batches for the same user: the privilege is revoked with the second. -/
theorem same_user_justified :
    ∃ s, Run (step lowerAscii oneDoris) (fun s a => ShowsHeld s a ∧ Separate lowerAscii s a)
        emptyStore
        [.importGrants (salesImport 1 ["bob"] ["orders"] nothingShown),
          .importGrants (salesImport 2 ["bob"] ["orders"] ordersShown),
          .offline 1 noneRaises, .offline 2 noneRaises] s ∧
      s.revokes ≠ [] ∧ ∀ revoke ∈ s.revokes, revoke.Justified := by
  obtain ⟨s, hrun, hrevokes⟩ : ∃ s, Run (step lowerAscii oneDoris)
      (fun s a => ShowsHeld s a ∧ Separate lowerAscii s a) emptyStore
      [.importGrants (salesImport 1 ["bob"] ["orders"] nothingShown),
        .importGrants (salesImport 2 ["bob"] ["orders"] ordersShown),
        .offline 1 noneRaises, .offline 2 noneRaises] s ∧ s.revokes ≠ [] :=
    exists_run (by decide +kernel)
  exact ⟨s, hrun, hrevokes, revokes_justified emptyStore_initial hrun⟩

end RecoveryService.BatchAuthorization
