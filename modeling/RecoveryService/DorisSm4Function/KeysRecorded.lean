import RecoveryService.DorisSm4Function.DatabaseRefresh

/-! # The keys of the installed functions are recorded

A new key is registered behind the loop over the databases, and only if one of them reported success; a
function whose verification failed stays installed all the same.  A refresh leaves only recorded keys in
its databases if and only if that does not happen and the functions it did not drop had recorded keys
(`refresh_records_iff`).  The rows of the deployments always say what was verified. -/

namespace RecoveryService.DorisSm4Function

open Checks Loops

section

variable {crypto : Crypto} {env : RefreshEnv} {r : RefreshRequest} {plan : RefreshPlan} {w : RefreshWorld}

/-! ### The databases of a run -/

theorem cleanIdentifier_eq {value label clean : String} (h : cleanIdentifier crypto value label = .ok clean) :
    clean = Text.strip value := by
  unfold cleanIdentifier at h
  obtain ⟨_, -, h⟩ := bind_eq_ok.mp h
  obtain ⟨_, -, h⟩ := bind_eq_ok.mp h
  exact (Except.ok.inj h).symm

theorem cleaned_eq {names cleaned : List String} {label : String}
    (h : names.mapM (fun item => cleanIdentifier crypto item label) = .ok cleaned) :
    cleaned = names.map Text.strip := map_of_mapM (fun _ _ hclean => cleanIdentifier_eq hclean) h

theorem listed_nodup (listing : Listing) : (listed crypto r listing).Nodup :=
  listing.nodup.filter _

/-- The databases that are locked are different ones, without blanks around them. -/
theorem selectDatabases_clean {databases : List String} (h : selectDatabases crypto env r = .ok databases) :
    databases.Nodup ∧ ∀ name ∈ databases, Text.strip name = name := by
  unfold selectDatabases at h
  obtain ⟨selected, hselected, h⟩ := bind_eq_ok.mp h
  split at h
  · obtain rfl := Except.ok.inj h
    refine ⟨Dict.nodup_fromKeys _, fun name hname => ?_⟩
    rw [Dict.mem_fromKeys, cleaned_eq hselected] at hname
    obtain ⟨item, -, rfl⟩ := List.mem_map.mp hname
    exact Text.strip_strip item
  · obtain ⟨listing, -, h⟩ := bind_eq_ok.mp h
    obtain rfl := Except.ok.inj h
    refine ⟨Dict.nodup_fromKeys _, fun name hname => ?_⟩
    rw [Dict.mem_fromKeys] at hname
    exact listing.trimmed name (List.mem_filter.mp hname).1

theorem targetDatabases_nodup {databases targets : List String} (hnodup : databases.Nodup)
    (hclean : ∀ name ∈ databases, Text.strip name = name)
    (h : targetDatabases crypto env r databases = .ok targets) : targets.Nodup := by
  unfold targetDatabases at h
  obtain ⟨selected, hselected, h⟩ := bind_eq_ok.mp h
  obtain ⟨_, -, h⟩ := bind_eq_ok.mp h
  split at h
  · obtain rfl := Except.ok.inj h
    rw [cleaned_eq hselected, List.map_congr_left fun name hname =>
      hclean name (List.mem_filter.mp hname).1, List.map_id']
    exact hnodup.filter _
  · obtain ⟨listing, -, h⟩ := bind_eq_ok.mp h
    obtain rfl := Except.ok.inj h
    exact listed_nodup listing

theorem refreshPlan_nodup (h : refreshPlan crypto env r w = .ok plan) : plan.targets.Nodup := by
  unfold refreshPlan at h
  obtain ⟨databases, hdatabases, h⟩ := bind_eq_ok.mp h
  obtain ⟨_, -, h⟩ := bind_eq_ok.mp h
  obtain ⟨names, -, h⟩ := bind_eq_ok.mp h
  obtain ⟨key, -, h⟩ := bind_eq_ok.mp h
  obtain ⟨jar, -, h⟩ := bind_eq_ok.mp h
  obtain ⟨capabilities, -, h⟩ := bind_eq_ok.mp h
  obtain ⟨_, -, h⟩ := bind_eq_ok.mp h
  obtain ⟨targets, htargets, h⟩ := bind_eq_ok.mp h
  obtain rfl := Except.ok.inj h
  obtain ⟨hnodup, hclean⟩ := selectDatabases_clean hdatabases
  exact targetDatabases_nodup hnodup hclean htargets

/-! ### The loop -/

variable (env r plan w)

/-- The functions of the database `x` are asked for and verified. -/
def PlaceSucceeds (x : String × ℕ) : Prop :=
  Succeeds env.argType (env.database x.2) (plan.names r w.deployments x.1) plan.jar
    (capabilityOf plan.capabilities x.1).1 (capabilityOf plan.capabilities x.1).2

/-- The encrypt function of the database `x` is created. -/
def PlaceCreates (x : String × ℕ) : Prop :=
  Creates env.argType (env.database x.2) (plan.names r w.deployments x.1)
    (capabilityOf plan.capabilities x.1).1

/-- A function of the database `x` is not dropped. -/
def PlaceStays (x : String × ℕ) (key : FunctionKey) : Prop :=
  Stays env.argType (env.database x.2) (plan.names r w.deployments x.1) key

/-- The loop over the databases. -/
def refreshLoop : Functions × List DatabaseResult :=
  loop (refreshDatabase env r plan w.deployments) w.functions plan.targets.zipIdx

variable {env r plan w}

theorem refreshDatabase_outcome (c : Functions) (x : String × ℕ) :
    Outcome env.argType (env.database x.2) (plan.names r w.deployments x.1) plan.jar
      (capabilityOf plan.capabilities x.1).1 c (refreshDatabase env r plan w.deployments c x).1 :=
  refreshFunctionInDatabase_outcome c

/-- The databases that are done have their outcome, the others are as they were. -/
structure Progress (env : RefreshEnv) (r : RefreshRequest) (plan : RefreshPlan) (w : RefreshWorld)
    (done : List (String × ℕ)) (c : Functions) : Prop where
  waiting : ∀ key : FunctionKey, (∀ x ∈ done, x.1 ≠ key.1) → c key = w.functions key
  left : ∀ x ∈ done, ∀ key b, key.1 = x.1 → c key = some b → b.encrypts = true →
    w.functions key = some b ∧ PlaceStays env r plan w x key ∨
      PlaceCreates env r plan w x ∧ b.seed = plan.jar.keySeed
  stays : ∀ x ∈ done, ∀ key b, key.1 = x.1 → w.functions key = some b →
    PlaceStays env r plan w x key → c key = some b
  creates : ∀ x ∈ done, PlaceCreates env r plan w x →
    ∃ key : FunctionKey, key.1 = x.1 ∧ c key = some ⟨true, plan.jar.keySeed⟩

/-- A turn for a database that is not done yet. -/
theorem Progress.step {done : List (String × ℕ)} {c : Functions} {x : String × ℕ}
    (h : Progress env r plan w done c) (hnew : ∀ y ∈ done, y.1 ≠ x.1) :
    Progress env r plan w (done ++ [x]) (refreshDatabase env r plan w.deployments c x).1 := by
  have hout : Outcome env.argType (env.database x.2) (plan.names r w.deployments x.1) plan.jar
      (capabilityOf plan.capabilities x.1).1 c (refreshDatabase env r plan w.deployments c x).1 :=
    refreshDatabase_outcome c x
  have hothers : ∀ key : FunctionKey, key.1 ≠ x.1 →
      (refreshDatabase env r plan w.deployments c x).1 key = c key := hout.others
  have hbefore : ∀ key : FunctionKey, key.1 = x.1 → c key = w.functions key := fun key hkey =>
    h.waiting key fun y hy => hkey ▸ hnew y hy
  constructor
  · intro key hkey
    have hx : key.1 ≠ x.1 := (hkey x (by simp)).symm
    rw [hothers key hx]
    exact h.waiting key fun y hy => hkey y (List.mem_append_left _ hy)
  · intro y hy key b hkey hb hencrypts
    rcases List.mem_append.mp hy with hy | hy
    · rw [hothers key (hkey ▸ hnew y hy)] at hb
      exact h.left y hy key b hkey hb hencrypts
    · obtain rfl := List.mem_singleton.mp hy
      rcases hout.left key b hkey hb hencrypts with ⟨hold, hstays⟩ | hcreated
      · exact Or.inl ⟨hbefore key hkey ▸ hold, hstays⟩
      · exact Or.inr hcreated
  · intro y hy key b hkey hb hstays
    rcases List.mem_append.mp hy with hy | hy
    · rw [hothers key (hkey ▸ hnew y hy)]
      exact h.stays y hy key b hkey hb hstays
    · obtain rfl := List.mem_singleton.mp hy
      exact hout.stays key b ((hbefore key hkey).trans hb) hstays
  · intro y hy hcreates
    rcases List.mem_append.mp hy with hy | hy
    · obtain ⟨key, hkey, hc⟩ := h.creates y hy hcreates
      exact ⟨key, hkey, (hothers key (hkey ▸ hnew y hy)).trans hc⟩
    · obtain rfl := List.mem_singleton.mp hy
      exact hout.creates hcreates

theorem refreshLoop_progress (hnodup : plan.targets.Nodup) :
    Progress env r plan w plan.targets.zipIdx (refreshLoop env r plan w).1 := by
  refine loop_progress ⟨fun _ _ => rfl, by simp, by simp, by simp⟩ fun m done x rest hsplit h => h.step ?_
  intro y hy heq
  have hnames := congrArg (List.map Prod.fst) hsplit
  rw [List.zipIdx_map_fst, List.map_append, List.map_cons] at hnames
  rw [hnames] at hnodup
  have hdisjoint := (List.nodup_append.mp hnodup).2.2
  exact hdisjoint y.1 (List.mem_map_of_mem hy) x.1 List.mem_cons_self heq

theorem refreshLoop_results : List.Forall₂ (fun x (result : DatabaseResult) => result.database = x.1 ∧
    result.encryptEnabled = (capabilityOf plan.capabilities x.1).1 ∧
    result.decryptEnabled = (capabilityOf plan.capabilities x.1).2 ∧
    (result.state = .success ↔ PlaceSucceeds env r plan w x))
    plan.targets.zipIdx (refreshLoop env r plan w).2 :=
  loop_results fun _ _ _ => ⟨refreshFunctionInDatabase_database, rfl, rfl,
    refreshFunctionInDatabase_success⟩

/-! ### The key versions -/

/-- A database of the run reports success. -/
def SomeSuccess (env : RefreshEnv) (r : RefreshRequest) (plan : RefreshPlan) (w : RefreshWorld) : Prop :=
  ∃ x ∈ plan.targets.zipIdx, PlaceSucceeds env r plan w x

/-- There is an active version with the fingerprint of the key already. -/
def FingerprintTaken (r : RefreshRequest) (plan : RefreshPlan) (w : RefreshWorld) : Prop :=
  ∃ v ∈ w.versions, v.keyFingerprint = plan.jar.keyFingerprint ∧
    v.connectionId = some r.connectionId ∧ v.active = true

/-- The seed is in a version behind the run: it was before, or it is the new key, which is registered. -/
def Stored (env : RefreshEnv) (r : RefreshRequest) (plan : RefreshPlan) (w : RefreshWorld) (seed : String) :
    Prop :=
  (∃ v ∈ w.versions, v.keySeed = seed) ∨
    seed = plan.jar.keySeed ∧ r.keyMode ≠ "existing" ∧ SomeSuccess env r plan w ∧
      ¬ FingerprintTaken r plan w

theorem successCount_pos : 0 < ((refreshLoop env r plan w).2.filter fun item => item.state = .success).length ↔
      SomeSuccess env r plan w := by
  obtain ⟨hto, hfrom⟩ := exists_of_forall₂ (refreshLoop_results (r := r) (w := w))
  rw [List.length_pos_iff_exists_mem]
  constructor
  · rintro ⟨result, hresult⟩
    obtain ⟨hmem, hstate⟩ := List.mem_filter.mp hresult
    obtain ⟨x, hx, -, -, -, hiff⟩ := hfrom result hmem
    exact ⟨x, hx, hiff.mp (of_decide_eq_true hstate)⟩
  · rintro ⟨x, hx, hsucceeds⟩
    obtain ⟨result, hmem, -, -, -, hiff⟩ := hto x hx
    exact ⟨result, List.mem_filter.mpr ⟨hmem, decide_eq_true (hiff.mpr hsucceeds)⟩⟩

theorem registerKeyVersion_seeds {functionName decryptName : String} (seed : String) :
    (∃ v ∈ (registerKeyVersion env r plan.jar functionName decryptName w.versions).2, v.keySeed = seed) ↔
      (∃ v ∈ w.versions, v.keySeed = seed) ∨ seed = plan.jar.keySeed ∧ ¬ FingerprintTaken r plan w := by
  unfold registerKeyVersion
  cases hfind : w.versions.find? fun v => v.keyFingerprint = plan.jar.keyFingerprint ∧
      v.connectionId = some r.connectionId ∧ v.active with
  | some existing =>
      have htaken : FingerprintTaken r plan w := by
        have hmatches := List.find?_some hfind
        exact ⟨existing, List.mem_of_find?_eq_some hfind, by simpa using hmatches⟩
      simp only [htaken, not_true_eq_false, and_false, or_false, List.mem_map, exists_exists_and_eq_and]
      refine exists_congr fun v => and_congr_right fun _ => ?_
      by_cases hid : v.id = existing.id
      · rw [if_pos hid]
      · rw [if_neg hid]
  | none =>
      have hfree : ¬ FingerprintTaken r plan w := by
        rintro ⟨v, hv, hmatches⟩
        exact List.find?_eq_none.mp hfind v hv (by simpa using hmatches)
      simp [hfree, or_and_right, exists_or, eq_comm]

/-- The seeds in the versions behind the run. -/
theorem stored_iff (seed : String) :
    (∃ v ∈ (refreshAll env r plan w).1.versions, v.keySeed = seed) ↔ Stored env r plan w seed := by
  have hversions : (refreshAll env r plan w).1.versions =
      if 0 < ((refreshLoop env r plan w).2.filter fun item => item.state = .success).length ∧
        r.keyMode ≠ "existing" then
        (registerKeyVersion env r plan.jar plan.functionName plan.decryptName w.versions).2
      else w.versions := by
    unfold refreshAll refreshLoop
    simp only
    split <;> rfl
  rw [hversions]
  unfold Stored
  by_cases hsuccess : SomeSuccess env r plan w
  · by_cases hmode : r.keyMode ≠ "existing"
    · rw [if_pos ⟨successCount_pos.mpr hsuccess, hmode⟩, registerKeyVersion_seeds]
      simp [hsuccess, hmode]
    · rw [if_neg (fun h => hmode h.2)]
      simp [hmode]
  · rw [if_neg (fun h => hsuccess (successCount_pos.mp h.1))]
    simp [hsuccess]

/-! ### The deployments -/

theorem mem_record {rows : List Deployment} {row new : Deployment} (h : row ∈ record rows new) :
    row = new ∨ row ∈ rows ∧ row.key ≠ new.key := by
  unfold record at h
  split at h
  · obtain ⟨old, hold, heq⟩ := List.mem_map.mp h
    split at heq
    · exact Or.inl heq.symm
    · next hkey =>
        obtain rfl := heq
        exact Or.inr ⟨hold, hkey⟩
  · next hany =>
      rcases List.mem_append.mp h with h | h
      · refine Or.inr ⟨h, fun hkey => hany ?_⟩
        exact List.any_eq_true.mpr ⟨row, h, decide_eq_true hkey⟩
      · exact Or.inl (List.mem_singleton.mp h)

/-- A row behind the writes is one of them, or an old one that none of them has the key of. -/
theorem mem_foldl_record {rows news : List Deployment} {row : Deployment} (h : row ∈ news.foldl record rows) :
    row ∈ news ∨ row ∈ rows ∧ ∀ new ∈ news, row.key ≠ new.key := by
  induction news generalizing rows with
  | nil => exact Or.inr ⟨h, by simp⟩
  | cons new news ih =>
      rcases ih h with hnew | ⟨hold, hkeys⟩
      · exact Or.inl (List.mem_cons_of_mem _ hnew)
      · rcases mem_record hold with rfl | ⟨hrow, hkey⟩
        · exact Or.inl List.mem_cons_self
        · exact Or.inr ⟨hrow, List.forall_mem_cons.mpr ⟨hkey, hkeys⟩⟩

/-- The row of a database of the run says success only where exactly what was asked for was verified. -/
def RowsTruthful (env : RefreshEnv) (r : RefreshRequest) (plan : RefreshPlan) (w : RefreshWorld)
    (w' : RefreshWorld) : Prop :=
  ∀ row ∈ w'.deployments, row.connectionId = r.connectionId → row.functionName = plan.functionName →
    row.database ∈ plan.targets → ∃ x ∈ plan.targets.zipIdx, x.1 = row.database ∧
      row.encryptEnabled = (capabilityOf plan.capabilities x.1).1 ∧
      row.decryptEnabled = (capabilityOf plan.capabilities x.1).2 ∧
      (row.state = .success → PlaceSucceeds env r plan w x)

theorem rowsTruthful : RowsTruthful env r plan w (refreshAll env r plan w).1 := by
  intro row hrow hconnection hfunction hdatabase
  obtain ⟨hto, hfrom⟩ := exists_of_forall₂ (refreshLoop_results (r := r) (w := w))
  rcases mem_foldl_record hrow with hnew | ⟨-, hkeys⟩
  · obtain ⟨result, hresult, rfl⟩ := List.mem_map.mp hnew
    obtain ⟨x, hx, hname, henc, hdec, hiff⟩ := hfrom result hresult
    exact ⟨x, hx, hname.symm, henc, hdec, hiff.mp⟩
  · obtain ⟨x, hx, hname⟩ : ∃ x ∈ plan.targets.zipIdx, x.1 = row.database := by
      rw [← List.zipIdx_map_fst 0 plan.targets] at hdatabase
      obtain ⟨x, hx, hname⟩ := List.mem_map.mp hdatabase
      exact ⟨x, hx, hname⟩
    obtain ⟨result, hresult, hdb, -⟩ := hto x hx
    refine absurd ?_ (hkeys _ (List.mem_map_of_mem hresult))
    simp [Deployment.key, deploymentOf, hconnection, hfunction, hdb, hname]

/-! ### When the keys are recorded -/

/-- Every encrypt function in a database of the run has a key that is in a version. -/
def KeysRecorded (plan : RefreshPlan) (w' : RefreshWorld) : Prop :=
  ∀ (key : FunctionKey) b, key.1 ∈ plan.targets → w'.functions key = some b → b.encrypts = true →
    ∃ v ∈ w'.versions, v.keySeed = b.seed

/-- The functions that are not dropped have stored keys; and so has the run, where it creates an encrypt
function. -/
structure KeysKept (env : RefreshEnv) (r : RefreshRequest) (plan : RefreshPlan) (w : RefreshWorld) : Prop where
  old : ∀ x ∈ plan.targets.zipIdx, ∀ (key : FunctionKey) b, key.1 = x.1 → w.functions key = some b →
    b.encrypts = true → PlaceStays env r plan w x key → Stored env r plan w b.seed
  new : ∀ x ∈ plan.targets.zipIdx, PlaceCreates env r plan w x →
    Stored env r plan w plan.jar.keySeed

theorem keysRecorded_iff (hnodup : plan.targets.Nodup) :
    KeysRecorded plan (refreshAll env r plan w).1 ↔ KeysKept env r plan w := by
  have hprogress : Progress env r plan w plan.targets.zipIdx (refreshLoop env r plan w).1 :=
    refreshLoop_progress hnodup
  have hfunctions : (refreshAll env r plan w).1.functions = (refreshLoop env r plan w).1 := rfl
  unfold KeysRecorded
  simp only [stored_iff, hfunctions]
  constructor
  · intro h
    constructor
    · intro x hx key b hkey hb hencrypts hstays
      exact h key b (hkey ▸ List.fst_mem_of_mem_zipIdx hx) (hprogress.stays x hx key b hkey hb hstays)
        hencrypts
    · intro x hx hcreates
      obtain ⟨key, hkey, hb⟩ := hprogress.creates x hx hcreates
      exact h key _ (hkey ▸ List.fst_mem_of_mem_zipIdx hx) hb rfl
  · intro h key b hmem hb hencrypts
    rw [← List.zipIdx_map_fst 0 plan.targets] at hmem
    obtain ⟨x, hx, hname⟩ := List.mem_map.mp hmem
    rcases hprogress.left x hx key b hname.symm hb hencrypts with ⟨hold, hstays⟩ | ⟨hcreates, hseed⟩
    · exact h.old x hx key b hname.symm hold hencrypts hstays
    · rw [hseed]
      exact h.new x hx hcreates

/-- Behind a refresh the keys of the encrypt functions in its databases are recorded and the rows of the
deployments are true, if and only if the functions it did not drop have stored keys and a key it created
an encrypt function with is stored before or registered. -/
theorem refresh_records_iff (crypto : Crypto) (env : RefreshEnv) (r : RefreshRequest) (w : RefreshWorld) :
    (∀ plan w' response, refreshPlan crypto env r w = .ok plan →
      refreshSm4Functions crypto env r w = .ok (w', response) →
        KeysRecorded plan w' ∧ RowsTruthful env r plan w w') ↔
      ∀ plan, refreshPlan crypto env r w = .ok plan → KeysKept env r plan w := by
  have hrun : ∀ plan, refreshPlan crypto env r w = .ok plan →
      refreshSm4Functions crypto env r w = .ok (refreshAll env r plan w) := by
    intro plan hplan
    unfold refreshSm4Functions
    rw [hplan]
    rfl
  constructor
  · intro h plan hplan
    exact (keysRecorded_iff (refreshPlan_nodup hplan)).mp (h plan _ _ hplan (hrun plan hplan)).1
  · intro h plan w' response hplan hout
    rw [hrun plan hplan] at hout
    obtain ⟨rfl, -⟩ := Prod.mk.inj (Except.ok.inj hout)
    exact ⟨(keysRecorded_iff (refreshPlan_nodup hplan)).mpr (h plan hplan), rowsTruthful⟩

/-- The verification of the only database answers with something else, and nothing is registered. -/
theorem failed_verification_leaves_key :
    ∃ (crypto : Crypto) (env : RefreshEnv) (r : RefreshRequest) (w' : RefreshWorld)
      (response : RefreshResponse),
      refreshSm4Functions crypto env r ⟨fun _ => none, [], []⟩ = .ok (w', response) ∧
      w'.functions ("ods", "CQ_SM4_ENCRYPT", "STRING") = some ⟨true, "seed"⟩ ∧ w'.versions = [] := by
  refine ⟨⟨fun _ => "1", fun _ _ => "cipher", fun _ => true, id⟩,
    { token := "seed", now := 0, newId := 1, argType := id, listDatabases := .error "",
      relistDatabases := .error "", database := fun _ => { verify := .ok "", decryptVerify := .ok "" } },
    ⟨1, none, "random", none, "CQ_SM4_ENCRYPT", none, false, ["ods"], []⟩, _, _, rfl, ?_, ?_⟩
  · decide
  · decide

end

end RecoveryService.DorisSm4Function
