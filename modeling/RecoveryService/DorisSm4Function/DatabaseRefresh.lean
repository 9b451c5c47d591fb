import RecoveryService.DorisSm4Function.Refresh

/-! # The functions of one database

What `_refresh_function_in_database` leaves in its database: of the functions before it those that no
`DROP FUNCTION` was carried out for (`Stays`), and an encrypt function of the new key as soon as its first
statement was carried out (`Creates`), whatever is reported.  It reports success exactly when everything
that was asked for was created and verified (`Succeeds`). -/

namespace RecoveryService.DorisSm4Function

open Checks Program Tables

section

variable {argType : String → String} {d : DatabaseEnv} {n : FunctionNames} {jar : BuiltSm4Jar}
  {enc dec : Bool} {c c' m : Functions} {keys : List FunctionKey} {key : FunctionKey} {b : FunctionBody}

/-! ### The `DROP FUNCTION` statements -/

/-- The `k`-th statement from `i` on is carried out. -/
def DropCarriedOut (d : DatabaseEnv) (i k : ℕ) : Prop :=
  (∀ j < k, d.drop (i + j) = .done) ∧ ∀ e, d.drop (i + k) ≠ .refused e

/-- What a list of drops leaves. -/
structure Dropped (d : DatabaseEnv) (keys : List FunctionKey) (i : ℕ) (c c' : Functions)
    (x : Except String Unit) : Prop where
  ends : x = .ok () ↔ ∀ k < keys.length, d.drop (i + k) = .done
  gone : ∀ key k, keys[k]? = some key → DropCarriedOut d i k → c' key = none
  kept : ∀ key, (∀ k, keys[k]? = some key → ¬ DropCarriedOut d i k) → c' key = c key

theorem dropCarriedOut_succ {i k : ℕ} (h : d.drop i = .done) :
    DropCarriedOut d i (k + 1) ↔ DropCarriedOut d (i + 1) k := by
  have hshift : ∀ j, i + 1 + j = i + (j + 1) := fun j => by omega
  unfold DropCarriedOut
  constructor
  · rintro ⟨hdone, hlast⟩
    refine ⟨fun j hj => ?_, ?_⟩
    · rw [hshift]
      exact hdone (j + 1) (by omega)
    · rw [hshift]
      exact hlast
  · rintro ⟨hdone, hlast⟩
    refine ⟨fun j hj => ?_, ?_⟩
    · cases j with
      | zero => exact h
      | succ j =>
          rw [← hshift]
          exact hdone j (by omega)
    · rw [← hshift]
      exact hlast

theorem dropLoop_ends (keys : List FunctionKey) (i : ℕ) (c : Functions) :
    ∃ x c', ((keys.zipIdx i).forM fun x =>
      statement (d.drop x.2) fun c => some (Function.update c x.1 none)) c = (x, c') ∧
        Dropped d keys i c c' x := by
  induction keys generalizing i c with
  | nil => exact ⟨.ok (), c, rfl, by simp, by simp, fun _ _ => rfl⟩
  | cons first keys ih =>
      have hcons : (((first :: keys).zipIdx i).forM fun x =>
          statement (d.drop x.2) fun c => some (Function.update c x.1 none)) =
        (statement (d.drop i) (fun c => some (Function.update c first none)) >>= fun _ =>
          (keys.zipIdx (i + 1)).forM fun x =>
            statement (d.drop x.2) fun c => some (Function.update c x.1 none)) := rfl
      rw [hcons, bind_apply]
      cases hreply : d.drop i with
      | refused e =>
          have hnot : ∀ k, ¬ DropCarriedOut d i k := by
            rintro k ⟨hdone, hlast⟩
            cases k with
            | zero => exact hlast e hreply
            | succ k => exact absurd ((hdone 0 (by omega)).symm.trans hreply) nofun
          refine ⟨.error e, c, rfl, ⟨nofun, fun h => ?_⟩, fun _ k _ hk => absurd hk (hnot k),
            fun _ _ => rfl⟩
          exact absurd ((h 0 (by simp)).symm.trans hreply) nofun
      | lost e =>
          have hfirst : DropCarriedOut d i 0 :=
            ⟨fun j hj => absurd hj (by omega), fun e' he => by simp [hreply] at he⟩
          refine ⟨.error e, Function.update c first none, rfl, ⟨nofun, fun h => ?_⟩, ?_, ?_⟩
          · exact absurd ((h 0 (by simp)).symm.trans hreply) nofun
          · intro key k hkey hk
            cases k with
            | zero =>
                obtain rfl : first = key := by simpa using hkey
                exact Function.update_self _ _ _
            | succ k => exact absurd ((hk.1 0 (by omega)).symm.trans hreply) nofun
          · intro key hkey
            refine Function.update_of_ne ?_ _ _
            rintro rfl
            exact hkey 0 rfl hfirst
      | done =>
          obtain ⟨x, c', hrest, hdropped⟩ := ih (i + 1) (Function.update c first none)
          refine ⟨x, c', hrest, ?_, ?_, ?_⟩
          · rw [hdropped.ends]
            constructor
            · intro h k hk
              cases k with
              | zero => exact hreply
              | succ k =>
                  rw [show i + (k + 1) = i + 1 + k by omega]
                  exact h k (by simpa using hk)
            · intro h k hk
              rw [show i + 1 + k = i + (k + 1) by omega]
              exact h (k + 1) (by simpa using hk)
          · intro key k hkey hk
            cases k with
            | succ k => exact hdropped.gone key k hkey ((dropCarriedOut_succ hreply).mp hk)
            | zero =>
                obtain rfl : first = key := by simpa using hkey
                by_cases hagain : ∃ k, keys[k]? = some first ∧ DropCarriedOut d (i + 1) k
                · obtain ⟨k, hk, hcarried⟩ := hagain
                  exact hdropped.gone first k hk hcarried
                · rw [hdropped.kept first fun k hk hcarried => hagain ⟨k, hk, hcarried⟩]
                  exact Function.update_self _ _ _
          · intro key hkey
            have hfirst : DropCarriedOut d i 0 :=
              ⟨fun j hj => absurd hj (by omega), fun e he => by simp [hreply] at he⟩
            have hne : key ≠ first := by
              rintro rfl
              exact hkey 0 rfl hfirst
            rw [hdropped.kept key fun k hk hcarried =>
              hkey (k + 1) hk ((dropCarriedOut_succ hreply).mpr hcarried)]
            exact Function.update_of_ne hne _ _

/-- Every drop is answered. -/
def DropsDone (argType : String → String) (d : DatabaseEnv) (n : FunctionNames) : Prop :=
  d.use = none ∧ ∀ k < (n.dropKeys argType).length, d.drop k = .done

/-- No drop is carried out for the key. -/
def Stays (argType : String → String) (d : DatabaseEnv) (n : FunctionNames) (key : FunctionKey) : Prop :=
  ∀ k, (n.dropKeys argType)[k]? = some key → d.use = none → ¬ DropCarriedOut d 0 k

/-! ### The functions that are created -/

/-- Nothing goes, and what comes is in the database and encrypts only with the new key, and only where
`P` holds. -/
structure Grown (P : Prop) (n : FunctionNames) (jar : BuiltSm4Jar) (m c : Functions) : Prop where
  kept : ∀ key b, m key = some b → c key = some b
  fresh : ∀ key b, c key = some b →
    m key = some b ∨ key.1 = n.database ∧ (b.encrypts = true → P ∧ b.seed = jar.keySeed)

variable {P : Prop}

theorem Grown.refl : Grown P n jar m m := ⟨fun _ _ h => h, fun _ _ h => Or.inl h⟩

variable {name : String}

theorem Grown.create {type : String} (h : Grown P n jar m c)
    (hbody : b.encrypts = true → P ∧ b.seed = jar.keySeed)
    (hc : Tables.create c (n.key argType name type) b = some c') : Grown P n jar m c' := by
  unfold Tables.create at hc
  split at hc
  · next hfree =>
      obtain rfl := Option.some.inj hc
      constructor
      · intro key body hkey
        have hthere := h.kept key body hkey
        have hne : key ≠ n.key argType name type := by
          rintro rfl
          exact absurd (hfree.symm.trans hthere) nofun
        rwa [Function.update_of_ne hne]
      · intro key body hkey
        by_cases hne : key = n.key argType name type
        · subst hne
          rw [Function.update_self] at hkey
          obtain rfl := Option.some.inj hkey
          exact Or.inr ⟨rfl, hbody⟩
        · rw [Function.update_of_ne hne] at hkey
          exact h.fresh key body hkey
  · cases hc

variable {impl : String}

theorem Grown.createAlias (h : Grown P n jar m c) (himpl : m (n.key argType impl "STRING") = none)
    (hc : createAlias argType n name impl c = some c') : Grown P n jar m c' := by
  obtain ⟨body, hbody, hc⟩ := Option.bind_eq_some_iff.mp hc
  refine h.create (fun hencrypts => ?_) hc
  rcases h.fresh _ _ hbody with hold | ⟨-, hnew⟩
  · exact absurd (himpl.symm.trans hold) nofun
  · exact hnew hencrypts

variable {reply : Reply String}

theorem keeps_statement {I : Functions → Prop} {effect : Functions → Option Functions}
    (h : (∀ e, reply ≠ .refused e) → ∀ c c', I c → effect c = some c' → I c') :
    Keeps I (statement reply effect) := keeps_submit _ _ h

theorem installEncrypt_grown (hP : (∀ e, d.createImpl ≠ .refused e) → P)
    (himpl : m (n.key argType n.encryptImpl "STRING") = none) :
    Keeps (Grown P n jar m) (installEncrypt argType d n jar) := by
  unfold installEncrypt
  refine keeps_bind (keeps_statement fun hreply c c' hc he => ?_) fun _ =>
    keeps_bind (keeps_statement fun _ c c' hc he => ?_) fun _ =>
      keeps_bind (keeps_lift _) fun _ => keeps_pure _
  · exact hc.create (fun _ => ⟨hP hreply, rfl⟩) he
  · exact hc.createAlias himpl he

theorem installDecrypt_grown (himpl : m (n.key argType n.decryptImpl "STRING") = none) :
    Keeps (Grown P n jar m) (installDecrypt argType d n jar) := by
  unfold installDecrypt
  refine keeps_bind (keeps_statement fun hreply c c' hc he => ?_) fun _ =>
    keeps_bind (keeps_statement fun _ c c' hc he => ?_) fun _ => keeps_lift _
  · exact hc.create (fun h => by cases h) he
  · exact hc.createAlias himpl he

theorem applyDecrypt_grown (himpl : m (n.key argType n.decryptImpl "STRING") = none)
    (actual : Option String) :
    Keeps (Grown P n jar m) (applyDecrypt argType d n jar enc dec actual) := by
  unfold applyDecrypt
  refine keeps_ite (keeps_bind (installDecrypt_grown himpl) fun _ => ?_) (keeps_pure _)
  exact keeps_ite (keeps_pure _) (keeps_pure _)

/-- The steps behind the drops. -/
def createFunctions (argType : String → String) (d : DatabaseEnv) (n : FunctionNames) (jar : BuiltSm4Jar)
    (enc dec : Bool) : Program Functions String DatabaseResult :=
  if enc then do
    let actual ← installEncrypt argType d n jar
    if actual ≠ jar.verificationCiphertext then pure (encryptMismatch n jar actual)
    else applyDecrypt argType d n jar enc dec (some actual)
  else applyDecrypt argType d n jar enc dec none

theorem createFunctions_grown (hP : enc = true → (∀ e, d.createImpl ≠ .refused e) → P)
    (himpl : m (n.key argType n.encryptImpl "STRING") = none)
    (hdecrypt : m (n.key argType n.decryptImpl "STRING") = none) :
    Keeps (Grown P n jar m) (createFunctions argType d n jar enc dec) := by
  unfold createFunctions
  cases enc with
  | false => exact applyDecrypt_grown hdecrypt _
  | true =>
      refine keeps_bind (installEncrypt_grown (hP rfl) himpl) fun _ => ?_
      exact keeps_ite (keeps_pure _) (applyDecrypt_grown hdecrypt _)

theorem applyFunctions_eq : applyFunctions argType d n jar enc dec = (do
    query d.use fun _ => .ok ()
    dropFunctions argType d n
    createFunctions argType d n jar enc dec) := rfl

/-- The first statement of the encrypt function is carried out. -/
def Creates (argType : String → String) (d : DatabaseEnv) (n : FunctionNames) (enc : Bool) : Prop :=
  DropsDone argType d n ∧ enc = true ∧ ∀ e, d.createImpl ≠ .refused e

variable {body : FunctionBody}

theorem create_kept {name : FunctionKey} (hc : Tables.create c name b = some c') (hkey : c key = some body) :
    c' key = some body := by
  unfold Tables.create at hc
  split at hc
  · next hfree =>
      obtain rfl := Option.some.inj hc
      have hne : key ≠ name := by
        rintro rfl
        exact absurd (hfree.symm.trans hkey) nofun
      rwa [Function.update_of_ne hne]
  · cases hc

theorem createAlias_kept (hc : createAlias argType n name impl c = some c') (hkey : c key = some body) :
    c' key = some body := by
  obtain ⟨_, -, hc⟩ := Option.bind_eq_some_iff.mp hc
  exact create_kept hc hkey

theorem applyDecrypt_kept (actual : Option String) :
    Keeps (fun c => c key = some body) (applyDecrypt argType d n jar enc dec actual) := by
  unfold applyDecrypt installDecrypt
  refine keeps_ite (keeps_bind ?_ fun _ => keeps_ite (keeps_pure _) (keeps_pure _)) (keeps_pure _)
  refine keeps_bind (keeps_statement fun _ c c' hc he => create_kept he hc) fun _ =>
    keeps_bind (keeps_statement fun _ c c' hc he => createAlias_kept he hc) fun _ => keeps_lift _

/-- The encrypt function is there behind its first statement, whatever comes then. -/
theorem createFunctions_creates (henc : enc = true) (hreply : ∀ e, d.createImpl ≠ .refused e)
    (hfree : m (n.key argType n.encryptImpl "STRING") = none) {x : Except String DatabaseResult}
    (h : createFunctions argType d n jar enc dec m = (x, c')) :
    c' (n.key argType n.encryptImpl "STRING") = some ⟨true, jar.keySeed⟩ := by
  subst henc
  have hnew : createFunction argType n n.encryptImpl ⟨true, jar.keySeed⟩ m = _ := create_eq hfree
  have hthere : Function.update m (n.key argType n.encryptImpl "STRING") (some ⟨true, jar.keySeed⟩)
      (n.key argType n.encryptImpl "STRING") = some ⟨true, jar.keySeed⟩ := Function.update_self _ _ _
  let I : Functions → Prop := fun c => c (n.key argType n.encryptImpl "STRING") = some ⟨true, jar.keySeed⟩
  have hfirst : Spec (· = m)
      (statement d.createImpl (createFunction argType n n.encryptImpl ⟨true, jar.keySeed⟩))
      (fun _ => I) (fun _ => I) := by
    constructor
    rintro _ rfl
    unfold statement
    cases hd : d.createImpl with
    | refused e => exact absurd hd (hreply e)
    | done =>
        rw [submit_done, hnew]
        exact hthere
    | lost e =>
        rw [submit_lost, hnew]
        exact hthere
  have hinstall : Spec (· = m) (installEncrypt argType d n jar) (fun _ => I) (fun _ => I) := by
    unfold installEncrypt
    exact spec_bind hfirst fun _ =>
      keeps_bind (keeps_statement fun _ c c' hc he => createAlias_kept he hc) fun _ =>
        keeps_bind (keeps_lift _) fun _ => keeps_pure _
  have hall : Spec (· = m) (createFunctions argType d n jar true dec) (fun _ => I) (fun _ => I) :=
    spec_bind hinstall fun _ => keeps_ite (keeps_pure _) (applyDecrypt_kept _)
  have hends := hall.ends m rfl
  rw [h] at hends
  cases x <;> exact hends

/-! ### What the database is left with -/

/-- What a refresh leaves of the functions of its database. -/
structure Outcome (argType : String → String) (d : DatabaseEnv) (n : FunctionNames) (jar : BuiltSm4Jar)
    (enc : Bool) (c c' : Functions) : Prop where
  others : ∀ key, key.1 ≠ n.database → c' key = c key
  left : ∀ key b, key.1 = n.database → c' key = some b → b.encrypts = true →
    c key = some b ∧ Stays argType d n key ∨ Creates argType d n enc ∧ b.seed = jar.keySeed
  stays : ∀ key b, c key = some b → Stays argType d n key → c' key = some b
  creates : Creates argType d n enc →
    ∃ key, key.1 = n.database ∧ c' key = some ⟨true, jar.keySeed⟩

theorem database_of_mem_dropKeys (h : key ∈ n.dropKeys argType) : key.1 = n.database := by
  obtain ⟨name, -, hkey⟩ := List.mem_flatMap.mp h
  obtain ⟨type, -, rfl⟩ := List.mem_map.mp hkey
  rfl

theorem mem_dropKeys (h : name ∈ [n.encrypt, n.encryptImpl, n.decrypt, n.decryptImpl]) :
    n.key argType name "STRING" ∈ n.dropKeys argType :=
  List.mem_flatMap.mpr ⟨name, n.dropped name h, List.mem_map.mpr ⟨"STRING", by decide, rfl⟩⟩

theorem DropsDone.carriedOut (h : DropsDone argType d n) {k : ℕ} (hk : k < (n.dropKeys argType).length) :
    DropCarriedOut d 0 k := by
  refine ⟨fun j hj => ?_, fun e he => ?_⟩
  · rw [Nat.zero_add]
    exact h.2 j (hj.trans hk)
  · rw [Nat.zero_add, h.2 k hk] at he
    cases he

variable {x : Except String Unit}

theorem dropFunctions_others (h : Dropped d (n.dropKeys argType) 0 c m x) (hkey : key.1 ≠ n.database) :
    m key = c key := by
  refine h.kept key fun k hk _ => hkey ?_
  exact database_of_mem_dropKeys (List.mem_of_getElem? hk)

theorem dropFunctions_left (h : Dropped d (n.dropKeys argType) 0 c m x) (hkey : m key = some b) :
    c key = some b ∧ Stays argType d n key := by
  have hstays : ∀ k, (n.dropKeys argType)[k]? = some key → ¬ DropCarriedOut d 0 k := by
    intro k hk hcarried
    rw [h.gone key k hk hcarried] at hkey
    cases hkey
  exact ⟨(h.kept key hstays).symm.trans hkey, fun k hk _ => hstays k hk⟩

theorem dropFunctions_stays (h : Dropped d (n.dropKeys argType) 0 c m x) (huse : d.use = none)
    (hkey : c key = some b) (hstays : Stays argType d n key) : m key = some b :=
  (h.kept key fun k hk => hstays k hk huse).trans hkey

/-- The names of the functions are free behind the drops. -/
theorem dropFunctions_free (h : Dropped d (n.dropKeys argType) 0 c m x) (hdone : DropsDone argType d n)
    (hname : name ∈ [n.encrypt, n.encryptImpl, n.decrypt, n.decryptImpl]) :
    m (n.key argType name "STRING") = none := by
  obtain ⟨k, hk, hget⟩ := List.getElem_of_mem (mem_dropKeys hname)
  exact h.gone _ k (List.getElem?_eq_some_iff.mpr ⟨hk, hget⟩) (hdone.carriedOut hk)

theorem refreshFunctionInDatabase_outcome (c : Functions) : Outcome argType d n jar enc c
    (refreshFunctionInDatabase argType d n jar enc dec c).1 := by
  have hfst : (refreshFunctionInDatabase argType d n jar enc dec c).1 =
      (applyFunctions argType d n jar enc dec c).2 := by
    unfold refreshFunctionInDatabase
    split <;> next heq => rw [heq]
  rw [hfst, applyFunctions_eq, bind_apply]
  cases huse : d.use with
  | some e =>
      refine ⟨fun _ _ => rfl, fun key b _ hb _ => Or.inl ⟨hb, fun k _ h => ?_⟩, fun _ _ h _ => h, fun h => ?_⟩
      · exact absurd (huse.symm.trans h) nofun
      · exact absurd (huse.symm.trans h.1.1) nofun
  | none =>
      obtain ⟨x, m, hloop, hdropped⟩ := dropLoop_ends (d := d) (n.dropKeys argType) 0 c
      have hdrops : dropFunctions argType d n c = (x, m) := hloop
      simp only [query_none, bind_apply, hdrops]
      cases x with
      | error e =>
          refine ⟨fun key hkey => dropFunctions_others hdropped hkey,
            fun key b _ hb _ => Or.inl (dropFunctions_left hdropped hb),
            fun key b hb hstays => dropFunctions_stays hdropped huse hb hstays, fun h => ?_⟩
          refine absurd (hdropped.ends.mpr fun k hk => ?_) nofun
          rw [Nat.zero_add]
          exact h.1.2 k hk
      | ok u =>
          have hdone : DropsDone argType d n := ⟨huse, fun k hk => by
            rw [← Nat.zero_add k]
            exact hdropped.ends.mp rfl k hk⟩
          have hfree : ∀ name ∈ [n.encrypt, n.encryptImpl, n.decrypt, n.decryptImpl],
              m (n.key argType name "STRING") = none := fun _ hname =>
            dropFunctions_free hdropped hdone hname
          have himpl := hfree n.encryptImpl (by simp)
          cases hrun : createFunctions argType d n jar enc dec m with
          | mk y c' =>
              have hgrown := (createFunctions_grown (P := Creates argType d n enc)
                (fun henc hreply => ⟨hdone, henc, hreply⟩) himpl (hfree n.decryptImpl (by simp))).ends_with
                  Grown.refl hrun
              simp only [hrun]
              refine ⟨fun key hkey => ?_, fun key b hkey hb hencrypts => ?_, fun key b hb hstays => ?_,
                fun h => ?_⟩
              · rw [← dropFunctions_others hdropped hkey]
                cases hm : m key with
                | some b => exact hgrown.kept key b hm
                | none =>
                    cases hc : c' key with
                    | none => rfl
                    | some b =>
                        rcases hgrown.fresh key b hc with hold | ⟨hdb, -⟩
                        · exact absurd (hm.symm.trans hold) nofun
                        · exact absurd hdb hkey
              · rcases hgrown.fresh key b hb with hold | ⟨-, hnew⟩
                · exact Or.inl (dropFunctions_left hdropped hold)
                · exact Or.inr (hnew hencrypts)
              · exact hgrown.kept key b (dropFunctions_stays hdropped huse hb hstays)
              · exact ⟨_, rfl, createFunctions_creates h.2.1 h.2.2 himpl hrun⟩

/-! ### When success is reported -/

/-- Everything that was asked for is created and verified. -/
structure Succeeds (argType : String → String) (d : DatabaseEnv) (n : FunctionNames) (jar : BuiltSm4Jar)
    (enc dec : Bool) : Prop where
  dropped : DropsDone argType d n
  encrypt : enc = true → d.createImpl = .done ∧ d.createAlias = .done ∧ n.encrypt ≠ n.encryptImpl ∧
    ∃ v, d.verify = .ok v ∧ Text.strip v = jar.verificationCiphertext
  decrypt : dec = true → d.createDecryptImpl = .done ∧ d.createDecryptAlias = .done ∧
    n.decrypt ≠ n.decryptImpl ∧
    (enc = true → ∀ name ∈ [n.decrypt, n.decryptImpl], name ≠ n.encrypt ∧ name ≠ n.encryptImpl) ∧
    d.decryptVerify = .ok jar.verificationPlaintext

theorem key_inj {name' type : String} : n.key argType name type = n.key argType name' type ↔ name = name' := by
  simp [FunctionNames.key]

theorem createFunction_eq_some :
    createFunction argType n name body c = some c' ↔ c (n.key argType name "STRING") = none ∧
      c' = Function.update c (n.key argType name "STRING") (some body) := by
  unfold createFunction Tables.create
  rw [Option.ite_none_right_eq_some, Option.some.injEq, eq_comm (b := c')]

theorem createAlias_eq_some (himpl : c (n.key argType impl "STRING") = some body) :
    createAlias argType n name impl c = some c' ↔ c (n.key argType name "STRING") = none ∧
      c' = Function.update c (n.key argType name "STRING") (some body) := by
  unfold createAlias
  rw [himpl, Option.bind_some]
  exact createFunction_eq_some

theorem statement_returns {effect : Functions → Option Functions} {u : Unit} :
    statement reply effect c = (.ok u, c') ↔ reply = .done ∧ effect c = some c' := submit_returns

/-- A function and its alias under two free names. -/
theorem createPair_returns {reply' : Reply String} {u : Unit} :
    (∃ c₁, statement reply (createFunction argType n impl body) c = (.ok u, c₁) ∧
      statement reply' (createAlias argType n name impl) c₁ = (.ok u, c')) ↔
      reply = .done ∧ reply' = .done ∧ name ≠ impl ∧ c (n.key argType impl "STRING") = none ∧
        c (n.key argType name "STRING") = none ∧
        c' = Function.update (Function.update c (n.key argType impl "STRING") (some body))
          (n.key argType name "STRING") (some body) := by
  have hself : ∀ c : Functions, Function.update c (n.key argType impl "STRING") (some body)
      (n.key argType impl "STRING") = some body := fun c => Function.update_self _ _ _
  simp only [statement_returns, createFunction_eq_some]
  constructor
  · rintro ⟨c₁, ⟨hreply, hfree, rfl⟩, hreply', halias⟩
    obtain ⟨hname, rfl⟩ := (createAlias_eq_some (hself c)).mp halias
    have hne : name ≠ impl := by
      rintro rfl
      rw [hself] at hname
      cases hname
    rw [Function.update_of_ne (key_inj.not.mpr hne)] at hname
    exact ⟨hreply, hreply', hne, hfree, hname, rfl⟩
  · rintro ⟨hreply, hreply', hne, hfree, hname, rfl⟩
    refine ⟨_, ⟨hreply, hfree, rfl⟩, hreply', (createAlias_eq_some (hself c)).mpr ⟨?_, rfl⟩⟩
    rwa [Function.update_of_ne (key_inj.not.mpr hne)]

theorem installEncrypt_returns {actual : String} (hfree : m (n.key argType n.encryptImpl "STRING") = none)
    (hname : m (n.key argType n.encrypt "STRING") = none) :
    installEncrypt argType d n jar m = (.ok actual, c') ↔
      d.createImpl = .done ∧ d.createAlias = .done ∧ n.encrypt ≠ n.encryptImpl ∧
        (∃ v, d.verify = .ok v ∧ Text.strip v = actual) ∧
        c' = Function.update (Function.update m (n.key argType n.encryptImpl "STRING")
          (some ⟨true, jar.keySeed⟩)) (n.key argType n.encrypt "STRING") (some ⟨true, jar.keySeed⟩) := by
  unfold installEncrypt
  simp only [bind_returns, lift_returns, pure_returns]
  constructor
  · rintro ⟨u, c₁, himpl, u', c₂, halias, v, c₃, ⟨hverify, rfl⟩, rfl, rfl⟩
    obtain ⟨h₁, h₂, hne, -, -, heq⟩ := createPair_returns.mp ⟨c₁, himpl, halias⟩
    exact ⟨h₁, h₂, hne, ⟨v, hverify, rfl⟩, heq⟩
  · rintro ⟨h₁, h₂, hne, ⟨v, hverify, rfl⟩, rfl⟩
    obtain ⟨c₁, himpl, halias⟩ := createPair_returns.mpr ⟨h₁, h₂, hne, hfree, hname, rfl⟩
    exact ⟨(), c₁, himpl, (), _, halias, v, _, ⟨hverify, rfl⟩, rfl, rfl⟩

theorem installDecrypt_returns {decrypted : String} :
    (∃ c', installDecrypt argType d n jar c = (.ok decrypted, c')) ↔
      d.createDecryptImpl = .done ∧ d.createDecryptAlias = .done ∧ n.decrypt ≠ n.decryptImpl ∧
        c (n.key argType n.decryptImpl "STRING") = none ∧ c (n.key argType n.decrypt "STRING") = none ∧
        d.decryptVerify = .ok decrypted := by
  unfold installDecrypt
  simp only [bind_returns, lift_returns]
  constructor
  · rintro ⟨c', u, c₁, himpl, u', c₂, halias, hverify, rfl⟩
    obtain ⟨h₁, h₂, hne, hfree, hname, -⟩ := createPair_returns.mp ⟨c₁, himpl, halias⟩
    exact ⟨h₁, h₂, hne, hfree, hname, hverify⟩
  · rintro ⟨h₁, h₂, hne, hfree, hname, hverify⟩
    obtain ⟨c₁, himpl, halias⟩ := (createPair_returns (u := ())).mpr ⟨h₁, h₂, hne, hfree, hname, rfl⟩
    exact ⟨_, (), c₁, himpl, (), _, halias, hverify, rfl⟩

/-- Success of the second half. -/
theorem applyDecrypt_success {actual : Option String} :
    (∃ r c', applyDecrypt argType d n jar enc dec actual c = (.ok r, c') ∧ r.state = .success) ↔
      (dec = true → d.createDecryptImpl = .done ∧ d.createDecryptAlias = .done ∧
        n.decrypt ≠ n.decryptImpl ∧ c (n.key argType n.decryptImpl "STRING") = none ∧
        c (n.key argType n.decrypt "STRING") = none ∧
        d.decryptVerify = .ok jar.verificationPlaintext) := by
  unfold applyDecrypt
  cases dec with
  | false => simp [applied]
  | true =>
      rw [if_pos rfl]
      simp only [bind_returns, true_imp_iff]
      rw [← installDecrypt_returns]
      constructor
      · rintro ⟨r, c', ⟨decrypted, c₁, hinstall, hrest⟩, hstate⟩
        split at hrest
        · rw [(pure_returns.mp hrest).1] at hstate
          cases hstate
        · next heq => exact ⟨c₁, not_not.mp heq ▸ hinstall⟩
      · rintro ⟨c', hinstall⟩
        refine ⟨applied n enc true, c', ⟨_, c', hinstall, ?_⟩, rfl⟩
        rw [if_neg (not_not.mpr rfl)]
        rfl

/-- The two new names, seen behind the encrypt function. -/
theorem free_update (hfree : m (n.key argType name "STRING") = none) :
    Function.update (Function.update m (n.key argType n.encryptImpl "STRING") (some b))
      (n.key argType n.encrypt "STRING") (some b) (n.key argType name "STRING") = none ↔
        name ≠ n.encrypt ∧ name ≠ n.encryptImpl := by
  simp only [Function.update_apply, key_inj, hfree]
  by_cases h₁ : name = n.encrypt
  · simp [h₁]
  · by_cases h₂ : name = n.encryptImpl
    · simp [h₂]
    · simp [h₁, h₂]

/-- Success behind the drops. -/
theorem createFunctions_success
    (hfree : ∀ name ∈ [n.encrypt, n.encryptImpl, n.decrypt, n.decryptImpl],
      m (n.key argType name "STRING") = none) (hdone : DropsDone argType d n) :
    (∃ r c', createFunctions argType d n jar enc dec m = (.ok r, c') ∧ r.state = .success) ↔
      Succeeds argType d n jar enc dec := by
  have hdecrypt := hfree n.decrypt (by simp)
  have hdecryptImpl := hfree n.decryptImpl (by simp)
  unfold createFunctions
  cases enc with
  | false =>
      rw [if_neg (by decide), applyDecrypt_success]
      constructor
      · intro h
        refine ⟨hdone, nofun, fun hdec => ?_⟩
        obtain ⟨h₁, h₂, hne, -, -, hverify⟩ := h hdec
        exact ⟨h₁, h₂, hne, nofun, hverify⟩
      · rintro ⟨-, -, h⟩ hdec
        obtain ⟨h₁, h₂, hne, -, hverify⟩ := h hdec
        exact ⟨h₁, h₂, hne, hdecryptImpl, hdecrypt, hverify⟩
  | true =>
      rw [if_pos rfl]
      simp only [bind_returns, installEncrypt_returns (hfree n.encryptImpl (by simp))
        (hfree n.encrypt (by simp))]
      constructor
      · rintro ⟨r, c', ⟨actual, c₁, ⟨h₁, h₂, hne, ⟨v, hverify, rfl⟩, rfl⟩, hrest⟩, hstate⟩
        split at hrest
        · rw [(pure_returns.mp hrest).1] at hstate
          cases hstate
        · next heq =>
            refine ⟨hdone, fun _ => ⟨h₁, h₂, hne, v, hverify, not_not.mp heq⟩, fun hdec => ?_⟩
            obtain ⟨h₁, h₂, hne, himpl, hname, hverify⟩ :=
              applyDecrypt_success.mp ⟨r, c', hrest, hstate⟩ hdec
            refine ⟨h₁, h₂, hne, fun _ name hmem => ?_, hverify⟩
            simp only [List.mem_cons, List.not_mem_nil, or_false] at hmem
            rcases hmem with rfl | rfl
            · exact (free_update hdecrypt).mp hname
            · exact (free_update hdecryptImpl).mp himpl
      · rintro ⟨-, hencrypt, h⟩
        obtain ⟨h₁, h₂, hne, v, hverify, heq⟩ := hencrypt rfl
        obtain ⟨r, c', hrest, hstate⟩ := (applyDecrypt_success (d := d) (n := n)
         
          (c := Function.update (Function.update m (n.key argType n.encryptImpl "STRING")
            (some ⟨true, jar.keySeed⟩)) (n.key argType n.encrypt "STRING")
              (some ⟨true, jar.keySeed⟩))).mpr fun hdec => by
          obtain ⟨h₁, h₂, hne, hnames, hverify⟩ := h hdec
          exact ⟨h₁, h₂, hne, (free_update hdecryptImpl).mpr (hnames rfl _ (by simp)),
            (free_update hdecrypt).mpr (hnames rfl _ (by simp)), hverify⟩
        refine ⟨r, c', ⟨_, _, ⟨h₁, h₂, hne, ⟨v, hverify, rfl⟩, rfl⟩, ?_⟩, hstate⟩
        rw [if_neg (not_not.mpr heq)]
        exact hrest

/-- Success is reported exactly when everything that was asked for is created and verified. -/
theorem refreshFunctionInDatabase_success :
    (refreshFunctionInDatabase argType d n jar enc dec c).2.state = .success ↔
      Succeeds argType d n jar enc dec := by
  have hstate : (refreshFunctionInDatabase argType d n jar enc dec c).2.state = .success ↔
      ∃ r c', applyFunctions argType d n jar enc dec c = (.ok r, c') ∧ r.state = .success := by
    unfold refreshFunctionInDatabase
    cases hrun : applyFunctions argType d n jar enc dec c with
    | mk x c' =>
        cases x with
        | ok r => simp
        | error e => simp [raised]
  rw [hstate, applyFunctions_eq]
  simp only [bind_returns, query_returns, true_and]
  obtain ⟨x, m, hloop, hdropped⟩ := dropLoop_ends (d := d) (n.dropKeys argType) 0 c
  have hdrops : dropFunctions argType d n c = (x, m) := hloop
  constructor
  · rintro ⟨r, c', ⟨-, _, ⟨huse, rfl⟩, u, c₁, hdrop, hrest⟩, hsuccess⟩
    obtain ⟨rfl, rfl⟩ := Prod.mk.inj (hdrops.symm.trans hdrop)
    have hdone : DropsDone argType d n := ⟨huse, fun k hk => by
      rw [← Nat.zero_add k]
      exact hdropped.ends.mp rfl k hk⟩
    exact (createFunctions_success (fun name hname => dropFunctions_free hdropped hdone hname) hdone).mp
      ⟨r, c', hrest, hsuccess⟩
  · intro h
    obtain rfl : x = .ok () := hdropped.ends.mpr fun k hk => by
      rw [Nat.zero_add]
      exact h.dropped.2 k hk
    obtain ⟨r, c', hrest, hsuccess⟩ := (createFunctions_success
      (fun name hname => dropFunctions_free hdropped h.dropped hname) h.dropped).mpr h
    exact ⟨r, c', ⟨(), c, ⟨h.dropped.1, rfl⟩, (), m, hdrops, hrest⟩, hsuccess⟩

theorem applyDecrypt_database {actual : Option String} {r : DatabaseResult}
    (h : applyDecrypt argType d n jar enc dec actual c = (.ok r, c')) : r.database = n.database := by
  unfold applyDecrypt at h
  split at h
  · obtain ⟨decrypted, c₁, -, h⟩ := bind_returns.mp h
    split at h
    · rw [(pure_returns.mp h).1]
      rfl
    · rw [(pure_returns.mp h).1]
      rfl
  · rw [(pure_returns.mp h).1]
    rfl

/-- Every result names its database. -/
theorem refreshFunctionInDatabase_database :
    (refreshFunctionInDatabase argType d n jar enc dec c).2.database = n.database := by
  unfold refreshFunctionInDatabase
  split
  · next r c' heq =>
      rw [applyFunctions_eq] at heq
      obtain ⟨-, c₀, -, heq⟩ := bind_returns.mp heq
      obtain ⟨-, c₁, -, heq⟩ := bind_returns.mp heq
      unfold createFunctions at heq
      split at heq
      · obtain ⟨actual, c₂, -, heq⟩ := bind_returns.mp heq
        split at heq
        · simp only [(pure_returns.mp heq).1]
          rfl
        · exact applyDecrypt_database heq
      · exact applyDecrypt_database heq
  · rfl

end

end RecoveryService.DorisSm4Function
