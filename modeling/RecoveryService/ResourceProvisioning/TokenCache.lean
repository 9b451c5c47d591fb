import RecoveryService.Lib.Runs

/-! # The cached YouData token

`_resolve_youdata_token`, `_refresh_youdata_token` and `_invalidate_youdata_token` of
`services/resource_provisioning.py`, as the rows of provisioning and of permission batches call them for one login.
What a row does under the lock is one step; so is each of its requests.  There are no more logins than rejected
tokens and one, and a token that has left the cache does not come back. -/

namespace RecoveryService.ResourceProvisioning

open Runs

variable {Token : Type} [DecidableEq Token]

/-- Where a row is: it has a token, from the cache or new, or has seen it rejected, for the first or the second
time. -/
inductive TokenPlace (Token : Type) where
  | idle
  | resolved (token : Token)
  | rejected (token : Token)
  | refreshed (token : Token)
  | rejectedAgain (token : Token)
  | done

/-- The cache entry of the login, the tokens it was given and those that some request saw rejected. -/
structure TokenSystem (Token : Type) where
  cache : Option Token := none
  issued : List Token := []
  rejected : Finset Token := ∅
  rows : ℕ → TokenPlace Token := fun _ => .idle
  sent : ℕ → ℕ := fun _ => 0

/-- A step of a row; a login gives a token or fails, and a request is rejected or not. -/
inductive TokenAction (Token : Type) where
  | resolve (row : ℕ) (login : Option Token)
  | request (row : ℕ) (rejected : Bool)
  | refresh (row : ℕ) (login : Option Token)
  | invalidate (row : ℕ)

namespace TokenSystem

variable (s : TokenSystem Token)

def goto (row : ℕ) (place : TokenPlace Token) : TokenSystem Token :=
  { s with rows := Function.update s.rows row place }

/-- `_generate_youdata_token`, where the cache has nothing to go on with. -/
def generate (row : ℕ) (place : Token → TokenPlace Token) : Option Token → TokenSystem Token
  | some token => { s with cache := some token, issued := token :: s.issued }.goto row (place token)
  | none => s.goto row .done

def resolveYoudataToken (row : ℕ) (login : Option Token) : TokenSystem Token :=
  match s.cache with
  | some cached => s.goto row (.resolved cached)
  | none => s.generate row .resolved login

def refreshYoudataToken (row : ℕ) (stale : Token) (login : Option Token) : TokenSystem Token :=
  match s.cache.filter (· ≠ stale) with
  | some current => s.goto row (.refreshed current)
  | none => s.generate row .refreshed login

def invalidateYoudataToken (row : ℕ) (stale : Token) : TokenSystem Token :=
  { s with cache := if s.cache = some stale then none else s.cache }.goto row .done

/-- `_post_external_connection`, and the answer. -/
def post (row : ℕ) (token : Token) (place : Token → TokenPlace Token) (rejected : Bool) : TokenSystem Token :=
  let s := { s with sent := Function.update s.sent row (s.sent row + 1) }
  if rejected then { s with rejected := insert token s.rejected }.goto row (place token) else s.goto row .done

end TokenSystem

def tokenStep (s : TokenSystem Token) : TokenAction Token → Option (TokenSystem Token)
  | .resolve row login =>
      match s.rows row with
      | .idle => some (s.resolveYoudataToken row login)
      | _ => none
  | .request row rejected =>
      match s.rows row with
      | .resolved token => some (s.post row token .rejected rejected)
      | .refreshed token => some (s.post row token .rejectedAgain rejected)
      | _ => none
  | .refresh row login =>
      match s.rows row with
      | .rejected token => some (s.refreshYoudataToken row token login)
      | _ => none
  | .invalidate row =>
      match s.rows row with
      | .rejectedAgain token => some (s.invalidateYoudataToken row token)
      | _ => none

/-- The login service gives a new token each time. -/
def Fresh (s : TokenSystem Token) : TokenAction Token → Prop
  | .resolve _ login | .refresh _ login => ∀ token ∈ login, token ∉ s.issued
  | _ => True

/-! ### The invariant -/

namespace TokenSystem

set_option linter.unusedSectionVars false

/-- What a row has seen, and how many requests it has sent. -/
def PlaceOk (s : TokenSystem Token) (sent : ℕ) : TokenPlace Token → Prop
  | .idle => sent = 0
  | .resolved token => token ∈ s.issued ∧ sent = 0
  | .rejected token => token ∈ s.rejected ∧ sent ≤ 1
  | .refreshed token => token ∈ s.issued ∧ sent ≤ 1
  | .rejectedAgain token => token ∈ s.rejected ∧ sent ≤ 2
  | .done => sent ≤ 2

structure Inv (s : TokenSystem Token) : Prop where
  nodup : s.issued.Nodup
  cached : ∀ token, s.cache = some token → token ∈ s.issued
  rejected : ∀ token ∈ s.rejected, token ∈ s.issued
  /-- Only a rejected token leaves the cache. -/
  left : ∀ token ∈ s.issued, s.cache ≠ some token → token ∈ s.rejected
  places : ∀ row, s.PlaceOk (s.sent row) (s.rows row)

/-- What one step does to the tokens. -/
structure Goes (s s' : TokenSystem Token) : Prop where
  inv : s'.Inv
  issued : ∀ token ∈ s.issued, token ∈ s'.issued
  gone : ∀ token ∈ s.issued, s'.cache = some token → s.cache = some token

variable {s : TokenSystem Token} {row : ℕ}
variable {s' : TokenSystem Token} {place : TokenPlace Token}

theorem PlaceOk.mono (hissued : ∀ token ∈ s.issued, token ∈ s'.issued)
    (hrejected : ∀ token ∈ s.rejected, token ∈ s'.rejected) {sent : ℕ} (h : s.PlaceOk sent place) :
    s'.PlaceOk sent place := by
  cases place with
  | idle | done => exact h
  | resolved token | refreshed token => exact ⟨hissued token h.1, h.2⟩
  | rejected token | rejectedAgain token => exact ⟨hrejected token h.1, h.2⟩

theorem Inv.goto (h : s.Inv) (hplace : s.PlaceOk (s.sent row) place) : (s.goto row place).Inv := by
  refine ⟨h.nodup, h.cached, h.rejected, h.left, fun other => ?_⟩
  unfold TokenSystem.goto
  by_cases hother : other = row
  · rw [hother]
    dsimp only
    rw [Function.update_self]
    exact hplace
  · dsimp only
    rw [Function.update_of_ne hother]
    exact h.places other

theorem Goes.goto (h : s.Inv) (hplace : s.PlaceOk (s.sent row) place) :
    Goes s (s.goto row place) := ⟨h.goto hplace, fun _ ht => ht, fun _ _ hc => hc⟩

variable {login : Option Token}
variable {place : Token → TokenPlace Token}

/-- A login is made where the cache is empty or has a rejected token. -/
theorem Goes.generate (h : s.Inv) (hcache : ∀ token, s.cache = some token → token ∈ s.rejected)
    (hfresh : ∀ token ∈ login, token ∉ s.issued) (hsent : s.sent row ≤ 1)
    (hplace : ∀ token (s' : TokenSystem Token), token ∈ s'.issued → s'.PlaceOk (s.sent row) (place token)) :
    Goes s (s.generate row place login) := by
  cases login with
  | none => exact .goto h (show s.sent row ≤ 2 by omega)
  | some token =>
      have hnew := hfresh token rfl
      have hinv : Inv { s with cache := some token, issued := token :: s.issued } := by
        refine ⟨List.nodup_cons.mpr ⟨hnew, h.nodup⟩, ?_, ?_, ?_, ?_⟩
        · exact fun other hother => Option.some.inj hother ▸ List.mem_cons_self
        · exact fun other hother => List.mem_cons_of_mem _ (h.rejected other hother)
        · intro other hother hne
          rcases List.mem_cons.mp hother with rfl | hother
          · exact absurd rfl hne
          · by_cases hcached : s.cache = some other
            · exact hcache other hcached
            · exact h.left other hother hcached
        · intro other
          change PlaceOk { s with cache := some token, issued := token :: s.issued } (s.sent other) (s.rows other)
          refine (h.places other).mono ?_ ?_
          · exact fun _ => List.mem_cons_of_mem token
          · exact fun _ ht => ht
      refine ⟨hinv.goto (hplace token _ List.mem_cons_self), fun _ => List.mem_cons_of_mem _,
        fun other hother hc => ?_⟩
      exact absurd (Option.some.inj hc ▸ hother) hnew

theorem Goes.resolve (h : s.Inv) (hfresh : ∀ token ∈ login, token ∉ s.issued) (hrow : s.rows row = .idle) :
    Goes s (s.resolveYoudataToken row login) := by
  have hsent : s.sent row = 0 := by
    have hplace := h.places row
    rwa [hrow] at hplace
  unfold resolveYoudataToken
  cases hcache : s.cache with
  | some cached => exact .goto h ⟨h.cached cached hcache, hsent⟩
  | none =>
      refine .generate h (fun token htoken => ?_) hfresh (by omega) fun _ _ htoken => ⟨htoken, hsent⟩
      exact (nomatch hcache.symm.trans htoken)

theorem Goes.refresh (h : s.Inv) (hfresh : ∀ token ∈ login, token ∉ s.issued) {stale : Token}
    (hrow : s.rows row = .rejected stale) : Goes s (s.refreshYoudataToken row stale login) := by
  obtain ⟨hstale, hsent⟩ : stale ∈ s.rejected ∧ s.sent row ≤ 1 := by
    have hplace := h.places row
    rwa [hrow] at hplace
  unfold refreshYoudataToken
  cases hcache : s.cache.filter (· ≠ stale) with
  | some current => exact .goto h ⟨h.cached current (Option.filter_eq_some_iff.mp hcache).1, hsent⟩
  | none =>
      refine .generate h (fun token htoken => ?_) hfresh hsent fun _ _ htoken => ⟨htoken, hsent⟩
      have hsame := Option.filter_eq_none_iff.mp hcache token htoken
      rw [decide_eq_true_eq, not_not] at hsame
      exact hsame ▸ hstale

theorem Goes.invalidate (h : s.Inv) {stale : Token} (hrow : s.rows row = .rejectedAgain stale) :
    Goes s (s.invalidateYoudataToken row stale) := by
  obtain ⟨hstale, hsent⟩ : stale ∈ s.rejected ∧ s.sent row ≤ 2 := by
    have hplace := h.places row
    rwa [hrow] at hplace
  have hcache : ∀ token, (if s.cache = some stale then none else s.cache) = some token →
      s.cache = some token := by
    intro token htoken
    split_ifs at htoken
    exact htoken
  have hinv : Inv { s with cache := if s.cache = some stale then none else s.cache } := by
    refine ⟨h.nodup, fun token htoken => h.cached token (hcache token htoken), h.rejected, ?_, h.places⟩
    intro token htoken hne
    by_cases hsame : token = stale
    · exact hsame ▸ hstale
    · refine h.left token htoken fun hcached => hne ?_
      dsimp only
      rw [hcached, if_neg fun h => hsame (Option.some.inj h)]
  exact ⟨hinv.goto hsent, fun _ ht => ht, fun token _ => hcache token⟩

theorem Goes.post (h : s.Inv) {token : Token} {rejected : Bool} (htoken : token ∈ s.issued)
    (hsent : s.sent row ≤ 1)
    (hplace : ∀ s' : TokenSystem Token, token ∈ s'.rejected → s'.PlaceOk (s.sent row + 1) (place token)) :
    Goes s (s.post row token place rejected) := by
  have hplaces : ∀ (s' : TokenSystem Token) (last : TokenPlace Token), (∀ t ∈ s.issued, t ∈ s'.issued) →
      (∀ t ∈ s.rejected, t ∈ s'.rejected) → s'.PlaceOk (s.sent row + 1) last →
      ∀ other, s'.PlaceOk (Function.update s.sent row (s.sent row + 1) other)
        (Function.update s.rows row last other) := by
    intro s' last hissued hrejected hlast other
    by_cases hother : other = row
    · rw [hother, Function.update_self, Function.update_self]
      exact hlast
    · rw [Function.update_of_ne hother, Function.update_of_ne hother]
      exact (h.places other).mono hissued hrejected
  unfold TokenSystem.post
  cases rejected with
  | false =>
      refine ⟨⟨h.nodup, h.cached, h.rejected, h.left, ?_⟩, fun _ ht => ht, fun _ _ hc => hc⟩
      exact hplaces _ _ (fun _ ht => ht) (fun _ ht => ht) (show s.sent row + 1 ≤ 2 by omega)
  | true =>
      refine ⟨⟨h.nodup, h.cached, fun other hother => ?_, fun other hother hne => ?_, ?_⟩, fun _ ht => ht,
        fun _ _ hc => hc⟩
      · rcases Finset.mem_insert.mp hother with rfl | hother
        · exact htoken
        · exact h.rejected other hother
      · exact Finset.mem_insert_of_mem (h.left other hother hne)
      · exact hplaces _ _ (fun _ ht => ht) (fun _ => Finset.mem_insert_of_mem)
          (hplace _ (Finset.mem_insert_self token s.rejected))

/-! ### Runs -/

theorem Inv.goes (h : s.Inv) {a : TokenAction Token} (hfresh : Fresh s a) (hs : tokenStep s a = some s') : Goes s s' := by
  cases a with
  | resolve row login =>
      dsimp only [tokenStep] at hs
      split at hs
      · next hrow =>
          cases hs
          exact .resolve h hfresh hrow
      · cases hs
  | request row rejected =>
      have hplace := h.places row
      dsimp only [tokenStep] at hs
      split at hs
      · next token hrow =>
          cases hs
          rw [hrow] at hplace
          refine .post h hplace.1 (by rw [hplace.2]; exact Nat.zero_le 1) fun _ ht => ⟨ht, ?_⟩
          rw [hplace.2]
      · next token hrow =>
          cases hs
          rw [hrow] at hplace
          exact .post h hplace.1 hplace.2 fun _ ht => ⟨ht, Nat.succ_le_succ hplace.2⟩
      · cases hs
  | refresh row login =>
      dsimp only [tokenStep] at hs
      split at hs
      · next token hrow =>
          cases hs
          exact .refresh h hfresh hrow
      · cases hs
  | invalidate row =>
      dsimp only [tokenStep] at hs
      split at hs
      · next token hrow =>
          cases hs
          exact .invalidate h hrow
      · cases hs

theorem inv_start : Inv ({} : TokenSystem Token) :=
  ⟨List.nodup_nil, nofun, nofun, nofun, fun _ => rfl⟩

theorem Inv.run (h : s.Inv) {as : List (TokenAction Token)} (hrun : Run tokenStep Fresh s as s') : Goes s s' := by
  induction hrun with
  | refl => exact ⟨h, fun _ ht => ht, fun _ _ hc => hc⟩
  | step hok hs _ ih =>
      have hfirst := h.goes hok hs
      have hrest := ih hfirst.inv
      exact ⟨hrest.inv, fun t ht => hrest.issued t (hfirst.issued t ht),
        fun t ht hc => hfirst.gone t ht (hrest.gone t (hfirst.issued t ht) hc)⟩

theorem Inv.issued_le (h : s.Inv) : s.issued.length ≤ s.rejected.card + 1 := by
  have hsub : s.issued.toFinset ⊆ s.rejected ∪ s.cache.toFinset := by
    intro token htoken
    by_cases hcached : s.cache = some token
    · exact Finset.mem_union_right _ (Option.mem_toFinset.mpr hcached)
    · exact Finset.mem_union_left _ (h.left token (List.mem_toFinset.mp htoken) hcached)
  have hcache : s.cache.toFinset.card ≤ 1 := by
    cases s.cache with
    | none => exact Nat.zero_le 1
    | some token => exact le_rfl
  have hcard := (Finset.card_le_card hsub).trans (Finset.card_union_le s.rejected s.cache.toFinset)
  rw [List.toFinset_card_of_nodup h.nodup] at hcard
  omega

end TokenSystem

/-- What holds in every state `s` of the rows and from there to every later one. -/
structure Economical (s s' : TokenSystem Token) : Prop where
  logins : s.issued.length ≤ 1 + s.rejected.card
  /-- A rejected token that has been replaced is not cached again. -/
  replaced : ∀ token ∈ s.rejected, s.cache ≠ some token → s'.cache ≠ some token
  /-- Only the rejected token is removed. -/
  removed : ∀ row next, tokenStep s (.invalidate row) = some next → next.cache ≠ s.cache →
    ∃ token ∈ s.rejected, s.rows row = .rejectedAgain token ∧ s.cache = some token
  twice : ∀ row, s.sent row ≤ 2

/-- However the steps of the rows are interleaved, the token cache is economical. -/
theorem tokenRun_economical {as bs : List (TokenAction Token)} {s s' : TokenSystem Token}
    (h : Run tokenStep Fresh {} as s) (hlater : Run tokenStep Fresh s bs s') : Economical s s' := by
  have hinv := (TokenSystem.inv_start.run h).inv
  have hgoes := hinv.run hlater
  refine ⟨by have hle := hinv.issued_le; omega, fun token htoken hne hcache => ?_, fun row next hs hne => ?_,
    fun row => ?_⟩
  · exact hne (hgoes.gone token (hinv.rejected token htoken) hcache)
  · have hplace := hinv.places row
    dsimp only [tokenStep] at hs
    split at hs
    · next token hrow =>
        cases hs
        rw [hrow] at hplace
        refine ⟨token, hplace.1, hrow, ?_⟩
        by_contra hcached
        exact hne (if_neg hcached)
    · cases hs
  · have hplace := hinv.places row
    cases hrow : s.rows row <;> rw [hrow] at hplace
    · exact hplace.trans_le (Nat.zero_le 2)
    · exact hplace.2.trans_le (Nat.zero_le 2)
    · exact hplace.2.trans (by decide)
    · exact hplace.2.trans (by decide)
    · exact hplace.2
    · exact hplace

/-- Two rows share a token that is rejected; the second takes the token that the first was given. -/
theorem sharedToken_economical : ∃ s : TokenSystem ℕ, s.issued = [7, 5] ∧ Economical s s := by
  have hrun : ∃ s : TokenSystem ℕ, Run tokenStep Fresh {} [.resolve 0 (some 5), .resolve 1 none, .request 0 true,
      .request 1 true, .refresh 0 (some 7), .refresh 1 none] s ∧ s.issued = [7, 5] :=
    ⟨_, .step (by rintro _ ⟨⟩; decide) rfl (.step nofun rfl (.step trivial rfl (.step trivial rfl
      (.step (by rintro _ ⟨⟩; decide) rfl (.step nofun rfl (.refl _)))))), rfl⟩
  obtain ⟨s, hrun, hissued⟩ := hrun
  exact ⟨s, hissued, tokenRun_economical hrun (.refl s)⟩

end RecoveryService.ResourceProvisioning
