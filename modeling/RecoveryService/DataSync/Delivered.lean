import RecoveryService.DataSync.StreamLoad
import RecoveryService.Lib.Statements

/-! # What a Stream Load comes to

A call of `_stream_load` returns the result of a load or raises an exception; the return behind its loop
is not reached.  The loops are followed with `Asked` (the requests of one attempt), `Orderly` (those
of all attempts so far) and `Waiting` (another attempt follows). -/

namespace DataSync

open Program

/-! ### Labels -/

/-- What stands behind the last `c` is decided by the text. -/
theorem behind_last {c : Char} {s s' t t' : List Char} (ht : c ∉ t) (ht' : c ∉ t')
    (h : s ++ c :: t = s' ++ c :: t') : t = t' := by
  have hread : ∀ {s t : List Char}, c ∉ t →
      (s ++ c :: t).reverse.takeWhile (fun d => decide (d ≠ c)) = t.reverse := by
    intro s t ht
    have hall : ∀ d ∈ t.reverse, decide (d ≠ c) = true := by
      intro d hd
      rw [decide_eq_true_eq]
      rintro rfl
      exact ht (List.mem_reverse.mp hd)
    rw [List.reverse_append, List.reverse_cons, List.append_assoc, List.takeWhile_append_of_pos hall]
    simp
  have hrev := congrArg (fun l => l.reverse.takeWhile (fun d => decide (d ≠ c))) h
  simp only [hread ht, hread ht'] at hrev
  exact List.reverse_injective hrev

theorem underscore_notMem (n : ℕ) : '_' ∉ (toString n).toList := by
  intro hmem
  have hrepr : '_' ∈ n.repr.toList := hmem
  rw [Nat.toList_repr] at hrepr
  have hdigit := Nat.isDigit_of_mem_toDigits (by decide) (by decide) hrepr
  exact absurd hdigit (by decide)

variable {py : Python} {http : Http}

/-- Attempts of one call have different labels, whatever `uuid4` gives. -/
theorem loadLabel_injective {batchIndex i j : ℕ}
    (h : loadLabel http batchIndex i = loadLabel http batchIndex j) : i = j := by
  have hlabel : ∀ n, (loadLabel http batchIndex n).toList =
      ("data_sync_" ++ http.uuid n ++ "_" ++ toString batchIndex).toList ++
        '_' :: (toString n).toList := by
    intro n
    unfold loadLabel
    rw [String.toList_append, String.toList_append, List.append_assoc]
    rfl
  have htext := congrArg String.toList h
  rw [hlabel, hlabel] at htext
  have hdigits := behind_last (underscore_notMem i) (underscore_notMem j) htext
  exact Nat.repr_injective (String.toList_injective hdigits)

/-! ### The requests of one attempt -/

/-- `old` and behind it `n` requests with the label. -/
def Asked (old : List Request) (label : String) (n : ℕ) (sent : List Request) : Prop :=
  ∃ new, sent = old ++ new ∧ new.length = n ∧ ∀ q ∈ new, q.label = label

/-- The last answer has the body. -/
def Answered (http : Http) (body : String) (sent : List Request) : Prop :=
  (http.put (sent.length - 1)).body? = some body

/-- `old` and behind it one to three requests with the label. -/
def Ended (old : List Request) (label : String) (sent : List Request) : Prop :=
  ∃ n, 1 ≤ n ∧ n ≤ 3 ∧ Asked old label n sent

variable {old : List Request}

theorem httpPut_spec {n : ℕ} (request : Request) {E : Raised → List Request → Prop} :
    Spec (Asked old request.label n) (httpPut http request)
      (fun answer sent => Asked old request.label (n + 1) sent ∧ answer = http.put (sent.length - 1))
      E := by
  constructor
  rintro sent ⟨new, rfl, hlen, hlabel⟩
  have hnext : (old ++ new ++ [request]).length = (old ++ new).length + 1 := List.length_append
  refine ⟨⟨new ++ [request], List.append_assoc _ _ _, ?_, ?_⟩, ?_⟩
  · rw [List.length_append, hlen, List.length_singleton]
  · intro q hq
    rcases List.mem_append.mp hq with hq | hq
    · exact hlabel q hq
    · rw [List.mem_singleton.mp hq]
  · rw [hnext, Nat.add_sub_cancel]

theorem redirectTo_lt {status : ℤ} {location : Option String} {r : ℕ} {target : String}
    (h : redirectTo status location r = some target) : r < 2 := by
  unfold redirectTo at h
  split_ifs at h with hc
  exact hc.2

variable {attempts : ℕ} {headers : List (String × String)} {payload : String}
variable {loadAttempt : ℕ}

/-- The loop sends one to three requests, and ends with the body of the last answer. -/
theorem requestLoop_spec {label : String} {r k : ℕ} (hrange : r + k = 3) (hk : 1 ≤ k) (url body : String) :
    Spec (Asked old label r)
      (requestLoop py http attempts headers payload loadAttempt label (List.range' r k) url body)
      (fun body sent => Ended old label sent ∧ Answered http body sent) (fun _ => Ended old label) := by
  induction k generalizing r url body with
  | zero => omega
  | succ k ih =>
      have hended : ∀ {sent}, Asked old label (r + 1) sent → Ended old label sent :=
        fun h => ⟨r + 1, by omega, by omega, h⟩
      -- a redirect that is followed is not the last request
      have hredirect : ∀ (status : ℤ) (location : Option String) (target body : String),
          redirectTo status location r = some target →
          Spec (Asked old label (r + 1))
            (do
              let url ← lift (http.rewriteRedirect target)
              requestLoop py http attempts headers payload loadAttempt label (List.range' (r + 1) k)
                url body)
            (fun body sent => Ended old label sent ∧ Answered http body sent)
            (fun _ => Ended old label) := by
        intro status location target body htarget
        have hlt := redirectTo_lt htarget
        exact spec_lift_bind (fun url _ => ih (by omega) (by omega) url body) fun _ _ h => hended h
      rw [List.range'_succ]
      unfold requestLoop
      refine spec_bind (httpPut_spec ⟨url, headers, label, payload⟩) fun answer => ?_
      cases answer with
      | response status location answered =>
          simp only
          cases htarget : redirectTo status location r with
          | some target =>
              exact (hredirect status location target answered htarget).mono (fun _ h => h.1)
                (fun _ _ h => h) fun _ _ h => h
          | none =>
              refine spec_bind (Q := fun _ sent => Asked old label (r + 1) sent ∧
                Answer.response status location answered = http.put (sent.length - 1)) ?_ fun _ => ?_
              · exact spec_onlyIf (fun _ => (keeps_lift _).mono (fun _ h => h) (fun _ _ h => h)
                  fun _ _ h => hended h.1) fun _ _ h => h
              · refine spec_pure fun sent h => ⟨hended h.1, ?_⟩
                unfold Answered
                rw [← h.2]
                rfl
      | httpError code location read =>
          simp only
          cases htarget : redirectTo code location r with
          | some target =>
              exact (hredirect code location target body htarget).mono (fun _ h => h.1)
                (fun _ _ h => h) fun _ _ h => h
          | none =>
              refine spec_lift_bind (fun answered hread => ?_) fun _ _ h => hended h.1
              refine spec_lift_bind (fun _ _ => ?_) fun _ _ h => hended h.1
              refine spec_pure fun sent h => ⟨hended h.1, ?_⟩
              unfold Answered
              rw [← h.2, Answer.body?, hread]
              rfl
      | raised exc => exact spec_raise fun _ h => hended h.1

theorem requestLoop_all {label : String} (url : String) : Spec (fun sent => sent = old)
      (requestLoop py http attempts headers payload loadAttempt label (List.range 3) url "")
      (fun body sent => Ended old label sent ∧ Answered http body sent) (fun _ => Ended old label) := by
  rw [List.range_eq_range']
  refine (requestLoop_spec (by decide : 0 + 3 = 3) (by decide) url "").mono ?_ (fun _ _ h => h)
    fun _ _ h => h
  rintro sent rfl
  exact ⟨[], (List.append_nil _).symm, rfl, nofun⟩

/-! ### The requests of all attempts -/

section

variable (py : Python) (http : Http) (label : ℕ → String)

/-- Requests of the attempts before `n`: at most three for a label, and a new label only behind an
answer that reports a missing heartbeat. -/
structure Orderly (n : ℕ) (sent : List Request) : Prop where
  known : ∀ q ∈ sent, ∃ i, 1 ≤ i ∧ i < n ∧ q.label = label i
  thrice : ∀ l, (sent.map Request.label).count l ≤ 3
  renewed : ∀ (i : ℕ) (q q' : Request), sent[i]? = some q → sent[i + 1]? = some q' →
    q.label ≠ q'.label →
      ∃ body, (http.put i).body? = some body ∧ isRetryableStreamLoadError py body = true

/-- The next attempt is `n`. -/
structure Waiting (n : ℕ) (sent : List Request) : Prop extends Orderly py http label n sent where
  retryable : sent ≠ [] →
    ∃ body, Answered http body sent ∧ isRetryableStreamLoadError py body = true

end

variable {label : ℕ → String} {n : ℕ} {sent : List Request}

theorem Orderly.mono {m : ℕ} (h : Orderly py http label n sent) (hle : n ≤ m) :
    Orderly py http label m sent where
  known := fun q hq => by
    obtain ⟨i, hi, hin, hlabel⟩ := h.known q hq
    exact ⟨i, hi, by omega, hlabel⟩
  thrice := h.thrice
  renewed := h.renewed

/-- An attempt puts its requests behind those of the attempts before it. -/
theorem Waiting.ended (hinj : Function.Injective label) (h : Waiting py http label n old) (hn : 1 ≤ n)
    (hended : Ended old (label n) sent) : Orderly py http label (n + 1) sent := by
  obtain ⟨m, hm, hm3, new, rfl, hlen, hlabel⟩ := hended
  constructor
  · intro q hq
    rcases List.mem_append.mp hq with hq | hq
    · exact (h.toOrderly.mono (Nat.le_succ n)).known q hq
    · exact ⟨n, hn, Nat.lt_succ_self n, hlabel q hq⟩
  · intro l
    rw [List.map_append, List.count_append]
    have hnew : (new.map Request.label).count l ≤ new.length := by
      have hle : (new.map Request.label).count l ≤ (new.map Request.label).length :=
        List.count_le_length
      rwa [List.length_map] at hle
    by_cases hl : l = label n
    · have hold : (old.map Request.label).count l = 0 := by
        refine List.count_eq_zero.mpr fun hmem => ?_
        obtain ⟨q, hq, rfl⟩ := List.mem_map.mp hmem
        obtain ⟨i, -, hin, hqi⟩ := h.known q hq
        have := hinj (hqi.symm.trans hl)
        omega
      omega
    · have hnone : (new.map Request.label).count l = 0 := by
        refine List.count_eq_zero.mpr fun hmem => ?_
        obtain ⟨q, hq, rfl⟩ := List.mem_map.mp hmem
        exact hl (hlabel q hq)
      have hold := h.thrice l
      omega
  · intro i q q' hq hq' hne
    rcases lt_trichotomy (i + 1) old.length with hlt | heq | hgt
    · rw [List.getElem?_append_left (by omega)] at hq hq'
      exact h.renewed i q q' hq hq' hne
    · -- the first request of the attempt
      have hnil : old ≠ [] := by
        rintro rfl
        cases heq
      obtain ⟨body, hbody, hretry⟩ := h.retryable hnil
      refine ⟨body, ?_, hretry⟩
      rw [Answered, ← heq, Nat.add_sub_cancel] at hbody
      exact hbody
    · rw [List.getElem?_append_right (by omega)] at hq hq'
      exact absurd ((hlabel q (List.mem_of_getElem? hq)).trans
        (hlabel q' (List.mem_of_getElem? hq')).symm) hne

/-! ### What stands behind the requests -/

/-- The result is that of the last answer, whose body has a good status. -/
def LoadedWell (py : Python) (http : Http) (payload : String) (result : Dict) (sent : List Request) : Prop :=
  ∃ body parsed loadAttempt, Answered http body sent ∧ parseBody http body = .ok parsed ∧
    py.lower (statusOf py parsed) ∈ ["success", "publish timeout"] ∧
    loadResult py payload loadAttempt parsed (statusOf py parsed) = .ok result

theorem tryAgain_ok {body text : String} (h : tryAgain py attempts loadAttempt body text = .ok ()) :
    isRetryableStreamLoadError py body = true ∧ loadAttempt < attempts := by
  unfold tryAgain at h
  split_ifs at h with hretry
  exact hretry

theorem loadResult_status {parsed : Json} {status : String} {result : Dict}
    (h : loadResult py payload loadAttempt parsed status = .ok result) : result.get "status" = .str status := by
  unfold loadResult at h
  obtain ⟨totalRows, -, h⟩ := returns_bind h
  obtain ⟨loadedRows, -, h⟩ := returns_bind h
  obtain ⟨loadBytes, -, h⟩ := returns_bind h
  cases h
  rfl

/-- A result is that of a body with a good status. -/
theorem judge_some {body : String} {result : Dict}
    (h : judge py http attempts payload loadAttempt body = .ok (some result)) :
    ∃ parsed, parseBody http body = .ok parsed ∧
      py.lower (statusOf py parsed) ∈ ["success", "publish timeout"] ∧
      loadResult py payload loadAttempt parsed (statusOf py parsed) = .ok result := by
  unfold judge at h
  obtain ⟨parsed, hparsed, h⟩ := returns_bind h
  refine ⟨parsed, hparsed, ?_⟩
  cases parsed with
  | obj entries =>
      simp only at h
      split_ifs at h with hstatus
      · obtain ⟨found, hfound, h⟩ := returns_bind h
        cases h
        exact ⟨hstatus, hfound⟩
      · obtain ⟨_, -, h⟩ := returns_bind h
        cases h
  | null | bool | num | float | str | arr => cases h

/-- Another attempt follows a retryable body only, and never the last attempt. -/
theorem judge_none {body : String} (h : judge py http attempts payload loadAttempt body = .ok none) :
    isRetryableStreamLoadError py body = true ∧ loadAttempt < attempts := by
  unfold judge at h
  obtain ⟨parsed, -, h⟩ := returns_bind h
  cases parsed with
  | obj entries =>
      simp only at h
      split_ifs at h with hstatus
      · obtain ⟨found, -, h⟩ := returns_bind h
        cases h
      · obtain ⟨_, hagain, -⟩ := returns_bind h
        exact tryAgain_ok hagain
  | null | bool | num | float | str | arr => cases h

/-! ### The loop over the attempts -/

variable {batchIndex : ℕ} {url : String}

theorem loadLoop_spec {final : String → Dict} {k : ℕ} (hrange : n + k = attempts + 1) (hn : 1 ≤ n)
    (hk : 1 ≤ k) (lastBody : String) : Spec (Waiting py http (loadLabel http batchIndex) n)
      (loadLoop py http attempts headers payload batchIndex url final (List.range' n k) lastBody)
      (fun result sent => LoadedWell py http payload result sent ∧
        Orderly py http (loadLabel http batchIndex) (attempts + 1) sent)
      (fun _ => Orderly py http (loadLabel http batchIndex) (attempts + 1)) := by
  have hinj : Function.Injective (loadLabel http batchIndex) := fun _ _ => loadLabel_injective
  induction k generalizing n lastBody with
  | zero => omega
  | succ k ih =>
      rw [List.range'_succ]
      unfold loadLoop
      refine spec_bind (Q := fun body sent => Orderly py http (loadLabel http batchIndex) (n + 1) sent ∧
        Answered http body sent) ?_ fun body => ?_
      · refine spec_start fun old hold => ?_
        exact (requestLoop_all url).mono (fun _ h => h)
          (fun _ _ h => ⟨hold.ended hinj hn h.1, h.2⟩)
          fun _ _ h => (hold.ended hinj hn h).mono (by omega)
      · refine spec_lift_bind (fun judged hjudged => ?_) fun _ _ h => h.1.mono (by omega)
        cases judged with
        | some result =>
            obtain ⟨parsed, hparsed, hstatus, hresult⟩ := judge_some hjudged
            exact spec_pure fun sent h =>
              ⟨⟨body, parsed, n, h.2, hparsed, hstatus, hresult⟩, h.1.mono (by omega)⟩
        | none =>
            obtain ⟨hretry, hlt⟩ := judge_none hjudged
            exact (ih (by omega) (by omega) (by omega) body).mono
              (fun sent h => ⟨h.1, fun _ => ⟨body, h.2, hretry⟩⟩) (fun _ _ h => h) fun _ _ h => h

/-- The loop always ends in one of its attempts. -/
theorem loadLoop_final (final final' : String → Dict) {k : ℕ} (hrange : n + k = attempts + 1)
    (hk : 1 ≤ k) (lastBody : String) :
    loadLoop py http attempts headers payload batchIndex url final (List.range' n k) lastBody =
      loadLoop py http attempts headers payload batchIndex url final' (List.range' n k) lastBody := by
  induction k generalizing n lastBody with
  | zero => omega
  | succ k ih =>
      rw [List.range'_succ]
      unfold loadLoop
      congr 1
      funext body
      cases hjudged : judge py http attempts payload n body with
      | error exc => rfl
      | ok judged =>
          cases judged with
          | some result => rfl
          | none =>
              have hlt := (judge_none hjudged).2
              exact ih (by omega) (by omega) body

/-! ### The call -/

section

variable (py : Python) (http : Http) (config : Dict)

/-- The requests of a call. -/
structure Delivered (sent : List Request) : Prop where
  labels : match streamLoadRetryAttempts py config with
    | .ok attempts => ((sent.map Request.label).dedup.length : ℤ) ≤ attempts
    | .error _ => sent = []
  thrice : ∀ l, (sent.map Request.label).count l ≤ 3
  renewed : ∀ (i : ℕ) (q q' : Request), sent[i]? = some q → sent[i + 1]? = some q' →
    q.label ≠ q'.label →
      ∃ body, (http.put i).body? = some body ∧ isRetryableStreamLoadError py body = true

end

theorem retryAttempts_pos {config : Dict} {n : ℤ} (h : streamLoadRetryAttempts py config = .ok n) : 1 ≤ n := by
  unfold streamLoadRetryAttempts cleanRange at h
  obtain ⟨m, -, h⟩ := returns_bind h
  cases h
  exact le_max_left _ _

theorem delivered_nil (py : Python) (http : Http) (config : Dict) : Delivered py http config [] where
  labels := by
    cases hattempts : streamLoadRetryAttempts py config with
    | error exc => rfl
    | ok attempts =>
        have hpos := retryAttempts_pos hattempts
        show ((0 : ℕ) : ℤ) ≤ attempts
        omega
  thrice := fun _ => Nat.zero_le _
  renewed := fun i q q' h => by
    rw [List.getElem?_nil] at h
    cases h

theorem Orderly.delivered {config : Dict} {retryAttempts : ℤ}
    (hattempts : streamLoadRetryAttempts py config = .ok retryAttempts)
    (h : Orderly py http label (retryAttempts.toNat + 1) sent) : Delivered py http config sent where
  labels := by
    have hpos := retryAttempts_pos hattempts
    have hsub : (sent.map Request.label).dedup ⊆ (List.range' 1 retryAttempts.toNat).map label := by
      intro l hl
      obtain ⟨q, hq, rfl⟩ := List.mem_map.mp (List.mem_dedup.mp hl)
      obtain ⟨i, hi, hlt, hlabel⟩ := h.known q hq
      rw [hlabel]
      exact List.mem_map_of_mem (List.mem_range'_1.mpr ⟨hi, by omega⟩)
    have hle := ((List.nodup_dedup _).subperm hsub).length_le
    rw [List.length_map, List.length_range'] at hle
    rw [hattempts]
    show ((sent.map Request.label).dedup.length : ℤ) ≤ retryAttempts
    omega
  thrice := h.thrice
  renewed := h.renewed

theorem streamLoadEnding_spec (py : Python) (http : Http) (final : ℕ → String → Dict)
    (database table : String) (columns : List String) (payload : String) (config : Dict) (batchIndex : ℕ) :
    Spec (fun sent => sent = [])
      (streamLoadEnding py http final database table columns payload config batchIndex)
      (fun result sent => LoadedWell py http payload result sent ∧ Delivered py http config sent)
      (fun _ => Delivered py http config) := by
  have hnil : ∀ sent : List Request, sent = [] → Delivered py http config sent := by
    rintro sent rfl
    exact delivered_nil py http config
  unfold streamLoadEnding
  refine spec_lift_bind (fun password _ => ?_) fun _ => hnil
  refine spec_lift_bind (fun port _ => ?_) fun _ => hnil
  refine spec_lift_bind (fun _ _ => ?_) fun _ => hnil
  refine spec_lift_bind (fun attempts hattempts => ?_) fun _ => hnil
  refine spec_lift_bind (fun _ _ => ?_) fun _ => hnil
  have hpos := retryAttempts_pos hattempts
  refine (loadLoop_spec (by omega : 1 + attempts.toNat = attempts.toNat + 1) (le_refl 1) (by omega)
    "").mono ?_ (fun _ _ h => ⟨h.1, h.2.delivered hattempts⟩) fun _ _ h => h.delivered hattempts
  rintro sent rfl
  refine ⟨⟨nofun, fun _ => Nat.zero_le _, fun i q q' h => ?_⟩, fun h => absurd rfl h⟩
  rw [List.getElem?_nil] at h
  cases h

theorem streamLoadEnding_final (final final' : ℕ → String → Dict) (database table : String)
    (columns : List String) (payload : String) (config : Dict) (batchIndex : ℕ) :
    streamLoadEnding py http final database table columns payload config batchIndex =
      streamLoadEnding py http final' database table columns payload config batchIndex := by
  unfold streamLoadEnding
  refine bind_congr fun password => bind_congr fun port => ?_
  dsimp only
  refine bind_congr fun _ => ?_
  cases hattempts : streamLoadRetryAttempts py config with
  | error exc => rfl
  | ok attempts =>
      have hpos := retryAttempts_pos hattempts
      cases http.retrySleep with
      | error exc => rfl
      | ok _ =>
          exact loadLoop_final _ _ (by omega : 1 + attempts.toNat = attempts.toNat + 1) (by omega) ""

/-- For all settings, payloads, responses and errors: a call that returns has loaded the batch, the
statement behind the loop is not reached, there are no more labels than attempts and no more than
three requests for one, and a new label follows a retryable body only. -/
theorem streamLoad_delivered (py : Python) (http : Http) (database table : String)
    (columns : List String) (payload : String) (config : Dict) (batchIndex : ℕ) :
    (∀ result, (streamLoad py http database table columns payload config batchIndex []).1 = .ok result →
        ∃ status, result.get "status" = .str status ∧
          py.lower status ∈ ["success", "publish timeout"]) ∧
      (∀ final, streamLoadEnding py http final database table columns payload config batchIndex =
        streamLoad py http database table columns payload config batchIndex) ∧
      Delivered py http config (streamLoad py http database table columns payload config batchIndex []).2 := by
  have hspec := (streamLoadEnding_spec py http (fun n => exhaustedResult payload n)
    database table columns payload config batchIndex).ends [] rfl
  unfold streamLoad
  cases hrun : streamLoadEnding py http (exhaustedResult payload) database table columns payload config
    batchIndex [] with
  | mk result sent =>
      rw [hrun] at hspec
      cases result with
      | ok result =>
          refine ⟨?_, fun final => streamLoadEnding_final _ _ _ _ _ _ _ _, hspec.2⟩
          rintro _ ⟨⟩
          obtain ⟨_, parsed, _, -, -, hstatus, hresult⟩ := hspec.1
          exact ⟨_, loadResult_status hresult, hstatus⟩
      | error exc => exact ⟨nofun, fun final => streamLoadEnding_final _ _ _ _ _ _ _ _, hspec⟩

end DataSync
